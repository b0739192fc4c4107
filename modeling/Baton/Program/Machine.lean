import Baton.ErrorText
import Baton.Program.Task
import Baton.Sched.Basic

/-!
# The machine

A machine is a scheduler together with everything its threads share and with the stack of each
thread. This module holds the operations on which all tasks are built. Mutexes, rendezvous and
reader/writer locks are looked up in total maps, so an object exists as soon as it is named.
-/

namespace Baton

/-- The part of a thread that only the thread itself changes. -/
structure Thread where
  stack : List Task
  /-- The reply of the present instruction. -/
  reply : Reply
  /-- How many replies the thread's code has reported. -/
  produced : Nat
  errorText : ErrorText

instance : Inhabited Thread := ⟨⟨[], .null, 0, .fresh⟩⟩

/-- A reply that was reported. -/
structure Event where
  thread : ThreadId
  name : String
  reply : Reply

/-- A program in execution. -/
structure Machine where
  host : Host
  /-- The code that can be spawned. -/
  code : List (List Instr)
  /-- The cells that the conditions are paired with. -/
  pairing : List Nat
  sched : Sched
  threads : Store ThreadId Thread
  mutexes : Store MutexName Mutex
  rendezvous : Store RendezName Rendez
  locks : Store LockName RwState
  memory : Memory
  pipes : Pipes
  /-- The error with which polls fail at present, if they do. -/
  outage : Option Errno
  /-- The spawned threads that nobody has joined. -/
  handles : List ThreadId
  /-- How the threads ended that have finished. -/
  outcomes : Store ThreadId Outcome
  /-- How the main thread's code ended. -/
  mainOutcome : Option Outcome
  /-- The reported replies, newest first. -/
  events : List Event
  /-- The printed lines, newest first. -/
  output : List String

namespace Machine

/-- Puts tasks on a thread's stack. -/
def push (me : ThreadId) (ts : List Task) (m : Machine) : Machine :=
  { m with threads := m.threads.update me fun t => { t with stack := ts ++ t.stack } }

/-- Replaces the tasks on a thread's stack. -/
def setStack (me : ThreadId) (ts : List Task) (m : Machine) : Machine :=
  { m with threads := m.threads.update me fun t => { t with stack := ts } }

/-- Sets a thread's reply. -/
def answer (me : ThreadId) (r : Reply) (m : Machine) : Machine :=
  { m with threads := m.threads.update me fun t => { t with reply := r } }

/-- A thread's reply. -/
def replyOf (me : ThreadId) (m : Machine) : Reply := (m.threads.get me).reply

/-- Applies an operation of the scheduler. -/
def onSched (f : Sched → Sched) (m : Machine) : Machine := { m with sched := f m.sched }

/-- Reports something. -/
def note (n : Notice) (m : Machine) : Machine := m.onSched (Sched.note n)

/-- Changes a mutex. -/
def setMutex (name : MutexName) (x : Mutex) (m : Machine) : Machine :=
  { m with mutexes := m.mutexes.set name x }

/-- Changes a rendezvous. -/
def setRendez (name : RendezName) (x : Rendez) (m : Machine) : Machine :=
  { m with rendezvous := m.rendezvous.set name x }

/-- Changes a reader/writer lock. -/
def setLock (name : LockName) (x : RwState) (m : Machine) : Machine :=
  { m with locks := m.locks.set name x }

/-- Changes a pipe. -/
def setPipe (index : Nat) (x : Pipe) (m : Machine) : Machine :=
  { m with pipes := m.pipes.set index x }

/-- How the system answers polls now. -/
def system (m : Machine) : PollSystem Descriptor :=
  match m.outage with
  | some e => .error e
  | none => .ok m.pipes.poller

/-- Reports the reply of a thread. -/
def report (me : ThreadId) (name : String) (m : Machine) : Machine :=
  { m with
    events := ⟨m.host.identity me, name, m.replyOf me⟩ :: m.events
    threads := m.threads.update me fun t => { t with produced := t.produced + 1 } }

/-- Ends the present work of a thread by a panic: only what cleans up is still carried out. -/
def panic (me : ThreadId) (text : String) (m : Machine) : Machine :=
  { m with threads := m.threads.update me fun t =>
      { t with stack := t.stack.filter Task.isCleanup ++ [.abort text] } }

/-- The guard of the innermost block that a thread is in. -/
def guard? (me : ThreadId) (m : Machine) : Option Guard :=
  (m.threads.get me).stack.findSome? fun
    | .drop g => some g
    | _ => none

end Machine

end Baton
