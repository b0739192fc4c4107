import Baton.Program.Machine

/-!
# Mutexes and rendezvous on a machine

A thread that finds a mutex taken suspends until the mutex has been handed to it, whatever wakes it
in between. A sleeper registers itself, releases the mutex, suspends, leaves the rendezvous and
takes the mutex again. A hand-over and the wakeup that goes with it are one task.
-/

namespace Baton

namespace Machine

/-- Asks for a mutex, and waits for it if it is taken. Asking for one's own is a panic. -/
def acquire (me : ThreadId) (name : MutexName) (m : Machine) : Machine :=
  let (verdict, x) := (m.mutexes.get name).request me
  let m := m.setMutex name x
  match verdict with
  | .granted => m
  | .queued => m.push me [.suspend, .awaitOwner name]
  | .refused => m.panic me ("CoopMutex relocked by its holder " ++ me.text)

/-- Suspends again unless the mutex has been handed to the thread. -/
def awaitOwner (me : ThreadId) (name : MutexName) (m : Machine) : Machine :=
  if (m.mutexes.get name).isOwnedBy me then m else m.push me [.suspend, .awaitOwner name]

/-- Takes a mutex if it is free. -/
def tryAcquire (me : ThreadId) (name : MutexName) (m : Machine) : Machine :=
  let (taken, x) := (m.mutexes.get name).tryTake me
  (m.setMutex name x).answer me (.bool taken)

/-- Hands a mutex to the longest waiter and wakes it. A thread that does not own the mutex is told
so in the log, and nothing else happens. -/
def release (me : ThreadId) (name : MutexName) (m : Machine) : Machine :=
  let x := m.mutexes.get name
  if x.isOwnedBy me then
    let handed := m.setMutex name x.handOver
    match x.handOver.owner with
    | some next => (handed.note (.mutexHanded me next)).onSched (Sched.wakeup next)
    | none => handed
  else m.note (.mutexNotOwned me x.owner)

/-! ## Rendezvous -/

/-- Registers a sleeper; the rest of the sleep follows as tasks. -/
def sleepOn (me : ThreadId) (r : RendezName) (name : MutexName) (m : Machine) : Machine :=
  (m.setRendez r ((m.rendezvous.get r).enlist me)).push me
    [.release name, .suspend, .leave r, .acquire name]

/-- Takes a thread out of a rendezvous. -/
def leave (me : ThreadId) (r : RendezName) (m : Machine) : Machine :=
  m.setRendez r ((m.rendezvous.get r).leave me)

/-- Wakes the longest sleeper. -/
def signal (r : RendezName) (m : Machine) : Machine :=
  let (next, x) := (m.rendezvous.get r).pick
  let m := m.setRendez r x
  match next with
  | some id => m.onSched (Sched.wakeup id)
  | none => m

/-- Wakes all sleepers. -/
def broadcast (r : RendezName) (m : Machine) : Machine :=
  (m.setRendez r .empty).onSched (Sched.wakeAll (m.rendezvous.get r).sleepers)

/-- Sleeps while a variable has another value, and answers how often. -/
def sleepUntil (me : ThreadId) (r : RendezName) (name : MutexName) (v : Nat) (x : Int)
    (count : Nat) (m : Machine) : Machine :=
  if m.memory.var v = x then m.answer me (.int count)
  else m.push me (m.host.primitive [.sleepOn r name, .sleepUntil r name v x (count + 1)])

end Machine

end Baton
