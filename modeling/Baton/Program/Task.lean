import Baton.Program.Instr

/-!
# Tasks

A thread works through a stack of tasks. A task is what happens between two points at which other
threads may run; an instruction is replaced by the tasks that carry it out, and some tasks put
further ones in their place. The reply of the present instruction is kept beside the stack, and
tasks that suspend the thread leave it alone.
-/

namespace Baton

/-- Where the code of a program runs. -/
inductive Host where
  /-- On a cooperative scheduler. -/
  | coop
  /-- On cooperative objects without a scheduler. -/
  | outside
  /-- On the native backend, on one thread. -/
  | native
  deriving DecidableEq

/-- One step of a thread's work. -/
inductive Task where
  | instr (i : Instr)
  /-- Sets the reply. -/
  | answer (r : Reply)
  /-- Reports the reply under a name. -/
  | report (name : String)
  | panic (text : String)
  /-- Changes the memory and sets the reply. -/
  | compute (f : Reply → Memory → Reply × Memory)
  -- The scheduler
  | suspend
  | pause
  | wake (id : ThreadId)
  | spawn (code : Nat)
  | join (id : ThreadId)
  | awaitThread (id : ThreadId)
  | peek (id : ThreadId)
  | joinOutside (id : ThreadId)
  | stopUntil (v : Nat) (x : Int) (count : Nat)
  -- Mutexes and rendezvous
  | acquire (m : MutexName)
  | awaitOwner (m : MutexName)
  | tryAcquire (m : MutexName)
  | release (m : MutexName)
  | owner (m : MutexName)
  | sleepOn (r : RendezName) (m : MutexName)
  | leave (r : RendezName)
  | signal (r : RendezName)
  | broadcast (r : RendezName)
  | sleepers (r : RendezName)
  | sleepUntil (r : RendezName) (m : MutexName) (v : Nat) (x : Int) (count : Nat)
  -- Critical sections of reader/writer locks
  | requestRead (l : LockName)
  | recheckRead (l : LockName)
  | requestWrite (l : LockName)
  | recheckWrite (l : LockName)
  | tryRead (l : LockName)
  | tryWrite (l : LockName)
  | releaseRead (l : LockName)
  | releaseWrite (l : LockName)
  /-- Releases the write hold if the caller has it, else a read hold, in a section of its own. -/
  | releaseHeld (l : LockName)
  | copyState (l : LockName)
  | closeSection (l : LockName)
  -- Guards
  /-- Runs a body unless the reply is a refusal. -/
  | enter (name : String) (g : Guard) (body : List Instr)
  | drop (g : Guard)
  | checkDrop (exclusive : Bool)
  | getList
  | pushList (x : Int)
  | popList
  | condSleep (k : Nat)
  | condSleepWhile (k : Nat) (test : Test)
  | condCell (k : Nat)
  | showCell (c : Nat)
  | showLock (l : LockName)
  -- Descriptors
  | select (entries : List (Descriptor × Interest)) (timeout : Option Span)
  /-- Waits for descriptors on the scheduler. -/
  | selectHere (entries : List (PollEntry Descriptor)) (timeout : Option Span)
  | collect
  /-- Polls without giving the turn away. -/
  | pollHere (entries : List (PollEntry Descriptor)) (timeout : Option Span)
  | forgetFound
  | transfer (c : PipeCall)
  | transferRound (c : PipeCall)
  | attempt (c : PipeCall)
  | close (pipe : Nat) (side : PipeEnd)
  -- The thread's own
  | setError (s : String)
  | lastError
  | say (level : LogLevel) (text : Reply → Memory → String)
  | print (text : Reply → Memory → String)
  /-- The end of the code. -/
  | exit
  /-- The end of a thread that panicked. -/
  | abort (text : String)
  | drain

/-- Whether the task is carried out also when the thread panics. -/
def Task.isCleanup : Task → Bool
  | drop _ => true
  | closeSection _ => true
  | _ => false

/-- The text of the panic of a cooperative primitive without a scheduler. -/
def outsideText : String := "coop primitive used outside the cooperative scheduler"

namespace Host

/-- Tasks of the cooperative primitives: without a scheduler they panic. -/
def primitive (host : Host) (ts : List Task) : List Task :=
  match host with
  | outside => [.panic outsideText]
  | _ => ts

/-- Tasks that need a scheduler: elsewhere they fail. -/
def scheduled (host : Host) (ts : List Task) : List Task :=
  match host with
  | coop => ts
  | _ => [.answer (.fault .notInScheduler)]

/-- Waits of the scheduler for descriptors: elsewhere they fail. -/
def waiting (host : Host) (ts : List Task) : List Task :=
  match host with
  | coop => ts
  | _ => [.answer (.io .notInScheduler)]

/-- The identity of a thread as the scheduler gives it. -/
def identity (host : Host) (me : ThreadId) : ThreadId :=
  match host with
  | coop => me
  | _ => .none

/-- The identity of a thread as the backend gives it. -/
def backendIdentity (host : Host) (me : ThreadId) : ThreadId :=
  match host with
  | outside => .none
  | _ => me

end Host

/-- The tasks of a critical section of a reader/writer lock. -/
def Task.section (l : LockName) (t : Task) : List Task := [.acquire (.inner l), t]

/-- The tasks that obtain a guard; their reply tells whether they did. -/
def Opening.tasks : Opening → List Task
  | cell i => [.acquire (.cell i), .answer .null]
  | tryCell i => [.tryAcquire (.cell i)]
  | read l => Task.section l (.requestRead l)
  | write l => Task.section l (.requestWrite l)
  | tryRead l => Task.section l (.tryRead l)
  | tryWrite l => Task.section l (.tryWrite l)

/-- The tasks that work out an instruction's reply. -/
def Instr.replyTasks (host : Host) (me : ThreadId) : Instr → List Task
  | yield => match host with
    | .coop => [.pause, .answer .null]
    | _ => [.answer .null]
  | stop => host.scheduled [.suspend, .answer .null]
  | wakeup id => host.scheduled [.wake id]
  | current => [.answer (.identity (host.backendIdentity me) (host.identity me) (host == .coop))]
  | spawn code => host.scheduled [.spawn code]
  | join id => [.join id]
  | isFinished id => [.peek id]
  | outsideWakeup id => match host with
    | .coop => [.wake id]
    | _ => [.answer (.bool false)]
  | outsideJoin id => [.joinOutside id]
  | nestedRun => match host with
    | .coop => [.panic "CoopScheduler::run called from inside a cooperative thread"]
    | _ => [.answer .null]
  | setVar v x => [.compute fun _ m => (.null, m.setVar v x)]
  | addVar v x => [.compute fun _ m =>
      let sum := signedWord (m.var v + x)
      (.int sum, m.setVar v sum)]
  | stopUntil v x => [.stopUntil v x 0]
  | lock m => host.primitive [.acquire (.raw m), .answer .null]
  | tryLock m => host.primitive [.tryAcquire (.raw m)]
  | unlock m => host.primitive [.release (.raw m), .answer .null]
  | owner m => match host with
    | .native => [.answer .null]
    | _ => [.owner (.raw m)]
  | sleep r m => host.primitive [.sleepOn (.raw r) (.raw m), .answer .null]
  | sleepUntil r m v x => [.sleepUntil (.raw r) (.raw m) v x 0]
  | wake r => host.primitive [.signal (.raw r), .answer .null]
  | wakeAll r => host.primitive [.broadcast (.raw r), .answer .null]
  | sleepers r => match host with
    | .native => [.answer .null]
    | _ => [.sleepers (.raw r)]
  | readLock l => host.primitive (Task.section (.raw l) (.requestRead (.raw l)))
  | writeLock l => host.primitive (Task.section (.raw l) (.requestWrite (.raw l)))
  | tryReadLock l => host.primitive (Task.section (.raw l) (.tryRead (.raw l)))
  | tryWriteLock l => host.primitive (Task.section (.raw l) (.tryWrite (.raw l)))
  | readUnlock l => host.primitive (Task.section (.raw l) (.releaseRead (.raw l)))
  | writeUnlock l => host.primitive (Task.section (.raw l) (.releaseWrite (.raw l)))
  | releaseAny l => host.primitive (Task.section (.raw l) (.releaseHeld (.raw l)))
  | snapshot l => host.primitive (Task.section (.raw l) (.copyState (.raw l)))
  | get => [.getList]
  | push x => [.pushList x]
  | pop => [.popList]
  | condSleep k => [.condSleep k]
  | condSleepWhileEmpty k => [.condSleepWhile k Test.isEmpty]
  | condSleepWhile k test => [.condSleepWhile k test]
  | condWake k => host.primitive [.signal (.cond k), .answer .null]
  | condWakeAll k => host.primitive [.broadcast (.cond k), .answer .null]
  | condCell k => [.condCell k]
  | showCell c => host.primitive [.tryAcquire (.cell c), .showCell c]
  | showTable t => host.primitive
      (Task.section (.table t) (.tryRead (.table t)) ++ [.showLock (.table t)])
  | ownMutex xs => host.primitive [.answer (.list (xs ++ [1, 2]))]
  | ownLock xs => host.primitive [.answer (.list (xs ++ [1, 2]))]
  | setError s => [.setError s, .answer .null]
  | lastError => [.lastError]
  | transfer c => [.transfer c]
  | close p side => [.close p side, .answer .null]
  | waitFor p side =>
    let interest := if side = .reader then Interest.readable else Interest.writable
    host.waiting [.select [(.pipe p side, interest)] none, .forgetFound]
  | select entries timeout => match host with
    | .outside => [.answer (.io .notInScheduler)]
    | _ => [.select entries timeout]
  | panic text => [.panic text]
  | update f => [.compute fun r m => (r, f r m)]
  | say level text => [.say level text]
  | print text => [.print text]
  | scope .. | loop .. | whilst .. => []

/-- The tasks that an instruction stands for. Blocks report when they have their guard; repetition,
updates of the memory and output report nothing. -/
def Instr.tasks (host : Host) (me : ThreadId) (r : Reply) (m : Memory) : Instr → List Task
  | scope o body => host.primitive (o.tasks ++ [.enter o.name o.guard body])
  | loop 0 _ | loop _ [] => []
  | loop (n + 1) body => body.map Task.instr ++ [.instr (.loop n body)]
  | whilst c body => if c r m then body.map Task.instr ++ [.instr (.whilst c body)] else []
  | update f => (update f).replyTasks host me
  | say level text => (say level text).replyTasks host me
  | print text => (print text).replyTasks host me
  | i => i.replyTasks host me ++ [.report i.name]

end Baton
