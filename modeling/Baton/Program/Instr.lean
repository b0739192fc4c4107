import Baton.Fault
import Baton.Io.Pipe
import Baton.Io.Transfer
import Baton.Log.Level
import Baton.RwLock.Basic
import Baton.Store
import Baton.Text.Span

/-!
# Programs of logical threads

The code of a thread is a list of instructions over numbered objects: raw mutexes, rendezvous and
reader/writer locks, cells (a mutex around a list), conditions (a rendezvous paired with a cell),
tables (a reader/writer lock around a list), pipes, and shared variables. An instruction answers a
reply when it completes. The locks inside cells, tables and reader/writer locks are out of a
program's reach: no instruction names them. Conditions and updates of the shared memory are given as
functions, which also see the thread's last reply, so a program can compute.
-/

namespace Baton

/-- A reader/writer lock, with or without a list of its own. -/
inductive LockName where
  | raw (index : Nat)
  | table (index : Nat)
  deriving DecidableEq

/-- A mutex: a raw one, the one of a cell, or the one inside a reader/writer lock. -/
inductive MutexName where
  | raw (index : Nat)
  | cell (index : Nat)
  | inner (lock : LockName)
  deriving DecidableEq

/-- A rendezvous: a raw one, a condition, or one of the two inside a reader/writer lock. -/
inductive RendezName where
  | raw (index : Nat)
  | cond (index : Nat)
  | readers (lock : LockName)
  | writers (lock : LockName)
  deriving DecidableEq

/-- A list that a lock protects. -/
inductive Place where
  | cell (index : Nat)
  | behind (lock : LockName)
  deriving DecidableEq

/-- A held lock that is released at the end of its block. -/
inductive Guard where
  | cell (index : Nat)
  | shared (lock : LockName)
  | exclusive (lock : LockName)
  deriving DecidableEq

/-- The list that a guard gives access to. -/
def Guard.place : Guard → Place
  | cell i => .cell i
  | shared l => .behind l
  | exclusive l => .behind l

/-- Whether a guard gives leave to change its list. -/
def Guard.canWrite : Guard → Bool
  | shared _ => false
  | _ => true

/-- The shared memory of a program. -/
structure Memory where
  vars : Store Nat Int
  lists : Store Place (List Int)

/-- How a thread ended. -/
inductive Outcome where
  /-- Its code ran to the end and answered this many replies. -/
  | finished (produced : Nat)
  | panicked (text : String)
  deriving DecidableEq

/-- What an instruction answers. -/
inductive Reply where
  | null
  | bool (b : Bool)
  | int (n : Int)
  | text (s : String)
  | list (xs : List Int)
  | thread (id : ThreadId)
  | owner (id : Option ThreadId)
  | fault (e : Fault)
  | io (e : IoError)
  | snapshot (s : RwState)
  /-- How many entries are ready, and what was found for each. -/
  | selected (n : Nat) (found : List Interest)
  /-- The caller's identity under the backend and under the scheduler, and whether it is hosted. -/
  | identity (backend scheduler : ThreadId) (hosted : Bool)
  | joined (o : Outcome)
  /-- Joining itself failed. -/
  | joinPanicked (text : String)
  | noHandle
  | noGuard
  | readOnly
  deriving DecidableEq

/-- Whether the reply says that a lock was not obtained. -/
def Reply.isRefusal : Reply → Bool
  | bool false => true
  | fault _ => true
  | _ => false

/-- How a block obtains its guard. -/
inductive Opening where
  | cell (index : Nat)
  | tryCell (index : Nat)
  | read (lock : LockName)
  | write (lock : LockName)
  | tryRead (lock : LockName)
  | tryWrite (lock : LockName)
  deriving DecidableEq

/-- The guard that an opening obtains. -/
def Opening.guard : Opening → Guard
  | cell i => .cell i
  | tryCell i => .cell i
  | read l => .shared l
  | tryRead l => .shared l
  | write l => .exclusive l
  | tryWrite l => .exclusive l

/-- What a sleeper tests before it sleeps again: given the cell whose guard it holds it may change
the memory, and it may panic with a text. -/
abbrev Test := Nat → Memory → Except String (Bool × Memory)

/-- A read or write of a pipe. -/
inductive PipeCall where
  | read (pipe count : Nat)
  | write (pipe : Nat) (bytes : List UInt8)

namespace PipeCall

/-- The pipe. -/
def pipe : PipeCall → Nat
  | read p _ => p
  | write p _ => p

/-- The end of the pipe. -/
def side : PipeCall → PipeEnd
  | read .. => .reader
  | write .. => .writer

/-- The direction. -/
def direction : PipeCall → Transfer
  | read .. => .read
  | write .. => .write

end PipeCall

/-- An instruction. -/
inductive Instr where
  | yield
  | stop
  | wakeup (id : ThreadId)
  | current
  | spawn (code : Nat)
  | join (id : ThreadId)
  | isFinished (id : ThreadId)
  /-- A wakeup by a thread of the operating system. -/
  | outsideWakeup (id : ThreadId)
  /-- A join by a thread of the operating system. -/
  | outsideJoin (id : ThreadId)
  /-- Starts a scheduler. -/
  | nestedRun
  | setVar (v : Nat) (x : Int)
  /-- Adds to a variable, which wraps around as a signed word of 64 bits. -/
  | addVar (v : Nat) (x : Int)
  /-- Stops while the variable has another value. -/
  | stopUntil (v : Nat) (x : Int)
  -- Raw mutexes, rendezvous and reader/writer locks
  | lock (m : Nat)
  | tryLock (m : Nat)
  | unlock (m : Nat)
  | owner (m : Nat)
  | sleep (r m : Nat)
  /-- Sleeps while the variable has another value. -/
  | sleepUntil (r m v : Nat) (x : Int)
  | wake (r : Nat)
  | wakeAll (r : Nat)
  | sleepers (r : Nat)
  | readLock (l : Nat)
  | writeLock (l : Nat)
  | tryReadLock (l : Nat)
  | tryWriteLock (l : Nat)
  | readUnlock (l : Nat)
  | writeUnlock (l : Nat)
  /-- Releases whichever hold the caller has. -/
  | releaseAny (l : Nat)
  | snapshot (l : Nat)
  -- Guarded lists
  /-- Runs a body with a guard held. -/
  | scope (o : Opening) (body : List Instr)
  | get
  | push (x : Int)
  | pop
  | condSleep (k : Nat)
  | condSleepWhileEmpty (k : Nat)
  | condSleepWhile (k : Nat) (test : Test)
  | condWake (k : Nat)
  | condWakeAll (k : Nat)
  /-- Which cell the condition is paired with. -/
  | condCell (k : Nat)
  | showCell (c : Nat)
  | showTable (t : Nat)
  /-- Fills a mutex of the caller's own. -/
  | ownMutex (xs : List Int)
  /-- Fills a reader/writer lock of the caller's own. -/
  | ownLock (xs : List Int)
  | setError (s : String)
  | lastError
  | transfer (c : PipeCall)
  | close (pipe : Nat) (side : PipeEnd)
  | waitFor (pipe : Nat) (side : PipeEnd)
  | select (entries : List (Descriptor × Interest)) (timeout : Option Span)
  | panic (text : String)
  | loop (n : Nat) (body : List Instr)
  | whilst (c : Reply → Memory → Bool) (body : List Instr)
  | update (f : Reply → Memory → Memory)
  | say (level : LogLevel) (text : Reply → Memory → String)
  | print (text : Reply → Memory → String)

/-- The name under which a block reports. -/
def Opening.name : Opening → String
  | cell _ => "cell"
  | tryCell _ => "try_cell"
  | read (.table _) => "table_read"
  | read (.raw _) => "guard_read"
  | write (.table _) => "table_write"
  | write (.raw _) => "guard_write"
  | tryRead (.table _) => "table_try_read"
  | tryRead (.raw _) => "guard_try_read"
  | tryWrite (.table _) => "table_try_write"
  | tryWrite (.raw _) => "guard_try_write"

/-- The name under which an instruction reports its reply. -/
def Instr.name : Instr → String
  | yield => "yield"
  | stop => "stop"
  | wakeup _ => "wakeup"
  | current => "current"
  | spawn _ => "spawn"
  | join _ => "join"
  | isFinished _ => "is_finished"
  | outsideWakeup _ => "os_wakeup"
  | outsideJoin _ => "os_join"
  | nestedRun => "nested_run"
  | setVar .. => "set"
  | addVar .. => "add"
  | stopUntil .. => "stop_until"
  | lock _ => "lock"
  | tryLock _ => "try_lock"
  | unlock _ => "unlock"
  | owner _ => "owner"
  | sleep .. => "sleep"
  | sleepUntil .. => "sleep_until"
  | wake _ => "wake"
  | wakeAll _ => "wake_all"
  | sleepers _ => "sleepers"
  | readLock _ => "read_lock"
  | writeLock _ => "write_lock"
  | tryReadLock _ => "try_read_lock"
  | tryWriteLock _ => "try_write_lock"
  | readUnlock _ => "read_unlock"
  | writeUnlock _ => "write_unlock"
  | releaseAny _ => "rw_unlock"
  | snapshot _ => "snapshot"
  | scope o _ => o.name
  | get => "get"
  | push _ => "push"
  | pop => "pop"
  | condSleep _ => "cond_sleep"
  | condSleepWhileEmpty _ => "cond_sleep_while_empty"
  | condSleepWhile .. => "cond_sleep_while"
  | condWake _ => "cond_wake"
  | condWakeAll _ => "cond_wake_all"
  | condCell _ => "cond_mutex"
  | showCell _ => "debug_cell"
  | showTable _ => "debug_table"
  | ownMutex _ => "own_mutex"
  | ownLock _ => "own_rwlock"
  | setError _ => "set_error"
  | lastError => "last_error"
  | transfer c => c.direction.name
  | close _ .reader => "close_r"
  | close _ .writer => "close_w"
  | waitFor _ .reader => "wait_readable"
  | waitFor _ .writer => "wait_writable"
  | select .. => "select"
  | panic _ => "panic"
  | loop .. => "repeat"
  | whilst .. => "while"
  | update _ => "update"
  | say .. => "say"
  | print _ => "print"

/-- The signed word of 64 bits that is congruent to `x`. -/
def signedWord (x : Int) : Int := x.bmod 18446744073709551616

namespace Memory

/-- The memory in which all variables are 0 and all lists empty. -/
def blank : Memory := ⟨.empty, .empty⟩

instance : Inhabited Memory := ⟨blank⟩

/-- The value of a variable. -/
def var (v : Nat) (m : Memory) : Int := m.vars.get v

/-- The memory with another value of a variable. -/
def setVar (v : Nat) (x : Int) (m : Memory) : Memory := { m with vars := m.vars.set v x }

/-- The list at a place. -/
def list (p : Place) (m : Memory) : List Int := m.lists.get p

/-- The memory with another list at a place. -/
def setList (p : Place) (xs : List Int) (m : Memory) : Memory :=
  { m with lists := m.lists.set p xs }

@[simp] theorem var_setVar (v w : Nat) (x : Int) (m : Memory) :
    (m.setVar v x).var w = if w = v then x else m.var w := by
  simp [var, setVar]

@[simp] theorem list_setList (p q : Place) (xs : List Int) (m : Memory) :
    (m.setList p xs).list q = if q = p then xs else m.list q := by
  simp [list, setList]

@[simp] theorem list_setVar (v : Nat) (x : Int) (p : Place) (m : Memory) :
    (m.setVar v x).list p = m.list p := rfl

@[simp] theorem var_setList (p : Place) (xs : List Int) (v : Nat) (m : Memory) :
    (m.setList p xs).var v = m.var v := rfl

end Memory

/-- A test that asks whether the guarded list is empty and changes nothing. -/
def Test.isEmpty : Test := fun c m => .ok ((m.list (.cell c)).isEmpty, m)

end Baton
