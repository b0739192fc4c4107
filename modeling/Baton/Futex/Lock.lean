import Baton.Ident
import Baton.Store

/-!
# Mutexes over one word

The word is 0 when the mutex is free, 1 when it is held, and 2 when it is held and some thread may
be asleep. A thread that finds the mutex taken spins for a while, then marks the word as contended
and sleeps while the mark stands. Only a release that finds the mark wakes a sleeper.

Each atomic operation and each call of the kernel is one step. A sleeper may return without a
reason, the kernel may wake any sleeper, and an action that is not possible changes nothing.
-/

namespace Baton

/-- Where a thread is in an operation of the mutex. -/
inductive LockPhase where
  | away
  /-- Spins; about to look at the word, this many attempts left. -/
  | spinning (left : Nat)
  /-- Saw the mutex free; about to take it. -/
  | seizing (left : Nat)
  /-- About to mark the word as contended. -/
  | contending
  /-- Marked the word; about to enter the kernel. -/
  | entering
  /-- Asleep in the kernel. -/
  | asleep
  | holding
  /-- Released a contended mutex; about to wake a sleeper. -/
  | waking
  deriving DecidableEq

instance : Inhabited LockPhase := ⟨.away⟩

/-- A mutex over one word, with the threads that use it. -/
structure FutexLock where
  word : UInt32
  /-- The attempts before a thread sleeps. -/
  spins : Nat
  phases : Store ThreadId LockPhase

/-- One atomic operation or call of the kernel. -/
inductive LockAction where
  /-- Starts to lock. -/
  | lock (t : ThreadId)
  | tryLock (t : ThreadId)
  | unlock (t : ThreadId)
  /-- Goes on with a lock or an unlock. `lucky` tells whether an exchange that may fail without a
  reason succeeds, and `choice` which sleeper the kernel wakes. -/
  | advance (t : ThreadId) (lucky : Bool) (choice : Nat)
  /-- A sleeper returns without a reason. -/
  | disturb (t : ThreadId)

namespace FutexLock

/-- The word of a free mutex. -/
def free : UInt32 := 0

/-- The word of a held mutex. -/
def held : UInt32 := 1

/-- The word of a held mutex with possible sleepers. -/
def contended : UInt32 := 2

/-- A free mutex that nobody uses. -/
def fresh (spins : Nat) : FutexLock := ⟨free, spins, .empty⟩

/-- Where a thread is. -/
def phase (m : FutexLock) (t : ThreadId) : LockPhase := m.phases.get t

/-- Puts a thread somewhere. -/
def setPhase (t : ThreadId) (p : LockPhase) (m : FutexLock) : FutexLock :=
  { m with phases := m.phases.set t p }

/-- The threads asleep in the kernel. -/
def sleepers (m : FutexLock) : List ThreadId :=
  m.phases.keys.filter fun t => m.phase t = .asleep

/-- Wakes one sleeper, if there is any. -/
def wakeOne (choice : Nat) (m : FutexLock) : FutexLock :=
  match m.sleepers[choice % m.sleepers.length]? with
  | some t => m.setPhase t .contending
  | none => m

/-- Takes the mutex if the word says that it is free. -/
def exchange (t : ThreadId) (otherwise : LockPhase) (m : FutexLock) : FutexLock :=
  if m.word = free then { m with word := held }.setPhase t .holding else m.setPhase t otherwise

/-- Goes on with an operation. -/
def advance (t : ThreadId) (lucky : Bool) (choice : Nat) (m : FutexLock) : FutexLock :=
  match m.phase t with
  | .spinning 0 => m.setPhase t .contending
  | .spinning (left + 1) =>
    m.setPhase t (if m.word = free then .seizing left else .spinning left)
  | .seizing left => if lucky then m.exchange t (.spinning left) else m.setPhase t (.spinning left)
  | .contending =>
    { m with word := contended }.setPhase t (if m.word = free then .holding else .entering)
  | .entering => m.setPhase t (if m.word = contended then .asleep else .contending)
  | .waking => (m.setPhase t .away).wakeOne choice
  | _ => m

/-- Carries out an action. -/
def step (m : FutexLock) : LockAction → FutexLock
  | .lock t => if m.phase t = .away then m.exchange t (.spinning m.spins) else m
  | .tryLock t => if m.phase t = .away then m.exchange t .away else m
  | .unlock t =>
    if m.phase t = .holding then
      { m with word := free }.setPhase t (if m.word = contended then .waking else .away)
    else m
  | .advance t lucky choice => m.advance t lucky choice
  | .disturb t => if m.phase t = .asleep then m.setPhase t .contending else m

/-- Carries out a sequence of actions. -/
def run (m : FutexLock) (actions : List LockAction) : FutexLock := actions.foldl step m

end FutexLock

end Baton
