import Baton.Ident
import Baton.Store

/-!
# Rendezvous over one word

The word counts the wakes. A sleeper samples it while it holds the mutex, releases the mutex, and
sleeps in the kernel only while the word is still what it sampled, so a wake between the two is not
lost. The word wraps around.

Each atomic operation and each call of the kernel is one step. A sleeper may return without a
reason, the kernel may wake any sleeper, and an action that is not possible changes nothing. The
paired mutex appears as its holder alone.
-/

namespace Baton

/-- Where a thread is in an operation of the rendezvous. -/
inductive SleepPhase where
  | away
  /-- Sampled the word; about to release the mutex. -/
  | sampled (seen : UInt32)
  /-- Released the mutex; about to enter the kernel. -/
  | entering (seen : UInt32)
  /-- Asleep in the kernel. -/
  | asleep (seen : UInt32)
  /-- Left the kernel; about to take the mutex. -/
  | returning
  /-- Counted a wake; about to wake one sleeper, or all. -/
  | waking (all : Bool)
  deriving DecidableEq

instance : Inhabited SleepPhase := ⟨.away⟩

/-- A rendezvous over one word, with the threads that use it. -/
structure FutexRendez where
  word : UInt32
  /-- The holder of the paired mutex. -/
  holder : Option ThreadId
  phases : Store ThreadId SleepPhase

/-- One atomic operation or call of the kernel. -/
inductive SleepAction where
  /-- Takes the mutex. -/
  | acquire (t : ThreadId)
  /-- Releases the mutex. -/
  | release (t : ThreadId)
  /-- Starts to sleep. -/
  | sleep (t : ThreadId)
  /-- Starts to wake one sleeper, or all. -/
  | wake (t : ThreadId) (all : Bool)
  /-- Goes on; `choice` tells which sleeper the kernel wakes. -/
  | advance (t : ThreadId) (choice : Nat)
  /-- A sleeper returns without a reason. -/
  | disturb (t : ThreadId)

namespace FutexRendez

/-- A rendezvous that nobody uses. -/
def fresh : FutexRendez := ⟨0, none, .empty⟩

/-- Where a thread is. -/
def phase (r : FutexRendez) (t : ThreadId) : SleepPhase := r.phases.get t

/-- Puts a thread somewhere. -/
def setPhase (t : ThreadId) (p : SleepPhase) (r : FutexRendez) : FutexRendez :=
  { r with phases := r.phases.set t p }

/-- Whether a thread is asleep in the kernel. -/
def isAsleep (t : ThreadId) (r : FutexRendez) : Bool :=
  match r.phase t with
  | .asleep _ => true
  | _ => false

/-- The threads asleep in the kernel. -/
def sleepers (r : FutexRendez) : List ThreadId := r.phases.keys.filter fun t => r.isAsleep t

/-- Lets threads return from the kernel. -/
def rouse (ts : List ThreadId) (r : FutexRendez) : FutexRendez :=
  ts.foldl (fun r t => r.setPhase t .returning) r

/-- The sleepers that a call of the kernel wakes. -/
def chosen (all : Bool) (choice : Nat) (r : FutexRendez) : List ThreadId :=
  if all then r.sleepers else (r.sleepers[choice % r.sleepers.length]?).toList

/-- Goes on with an operation. -/
def advance (t : ThreadId) (choice : Nat) (r : FutexRendez) : FutexRendez :=
  match r.phase t with
  | .sampled seen => { r with holder := none }.setPhase t (.entering seen)
  | .entering seen => r.setPhase t (if r.word = seen then .asleep seen else .returning)
  | .returning => if r.holder = none then { r with holder := some t }.setPhase t .away else r
  | .waking all => (r.setPhase t .away).rouse (r.chosen all choice)
  | _ => r

/-- Carries out an action. Sleeping and waking need the mutex. -/
def step (r : FutexRendez) : SleepAction → FutexRendez
  | .acquire t =>
    if r.phase t = .away ∧ r.holder = none then { r with holder := some t } else r
  | .release t =>
    if r.phase t = .away ∧ r.holder = some t then { r with holder := none } else r
  | .sleep t =>
    if r.phase t = .away ∧ r.holder = some t then r.setPhase t (.sampled r.word) else r
  | .wake t all =>
    if r.phase t = .away ∧ r.holder = some t then
      { r with word := r.word + 1 }.setPhase t (.waking all)
    else r
  | .advance t choice => r.advance t choice
  | .disturb t => if r.isAsleep t then r.setPhase t .returning else r

/-- Carries out a sequence of actions. -/
def run (r : FutexRendez) (actions : List SleepAction) : FutexRendez := actions.foldl step r

end FutexRendez

end Baton
