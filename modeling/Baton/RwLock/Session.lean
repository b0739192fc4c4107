import Baton.Fault
import Baton.RwLock.Basic
import Baton.Store

/-!
# Reader/writer lock: sessions of several workers

Workers call the operations of one lock. A call runs one critical section and either completes or
leaves its worker asleep in a queue; a sleeper may resume at any moment, with or without a reason,
and looks whether it was granted. A release of whichever hold the caller has takes two sections.
Calls and resumptions interleave freely: a session is any sequence of them. An idle worker may also
copy the state at any moment.

`drive` issues one call and then lets the workers resume until none of them can go on.
-/

namespace Baton

/-- An operation of the lock. -/
inductive RwCall where
  | readLock | writeLock | tryReadLock | tryWriteLock | readUnlock | writeUnlock
  /-- Releases whichever hold the caller has. -/
  | unlock
  deriving DecidableEq

/-- The name of the operation. -/
def RwCall.name : RwCall → String
  | readLock => "read_lock"
  | writeLock => "write_lock"
  | tryReadLock => "try_read_lock"
  | tryWriteLock => "try_write_lock"
  | readUnlock => "read_unlock"
  | writeUnlock => "write_unlock"
  | unlock => "unlock"

/-- How an operation completed. -/
inductive RwResult where
  | done
  | failed (cause : Fault)
  | tried (taken : Bool)
  deriving DecidableEq

/-- Where a worker is. -/
inductive RwPhase where
  | idle
  /-- Asleep as a queued reader. -/
  | reading
  /-- Asleep as a queued writer. -/
  | writing
  /-- Between the two sections of `unlock`; the flag tells which hold it saw. -/
  | unlocking (asWriter : Bool)
  deriving DecidableEq

instance : Inhabited RwPhase := ⟨.idle⟩

/-- A call that completed. -/
structure RwCompletion where
  worker : ThreadId
  call : RwCall
  result : RwResult
  deriving DecidableEq

/-- A lock with its workers. -/
structure RwSession where
  lock : RwState
  phases : Store ThreadId RwPhase
  /-- The completed calls, newest first. -/
  completed : List RwCompletion
  /-- The copies that were taken of the lock's state, newest first. -/
  copies : List RwState

namespace RwSession

/-- A free lock with idle workers. -/
def start : RwSession := ⟨.free, .empty, [], []⟩

/-- Where a worker is. -/
def phase (s : RwSession) (t : ThreadId) : RwPhase := s.phases.get t

/-- Puts a worker somewhere. -/
def setPhase (t : ThreadId) (p : RwPhase) (s : RwSession) : RwSession :=
  { s with phases := s.phases.set t p }

/-- Completes the call of a worker. -/
def complete (t : ThreadId) (c : RwCall) (r : RwResult) (s : RwSession) : RwSession :=
  { s.setPhase t .idle with completed := ⟨t, c, r⟩ :: s.completed }

/-- The section of a release. -/
def release (t : ThreadId) (c : RwCall) (outcome : Option (Handoff × RwState)) (s : RwSession) :
    RwSession :=
  match outcome with
  | some (_, lock) => { s with lock }.complete t c .done
  | none => s.complete t c (.failed .notHeld)

/-- The first section of a request. -/
def request (t : ThreadId) (c : RwCall) (asleep : RwPhase) (outcome : Verdict × RwState)
    (s : RwSession) : RwSession :=
  let s := { s with lock := outcome.2 }
  match outcome.1 with
  | .granted => s.complete t c .done
  | .queued => s.setPhase t asleep
  | .refused => s.complete t c (.failed .wouldDeadlock)

/-- A worker issues a call; one that is not idle cannot. -/
def call (t : ThreadId) (c : RwCall) (s : RwSession) : RwSession :=
  if s.phase t ≠ .idle then s
  else match c with
    | .readLock => s.request t c .reading (s.lock.requestRead t)
    | .writeLock => s.request t c .writing (s.lock.requestWrite t)
    | .tryReadLock =>
      { s with lock := (s.lock.tryRead t).2 }.complete t c (.tried (s.lock.tryRead t).1)
    | .tryWriteLock =>
      { s with lock := (s.lock.tryWrite t).2 }.complete t c (.tried (s.lock.tryWrite t).1)
    | .readUnlock => s.release t c (s.lock.releaseRead t)
    | .writeUnlock => s.release t c (s.lock.releaseWrite t)
    | .unlock => s.setPhase t (.unlocking (s.lock.writer = some t))

/-- A worker copies the state of the lock; one that is not idle cannot. -/
def snapshot (t : ThreadId) (s : RwSession) : RwSession :=
  if s.phase t ≠ .idle then s else { s with copies := s.lock :: s.copies }

/-- A worker that is in a call goes on: a sleeper looks at the lock again, and `unlock` releases
the hold that it saw. -/
def resume (t : ThreadId) (s : RwSession) : RwSession :=
  match s.phase t with
  | .idle => s
  | .reading =>
    let (granted, lock) := s.lock.recheckRead t
    let s := { s with lock }
    if granted then s.complete t .readLock .done else s
  | .writing =>
    let (granted, lock) := s.lock.recheckWrite t
    let s := { s with lock }
    if granted then s.complete t .writeLock .done else s
  | .unlocking true => s.release t .unlock (s.lock.releaseWrite t)
  | .unlocking false => s.release t .unlock (s.lock.releaseRead t)

/-- Lets workers resume one after the other. -/
def resumeAll (order : List ThreadId) (s : RwSession) : RwSession :=
  order.foldl (fun s t => s.resume t) s

/-- Issues a call and lets the workers resume in the given order. The caller goes first, since it
may be in the middle of `unlock`. -/
def drive (order : List ThreadId) (t : ThreadId) (c : RwCall) (s : RwSession) : RwSession :=
  ((s.call t c).resume t).resumeAll order

/-- What one driven call showed: the calls that it completed, and the lock after it; `none` if the
worker was still in an earlier call. -/
structure Turn where
  completed : List RwCompletion
  lock : RwState

/-- Drives a sequence of calls by the workers in `order`. -/
def play (order : List ThreadId) : List (ThreadId × RwCall) → RwSession → List (Option Turn)
  | [], _ => []
  | (t, c) :: rest, s =>
    if s.phase t ≠ .idle then none :: play order rest s
    else
      let after := s.drive order t c
      let new := after.completed.take (after.completed.length - s.completed.length)
      let sorted := order.flatMap fun w => new.filter fun d => d.worker == w
      some ⟨sorted, after.lock⟩ :: play order rest after

/-- A session reached from the start by calls, copies and resumptions in any order. -/
inductive Reachable : RwSession → Prop where
  | start : Reachable .start
  | call {s : RwSession} (t : ThreadId) (c : RwCall) : Reachable s → Reachable (s.call t c)
  | snapshot {s : RwSession} (t : ThreadId) : Reachable s → Reachable (s.snapshot t)
  | resume {s : RwSession} (t : ThreadId) : Reachable s → Reachable (s.resume t)

theorem Reachable.resumeAll {s : RwSession} (h : Reachable s) (order : List ThreadId) :
    Reachable (s.resumeAll order) := by
  induction order generalizing s with
  | nil => exact h
  | cons t order ih => exact ih (h.resume t)

end RwSession

end Baton
