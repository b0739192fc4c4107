import Baton.Ident

/-!
# Mutex and rendezvous

A mutex has an owner and a queue, and a release hands it to the longest waiter. A rendezvous is the
queue of the threads that sleep in it. Both are plain data here; suspending and waking is the
scheduler's part.
-/

namespace Baton

/-- What becomes of a request for a lock. -/
inductive Verdict where
  | granted
  | queued
  /-- The caller holds the lock in a way that it would wait for itself. -/
  | refused
  deriving DecidableEq

/-- The state of a mutex. -/
structure Mutex where
  owner : Option ThreadId
  /-- The blocked requests, oldest first. -/
  waiting : List ThreadId
  deriving DecidableEq

namespace Mutex

/-- A mutex that nobody holds. -/
def free : Mutex := ⟨none, []⟩

instance : Inhabited Mutex := ⟨free⟩

/-- Asks for the mutex: refused to its owner, granted if it is free, else queued. -/
def request (me : ThreadId) (m : Mutex) : Verdict × Mutex :=
  if m.owner = some me then (.refused, m)
  else if m.owner = none then (.granted, { m with owner := some me })
  else (.queued, { m with waiting := m.waiting ++ [me] })

/-- Takes the mutex if it is free. -/
def tryTake (me : ThreadId) (m : Mutex) : Bool × Mutex :=
  if m.owner = none then (true, { m with owner := some me }) else (false, m)

/-- Hands the mutex to the longest waiter, if there is one. -/
def handOver (m : Mutex) : Mutex := ⟨m.waiting.head?, m.waiting.tail⟩

/-- Whether the thread owns the mutex. -/
def isOwnedBy (me : ThreadId) (m : Mutex) : Bool := m.owner == some me

theorem request_refused_iff {me : ThreadId} {m : Mutex} :
    (m.request me).1 = .refused ↔ m.owner = some me := by
  unfold request
  split
  · simp_all
  · split <;> simp_all

theorem tryTake_fst_iff {me : ThreadId} {m : Mutex} :
    (m.tryTake me).1 = true ↔ m.owner = none := by
  unfold tryTake
  split <;> simp_all

end Mutex

/-- The threads asleep in a rendezvous, longest sleeper first. -/
structure Rendez where
  sleepers : List ThreadId
  deriving DecidableEq

namespace Rendez

/-- A rendezvous without sleepers. -/
def empty : Rendez := ⟨[]⟩

instance : Inhabited Rendez := ⟨empty⟩

/-- Adds a sleeper. -/
def enlist (me : ThreadId) (r : Rendez) : Rendez := ⟨r.sleepers ++ [me]⟩

/-- Takes a thread out, wherever it stands. -/
def leave (me : ThreadId) (r : Rendez) : Rendez := ⟨r.sleepers.filter (· ≠ me)⟩

/-- Takes the longest sleeper out. -/
def pick (r : Rendez) : Option ThreadId × Rendez := (r.sleepers.head?, ⟨r.sleepers.tail⟩)

theorem mem_leave {me t : ThreadId} {r : Rendez} :
    t ∈ (r.leave me).sleepers ↔ t ∈ r.sleepers ∧ t ≠ me := by
  simp [leave]

end Rendez

end Baton
