import Baton.Proofs.RwLock.History
import Mathlib.Data.List.Count

/-!
# Reader/writer lock: holds and queues after a move

A thread holds a side of the lock as often as it acquired it more often than it released it. A move
of another thread changes the holds of a thread in one way only: it grants what the thread is queued
for.
-/

namespace Baton

namespace RwEvent

/-- How often a thread got a hold. -/
def acquisitions (t : ThreadId) (side : RwSide) (es : List RwEvent) : Nat :=
  es.count (taken t side) + es.count (granted t side)

/-- How often a thread gave a hold up. -/
def releases (t : ThreadId) (side : RwSide) (es : List RwEvent) : Nat :=
  es.count (released t side)

theorem acquisitions_append (t : ThreadId) (side : RwSide) (es es' : List RwEvent) :
    acquisitions t side (es ++ es') = acquisitions t side es + acquisitions t side es' := by
  simp only [acquisitions, List.count_append]
  omega

theorem releases_append (t : ThreadId) (side : RwSide) (es es' : List RwEvent) :
    releases t side (es ++ es') = releases t side es + releases t side es' :=
  List.count_append

theorem acquisitions_released_cons (t u : ThreadId) (side d : RwSide) (es : List RwEvent) :
    acquisitions u d (released t side :: es) = acquisitions u d es := by
  simp [acquisitions]

theorem releases_released_cons (t u : ThreadId) (side d : RwSide) (es : List RwEvent) :
    releases u d (released t side :: es) =
      releases u d es + if t = u ∧ side = d then 1 else 0 := by
  simp [releases, List.count_cons]

theorem acquisitions_grants (t : ThreadId) (side : RwSide) (rs : List ThreadId) :
    acquisitions t side (rs.map fun r => granted r .read) =
      if side = .read then rs.count t else 0 := by
  have hnone : (rs.map fun r => granted r .read).count (taken t side) = 0 := by
    rw [List.count_eq_zero]
    simp
  rw [acquisitions, hnone, Nat.zero_add]
  cases side with
  | read =>
      have hinj : Function.Injective fun r => granted r .read := fun _ _ he => by cases he; rfl
      exact List.count_map_of_injective rs _ hinj t
  | write =>
      apply List.count_eq_zero.mpr
      simp

theorem releases_grants (t : ThreadId) (side : RwSide) (rs : List ThreadId) :
    releases t side (rs.map fun r => granted r .read) = 0 := by
  rw [releases, List.count_eq_zero]
  simp

theorem releases_ofHandoff (s : RwState) (g : Handoff) (t : ThreadId) (side : RwSide) :
    releases t side (ofHandoff s g) = 0 := by
  apply List.count_eq_zero.mpr
  cases g with
  | nobody => simp [ofHandoff]
  | writer next => simp [ofHandoff]
  | readers n =>
      intro hm
      obtain ⟨r, -, hr⟩ := List.mem_map.mp hm
      cases hr

end RwEvent

namespace RwState

open RwEvent

variable {s s' : RwState} {t u : ThreadId} {side : RwSide} {es : List RwEvent}

/-- How many holds a thread has on a side. -/
def holds (t : ThreadId) : RwSide → RwState → Nat
  | .read, s => s.readers.count t
  | .write, s => if s.writer = some t then 1 else 0

@[simp] theorem holds_read (t : ThreadId) (s : RwState) : s.holds t .read = s.readers.count t := rfl

@[simp] theorem holds_write (t : ThreadId) (s : RwState) :
    s.holds t .write = if s.writer = some t then 1 else 0 := rfl

theorem holds_of_soleHold (h : s.SoleHold t side) (u : ThreadId) (d : RwSide) :
    s.holds u d = if t = u ∧ side = d then 1 else 0 := by
  cases side with
  | read =>
      obtain ⟨hw, hr⟩ := h
      cases d <;> simp [hw, hr, List.count_singleton]
  | write =>
      obtain ⟨hw, hr⟩ := h
      cases d <;> simp [hw, hr]

/-- The account after a move. -/
theorem Change.holds (h : Change t s es s') (u : ThreadId) (d : RwSide) :
    s'.holds u d + releases u d es = s.holds u d + acquisitions u d es := by
  cases h with
  | same => rfl
  | queueRead => cases d <;> simp [releases, acquisitions]
  | queueWrite => cases d <;> simp [releases, acquisitions]
  | takeRead hw => cases d <;> simp [releases, acquisitions, List.count_singleton]
  | takeWrite hw hr => cases d <;> simp [releases, acquisitions, List.count_singleton, hw]
  | leave hw hperm =>
      cases d with
      | read =>
          have := hperm.count_eq u
          simp [releases, acquisitions, List.count_cons] at this ⊢
          omega
      | write => simp [releases, acquisitions]
  | @handToWriter side next rest hme hlast hq =>
      have hnext : acquisitions u d [granted next .write] =
          RwState.holds u d ⟨some next, [], s.readQueue, rest⟩ := by
        cases d <;> simp [acquisitions, List.count_singleton]
      rw [holds_of_soleHold hlast, acquisitions_released_cons, releases_released_cons, hnext]
      simp [releases, Nat.add_comm]
  | @handToReaders side hme hlast hq =>
      have hnext : acquisitions u d (s.readQueue.map fun r => granted r .read) =
          RwState.holds u d ⟨none, s.readQueue, [], []⟩ := by
        rw [acquisitions_grants]
        cases d <;> simp
      rw [holds_of_soleHold hlast, acquisitions_released_cons, releases_released_cons, hnext,
        releases_grants, Nat.zero_add, Nat.add_comm]

/-- The queue of a side. -/
def queue : RwSide → RwState → List ThreadId
  | .read, s => s.readQueue
  | .write, s => s.writeQueue

/-- Beside the thread that moves nobody gives up a hold. -/
theorem Change.releases_other (h : Change t s es s') (hne : u ≠ t) (d : RwSide) :
    releases u d es = 0 := by
  cases h with
  | handToWriter => simp [releases, hne.symm]
  | handToReaders => rw [releases_released_cons, releases_grants, if_neg (by simp [hne.symm])]
  | _ => simp [releases, hne.symm]

/-- Beside the thread that moves a thread leaves a queue exactly if it gets the hold. -/
theorem Change.count_queue (h : Change t s es s') (hne : u ≠ t) (d : RwSide) :
    (s'.queue d).count u + acquisitions u d es = (s.queue d).count u := by
  cases h with
  | same => rfl
  | queueRead => cases d <;> simp [queue, acquisitions, hne.symm]
  | queueWrite => cases d <;> simp [queue, acquisitions, hne.symm]
  | takeRead => cases d <;> simp [queue, acquisitions, hne.symm]
  | takeWrite => cases d <;> simp [queue, acquisitions, hne.symm]
  | leave => cases d <;> simp [queue, acquisitions]
  | handToWriter hme hlast hq =>
      cases d <;> simp [queue, acquisitions, hq, List.count_cons]
  | handToReaders hme hlast hq =>
      rw [acquisitions_released_cons, acquisitions_grants]
      cases d <;> simp [queue, hq]

/-- A move gives its own thread a queued request nothing. -/
theorem Change.granted_self (h : Change t s es s') (d : RwSide) : granted t d ∉ es := by
  cases h with
  | handToWriter hme hlast hq =>
      have hnext : t ∉ s.writeQueue := fun hm => hme (.inr hm)
      simp only [hq, List.mem_cons, not_or] at hnext
      simp [hnext.1]
  | handToReaders hme hlast hq =>
      have hnot : t ∉ s.readQueue := fun hm => hme (.inl hm)
      simp [hnot]
  | _ => simp

/-- A release gives its own thread nothing. -/
theorem acquisitions_ofRelease {out : Option (Handoff × RwState)}
    (h : Change t s (ofRelease t side s out) s') (d : RwSide) :
    acquisitions t d (ofRelease t side s out) = 0 := by
  have htaken : taken t d ∉ ofRelease t side s out := by
    rcases out with - | ⟨- | next | n, lock⟩
    · simp [ofRelease]
    · simp [ofRelease, ofHandoff]
    · simp [ofRelease, ofHandoff]
    · simp only [ofRelease, ofHandoff, List.mem_cons, reduceCtorEq, false_or]
      intro hm
      obtain ⟨r, -, hr⟩ := List.mem_map.mp hm
      cases hr
  rw [acquisitions, List.count_eq_zero.mpr htaken, List.count_eq_zero.mpr (h.granted_self d)]

/-- Nobody but the thread that moves takes a hold. -/
theorem Change.taken_other (h : Change t s es s') (hne : u ≠ t) (d : RwSide) :
    taken u d ∉ es := by
  cases h <;> simp [hne]

theorem Regular.count_queue_le_one (hs : s.Regular) (u : ThreadId) (d : RwSide) :
    (s.queue d).count u ≤ 1 := by
  cases d with
  | read => exact List.nodup_iff_count_le_one.mp hs.readQueue_nodup u
  | write => exact List.nodup_iff_count_le_one.mp hs.writeQueue_nodup u

theorem Regular.holds_of_queued (hs : s.Regular) (hq : s.IsQueued u) (d : RwSide) :
    s.holds u d = 0 := by
  cases d with
  | read => exact List.count_eq_zero.mpr fun hm => hs.readers_unqueued u hm hq
  | write => exact if_neg fun hw => hs.writer_unqueued u hw hq

theorem isQueued_of_mem_queue {d : RwSide} (h : u ∈ s.queue d) : s.IsQueued u := by
  cases d with
  | read => exact .inl h
  | write => exact .inr h

/-- A move leaves the holds of another thread alone, or grants what that thread is queued for. -/
theorem Change.holds_other (hs : s.Regular) (h : Change t s es s') (hne : u ≠ t) (d : RwSide) :
    s'.holds u d = s.holds u d ∨
      u ∈ s.queue d ∧ granted u d ∈ es ∧ s.holds u d = 0 ∧ s'.holds u d = 1 := by
  have hbalance := h.holds u d
  have hqueue := h.count_queue hne d
  have hone := hs.count_queue_le_one u d
  rw [h.releases_other hne] at hbalance
  by_cases hgot : acquisitions u d es = 0
  · exact .inl (by omega)
  · have hmem : u ∈ s.queue d := List.count_pos_iff.mp (by omega)
    have hzero := hs.holds_of_queued (isQueued_of_mem_queue hmem) d
    have htaken : es.count (taken u d) = 0 := List.count_eq_zero.mpr (h.taken_other hne d)
    have hgranted : granted u d ∈ es := by
      apply List.count_pos_iff.mp
      rw [acquisitions] at hgot
      omega
    exact .inr ⟨hmem, hgranted, hzero, by omega⟩

end RwState

end Baton
