import Baton.Proofs.RwLock.Holds

/-!
# Reader/writer lock: claims

A thread has a claim on a side of the lock when it holds the side or is queued for it. A request
makes a claim and a release gives it up; the sections of other threads leave a claim alone, though
they may turn a queued request into a hold. A lock that somebody is queued for is held by somebody.

The two sides have sections of their own; here they are one family.
-/

namespace Baton

namespace RwState

open RwEvent

variable {s s' : RwState} {t u : ThreadId} {side d : RwSide}

/-- Asks for a hold. -/
def request (t : ThreadId) : RwSide → RwState → Verdict × RwState
  | .read, s => s.requestRead t
  | .write, s => s.requestWrite t

/-- Gives up a hold. -/
def release (t : ThreadId) : RwSide → RwState → Option (Handoff × RwState)
  | .read, s => s.releaseRead t
  | .write, s => s.releaseWrite t

/-- Looks whether a queued request was granted. -/
def recheck (t : ThreadId) : RwSide → RwState → Bool × RwState
  | .read, s => s.recheckRead t
  | .write, s => s.recheckWrite t

/-- Takes a hold if that needs no waiting. -/
def attempt (t : ThreadId) : RwSide → RwState → Bool × RwState
  | .read, s => s.tryRead t
  | .write, s => s.tryWrite t

/-- How often a thread holds a side or is queued for it. -/
def claim (t : ThreadId) (side : RwSide) (s : RwState) : Nat :=
  s.holds t side + (s.queue side).count t

theorem not_isQueued_of_claim (h : ∀ d, s.claim t d = 0) : ¬ s.IsQueued t := by
  rintro (hm | hm)
  · have hpos := List.count_pos_iff.mpr hm
    have hzero : s.holds t .read + s.readQueue.count t = 0 := h .read
    omega
  · have hpos := List.count_pos_iff.mpr hm
    have hzero : s.holds t .write + s.writeQueue.count t = 0 := h .write
    omega

theorem writer_ne_of_claim (h : s.claim t .write = 0) : s.writer ≠ some t := by
  intro hw
  simp [claim, holds, hw] at h

theorem not_mem_readers_of_claim (h : s.claim t .read = 0) : t ∉ s.readers := by
  intro hm
  have hpos := List.count_pos_iff.mpr hm
  have hzero : s.readers.count t + s.readQueue.count t = 0 := h
  omega

/-- A thread that holds a side is not queued. -/
theorem Regular.not_isQueued_of_holds (h : s.Regular) (hpos : 0 < s.holds t d) :
    ¬ s.IsQueued t := by
  intro hq
  rw [h.holds_of_queued hq] at hpos
  exact absurd hpos (Nat.lt_irrefl 0)

/-! ## The sections of other threads -/

theorem Change.claim_other {es : List RwEvent} (h : Change t s es s') (hne : u ≠ t) (d : RwSide) :
    s'.claim u d = s.claim u d := by
  have hholds := h.holds u d
  have hqueue := h.count_queue hne d
  rw [h.releases_other hne] at hholds
  rw [claim, claim]
  omega

theorem Change.holds_le_other {es : List RwEvent} (h : Change t s es s') (hne : u ≠ t)
    (d : RwSide) : s.holds u d ≤ s'.holds u d := by
  have hholds := h.holds u d
  rw [h.releases_other hne] at hholds
  omega

/-! ## Requests -/

theorem Regular.request (h : s.Regular) (hq : ¬ s.IsQueued t) (side : RwSide) :
    (s.request t side).2.Regular := by
  cases side with
  | read => exact h.requestRead hq
  | write => exact h.requestWrite hq

theorem change_request (hq : ¬ s.IsQueued t) (side : RwSide) :
    Change t s (ofVerdict t side (s.request t side).1) (s.request t side).2 := by
  cases side with
  | read => exact change_requestRead hq
  | write => exact change_requestWrite hq

/-- A thread without a claim is not refused. -/
theorem request_ne_refused (h : ∀ d, s.claim t d = 0) (side : RwSide) :
    (s.request t side).1 ≠ .refused := by
  have hw := writer_ne_of_claim (h .write)
  have hr := not_mem_readers_of_claim (h .read)
  cases side with
  | read =>
      rw [RwState.request, requestRead, if_neg hw]
      split <;> simp
  | write =>
      rw [RwState.request, requestWrite, if_neg (not_or.mpr ⟨hw, hr⟩)]
      split <;> simp

/-- A request makes one claim, unless it is refused. -/
theorem claim_request_of_ne (h : (s.request t side).1 ≠ .refused) (d : RwSide) :
    (s.request t side).2.claim t d = s.claim t d + if d = side then 1 else 0 := by
  cases side with
  | read =>
      rw [RwState.request, requestRead] at h ⊢
      split at h
      · exact absurd rfl h
      · rename_i hw
        rw [if_neg hw]
        split <;> cases d <;> simp [claim, queue] <;> omega
  | write =>
      rw [RwState.request, requestWrite] at h ⊢
      split at h
      · exact absurd rfl h
      · rename_i hw
        rw [if_neg hw]
        split <;> cases d <;> simp [claim, queue, *] <;> omega

theorem request_of_refused (h : (s.request t side).1 = .refused) : (s.request t side).2 = s := by
  cases side with
  | read =>
      rw [RwState.request, requestRead] at h ⊢
      split at h
      · rw [if_pos ‹_›]
      · split at h <;> cases h
  | write =>
      rw [RwState.request, requestWrite] at h ⊢
      split at h
      · rw [if_pos ‹_›]
      · split at h <;> cases h

theorem claim_request (h : ∀ d, s.claim t d = 0) (side d : RwSide) :
    (s.request t side).2.claim t d = if d = side then 1 else 0 := by
  rw [claim_request_of_ne (request_ne_refused h side), h d, Nat.zero_add]

/-- An attempt that succeeds makes one claim. -/
theorem claim_attempt (h : (s.attempt t side).1 = true) (d : RwSide) :
    (s.attempt t side).2.claim t d = s.claim t d + if d = side then 1 else 0 := by
  cases side with
  | read =>
      rw [attempt, tryRead] at h ⊢
      split at h
      · rw [if_pos ‹_›]
        cases d <;> simp [claim, queue]
        omega
      · cases h
  | write =>
      rw [attempt, tryWrite] at h ⊢
      split at h
      · rw [if_pos ‹_›]
        cases d <;> simp [claim, queue, *]
        omega
      · cases h

theorem attempt_of_false (h : (s.attempt t side).1 = false) : (s.attempt t side).2 = s := by
  cases side with
  | read =>
      rw [attempt, tryRead] at h ⊢
      split at h
      · cases h
      · rw [if_neg ‹_›]
  | write =>
      rw [attempt, tryWrite] at h ⊢
      split at h
      · cases h
      · rw [if_neg ‹_›]

theorem holds_request (hgranted : (s.request t side).1 = .granted) :
    0 < (s.request t side).2.holds t side := by
  cases side with
  | read =>
      rw [RwState.request, requestRead] at hgranted ⊢
      split at hgranted
      · cases hgranted
      · split at hgranted
        · simp [*]
        · cases hgranted
  | write =>
      rw [RwState.request, requestWrite] at hgranted ⊢
      split at hgranted
      · cases hgranted
      · split at hgranted
        · simp [*]
        · cases hgranted

/-- A request puts its thread into the queue of its side only, and only if it is not granted. -/
theorem mem_queue_request (hq : ¬ s.IsQueued t) (hmem : t ∈ (s.request t side).2.queue d) :
    d = side ∧ (s.request t side).1 = .queued := by
  have hnot : ∀ d, t ∉ s.queue d := fun d hm => hq (by cases d <;> [exact .inl hm; exact .inr hm])
  cases side with
  | read =>
      rw [RwState.request, requestRead] at hmem ⊢
      split at hmem
      · exact absurd hmem (hnot d)
      · split at hmem
        · exact absurd hmem (by cases d <;> [exact hnot .read; exact hnot .write])
        · cases d with
          | read => simp [*]
          | write => exact absurd hmem (hnot .write)
  | write =>
      rw [RwState.request, requestWrite] at hmem ⊢
      split at hmem
      · exact absurd hmem (hnot d)
      · split at hmem
        · exact absurd hmem (by cases d <;> [exact hnot .read; exact hnot .write])
        · cases d with
          | read => exact absurd hmem (hnot .read)
          | write => simp [*]

/-! ## Releases -/

theorem exists_release (hpos : 0 < s.holds t side) : ∃ out, s.release t side = some out := by
  cases side with
  | read =>
      have hmem : t ∈ s.readers := List.count_pos_iff.mp hpos
      rw [← Option.isSome_iff_exists, RwState.release, releaseRead, withoutReader?]
      simp only [Option.isSome_map, List.findIdx?_isSome, List.any_eq_true]
      exact ⟨t, hmem, by simp⟩
  | write =>
      have hw : s.writer = some t := by
        by_contra hw
        rw [holds_write, if_neg hw] at hpos
        exact absurd hpos (Nat.lt_irrefl 0)
      rw [RwState.release, releaseWrite, if_pos hw]
      exact ⟨_, rfl⟩

theorem Regular.release {out : Handoff × RwState} (h : s.Regular)
    (hout : s.release t side = some out) : out.2.Regular := by
  cases side with
  | read => exact h.releaseRead hout
  | write => exact h.releaseWrite hout

theorem Regular.change_release {out : Handoff × RwState} (h : s.Regular) (hq : ¬ s.IsQueued t)
    (hout : s.release t side = some out) :
    Change t s (ofRelease t side s (some out)) out.2 := by
  cases side with
  | read =>
      have hchange := h.change_releaseRead hq
      rw [show s.releaseRead t = some out from hout] at hchange
      exact hchange
  | write =>
      have hchange := h.change_releaseWrite hq
      rw [show s.releaseWrite t = some out from hout] at hchange
      exact hchange

theorem releases_ofRelease (out : Handoff × RwState) (d : RwSide) :
    releases t d (ofRelease t side s (some out)) = if side = d then 1 else 0 := by
  rw [ofRelease, releases_released_cons, releases_ofHandoff]
  simp

/-- A release gives one hold up. -/
theorem Regular.holds_release {out : Handoff × RwState} (h : s.Regular) (hq : ¬ s.IsQueued t)
    (hout : s.release t side = some out) (d : RwSide) :
    out.2.holds t d + (if side = d then 1 else 0) = s.holds t d := by
  have hchange := h.change_release hq hout
  have hholds := hchange.holds t d
  rwa [releases_ofRelease, acquisitions_ofRelease hchange, Nat.add_zero] at hholds

/-- So it gives one claim up. -/
theorem Regular.claim_release {out : Handoff × RwState} (h : s.Regular) (hq : ¬ s.IsQueued t)
    (hout : s.release t side = some out) (d : RwSide) :
    out.2.claim t d + (if side = d then 1 else 0) = s.claim t d := by
  have hholds := h.holds_release hq hout d
  have hbefore : (s.queue d).count t = 0 :=
    List.count_eq_zero.mpr fun hm => hq (isQueued_of_mem_queue hm)
  have hafter : (out.2.queue d).count t = 0 := by
    apply List.count_eq_zero.mpr
    intro hm
    cases side with
    | read => exact not_queued_releaseRead hq hout (isQueued_of_mem_queue hm)
    | write => exact not_queued_releaseWrite hq hout (isQueued_of_mem_queue hm)
  rw [claim, claim]
  omega

/-! ## The second look -/

/-- A thread with a claim finds in its second look whether it is still queued, changing nothing. -/
theorem Regular.recheck (h : s.Regular) (hclaim : s.claim t side = 1) :
    s.recheck t side = (decide (t ∉ s.queue side), s) := by
  cases side with
  | read => exact h.recheckRead
  | write =>
      have hasked : s.holds t .write + s.writeQueue.count t = 1 := hclaim
      rw [holds_write] at hasked
      have hmem : t ∈ s.writeQueue ∨ s.writer = some t := by
        by_cases hw : s.writer = some t
        · exact .inr hw
        · rw [if_neg hw] at hasked
          exact .inl (List.count_pos_iff.mp (by omega))
      rw [RwState.recheck, h.recheckWrite hmem, queue]
      congr 1
      by_cases hw : s.writer = some t
      · have hnot : t ∉ s.writeQueue := fun hm => h.writer_unqueued t hw (.inr hm)
        simp [hw, hnot]
      · simp [hw, hmem.resolve_right hw]

/-! ## Blocked requests -/

/-- A lock that somebody is queued for is held by somebody. -/
theorem Regular.exists_holds_of_queued (h : s.Regular) (hq : t ∈ s.queue side) :
    ∃ u d, 0 < s.holds u d := by
  have hheld : s.writer ≠ none ∨ s.readers ≠ [] := by
    cases side with
    | read => exact .inl (h.readQueue_blocked (List.ne_nil_of_mem hq))
    | write => exact h.writeQueue_blocked (List.ne_nil_of_mem hq)
  rcases hheld with hw | hr
  · obtain ⟨u, hu⟩ := Option.ne_none_iff_exists'.mp hw
    exact ⟨u, .write, by simp [hu]⟩
  · obtain ⟨u, hu⟩ := List.exists_mem_of_ne_nil _ hr
    exact ⟨u, .read, List.count_pos_iff.mpr hu⟩

/-- Nobody holds a side beside a thread that holds the write side. -/
theorem Regular.eq_of_holds (h : s.Regular) (hw : 0 < s.holds t .write) (hu : 0 < s.holds u d) :
    u = t ∧ d = .write := by
  have hwriter : s.writer = some t := by
    by_contra hne
    rw [holds_write, if_neg hne] at hw
    exact absurd hw (Nat.lt_irrefl 0)
  have hr : s.readers = [] := h.exclusive.resolve_left (by simp [hwriter])
  cases d with
  | read => simp [hr] at hu
  | write =>
      rw [holds_write, hwriter] at hu
      refine ⟨?_, rfl⟩
      by_contra hne
      rw [if_neg (by simpa using Ne.symm hne)] at hu
      exact absurd hu (Nat.lt_irrefl 0)

end RwState

end Baton
