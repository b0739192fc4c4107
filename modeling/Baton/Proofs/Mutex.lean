import Baton.Mutex
import Mathlib.Data.List.Nodup

/-!
# Mutex: exclusion, order and claims

A free mutex has no queue, and nobody is queued who is queued already or owns the mutex; a thread
that is not queued keeps it so by its requests. A thread has a claim on the mutex when it owns it or
is queued for it. A request makes a claim, a release gives the claim of the owner up, and neither
changes the claim of another thread.
-/

namespace Baton

namespace Mutex

variable {x : Mutex} {me t : ThreadId}

/-- Nobody is queued for a free mutex, queued twice, or queued beside owning the mutex. -/
structure Regular (x : Mutex) : Prop where
  idle : x.owner = none → x.waiting = []
  nodup : x.waiting.Nodup
  unqueued : ∀ t, x.owner = some t → t ∉ x.waiting

theorem regular_free : free.Regular where
  idle _ := rfl
  nodup := List.nodup_nil
  unqueued _ h := by cases h

theorem Regular.request (h : x.Regular) (hq : me ∉ x.waiting) : (x.request me).2.Regular := by
  unfold Mutex.request
  split
  · exact h
  · rename_i hme
    split
    · rename_i hnone
      have hempty := h.idle hnone
      exact {
        idle := fun ho => by cases ho
        nodup := h.nodup
        unqueued := fun t _ => by simp [hempty] }
    · rename_i hsome
      exact {
        idle := fun ho => absurd ho hsome
        nodup := List.nodup_append.mpr ⟨h.nodup, List.nodup_singleton me, by
          rintro a ha b hb rfl
          exact hq (List.mem_singleton.mp hb ▸ ha)⟩
        unqueued := fun t ho => by
          rw [List.mem_append, List.mem_singleton, not_or]
          exact ⟨h.unqueued t ho, fun he => hme (he ▸ ho)⟩ }

theorem Regular.tryTake (h : x.Regular) : (x.tryTake me).2.Regular := by
  unfold Mutex.tryTake
  split
  · rename_i hnone
    have hempty := h.idle hnone
    exact {
      idle := fun ho => by cases ho
      nodup := h.nodup
      unqueued := fun t _ => by simp [hempty] }
  · exact h

theorem Regular.handOver (h : x.Regular) : x.handOver.Regular where
  idle ho := by
    have hnil : x.waiting = [] := List.head?_eq_none_iff.mp ho
    simp [Mutex.handOver, hnil]
  nodup := h.nodup.sublist (List.tail_sublist _)
  unqueued t ho := by
    have hnodup := h.nodup
    revert ho hnodup
    unfold Mutex.handOver
    cases x.waiting with
    | nil => simp
    | cons u us =>
        intro ho hnodup
        obtain rfl : u = t := Option.some.inj ho
        exact (List.nodup_cons.mp hnodup).1

/-! ## Claims -/

/-- How often a thread owns the mutex or is queued for it. -/
def claim (t : ThreadId) (x : Mutex) : Nat :=
  (if x.owner = some t then 1 else 0) + x.waiting.count t

theorem claim_eq_zero_iff : x.claim t = 0 ↔ x.owner ≠ some t ∧ t ∉ x.waiting := by
  rw [claim, Nat.add_eq_zero_iff, List.count_eq_zero, ite_eq_right_iff]
  simp

theorem Regular.claim_le_one (h : x.Regular) (t : ThreadId) : x.claim t ≤ 1 := by
  have hcount := List.nodup_iff_count_le_one.mp h.nodup t
  unfold claim
  split
  · rename_i ho
    have hzero := List.count_eq_zero.mpr (h.unqueued t ho)
    omega
  · omega

/-- A request makes a claim, unless it is refused. -/
theorem claim_request (h : (x.request me).1 ≠ .refused) :
    (x.request me).2.claim me = x.claim me + 1 := by
  unfold Mutex.request at h ⊢
  split at h
  · exact absurd rfl h
  · rename_i hme
    rw [if_neg hme]
    split
    · rename_i hnone
      simp [claim, hnone]
      omega
    · simp [claim, hme]

theorem claim_tryTake (h : (x.tryTake me).1 = true) :
    (x.tryTake me).2.claim me = x.claim me + 1 := by
  have hnone := tryTake_fst_iff.mp h
  unfold Mutex.tryTake
  rw [if_pos hnone]
  simp [claim, hnone]
  omega

theorem tryTake_of_false (h : (x.tryTake me).1 = false) : (x.tryTake me).2 = x := by
  unfold Mutex.tryTake at h ⊢
  split at h
  · cases h
  · rename_i hsome
    rw [if_neg hsome]

theorem request_of_refused (h : (x.request me).1 = .refused) : (x.request me).2 = x := by
  unfold Mutex.request
  rw [if_pos (request_refused_iff.mp h)]

/-- The owner gives up its claim. -/
theorem Regular.claim_handOver (h : x.Regular) (ho : x.owner = some me) :
    x.claim me = x.handOver.claim me + 1 := by
  have hnot := h.unqueued me ho
  have htail : x.waiting.tail.count me = 0 :=
    List.count_eq_zero.mpr fun hm => hnot (List.mem_of_mem_tail hm)
  have hhead : x.waiting.head? ≠ some me := fun hm => hnot (List.mem_of_head? hm)
  unfold claim
  rw [if_pos ho, List.count_eq_zero.mpr hnot, Mutex.handOver, htail, if_neg hhead]

/-! ## Other threads -/

theorem claim_request_other (hne : t ≠ me) : (x.request me).2.claim t = x.claim t := by
  unfold Mutex.request
  split
  · rfl
  · split
    · rename_i hnone
      simp [claim, hnone, Ne.symm hne]
    · simp [claim, Ne.symm hne]

theorem claim_tryTake_other (hne : t ≠ me) : (x.tryTake me).2.claim t = x.claim t := by
  unfold Mutex.tryTake
  split
  · rename_i hnone
    simp [claim, hnone, Ne.symm hne]
  · rfl

/-- A queued request becomes a hold: that is the same claim. -/
theorem claim_handOver_other (ho : x.owner = some me) (hne : t ≠ me) :
    x.handOver.claim t = x.claim t := by
  unfold claim Mutex.handOver
  rw [ho]
  cases x.waiting with
  | nil => simp [Ne.symm hne]
  | cons u us => simp [List.count_cons, Ne.symm hne, Nat.add_comm]

/-- A mutex is handed to a queued thread. -/
theorem mem_waiting_of_handOver (ho : x.handOver.owner = some t) : t ∈ x.waiting :=
  List.mem_of_head? ho

end Mutex

end Baton
