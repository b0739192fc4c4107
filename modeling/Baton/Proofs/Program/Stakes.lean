import Baton.Proofs.Program.Queued

/-!
# Machine: the stakes of a thread

A thread has a stake in a mutex when it owns the mutex or is queued for it, and in a side of a lock
as often as it holds the side or is queued for it. The tasks of other threads leave its stakes
alone, though they may turn a queued request into a hold. Its own tasks add one stake or give one
up.
-/

namespace Baton

/-- What a thread can have a stake in. -/
inductive Stake where
  | mutex (name : MutexName)
  | hold (side : RwSide) (lock : LockName)
  deriving DecidableEq

namespace Machine

open RwState (IsQueued)

variable {me t : ThreadId} {m m' : Machine} {ts : List Task} {x : Task} {k : Stake}
  {ks ks' : List Stake} {name : MutexName} {l : LockName} {side : RwSide}

/-- How often a thread has a stake. -/
def stake (t : ThreadId) (m : Machine) : Stake → Nat
  | .mutex name => (m.mutexes.get name).claim t
  | .hold side l => (m.locks.get l).claim t side

/-- The stakes of a thread are those listed, as often as they are listed. -/
def Owes (t : ThreadId) (m : Machine) (ks : List Stake) : Prop :=
  ∀ k, m.stake t k = ks.count k

/-- A thread without stakes is nobody to any mutex and any lock. -/
theorem Owes.unknown (h : m.Owes t []) :
    (∀ name, (m.mutexes.get name).owner ≠ some t ∧ t ∉ (m.mutexes.get name).waiting) ∧
    ∀ l, (m.locks.get l).writer ≠ some t ∧ t ∉ (m.locks.get l).readers ∧
      t ∉ (m.locks.get l).readQueue ∧ t ∉ (m.locks.get l).writeQueue := by
  refine ⟨fun name => Mutex.claim_eq_zero_iff.mp (h (.mutex name)), fun l => ?_⟩
  have hclaim : ∀ side, (m.locks.get l).claim t side = 0 := fun side => h (.hold side l)
  have hq := not_or.mp (RwState.not_isQueued_of_claim hclaim)
  exact ⟨RwState.writer_ne_of_claim (hclaim .write),
    RwState.not_mem_readers_of_claim (hclaim .read), hq.1, hq.2⟩

theorem Owes.congr (h : m.Owes t ks) (hmutexes : m'.mutexes = m.mutexes)
    (hlocks : m'.locks = m.locks) : m'.Owes t ks := by
  intro k
  rw [← h k]
  cases k with
  | mutex name => rw [stake, stake, hmutexes]
  | hold side l => rw [stake, stake, hlocks]

/-- The tasks of other threads leave a stake alone. -/
theorem stake_other (hl : m.LockQueues) (hs : m.Sound)
    (hstack : m.stackOf me = x :: ts) (hne : t ≠ me) (k : Stake) :
    ((m.setStack me ts).perform me x).stake t k = m.stake t k := by
  cases k with
  | mutex name =>
      rw [stake, stake]
      rcases mutex_perform me x (m.setStack me ts) name with
          ⟨-, he⟩ | ⟨-, he⟩ | ⟨-, ho, he⟩ | he <;>
        rw [he]
      · exact Mutex.claim_request_other hne
      · exact Mutex.claim_tryTake_other hne
      · exact Mutex.claim_handOver_other ho hne
      · rfl
  | hold side l =>
      obtain ⟨-, es, hchange⟩ := hl.change hs hstack l
      exact hchange.claim_other hne side

/-! ## What the stakes tell -/

/-- A mutex counts once, so it is not among the stakes below it. -/
theorem Owes.notMem (h : m.Owes t (.mutex name :: ks)) (hm : (m.mutexes.get name).Regular) :
    .mutex name ∉ ks := by
  intro hmem
  have hpos := List.count_pos_iff.mpr hmem
  have hcount : (m.mutexes.get name).claim t = _ := h (.mutex name)
  have hone := hm.claim_le_one t
  rw [List.count_cons_self] at hcount
  omega

/-- A thread that has a stake in a mutex and is not queued for it is the owner. -/
theorem Owes.owner (h : m.Owes t ks) (hmem : .mutex name ∈ ks)
    (hq : t ∉ (m.mutexes.get name).waiting) : (m.mutexes.get name).owner = some t := by
  by_contra ho
  have hzero : (m.mutexes.get name).claim t = 0 := Mutex.claim_eq_zero_iff.mpr ⟨ho, hq⟩
  have hpos := List.count_pos_iff.mpr hmem
  have hcount : (m.mutexes.get name).claim t = _ := h (.mutex name)
  omega

theorem Owes.owner_ne (h : m.Owes t ks) (hmem : .mutex name ∉ ks) :
    (m.mutexes.get name).owner ≠ some t :=
  (Mutex.claim_eq_zero_iff.mp ((h (.mutex name)).trans (List.count_eq_zero.mpr hmem))).1

/-- A thread that has a stake in a side of a lock and is not queued for it holds the side. -/
theorem Owes.holds_pos (h : m.Owes t ks) (hmem : .hold side l ∈ ks)
    (hq : ¬ (m.locks.get l).IsQueued t) : 0 < (m.locks.get l).holds t side := by
  have hqueue : ((m.locks.get l).queue side).count t = 0 :=
    List.count_eq_zero.mpr fun hm => hq (RwState.isQueued_of_mem_queue hm)
  have hpos := List.count_pos_iff.mpr hmem
  have hcount : (m.locks.get l).holds t side + ((m.locks.get l).queue side).count t = _ :=
    h (.hold side l)
  omega

theorem Owes.exists_release (h : m.Owes t ks) (hmem : .hold side l ∈ ks)
    (hq : ¬ (m.locks.get l).IsQueued t) : ∃ out, (m.locks.get l).release t side = some out :=
  RwState.exists_release (h.holds_pos hmem hq)

/-! ## Changes of one mutex, or of one lock -/

theorem Owes.of_mutex {y : Mutex} (h : m.Owes t ks) (hmutexes : m'.mutexes = m.mutexes.set name y)
    (hlocks : m'.locks = m.locks) (hclaim : y.claim t = ks'.count (.mutex name))
    (hsame : ∀ k, k ≠ .mutex name → ks'.count k = ks.count k) : m'.Owes t ks' := by
  intro k
  cases k with
  | mutex n =>
      rw [stake, hmutexes, Store.get_set]
      split
      · rename_i hn
        rw [hclaim, hn]
      · rename_i hn
        rw [hsame (.mutex n) (by simpa using hn)]
        exact h (.mutex n)
  | hold side l =>
      rw [stake, hlocks, hsame (.hold side l) (by simp)]
      exact h (.hold side l)

theorem Owes.of_lock {y : RwState} (h : m.Owes t ks) (hmutexes : m'.mutexes = m.mutexes)
    (hlocks : m'.locks = m.locks.set l y)
    (hclaim : ∀ side, y.claim t side = ks'.count (.hold side l))
    (hsame : ∀ k, (∀ side, k ≠ .hold side l) → ks'.count k = ks.count k) : m'.Owes t ks' := by
  intro k
  cases k with
  | mutex name =>
      rw [stake, hmutexes, hsame (.mutex name) (by simp)]
      exact h (.mutex name)
  | hold side n =>
      rw [stake, hlocks, Store.get_set]
      split
      · rename_i hn
        rw [hclaim, hn]
      · rename_i hn
        rw [hsame (.hold side n) (by simpa using hn)]
        exact h (.hold side n)

/-! ## The thread's own tasks -/

/-- A thread that is not the owner gets a stake when it asks. -/
theorem Owes.acquire (h : m.Owes me ks) (ho : (m.mutexes.get name).owner ≠ some me) :
    (m.acquire me name).Owes me (.mutex name :: ks) := by
  refine h.of_mutex (mutexes_acquire me name m) (acquire_frame me name m).2 ?_
    fun k hk => List.count_cons_of_ne (Ne.symm hk)
  rw [Mutex.claim_request (Mutex.request_refused_iff.not.mpr ho), List.count_cons_self, ← h]
  rfl

/-- The owner gets no other stake when it asks again. -/
theorem Owes.relock (h : m.Owes me ks) (ho : (m.mutexes.get name).owner = some me) :
    (m.acquire me name).Owes me ks := by
  refine h.of_mutex (mutexes_acquire me name m) (acquire_frame me name m).2 ?_ fun _ _ => rfl
  rw [Mutex.request_of_refused (Mutex.request_refused_iff.mpr ho), ← h]
  rfl

theorem Owes.tryAcquire (h : m.Owes me ks) : (m.tryAcquire me name).Owes me
    (if ((m.mutexes.get name).tryTake me).1 then .mutex name :: ks else ks) := by
  cases htaken : ((m.mutexes.get name).tryTake me).1 with
  | true =>
      refine h.of_mutex (y := ((m.mutexes.get name).tryTake me).2) rfl rfl ?_
        fun k hk => List.count_cons_of_ne (Ne.symm hk)
      rw [Mutex.claim_tryTake htaken, if_pos rfl, List.count_cons_self, ← h]
      rfl
  | false =>
      refine h.of_mutex (y := ((m.mutexes.get name).tryTake me).2) rfl rfl ?_ fun _ _ => rfl
      rw [Mutex.tryTake_of_false htaken, if_neg Bool.false_ne_true, ← h]
      rfl

theorem Owes.release (h : m.Owes me (.mutex name :: ks)) (hm : (m.mutexes.get name).Regular)
    (ho : (m.mutexes.get name).owner = some me) : (m.release me name).Owes me ks := by
  have hmutexes := mutexes_release me name m
  rw [if_pos ho] at hmutexes
  refine h.of_mutex hmutexes (release_frame me name m).2 ?_
    fun k hk => (List.count_cons_of_ne (Ne.symm hk)).symm
  have hcount : (m.mutexes.get name).claim me = _ := h (.mutex name)
  rw [hm.claim_handOver ho, List.count_cons_self] at hcount
  exact Nat.succ.inj hcount

theorem count_hold_cons (d side : RwSide) (l : LockName) (ks : List Stake) :
    (Stake.hold side l :: ks).count (.hold d l) =
      ks.count (.hold d l) + if d = side then 1 else 0 := by
  rw [List.count_cons]
  congr 1
  by_cases hd : d = side
  · simp [hd]
  · simp [hd, Ne.symm hd]

theorem Owes.request (h : m.Owes me ks) (side : RwSide) (l : LockName) :
    (m.perform me (side.request l)).Owes me
      (if ((m.locks.get l).request me side).1 = .refused then ks else .hold side l :: ks) := by
  refine h.of_lock (mutexes_lock side l me m).1 (locks_request side l me m) (fun d => ?_)
    fun k hk => ?_
  · split
    · rename_i hrefused
      rw [RwState.request_of_refused hrefused, ← h]
      rfl
    · rename_i hne
      rw [RwState.claim_request_of_ne hne, count_hold_cons, ← h]
      rfl
  · split
    · rfl
    · exact List.count_cons_of_ne (Ne.symm (hk side))

theorem Owes.attempt (h : m.Owes me ks) (side : RwSide) (l : LockName) :
    (m.perform me (side.attempt l)).Owes me
      (if ((m.locks.get l).attempt me side).1 then .hold side l :: ks else ks) := by
  have hlocks : (m.perform me (side.attempt l)).locks =
      m.locks.set l ((m.locks.get l).attempt me side).2 := by
    cases side <;> rfl
  have hmutexes : (m.perform me (side.attempt l)).mutexes = m.mutexes := by
    cases side <;> rfl
  refine h.of_lock hmutexes hlocks (fun d => ?_) fun k hk => ?_
  · cases htaken : ((m.locks.get l).attempt me side).1 with
    | true =>
        rw [RwState.claim_attempt htaken, if_pos rfl, count_hold_cons, ← h]
        rfl
    | false =>
        rw [RwState.attempt_of_false htaken, if_neg Bool.false_ne_true, ← h]
        rfl
  · split
    · exact List.count_cons_of_ne (Ne.symm (hk side))
    · rfl

theorem Owes.unlock {out : Handoff × RwState} (h : m.Owes me (.hold side l :: ks))
    (hr : (m.locks.get l).Regular) (hq : ¬ (m.locks.get l).IsQueued me)
    (hout : (m.locks.get l).release me side = some out) :
    (m.perform me (side.release l)).Owes me ks := by
  have hlocks : (m.perform me (side.release l)).locks = m.locks.set l out.2 := by
    rw [perform_release_of_some hout]
    exact (wakeGranted_frame l out.1 (m.setLock l out.2)).2
  refine h.of_lock (mutexes_lock side l me m).2 hlocks (fun d => ?_)
    fun k hk => (List.count_cons_of_ne (Ne.symm (hk side))).symm
  have hclaim := hr.claim_release hq hout d
  have hcount : (m.locks.get l).claim me d = _ := h (.hold d l)
  rw [count_hold_cons, ← hclaim] at hcount
  simp only [eq_comm (a := side)] at hcount
  omega

end Machine

end Baton
