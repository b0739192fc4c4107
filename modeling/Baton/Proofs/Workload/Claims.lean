import Baton.Proofs.Workload.Points

/-!
# Balanced workloads: who holds what

Between two pieces of work each thread has a claim on the target that its point says, and on nothing
else: it holds the target or is queued for it once. A target that somebody is queued for is held by
somebody, and whoever holds counters alone is the only one that holds them.
-/

namespace Baton

namespace Balanced

open Function (update)
open Machine (Served)

/-- The target that one side of a table's lock is. -/
def Target.of (l : Nat) : RwSide → Target
  | .read => .read l
  | .write => .write l

theorem Target.cases (τ : Target) : (∃ i, τ = .cell i) ∨ ∃ l side, τ = .of l side := by
  cases τ with
  | cell i => exact .inl ⟨i, rfl⟩
  | write l => exact .inr ⟨l, .write, rfl⟩
  | read l => exact .inr ⟨l, .read, rfl⟩

@[simp] theorem Target.of_inj {l k : Nat} {c d : RwSide} :
    Target.of l c = .of k d ↔ l = k ∧ c = d := by
  cases c <;> cases d <;> simp [Target.of]

@[simp] theorem Target.of_ne_cell (l i : Nat) (d : RwSide) : Target.of l d ≠ .cell i := by
  cases d <;> simp [Target.of]

/-- How many holds a thread has of a target. -/
def holds (t : ThreadId) (m : Machine) : Target → Nat
  | .cell i => if (m.mutexes.get (.cell i)).owner = some t then 1 else 0
  | .write l => (m.locks.get (.table l)).holds t .write
  | .read l => (m.locks.get (.table l)).holds t .read

/-- The threads that are queued for a target. -/
def queue (m : Machine) : Target → List ThreadId
  | .cell i => (m.mutexes.get (.cell i)).waiting
  | .write l => (m.locks.get (.table l)).queue .write
  | .read l => (m.locks.get (.table l)).queue .read

/-- How often a thread holds a target or is queued for it. -/
def claim (t : ThreadId) (m : Machine) (τ : Target) : Nat := holds t m τ + (queue m τ).count t

variable {p p' : ThreadId → Point} {m m' : Machine} {me t u : ThreadId} {q : Point} {τ σ : Target}
  {l i : Nat} {side : RwSide}

theorem holds_of (t : ThreadId) (m : Machine) (l : Nat) (side : RwSide) :
    holds t m (.of l side) = (m.locks.get (.table l)).holds t side := by
  cases side <;> rfl

theorem queue_of (m : Machine) (l : Nat) (side : RwSide) :
    queue m (.of l side) = (m.locks.get (.table l)).queue side := by
  cases side <;> rfl

theorem claim_of (t : ThreadId) (m : Machine) (l : Nat) (side : RwSide) :
    claim t m (.of l side) = (m.locks.get (.table l)).claim t side := by
  rw [claim, holds_of, queue_of, RwState.claim]

theorem claim_cell (t : ThreadId) (m : Machine) (i : Nat) :
    claim t m (.cell i) = (if (m.mutexes.get (.cell i)).owner = some t then 1 else 0) +
      (m.mutexes.get (.cell i)).waiting.count t := rfl

/-- Who holds what and waits for what, when the threads are at their points. -/
structure Claims (p : ThreadId → Point) (m : Machine) : Prop where
  inner : ∀ l, m.mutexes.get (.inner (.table l)) = .free
  unowned : ∀ i, (m.mutexes.get (.cell i)).owner = none → (m.mutexes.get (.cell i)).waiting = []
  regular : ∀ l, (m.locks.get (.table l)).Regular
  claim : ∀ t τ, claim t m τ = if (p t).target? = some τ then 1 else 0
  holding : ∀ t τ, (p t).holding? = some τ → 0 < holds t m τ

theorem Claims.target?_of_holds (h : Claims p m) (hpos : 0 < holds t m τ) :
    (p t).target? = some τ := by
  have hclaim := h.claim t τ
  rw [Balanced.claim] at hclaim
  by_contra hne
  rw [if_neg hne] at hclaim
  omega

theorem Claims.owner_of_holding (h : Claims p m) (hp : (p t).holding? = some (.cell i)) :
    (m.mutexes.get (.cell i)).owner = some t := by
  have hpos := h.holding t _ hp
  rw [holds] at hpos
  by_contra hne
  rw [if_neg hne] at hpos
  exact absurd hpos (Nat.lt_irrefl 0)

theorem Claims.owner_ne (h : Claims p m) (hp : (p t).target? = none) :
    (m.mutexes.get (.cell i)).owner ≠ some t := by
  intro howner
  have htarget := h.target?_of_holds (t := t) (τ := .cell i) (by simp [holds, howner])
  rw [hp] at htarget
  cases htarget

/-- A target that somebody is queued for is held, or the lock that it belongs to is. -/
theorem Claims.exists_holds_of_queued (h : Claims p m) (hq : t ∈ queue m τ) :
    ∃ u σ, 0 < holds u m σ := by
  rcases τ.cases with ⟨i, rfl⟩ | ⟨l, side, rfl⟩
  · have howner : (m.mutexes.get (.cell i)).owner ≠ none := by
      intro hnone
      have hempty := h.unowned i hnone
      rw [queue, hempty] at hq
      exact absurd hq List.not_mem_nil
    obtain ⟨u, hu⟩ := Option.ne_none_iff_exists'.mp howner
    exact ⟨u, .cell i, by simp [holds, hu]⟩
  · rw [queue_of] at hq
    obtain ⟨u, d, hpos⟩ := (h.regular l).exists_holds_of_queued hq
    exact ⟨u, .of l d, by rwa [holds_of]⟩

/-- Counters that somebody holds alone are held by nobody else. -/
theorem Claims.alone (h : Claims p m) (ht : (p t).holding? = some τ)
    (hu : (p u).holding? = some σ) (hx : τ.isExclusive = true) (hplace : σ.place = τ.place) :
    u = t ∧ σ = τ := by
  have hholds := h.holding t τ ht
  have hholds' := h.holding u σ hu
  cases τ with
  | read l => cases hx
  | cell i =>
      obtain rfl : σ = .cell i := by
        cases σ <;> simp [Target.place, Target.opening, Opening.guard, Guard.place] at hplace
        rw [hplace]
      refine ⟨?_, rfl⟩
      by_contra hne
      have howner := (h.owner_of_holding ht).symm.trans (h.owner_of_holding hu)
      exact hne (Option.some.inj howner).symm
  | write l =>
      obtain ⟨d, rfl⟩ : ∃ d, σ = .of l d := by
        cases σ <;> simp [Target.place, Target.opening, Opening.guard, Guard.place] at hplace
        · exact ⟨.write, by rw [hplace]; rfl⟩
        · exact ⟨.read, by rw [hplace]; rfl⟩
      rw [holds_of] at hholds'
      obtain ⟨rfl, rfl⟩ := (h.regular l).eq_of_holds hholds hholds'
      exact ⟨rfl, rfl⟩

/-! ## Changes -/

/-- One thread moves on. Nobody else's claim changes, though a queued one may become a hold. -/
theorem Claims.change (h : Claims p m)
    (hinner : ∀ l, m'.mutexes.get (.inner (.table l)) = .free)
    (hunowned : ∀ i, (m'.mutexes.get (.cell i)).owner = none →
      (m'.mutexes.get (.cell i)).waiting = [])
    (hregular : ∀ l, (m'.locks.get (.table l)).Regular)
    (hothers : ∀ u, u ≠ me → ∀ τ,
      Balanced.claim u m' τ = Balanced.claim u m τ ∧ holds u m τ ≤ holds u m' τ)
    (hmine : ∀ τ, Balanced.claim me m' τ = if q.target? = some τ then 1 else 0)
    (hholding : ∀ τ, q.holding? = some τ → 0 < holds me m' τ) : Claims (update p me q) m' where
  inner := hinner
  unowned := hunowned
  regular := hregular
  claim t τ := by
    by_cases ht : t = me
    · subst ht
      rw [Function.update_self, hmine]
    · rw [Function.update_of_ne ht, (hothers t ht τ).1, h.claim]
  holding t τ := by
    by_cases ht : t = me
    · subst ht
      rw [Function.update_self]
      exact hholding τ
    · rw [Function.update_of_ne ht]
      intro hτ
      exact Nat.lt_of_lt_of_le (h.holding t τ hτ) (hothers t ht τ).2

/-- Nothing is taken or given up, and a thread may notice that it was granted what it waited for. -/
theorem Claims.same (h : Claims p m) (hmutexes : ∀ x, m'.mutexes.get x = m.mutexes.get x)
    (hlocks : ∀ k, m'.locks.get k = m.locks.get k) (htarget : q.target? = (p me).target?)
    (hholding : ∀ τ, q.holding? = some τ → 0 < holds me m τ) : Claims (update p me q) m' := by
  have hholds : ∀ t τ, holds t m' τ = holds t m τ := by
    intro t τ
    cases τ <;> simp only [holds, hmutexes, hlocks]
  have hclaim : ∀ t τ, Balanced.claim t m' τ = Balanced.claim t m τ := by
    intro t τ
    cases τ <;> simp only [Balanced.claim, holds, queue, hmutexes, hlocks]
  apply h.change
  · intro l
    rw [hmutexes, h.inner]
  · intro i
    rw [hmutexes]
    exact h.unowned i
  · intro l
    rw [hlocks]
    exact h.regular l
  · intro u _ τ
    exact ⟨hclaim u τ, Nat.le_of_eq (hholds u τ).symm⟩
  · intro τ
    rw [hclaim, h.claim, htarget]
  · intro τ hτ
    rw [hholds]
    exact hholding τ hτ

/-- Nothing is taken or given up or noticed. -/
theorem Claims.stay (h : Claims p m) (hmutexes : m'.mutexes = m.mutexes)
    (hlocks : m'.locks = m.locks) (halike : (p me).Alike q) : Claims (update p me q) m' := by
  apply h.same (fun x => by rw [hmutexes]) (fun l => by rw [hlocks]) halike.target?
  intro τ hτ
  exact h.holding me τ (halike.holding? ▸ hτ)

/-- One thread moves on, and no other targets are concerned than those in `T`. -/
theorem Claims.changeAt (h : Claims p m) (T : Target → Prop)
    (hinner : ∀ l, m'.mutexes.get (.inner (.table l)) = .free)
    (hunowned : ∀ i, (m'.mutexes.get (.cell i)).owner = none →
      (m'.mutexes.get (.cell i)).waiting = [])
    (hregular : ∀ l, (m'.locks.get (.table l)).Regular)
    (hapart : ∀ τ, ¬ T τ → (∀ t, holds t m' τ = holds t m τ) ∧ queue m' τ = queue m τ)
    (hothers : ∀ u, u ≠ me → ∀ τ, T τ →
      Balanced.claim u m' τ = Balanced.claim u m τ ∧ holds u m τ ≤ holds u m' τ)
    (hmine : ∀ τ, T τ → Balanced.claim me m' τ = if q.target? = some τ then 1 else 0)
    (helse : ∀ τ, ¬ T τ → (q.target? = some τ ↔ (p me).target? = some τ))
    (hholding : ∀ τ, q.holding? = some τ → 0 < holds me m' τ) : Claims (update p me q) m' := by
  apply h.change hinner hunowned hregular _ _ hholding
  · intro u hu τ
    by_cases hτ : T τ
    · exact hothers u hu τ hτ
    · obtain ⟨hholds, hqueue⟩ := hapart τ hτ
      rw [Balanced.claim, Balanced.claim, hholds, hqueue]
      exact ⟨rfl, Nat.le_refl _⟩
  · intro τ
    by_cases hτ : T τ
    · exact hmine τ hτ
    · obtain ⟨hholds, hqueue⟩ := hapart τ hτ
      have hclaim := h.claim me τ
      rw [Balanced.claim] at hclaim ⊢
      rw [hholds, hqueue, hclaim]
      simp only [helse τ hτ]

/-- The lock of a table changes, and no other object. -/
theorem Claims.table {s : RwState} (h : Claims p m) (hserved : Served (.table l) s m m')
    (hregular : s.Regular)
    (hothers : ∀ u, u ≠ me → ∀ d, s.claim u d = (m.locks.get (.table l)).claim u d ∧
      (m.locks.get (.table l)).holds u d ≤ s.holds u d)
    (hmine : ∀ d, s.claim me d = if q.target? = some (.of l d) then 1 else 0)
    (helse : ∀ τ, (∀ d, τ ≠ .of l d) → (q.target? = some τ ↔ (p me).target? = some τ))
    (hholding : ∀ τ, q.holding? = some τ → ∃ d, τ = .of l d ∧ 0 < s.holds me d) :
    Claims (update p me q) m' := by
  have hself : m'.locks.get (.table l) = s := (hserved.lock _).trans (if_pos rfl)
  apply h.changeAt fun τ => ∃ d, τ = .of l d
  · intro k
    rw [hserved.mutexes, h.inner]
  · intro i
    rw [hserved.mutexes]
    exact h.unowned i
  · intro k
    rw [hserved.lock]
    split
    · exact hregular
    · exact h.regular k
  · intro τ hτ
    rcases τ.cases with ⟨i, rfl⟩ | ⟨k, d, rfl⟩
    · exact ⟨fun t => by rw [holds, holds, hserved.mutexes], by rw [queue, queue, hserved.mutexes]⟩
    · have hne : LockName.table k ≠ .table l := by
        intro he
        cases he
        exact hτ ⟨d, rfl⟩
      have hsame : m'.locks.get (.table k) = m.locks.get (.table k) :=
        (hserved.lock _).trans (if_neg hne)
      exact ⟨fun t => by rw [holds_of, holds_of, hsame], by rw [queue_of, queue_of, hsame]⟩
  · rintro u hu _ ⟨d, rfl⟩
    rw [claim_of, claim_of, holds_of, holds_of, hself]
    exact hothers u hu d
  · rintro _ ⟨d, rfl⟩
    rw [claim_of, hself]
    exact hmine d
  · exact fun τ hτ => helse τ fun d he => hτ ⟨d, he⟩
  · intro τ hτ
    obtain ⟨d, rfl, hpos⟩ := hholding τ hτ
    rwa [holds_of, hself]

theorem Claims.claim_eq_zero (h : Claims p m) (hp : (p me).target? = none) (d : RwSide) :
    (m.locks.get (.table l)).claim me d = 0 := by
  rw [← claim_of, h.claim, hp]
  simp

/-- A thread without a claim asks for one side of a table's lock. -/
theorem Claims.request (h : Claims p m) (hp : (p me).target? = none)
    (hserved : Served (.table l) ((m.locks.get (.table l)).request me side).2 m m')
    (hq : q.target? = some (.of l side))
    (hholding : q.holding? ≠ none → ((m.locks.get (.table l)).request me side).1 = .granted) :
    Claims (update p me q) m' := by
  have hnone : ∀ d, (m.locks.get (.table l)).claim me d = 0 := h.claim_eq_zero hp
  have hqueued := RwState.not_isQueued_of_claim hnone
  have hchange := RwState.change_request hqueued side
  apply h.table hserved ((h.regular l).request hqueued side)
  · intro u hu d
    exact ⟨hchange.claim_other hu d, hchange.holds_le_other hu d⟩
  · intro d
    rw [RwState.claim_request hnone, hq]
    simp [eq_comm]
  · intro τ hτ
    rw [hp, hq]
    simp only [Option.some.injEq, reduceCtorEq, iff_false]
    exact fun he => hτ side he.symm
  · intro τ hτ
    have htarget := Point.target?_of_holding? hτ
    rw [hq] at htarget
    refine ⟨side, (Option.some.inj htarget).symm, ?_⟩
    exact RwState.holds_request (hholding (by simp [hτ]))

/-- A holder gives up one side of a table's lock. -/
theorem Claims.release {g : Handoff} {s : RwState} (h : Claims p m)
    (hp : (p me).holding? = some (.of l side))
    (hout : (m.locks.get (.table l)).release me side = some (g, s))
    (hserved : Served (.table l) s m m') (hq : q.target? = none) : Claims (update p me q) m' := by
  have hheld := h.holding me _ hp
  rw [holds_of] at hheld
  have hqueued := (h.regular l).not_isQueued_of_holds hheld
  have hchange := (h.regular l).change_release hqueued hout
  apply h.table hserved ((h.regular l).release hout)
  · intro u hu d
    exact ⟨hchange.claim_other hu d, hchange.holds_le_other hu d⟩
  · intro d
    have hclaim := (h.regular l).claim_release hqueued hout d
    rw [← claim_of, h.claim, Point.target?_of_holding? hp] at hclaim
    rw [hq]
    simp only [Option.some.injEq, Target.of_inj, true_and] at hclaim
    simpa using hclaim
  · intro τ hτ
    rw [hq, Point.target?_of_holding? hp]
    simp only [reduceCtorEq, Option.some.injEq, false_iff]
    exact fun he => hτ side he.symm
  · intro τ hτ
    have htarget := Point.target?_of_holding? hτ
    rw [hq] at htarget
    cases htarget

/-- The mutex of a cell changes, and no other object. -/
theorem Claims.cell (h : Claims p m)
    (hmutexes : ∀ x, x ≠ .cell i → m'.mutexes.get x = m.mutexes.get x)
    (hlocks : m'.locks = m.locks)
    (hunowned : (m'.mutexes.get (.cell i)).owner = none →
      (m'.mutexes.get (.cell i)).waiting = [])
    (hothers : ∀ u, u ≠ me → Balanced.claim u m' (.cell i) = Balanced.claim u m (.cell i) ∧
      holds u m (.cell i) ≤ holds u m' (.cell i))
    (hmine : Balanced.claim me m' (.cell i) = if q.target? = some (.cell i) then 1 else 0)
    (helse : ∀ τ, τ ≠ .cell i → (q.target? = some τ ↔ (p me).target? = some τ))
    (hholding : ∀ τ, q.holding? = some τ → τ = .cell i ∧ 0 < holds me m' (.cell i)) :
    Claims (update p me q) m' := by
  apply h.changeAt (· = .cell i)
  · intro l
    rw [hmutexes _ (by simp), h.inner]
  · intro j
    by_cases hj : j = i
    · rw [hj]
      exact hunowned
    · rw [hmutexes _ (by simpa using hj)]
      exact h.unowned j
  · intro l
    rw [hlocks]
    exact h.regular l
  · intro τ hτ
    cases τ with
    | cell j =>
        have hne : MutexName.cell j ≠ .cell i := by
          intro he
          cases he
          exact hτ rfl
        exact ⟨fun t => by rw [holds, holds, hmutexes _ hne], by rw [queue, queue, hmutexes _ hne]⟩
    | write l => exact ⟨fun t => by rw [holds, holds, hlocks], by rw [queue, queue, hlocks]⟩
    | read l => exact ⟨fun t => by rw [holds, holds, hlocks], by rw [queue, queue, hlocks]⟩
  · rintro u hu _ rfl
    exact hothers u hu
  · rintro _ rfl
    exact hmine
  · exact helse
  · intro τ hτ
    obtain ⟨rfl, hpos⟩ := hholding τ hτ
    exact hpos

/-- A thread without a claim takes a cell's mutex that is free. -/
theorem Claims.take_cell (h : Claims p m) (hp : (p me).target? = none)
    (hfree : (m.mutexes.get (.cell i)).owner = none)
    (hmutex : m'.mutexes =
      m.mutexes.set (.cell i) { m.mutexes.get (.cell i) with owner := some me })
    (hlocks : m'.locks = m.locks) (hq : q.target? = some (.cell i)) :
    Claims (update p me q) m' := by
  have hget : m'.mutexes.get (.cell i) = { m.mutexes.get (.cell i) with owner := some me } := by
    rw [hmutex, Store.get_set, if_pos rfl]
  have hempty := h.unowned i hfree
  apply h.cell _ hlocks
  · intro hnone
    rw [hget] at hnone
    cases hnone
  · intro u hu
    rw [claim_cell, claim_cell, holds, holds, hget, hfree, hempty]
    simp [Ne.symm hu]
  · rw [claim_cell, hget, hempty, hq]
    simp
  · intro τ hτ
    rw [hp, hq]
    simp [Ne.symm hτ]
  · intro τ hτ
    have htarget := Point.target?_of_holding? hτ
    rw [hq] at htarget
    refine ⟨(Option.some.inj htarget).symm, ?_⟩
    rw [holds, hget]
    simp
  · intro x hx
    rw [hmutex, Store.get_set, if_neg hx]

/-- A thread without a claim queues up for a cell's mutex that another thread owns. -/
theorem Claims.queue_cell (h : Claims p m) (hp : (p me).target? = none)
    (htaken : (m.mutexes.get (.cell i)).owner ≠ none)
    (hmutex : m'.mutexes = m.mutexes.set (.cell i) { m.mutexes.get (.cell i) with
      waiting := (m.mutexes.get (.cell i)).waiting ++ [me] })
    (hlocks : m'.locks = m.locks) (hq : q.target? = some (.cell i)) (hq' : q.holding? = none) :
    Claims (update p me q) m' := by
  have hget : m'.mutexes.get (.cell i) = { m.mutexes.get (.cell i) with
      waiting := (m.mutexes.get (.cell i)).waiting ++ [me] } := by
    rw [hmutex, Store.get_set, if_pos rfl]
  apply h.cell _ hlocks
  · intro hnone
    rw [hget] at hnone
    exact absurd hnone htaken
  · intro u hu
    rw [claim_cell, claim_cell, holds, holds, hget]
    simp [Ne.symm hu]
  · have hnone := h.claim me (.cell i)
    rw [hp, claim_cell] at hnone
    rw [claim_cell, hget, hq]
    simp at hnone ⊢
    simp [hnone]
  · intro τ hτ
    rw [hp, hq]
    simp [Ne.symm hτ]
  · intro τ hτ
    rw [hq'] at hτ
    cases hτ
  · intro x hx
    rw [hmutex, Store.get_set, if_neg hx]

/-- The owner of a cell's mutex hands it over. -/
theorem Claims.release_cell (h : Claims p m) (hp : (p me).holding? = some (.cell i))
    (hmutex : m'.mutexes = m.mutexes.set (.cell i) (m.mutexes.get (.cell i)).handOver)
    (hlocks : m'.locks = m.locks) (hq : q.target? = none) : Claims (update p me q) m' := by
  have hget : m'.mutexes.get (.cell i) = (m.mutexes.get (.cell i)).handOver := by
    rw [hmutex, Store.get_set, if_pos rfl]
  have howner : (m.mutexes.get (.cell i)).owner = some me := h.owner_of_holding hp
  have hclaim := h.claim me (.cell i)
  rw [Point.target?_of_holding? hp, claim_cell, howner, if_pos rfl, if_pos rfl] at hclaim
  have hnot : (m.mutexes.get (.cell i)).waiting.count me = 0 := by omega
  apply h.cell _ hlocks
  · intro hnone
    rw [hget] at hnone ⊢
    rw [Mutex.handOver] at hnone ⊢
    rw [List.head?_eq_none_iff.mp hnone]
    rfl
  · intro u hu
    rw [claim_cell, claim_cell, holds, holds, hget, howner, Mutex.handOver]
    cases (m.mutexes.get (.cell i)).waiting with
    | nil => simp [Ne.symm hu]
    | cons next rest => simp [Ne.symm hu, List.count_cons, Nat.add_comm]
  · rw [claim_cell, hget, hq, Mutex.handOver]
    cases hw : (m.mutexes.get (.cell i)).waiting with
    | nil => simp
    | cons next rest =>
        rw [hw, List.count_eq_zero, List.mem_cons, not_or] at hnot
        simp [Ne.symm hnot.1, List.count_eq_zero.mpr hnot.2]
  · intro τ hτ
    rw [hq, Point.target?_of_holding? hp]
    simp [Ne.symm hτ]
  · intro τ hτ
    have htarget := Point.target?_of_holding? hτ
    rw [hq] at htarget
    cases htarget
  · intro x hx
    rw [hmutex, Store.get_set, if_neg hx]

end Balanced

end Baton
