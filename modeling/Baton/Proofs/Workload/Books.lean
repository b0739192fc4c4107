import Baton.Proofs.Workload.Points
import Mathlib.Algebra.Order.BigOperators.Group.Finset

/-!
# Balanced workloads: the counters

What the shared memory holds is fixed by the points of the threads: the first counter of a place is
the number of exclusive sections there that have ended, the second one is the same, or one more
while such a section lasts, and no thread has seen them differ. Every piece of work keeps this,
provided that whoever works with the counters of a place is not disturbed there.
-/

namespace Baton

namespace Balanced

open Function (update)

variable {n : Nat} {all : List Section} {p p' : ThreadId → Point} {mem : Memory}
  {me t : ThreadId} {q : Point} {s : Section} {pl : Place}

/-! ## Counting -/

/-- How many sections raise the counters of a place. -/
def raises (pl : Place) (todo : List Section) : Nat :=
  todo.countP fun s => s.target.isExclusive && decide (s.target.place = pl)

/-- How many sections read. -/
def reads (todo : List Section) : Nat := todo.countP fun s => !s.target.isExclusive

/-- The total over all threads after one of them has moved on. -/
theorem sum_update (f : Point → Nat) (hme : me ∈ crew n) :
    ∑ t ∈ crew n, f (update p me q t) + f (p me) = ∑ t ∈ crew n, f (p t) + f q := by
  rw [← Finset.add_sum_erase _ _ hme, ← Finset.add_sum_erase (crew n) (fun t => f (p t)) hme,
    Function.update_self]
  have hrest : ∑ t ∈ (crew n).erase me, f (update p me q t) = ∑ t ∈ (crew n).erase me, f (p t) := by
    apply Finset.sum_congr rfl
    intro t ht
    rw [Function.update_of_ne (Finset.ne_of_mem_erase ht)]
  omega

@[simp] theorem firstCount_setList (pl pl' : Place) (xs : List Int) (mem : Memory) :
    firstCount pl (mem.setList pl' xs) = if pl = pl' then xs.headD 0 else firstCount pl mem := by
  rw [firstCount, Memory.list_setList]
  split <;> rfl

@[simp] theorem secondCount_setList (pl pl' : Place) (xs : List Int) (mem : Memory) :
    secondCount pl (mem.setList pl' xs) = if pl = pl' then xs.getD 1 0 else secondCount pl mem := by
  rw [secondCount, Memory.list_setList]
  split <;> rfl

@[simp] theorem firstCount_setVar (pl : Place) (v : Nat) (x : Int) (mem : Memory) :
    firstCount pl (mem.setVar v x) = firstCount pl mem := rfl

@[simp] theorem secondCount_setVar (pl : Place) (v : Nat) (x : Int) (mem : Memory) :
    secondCount pl (mem.setVar v x) = secondCount pl mem := rfl

/-- What a thread keeps is apart from what all threads count. -/
theorem ownVar_ne (t : ThreadId) :
    readsVar ≠ ownVar (number t) ∧ tornVar ≠ ownVar (number t) := by
  simp only [readsVar, tornVar, ownVar]
  omega

theorem ownVar_inj {t u : ThreadId} : ownVar (number t) = ownVar (number u) ↔ t = u := by
  rw [ownVar, ownVar, Nat.add_right_cancel_iff, number_inj]

/-! ## The invariant -/

/-- Whether a thread at the point is in an exclusive section at a place. -/
def Point.Raising (pl : Place) (x : Point) : Prop :=
  ∃ τ, x.within? = some τ ∧ τ.isExclusive = true ∧ τ.place = pl

/-- The shared memory when the threads have come to their points. -/
structure Books (n : Nat) (all : List Section) (p : ThreadId → Point) (mem : Memory) : Prop where
  total : ∀ pl, firstCount pl mem + (∑ t ∈ crew n, raises pl (p t).todo : Nat) = raises pl all
  equal : ∀ pl, (∀ t, ¬ (p t).Raising pl) → firstCount pl mem = secondCount pl mem
  raising : ∀ t pl, (p t).Raising pl → mem.var (ownVar (number t)) = firstCount pl mem ∧
    secondCount pl mem = firstCount pl mem + 1
  reads : mem.var readsVar + (∑ t ∈ crew n, reads (p t).todo : Nat) = reads all
  torn : mem.var tornVar = 0

/-- Nothing happens that the books speak of. -/
theorem Books.congr (h : Books n all p mem) (htodo : ∀ t, (p' t).todo = (p t).todo)
    (hraising : ∀ t pl, (p' t).Raising pl ↔ (p t).Raising pl) : Books n all p' mem where
  total pl := by
    simp only [htodo]
    exact h.total pl
  equal pl hno := by
    apply h.equal
    intro t
    rw [← hraising]
    exact hno t
  raising t pl ht := h.raising t pl ((hraising t pl).mp ht)
  reads := by
    simp only [htodo]
    exact h.reads
  torn := h.torn

theorem raising_update_self : (update p me q me).Raising pl ↔ q.Raising pl := by
  rw [Function.update_self]

theorem raising_update_of_ne (h : t ≠ me) : (update p me q t).Raising pl ↔ (p t).Raising pl := by
  rw [Function.update_of_ne h]

theorem Books.move (h : Books n all p mem) (htodo : q.todo = (p me).todo)
    (hraising : ∀ pl, q.Raising pl ↔ (p me).Raising pl) : Books n all (update p me q) mem := by
  apply h.congr (apply_update Point.todo htodo)
  intro t pl
  by_cases htme : t = me
  · subst htme
    rw [raising_update_self, hraising]
  · exact raising_update_of_ne htme

theorem Books.stay (h : Books n all p mem) (halike : (p me).Alike q) :
    Books n all (update p me q) mem := by
  apply h.move halike.todo
  intro pl
  rw [Point.Raising, Point.Raising, halike.within?]

/-- Counters that nobody raises look equal. -/
theorem Books.compare_eq_self (h : Books n all p mem) (hno : ∀ t, ¬ (p t).Raising pl) :
    Balanced.compare pl mem = mem :=
  if_pos (h.equal pl hno)

theorem not_raising_of_within?_eq_none {x : Point} (h : x.within? = none) : ¬ x.Raising pl := by
  rintro ⟨τ, hτ, -⟩
  rw [h] at hτ
  cases hτ

/-! ## Raising -/

theorem firstCount_beginRaise (k : Nat) (pl pl' : Place) (mem : Memory) :
    firstCount pl' (beginRaise k pl mem) = firstCount pl' mem := by
  rw [beginRaise, firstCount_setList, firstCount_setVar]
  split
  · rename_i he
    rw [he]
    rfl
  · rfl

theorem secondCount_beginRaise (k : Nat) (pl pl' : Place) (mem : Memory) :
    secondCount pl' (beginRaise k pl mem) =
      if pl' = pl then secondCount pl mem + 1 else secondCount pl' mem := by
  rw [beginRaise, secondCount_setList, secondCount_setVar]
  rfl

theorem var_beginRaise (k v : Nat) (pl : Place) (mem : Memory) :
    (beginRaise k pl mem).var v = if v = ownVar k then firstCount pl mem else mem.var v := by
  rw [beginRaise, Memory.var_setList, Memory.var_setVar]

/-- A thread that is alone at a place begins to raise its counters. -/
theorem Books.beginRaise (h : Books n all p mem) (hno : ∀ t, ¬ (p t).Raising pl)
    (hout : (p me).within? = none) (hq : ∀ pl', q.Raising pl' ↔ pl' = pl)
    (htodo : q.todo = (p me).todo) :
    Books n all (update p me q) (beginRaise (number me) pl mem) where
  total pl' := by
    simp only [apply_update Point.todo htodo, firstCount_beginRaise]
    exact h.total pl'
  equal pl' hnone := by
    have hne : pl' ≠ pl := fun he => hnone me (raising_update_self.mpr ((hq pl').mpr he))
    rw [firstCount_beginRaise, secondCount_beginRaise, if_neg hne]
    apply h.equal
    intro t ht
    by_cases htme : t = me
    · subst htme
      exact not_raising_of_within?_eq_none hout ht
    · exact hnone t ((raising_update_of_ne htme).mpr ht)
  raising t pl' ht := by
    rw [firstCount_beginRaise, secondCount_beginRaise, var_beginRaise]
    by_cases htme : t = me
    · subst htme
      obtain rfl := (hq pl').mp (raising_update_self.mp ht)
      rw [if_pos rfl, if_pos rfl, h.equal pl' hno]
      exact ⟨rfl, rfl⟩
    · have hbefore := (raising_update_of_ne htme).mp ht
      have hne : pl' ≠ pl := fun he => hno t (he ▸ hbefore)
      rw [if_neg hne, if_neg (by rwa [ownVar_inj])]
      exact h.raising t pl' hbefore
  reads := by
    simp only [apply_update Point.todo htodo]
    rw [var_beginRaise, if_neg (ownVar_ne me).1]
    exact h.reads
  torn := by
    rw [var_beginRaise, if_neg (ownVar_ne me).2]
    exact h.torn

theorem firstCount_endRaise (k : Nat) (pl pl' : Place) (mem : Memory) :
    firstCount pl' (endRaise k pl mem) =
      if pl' = pl then mem.var (ownVar k) + 1 else firstCount pl' mem := by
  rw [endRaise, firstCount_setList]
  rfl

theorem secondCount_endRaise (k : Nat) (pl pl' : Place) (mem : Memory) :
    secondCount pl' (endRaise k pl mem) = secondCount pl' mem := by
  rw [endRaise, secondCount_setList]
  split
  · rename_i he
    rw [he]
    rfl
  · rfl

/-- The thread that raises the counters of a place stores what it kept plus one, and so ends its
section. -/
theorem Books.endRaise (h : Books n all p mem) (hme : me ∈ crew n)
    (hin : ∀ pl', (p me).Raising pl' ↔ pl' = pl) (hno : ∀ t, t ≠ me → ¬ (p t).Raising pl)
    (htodo : (p me).todo = s :: q.todo) (hx : s.target.isExclusive = true)
    (hplace : s.target.place = pl) (hq : q.within? = none) :
    Books n all (update p me q) (endRaise (number me) pl mem) where
  total pl' := by
    have hsum := sum_update (p := p) (q := q) (fun x => raises pl' x.todo) hme
    have hone : raises pl' (p me).todo = raises pl' q.todo + if pl' = pl then 1 else 0 := by
      rw [htodo, raises, raises, List.countP_cons, hx, hplace]
      simp [eq_comm]
    have htotal := h.total pl'
    rw [firstCount_endRaise]
    by_cases he : pl' = pl
    · obtain ⟨hown, -⟩ := h.raising me pl ((hin pl).mpr rfl)
      rw [if_pos he] at hone ⊢
      rw [hown]
      rw [he] at htotal hsum hone ⊢
      omega
    · rw [if_neg he] at hone ⊢
      omega
  equal pl' hnone := by
    rw [firstCount_endRaise, secondCount_endRaise]
    by_cases he : pl' = pl
    · obtain ⟨hown, hsecond⟩ := h.raising me pl ((hin pl).mpr rfl)
      rw [if_pos he, he, hown, hsecond]
    · rw [if_neg he]
      apply h.equal
      intro t ht
      by_cases htme : t = me
      · subst htme
        exact he ((hin pl').mp ht)
      · exact hnone t ((raising_update_of_ne htme).mpr ht)
  raising t pl' ht := by
    by_cases htme : t = me
    · subst htme
      exact absurd (raising_update_self.mp ht) (not_raising_of_within?_eq_none hq)
    · have hbefore := (raising_update_of_ne htme).mp ht
      have hne : pl' ≠ pl := fun he => hno t htme (he ▸ hbefore)
      rw [firstCount_endRaise, secondCount_endRaise, if_neg hne]
      exact h.raising t pl' hbefore
  reads := by
    have hsum := sum_update (p := p) (q := q) (fun x => Balanced.reads x.todo) hme
    have hnone : Balanced.reads (p me).todo = Balanced.reads q.todo := by
      rw [htodo, Balanced.reads, Balanced.reads, List.countP_cons, hx]
      rfl
    have hreads := h.reads
    show mem.var readsVar + _ = _
    omega
  torn := h.torn

/-! ## Reading -/

/-- A reading section is counted at its end. -/
theorem Books.countRead (h : Books n all p mem) (hme : me ∈ crew n)
    (hin : ∀ pl, ¬ (p me).Raising pl) (htodo : (p me).todo = s :: q.todo)
    (hx : s.target.isExclusive = false) (hq : q.within? = none) :
    Books n all (update p me q) (countRead mem) := by
  have hraising : ∀ t pl, (update p me q t).Raising pl ↔ (p t).Raising pl := by
    intro t pl
    by_cases htme : t = me
    · subst htme
      rw [raising_update_self]
      exact iff_of_false (not_raising_of_within?_eq_none hq) (hin pl)
    · exact raising_update_of_ne htme
  have hvar : ∀ v, (Balanced.countRead mem).var v =
      if v = readsVar then mem.var readsVar + 1 else mem.var v := by
    intro v
    rw [Balanced.countRead, Memory.var_setVar]
  exact {
    total := by
      intro pl
      have hsum := sum_update (p := p) (q := q) (fun x => raises pl x.todo) hme
      have hnone : raises pl (p me).todo = raises pl q.todo := by
        rw [htodo, raises, raises, List.countP_cons, hx]
        rfl
      have htotal := h.total pl
      show firstCount pl mem + _ = _
      omega
    equal := fun pl hno => h.equal pl fun t ht => hno t ((hraising t pl).mpr ht)
    raising := by
      intro t pl ht
      rw [hvar, if_neg (ownVar_ne t).1.symm]
      exact h.raising t pl ((hraising t pl).mp ht)
    reads := by
      have hsum := sum_update (p := p) (q := q) (fun x => Balanced.reads x.todo) hme
      have hone : Balanced.reads (p me).todo = Balanced.reads q.todo + 1 := by
        rw [htodo, Balanced.reads, Balanced.reads, List.countP_cons, hx]
        rfl
      have hreads := h.reads
      rw [hvar, if_pos rfl]
      omega
    torn := by
      rw [hvar, if_neg (by decide)]
      exact h.torn }

end Balanced

end Baton
