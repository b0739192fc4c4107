import Baton.Proofs.Queue.Points
import Mathlib.Algebra.Ring.Int.Defs

/-!
# Queue: the books

What the shared memory holds is fixed by the points of the threads. The items that were taken, those
in the queue and those that have not been put are all the items in their order. A consumer has left
only when the queue was closed and empty, and about to take an item it finds one or the queue is
closed. Every change of the memory keeps this, provided that only one consumer is about to take an
item.
-/

namespace Baton

namespace Queue

open Baton.Balanced (number)
open Function (update)

variable {xs pending : List Int} {p : ThreadId → Point} {mem mem' : Memory} {me t : ThreadId}
  {q : Point} {a : Account} {left taking : Bool} {x : Int} {l : Nat}

/-! ## The invariant -/

/-- The account of a thread agrees with the memory. -/
def Account.Right (xs : List Int) (mem : Memory) (t : ThreadId) : Account → Prop
  | consumer left taking =>
    mem.var (leftVar (number t)) = (if left then 1 else 0) ∧
      (left = true → items mem = [] ∧ mem.var closedVar = 1) ∧
      (taking = true → items mem ≠ [] ∨ mem.var closedVar = 1)
  | producer pending closed =>
    t = .first ∧ taken mem ++ items mem ++ pending = xs ∧
      mem.var closedVar = (if closed then 1 else 0) ∧ (closed = true → pending = [])

/-- The shared memory when the threads have come to their points. -/
structure Books (xs : List Int) (p : ThreadId → Point) (mem : Memory) : Prop where
  right : ∀ t a, (p t).account xs = some a → a.Right xs mem t
  main : ∃ pending closed, (p .first).account xs = some (.producer pending closed)
  rest : ∀ t l, (p t).rest? = some l → mem.var (restVar (number t)) = l
  sum : mem.var sumVar = (taken mem).sum
  count : mem.var countVar = (taken mem).length

/-- The queue is closed or not. -/
theorem Books.closed_or (h : Books xs p mem) : mem.var closedVar = 0 ∨ mem.var closedVar = 1 := by
  obtain ⟨pending, closed, hmain⟩ := h.main
  obtain ⟨-, -, hclosed, -⟩ := h.right .first _ hmain
  cases closed with
  | false => exact .inl hclosed
  | true => exact .inr hclosed

/-- The main thread is not a consumer. -/
theorem Books.ne_first (h : Books xs p mem)
    (ha : (p t).account xs = some (.consumer left taking)) : t ≠ .first := by
  rintro rfl
  obtain ⟨pending, closed, hmain⟩ := h.main
  rw [ha] at hmain
  cases hmain

/-- One thread moves on. -/
theorem Books.change (h : Books xs p mem)
    (hothers : ∀ t a, t ≠ me → (p t).account xs = some a → a.Right xs mem t → a.Right xs mem' t)
    (hmine : ∀ a, q.account xs = some a → a.Right xs mem' me)
    (hmain : me = .first → ∃ pending closed, q.account xs = some (.producer pending closed))
    (hrests : ∀ t, t ≠ me → mem'.var (restVar (number t)) = mem.var (restVar (number t)))
    (hrest : ∀ l, q.rest? = some l → mem'.var (restVar (number me)) = l)
    (hsum : mem'.var sumVar = (taken mem').sum) (hcount : mem'.var countVar = (taken mem').length) :
    Books xs (update p me q) mem' where
  right t a := by
    by_cases ht : t = me
    · rw [ht, Function.update_self]
      exact hmine a
    · rw [Function.update_of_ne ht]
      intro ha
      exact hothers t a ht ha (h.right t a ha)
  main := by
    by_cases hfirst : me = .first
    · subst hfirst
      rw [Function.update_self]
      exact hmain rfl
    · rw [Function.update_of_ne (Ne.symm hfirst)]
      exact h.main
  rest t l := by
    by_cases ht : t = me
    · rw [ht, Function.update_self]
      exact hrest l
    · rw [Function.update_of_ne ht, hrests t ht]
      exact h.rest t l
  sum := hsum
  count := hcount

/-! ## Rests -/

/-- What all accounts speak of is the same. -/
structure SameBooks (mem mem' : Memory) : Prop where
  list : ∀ pl, mem'.list pl = mem.list pl
  left : ∀ k, mem'.var (leftVar k) = mem.var (leftVar k)
  closed : mem'.var closedVar = mem.var closedVar
  sum : mem'.var sumVar = mem.var sumVar
  count : mem'.var countVar = mem.var countVar

theorem SameBooks.refl (mem : Memory) : SameBooks mem mem :=
  ⟨fun _ => rfl, fun _ => rfl, rfl, rfl, rfl⟩

theorem SameBooks.right (h : SameBooks mem mem') (hright : a.Right xs mem t) :
    a.Right xs mem' t := by
  cases a with
  | consumer left taking =>
      simp only [Account.Right, items, h.left, h.list, h.closed]
      exact hright
  | producer pending closed =>
      simp only [Account.Right, taken, items, h.list, h.closed]
      exact hright

/-- A thread moves on without a change that the books speak of. -/
theorem Books.move (h : Books xs p mem) (hs : SameBooks mem mem')
    (haccount : q.account xs = (p me).account xs)
    (hrests : ∀ t, t ≠ me → mem'.var (restVar (number t)) = mem.var (restVar (number t)))
    (hrest : ∀ l, q.rest? = some l → mem'.var (restVar (number me)) = l) :
    Books xs (update p me q) mem' := by
  apply h.change
  · exact fun _ _ _ _ => hs.right
  · intro a ha
    exact hs.right (h.right me a (haccount ▸ ha))
  · rintro rfl
    rw [haccount]
    exact h.main
  · exact hrests
  · exact hrest
  · rw [hs.sum, h.sum, taken, taken, hs.list]
  · rw [hs.count, h.count, taken, taken, hs.list]

/-- A thread moves on, and the memory stays as it is. -/
theorem Books.stay (h : Books xs p mem) (haccount : q.account xs = (p me).account xs)
    (hrest : ∀ l, q.rest? = some l → mem.var (restVar (number me)) = l) :
    Books xs (update p me q) mem :=
  h.move (.refl mem) haccount (fun _ _ => rfl) hrest

theorem restVar_inj {t u : ThreadId} : restVar (number t) = restVar (number u) ↔ t = u := by
  rw [restVar, restVar, ← Balanced.number_inj]
  omega

/-- The variables of a rest are apart from those that the accounts speak of. -/
theorem sameBooks_settle (k : Nat) (pace : Pace) (mem : Memory) :
    SameBooks mem (settle k pace mem) where
  list _ := rfl
  left j := by
    have hrest : leftVar j ≠ restVar k := by
      simp only [leftVar, restVar]
      omega
    have hstep : leftVar j ≠ stepVar k := by
      simp only [leftVar, stepVar]
      omega
    rw [settle, Memory.var_setVar, if_neg hstep, Memory.var_setVar, if_neg hrest]
  closed := by simp [settle, closedVar, stepVar, restVar]
  sum := by simp [settle, sumVar, stepVar, restVar]
  count := by simp [settle, countVar, stepVar, restVar]

theorem var_settle (k j : Nat) (pace : Pace) (mem : Memory) :
    (settle k pace mem).var (restVar j) =
      if j = k then (pace (mem.var (stepVar k)).toNat : Int) else mem.var (restVar j) := by
  have hstep : restVar j ≠ stepVar k := by
    simp only [restVar, stepVar]
    omega
  have hrest : restVar j = restVar k ↔ j = k := by
    simp only [restVar]
    omega
  rw [settle, Memory.var_setVar, if_neg hstep, Memory.var_setVar]
  simp only [hrest]

/-- A rest begins. -/
theorem Books.settle (h : Books xs p mem) (pace : Pace)
    (haccount : q.account xs = (p me).account xs)
    (hrest : q.rest? = some (pace (mem.var (stepVar (number me))).toNat)) :
    Books xs (update p me q) (settle (number me) pace mem) := by
  apply h.move (sameBooks_settle _ _ _) haccount
  · intro t ht
    rw [var_settle, if_neg (by rwa [Balanced.number_inj])]
  · intro l hl
    rw [var_settle, if_pos rfl]
    rw [hrest] at hl
    rw [Option.some.inj hl]

theorem sameBooks_spend (k : Nat) (mem : Memory) : SameBooks mem (spend k mem) where
  list _ := rfl
  left j := by
    have hrest : leftVar j ≠ restVar k := by
      simp only [leftVar, restVar]
      omega
    rw [spend, Memory.var_setVar, if_neg hrest]
  closed := by simp [spend, closedVar, restVar]
  sum := by simp [spend, sumVar, restVar]
  count := by simp [spend, countVar, restVar]

/-- A yield of a rest is counted. -/
theorem Books.spend (h : Books xs p mem) (haccount : q.account xs = (p me).account xs)
    (hbefore : (p me).rest? = some (l + 1)) (hafter : q.rest? = some l) :
    Books xs (update p me q) (spend (number me) mem) := by
  apply h.move (sameBooks_spend _ _) haccount
  · intro t ht
    rw [Queue.spend, Memory.var_setVar, if_neg (by rwa [restVar_inj])]
  · intro l' hl'
    have hrest := h.rest me _ hbefore
    rw [hafter] at hl'
    rw [Queue.spend, Memory.var_setVar, if_pos rfl, hrest, ← Option.some.inj hl']
    omega

/-! ## The producer -/

/-- The main thread puts an item. -/
theorem Books.push (h : Books xs p mem)
    (hbefore : (p .first).account xs = some (.producer (x :: pending) false))
    (hafter : q.account xs = some (.producer pending false)) (hrest : q.rest? = none) :
    Books xs (update p .first q) (mem.setList (.cell cell) (items mem ++ [x])) := by
  obtain ⟨-, hflow, hopen, -⟩ := h.right .first _ hbefore
  have htaken : taken (mem.setList (.cell cell) (items mem ++ [x])) = taken mem := by
    simp [taken, log, cell]
  have hitems : items (mem.setList (.cell cell) (items mem ++ [x])) = items mem ++ [x] := by
    simp [items]
  apply h.change
  · intro t a ht ha hright
    cases a with
    | consumer left taking =>
        obtain ⟨hvar, hleft, -⟩ := hright
        refine ⟨hvar, fun hl => ?_, fun _ => .inl (by simp [hitems])⟩
        -- Nobody has left while the queue is open.
        rw [(hleft hl).2] at hopen
        cases hopen
    | producer pending closed => exact absurd hright.1 ht
  · intro a ha
    rw [hafter] at ha
    obtain rfl := Option.some.inj ha
    refine ⟨rfl, ?_, hopen, fun hclosed => by cases hclosed⟩
    rw [htaken, hitems, ← hflow]
    simp
  · exact fun _ => ⟨_, _, hafter⟩
  · exact fun _ _ => rfl
  · simp [hrest]
  · rw [htaken]
    exact h.sum
  · rw [htaken]
    exact h.count

/-- The main thread closes the queue. -/
theorem Books.close (h : Books xs p mem)
    (hbefore : (p .first).account xs = some (.producer [] false))
    (hafter : q.account xs = some (.producer [] true)) (hrest : q.rest? = none) :
    Books xs (update p .first q) (mem.setVar closedVar 1) := by
  obtain ⟨-, hflow, -, -⟩ := h.right .first _ hbefore
  have hclosed : (mem.setVar closedVar 1).var closedVar = 1 := by simp
  apply h.change
  · intro t a ht ha hright
    cases a with
    | consumer left taking =>
        obtain ⟨hvar, hleft, -⟩ := hright
        refine ⟨?_, fun hl => ⟨(hleft hl).1, hclosed⟩, fun _ => .inr hclosed⟩
        rw [Memory.var_setVar, if_neg (by simp [leftVar, closedVar])]
        exact hvar
    | producer pending closed => exact absurd hright.1 ht
  · intro a ha
    rw [hafter] at ha
    obtain rfl := Option.some.inj ha
    exact ⟨rfl, hflow, hclosed, fun _ => rfl⟩
  · exact fun _ => ⟨_, _, hafter⟩
  · intro t _
    rw [Memory.var_setVar, if_neg (by simp [restVar, closedVar])]
  · simp [hrest]
  · rw [Memory.var_setVar, if_neg (by decide)]
    exact h.sum
  · rw [Memory.var_setVar, if_neg (by decide)]
    exact h.count

/-! ## Consumers -/

/-- A consumer that need not sleep finds an item, or the queue is closed. -/
theorem Books.choose (h : Books xs p mem)
    (hbefore : (p me).account xs = some (.consumer false false))
    (hafter : q.account xs = some (.consumer false true)) (hrest : q.rest? = none)
    (htest : ((items mem).isEmpty && mem.var closedVar == 0) = false) :
    Books xs (update p me q) mem := by
  obtain ⟨hvar, hleft, -⟩ := h.right me _ hbefore
  apply h.change
  · exact fun _ _ _ _ hright => hright
  · intro a ha
    rw [hafter] at ha
    obtain rfl := Option.some.inj ha
    refine ⟨hvar, hleft, fun _ => ?_⟩
    rcases h.closed_or with hopen | hclosed
    · refine .inl fun hempty => ?_
      simp [hopen, hempty] at htest
    · exact .inr hclosed
  · exact fun hfirst => absurd hfirst (h.ne_first hbefore)
  · exact fun _ _ => rfl
  · simp [hrest]
  · exact h.sum
  · exact h.count

theorem leftVar_inj {t u : ThreadId} : leftVar (number t) = leftVar (number u) ↔ t = u := by
  rw [leftVar, leftVar, ← Balanced.number_inj]
  omega

/-- A consumer finds the queue empty, and leaves. -/
theorem Books.leave (h : Books xs p mem)
    (hbefore : (p me).account xs = some (.consumer false true))
    (hafter : q.account xs = some (.consumer true false)) (hrest : q.rest? = none)
    (hempty : items mem = []) : Books xs (update p me q) (take (number me) mem) := by
  obtain ⟨-, -, htaking⟩ := h.right me _ hbefore
  have hclosed : mem.var closedVar = 1 := (htaking rfl).resolve_left fun hne => hne hempty
  have htake : take (number me) mem = mem.setVar (leftVar (number me)) 1 := by
    rw [take, hempty]
  have hapart : ∀ v, v < 3 → (mem.setVar (leftVar (number me)) 1).var v = mem.var v := by
    intro v hv
    rw [Memory.var_setVar, if_neg (by rw [leftVar]; omega)]
  rw [htake]
  apply h.change
  · intro t a ht ha hright
    cases a with
    | consumer left taking =>
        simp only [Account.Right, items, Memory.list_setVar, hapart closedVar (by decide)]
        rw [Memory.var_setVar, if_neg (by rwa [leftVar_inj])]
        exact hright
    | producer pending closed =>
        simp only [Account.Right, taken, items, Memory.list_setVar, hapart closedVar (by decide)]
        exact hright
  · intro a ha
    rw [hafter] at ha
    obtain rfl := Option.some.inj ha
    refine ⟨by simp, fun _ => ⟨hempty, ?_⟩, fun htaking => by cases htaking⟩
    rw [hapart closedVar (by decide)]
    exact hclosed
  · exact fun hfirst => absurd hfirst (h.ne_first hbefore)
  · intro t _
    have hne : restVar (number t) ≠ leftVar (number me) := by
      simp only [restVar, leftVar]
      omega
    rw [Memory.var_setVar, if_neg hne]
  · simp [hrest]
  · rw [hapart sumVar (by decide)]
    exact h.sum
  · rw [hapart countVar (by decide)]
    exact h.count

section Taking

variable {rest : List Int} {k v : Nat}

theorem take_cons (hitems : items mem = x :: rest) (k : Nat) :
    Queue.take k mem = (((mem.setList (.cell cell) rest).setList log (taken mem ++ [x])).setVar
      sumVar (mem.var sumVar + x)).setVar countVar (mem.var countVar + 1) := by
  rw [Queue.take, hitems]

theorem items_take (hitems : items mem = x :: rest) : items (Queue.take k mem) = rest := by
  rw [take_cons hitems, items]
  simp [log, cell]

theorem taken_take (hitems : items mem = x :: rest) :
    taken (Queue.take k mem) = taken mem ++ [x] := by
  rw [take_cons hitems, taken]
  simp

theorem var_take (hitems : items mem = x :: rest) (hsum : v ≠ sumVar) (hcount : v ≠ countVar) :
    (Queue.take k mem).var v = mem.var v := by
  rw [take_cons hitems]
  simp [hsum, hcount]

end Taking

/-- A consumer takes the first item. Nobody else is about to take one. -/
theorem Books.take (h : Books xs p mem) {rest : List Int}
    (hbefore : (p me).account xs = some (.consumer false true))
    (hafter : q.account xs = some (.consumer false false)) (hrest : q.rest? = none)
    (hitems : items mem = x :: rest)
    (halone : ∀ t left, t ≠ me → (p t).account xs ≠ some (.consumer left true)) :
    Books xs (update p me q) (take (number me) mem) := by
  obtain ⟨hvar, -, -⟩ := h.right me _ hbefore
  have hclosed : (Queue.take (number me) mem).var closedVar = mem.var closedVar :=
    var_take hitems (by decide) (by decide)
  have hleft : ∀ k, (Queue.take (number me) mem).var (leftVar k) = mem.var (leftVar k) := by
    intro k
    apply var_take hitems <;> simp [leftVar, sumVar, countVar]
  apply h.change
  · intro t a ht ha hright
    cases a with
    | consumer left taking =>
        obtain ⟨hvar, hgone, -⟩ := hright
        refine ⟨(hleft _).trans hvar, fun hl => ?_, fun htaking => ?_⟩
        · rw [(hgone hl).1] at hitems
          cases hitems
        · subst htaking
          exact absurd ha (halone t left ht)
    | producer pending closed =>
        obtain ⟨hfirst, hflow, hvar, hlast⟩ := hright
        refine ⟨hfirst, ?_, hclosed.trans hvar, hlast⟩
        rw [taken_take hitems, items_take hitems, ← hflow, hitems]
        simp
  · intro a ha
    rw [hafter] at ha
    obtain rfl := Option.some.inj ha
    exact ⟨(hleft _).trans hvar, by simp, by simp⟩
  · exact fun hfirst => absurd hfirst (h.ne_first hbefore)
  · intro t _
    apply var_take hitems <;> simp [restVar, sumVar, countVar]
  · simp [hrest]
  · rw [taken_take hitems, List.sum_append, ← h.sum, take_cons hitems]
    simp [sumVar, countVar]
  · rw [taken_take hitems, List.length_append, take_cons hitems]
    simp [h.count]

end Queue

end Baton
