/-!
# Stores

A store is a finite map, kept as a list of bindings. Setting a key moves its binding to the front,
so a key has at most one binding. All that later modules use are the equations for `get?` and `get`
after `set` and `erase`.
-/

namespace Baton

/-- A finite map from `κ` to `α`. -/
structure Store (κ α : Type) where
  bindings : List (κ × α)

namespace Store

variable {κ α : Type} [DecidableEq κ]

/-- The store without bindings. -/
def empty : Store κ α := ⟨[]⟩

instance : Inhabited (Store κ α) := ⟨empty⟩

/-- The value of a key. -/
def get? (s : Store κ α) (k : κ) : Option α :=
  (s.bindings.find? fun b => decide (b.1 = k)).map (·.2)

/-- The value of a key, or the default of the type. -/
def get [Inhabited α] (s : Store κ α) (k : κ) : α := (s.get? k).getD default

/-- The store without a key. -/
def erase (s : Store κ α) (k : κ) : Store κ α := ⟨s.bindings.filter fun b => decide (b.1 ≠ k)⟩

/-- Binds a key to a value. -/
def set (s : Store κ α) (k : κ) (v : α) : Store κ α := ⟨(k, v) :: (s.erase k).bindings⟩

/-- Changes the value of a key, which is the default of the type if it had none. -/
def update [Inhabited α] (s : Store κ α) (k : κ) (f : α → α) : Store κ α := s.set k (f (s.get k))

/-- Changes the value of a key that has one. -/
def modify (s : Store κ α) (k : κ) (f : α → α) : Store κ α :=
  match s.get? k with
  | some v => s.set k (f v)
  | none => s

/-- Binds the keys 0, 1, … to the values of a list. -/
def ofList (vs : List α) : Store Nat α := ⟨vs.zipIdx.map fun p => (p.2, p.1)⟩

/-- The keys that are bound. -/
def keys (s : Store κ α) : List κ := s.bindings.map (·.1)

@[simp] theorem get?_empty (k : κ) : (empty : Store κ α).get? k = none := rfl

@[simp] theorem get?_erase (s : Store κ α) (k j : κ) :
    (s.erase k).get? j = if j = k then none else s.get? j := by
  simp only [get?, erase, List.find?_filter]
  by_cases h : j = k
  · simp +contextual [h]
  · have : (fun b : κ × α => decide (decide (b.1 ≠ k) = true ∧ decide (b.1 = j) = true)) =
        fun b => decide (b.1 = j) := by
      funext b
      by_cases hb : b.1 = j <;> simp [hb, h]
    rw [this, if_neg h]

@[simp] theorem get?_set (s : Store κ α) (k j : κ) (v : α) :
    (s.set k v).get? j = if j = k then some v else s.get? j := by
  by_cases h : j = k
  · subst h
    simp [get?, set]
  · have hkj : k ≠ j := Ne.symm h
    have := get?_erase s k j
    simp only [get?, h, ↓reduceIte] at this
    simp [get?, set, hkj, h, this]

@[simp] theorem get_set [Inhabited α] (s : Store κ α) (k j : κ) (v : α) :
    (s.set k v).get j = if j = k then v else s.get j := by
  simp only [get, get?_set]
  split <;> rfl

/-- After a key has been set, another key is that one, or has the value that it had. -/
theorem get_of_eq_set [Inhabited α] {s s' : Store κ α} {k : κ} {v : α} (h : s' = s.set k v)
    (j : κ) :
    (j = k ∧ s'.get j = v) ∨ s'.get j = s.get j := by
  rw [h, get_set]
  split
  · exact .inl ⟨‹_›, rfl⟩
  · exact .inr rfl

/-- What holds of the value of `j` still holds if it holds of the new value of `k`. -/
theorem get_set_of_get [Inhabited α] {s : Store κ α} {k j : κ} {v : α} {P : α → Prop}
    (hv : j = k → P (s.get k) → P v) (h : P (s.get j)) : P ((s.set k v).get j) := by
  rw [get_set]
  split
  · rename_i he
    subst he
    exact hv rfl h
  · exact h

@[simp] theorem get_update [Inhabited α] (s : Store κ α) (k j : κ) (f : α → α) :
    (s.update k f).get j = if j = k then f (s.get k) else s.get j := by
  simp [update]

@[simp] theorem get?_modify (s : Store κ α) (k j : κ) (f : α → α) :
    (s.modify k f).get? j = if j = k then (s.get? k).map f else s.get? j := by
  unfold modify
  by_cases h : j = k
  · subst h
    cases hv : s.get? j with
    | none => simp [hv]
    | some v => simp
  · cases hv : s.get? k with
    | none => simp [h]
    | some v => simp [h]

theorem mem_keys_iff {s : Store κ α} {k : κ} : k ∈ s.keys ↔ (s.get? k).isSome = true := by
  simp [keys, get?, List.find?_isSome]

/-- A key without an entry has the default value. -/
theorem mem_keys_of_get_ne_default [Inhabited α] {s : Store κ α} {k : κ}
    (h : s.get k ≠ default) : k ∈ s.keys := by
  rw [mem_keys_iff, Option.isSome_iff_ne_none]
  intro hnone
  exact h (by rw [get, hnone]; rfl)

end Store

end Baton
