/-!
# Thread identities

A logical thread is named by a 64-bit number. The greatest number is kept for "no thread". An
allocator hands out consecutive numbers and wraps around, so identities repeat only after all
numbers have been used.
-/

namespace Baton

/-- The identity of a logical thread. -/
structure ThreadId where
  number : UInt64
  deriving DecidableEq

namespace ThreadId

/-- The sentinel for "no thread". -/
def none : ThreadId := ⟨0xFFFFFFFFFFFFFFFF⟩

/-- The first thread of a scheduler. -/
def first : ThreadId := ⟨1⟩

instance : Inhabited ThreadId := ⟨none⟩

instance (n : Nat) : OfNat ThreadId n := ⟨⟨UInt64.ofNat n⟩⟩

/-- Whether this is the sentinel. -/
def isNone (t : ThreadId) : Bool := t == none

/-- Whether this names a thread. -/
def isSome (t : ThreadId) : Bool := !t.isNone

/-- The identity, if it names a thread. -/
def toOption (t : ThreadId) : Option ThreadId := if t.isNone then Option.none else some t

/-- The decimal number, or a word for the sentinel. -/
def text (t : ThreadId) : String := if t.isNone then "none" else toString t.number.toNat

/-- The identity as diagnostics show it. -/
def describe (t : ThreadId) : String :=
  "ThreadId(" ++ (if t.isNone then "NONE" else toString t.number.toNat) ++ ")"

/-- An optional identity as diagnostics show it. -/
def describeOption : Option ThreadId → String
  | Option.none => "None"
  | some t => "Some(" ++ t.describe ++ ")"

/-- A list of identities as diagnostics show it. -/
def describeList (ts : List ThreadId) : String :=
  "[" ++ String.intercalate ", " (ts.map describe) ++ "]"

/-- Identities are ordered by number, so the sentinel is the greatest. -/
protected def compare (t u : ThreadId) : Ordering := compare t.number u.number

theorem toOption_eq_none_iff {t : ThreadId} : t.toOption = Option.none ↔ t = none := by
  simp [toOption, isNone]

theorem toOption_eq_some_iff {t u : ThreadId} : t.toOption = some u ↔ t = u ∧ u ≠ none := by
  simp only [toOption, isNone, beq_iff_eq]
  constructor
  · intro h
    split at h
    · cases h
    · cases h
      exact ⟨rfl, by assumption⟩
  · rintro ⟨rfl, h⟩
    simp [h]

end ThreadId

/-- Hands out identities in order. -/
structure IdAllocator where
  first : ThreadId
  /-- How many identities have been handed out. -/
  handed : Nat
  deriving DecidableEq

namespace IdAllocator

/-- An allocator whose first identity is `t`. -/
def startingAt (t : ThreadId) : IdAllocator := ⟨t, 0⟩

/-- The identity that is handed out as number `k`, counted from zero. -/
def nth (a : IdAllocator) (k : Nat) : ThreadId := ⟨a.first.number + UInt64.ofNat k⟩

/-- The identity that is handed out next. -/
def next (a : IdAllocator) : ThreadId := a.nth a.handed

/-- The next identity, and the allocator after it. -/
def allocate (a : IdAllocator) : ThreadId × IdAllocator :=
  (a.next, { a with handed := a.handed + 1 })

/-- The next `n` identities. -/
def take (a : IdAllocator) : Nat → List ThreadId
  | 0 => []
  | n + 1 => a.allocate.1 :: a.allocate.2.take n

/-- Whether an identity has been handed out. -/
def Issued (a : IdAllocator) (t : ThreadId) : Prop := ∃ k < a.handed, t = a.nth k

/-- The identities that have been handed out, oldest first. -/
def history (a : IdAllocator) : List ThreadId := (startingAt a.first).take a.handed

/-- Identities differ until the numbers are used up. -/
theorem nth_inj {a : IdAllocator} {i j : Nat} (hi : i < UInt64.size) (hj : j < UInt64.size) :
    a.nth i = a.nth j ↔ i = j := by
  constructor
  · intro heq
    have hsum : a.first.number + UInt64.ofNat i = a.first.number + UInt64.ofNat j :=
      congrArg ThreadId.number heq
    have hnat := congrArg UInt64.toNat (UInt64.add_right_inj _ |>.mp hsum)
    rwa [UInt64.toNat_ofNat_of_lt' hi, UInt64.toNat_ofNat_of_lt' hj] at hnat
  · rintro rfl
    rfl

theorem issued_allocate_iff {a : IdAllocator} {t : ThreadId} :
    a.allocate.2.Issued t ↔ a.Issued t ∨ t = a.next := by
  constructor
  · rintro ⟨k, hk, rfl⟩
    rcases Nat.lt_succ_iff_lt_or_eq.mp hk with hk | rfl
    · exact .inl ⟨k, hk, rfl⟩
    · exact .inr rfl
  · rintro (⟨k, hk, rfl⟩ | rfl)
    · exact ⟨k, Nat.lt_succ_of_lt hk, rfl⟩
    · exact ⟨a.handed, Nat.lt_succ_self _, rfl⟩

/-- The next identity is a new one until the numbers are used up. -/
theorem not_issued_next {a : IdAllocator} (h : a.handed < UInt64.size) : ¬ a.Issued a.next := by
  rintro ⟨k, hk, heq⟩
  have hsame := (nth_inj h (Nat.lt_trans hk h)).mp heq
  omega

@[simp] theorem length_take (a : IdAllocator) (n : Nat) : (a.take n).length = n := by
  induction n generalizing a with
  | zero => rfl
  | succ n ih => simp [take, ih]

end IdAllocator

end Baton
