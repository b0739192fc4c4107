import Baton.Ident
import Mathlib.Data.List.Nodup
import Mathlib.Data.List.Range

/-!
# When identities repeat

Whoever hands out identities relies on their not repeating. They do not repeat exactly as long as no
more of them are handed out than there are numbers.
-/

namespace Baton

namespace IdAllocator

variable {a : IdAllocator}

theorem take_eq_map (a : IdAllocator) (n : Nat) :
    a.take n = (List.range n).map fun k => a.nth (a.handed + k) := by
  induction n generalizing a with
  | zero => rfl
  | succ n ih =>
      rw [List.range_succ_eq_map, List.map_cons, List.map_map, take, ih]
      congr 1
      apply List.map_congr_left
      intro k _
      show a.nth (a.handed + 1 + k) = a.nth (a.handed + (k + 1))
      rw [Nat.add_right_comm, Nat.add_assoc]

theorem history_eq_map (a : IdAllocator) : a.history = (List.range a.handed).map a.nth := by
  rw [history, take_eq_map]
  apply List.map_congr_left
  intro k _
  show a.nth (0 + k) = a.nth k
  rw [Nat.zero_add]

/-- No identity has been handed out twice as long as the numbers last. -/
theorem nodup_history_iff : a.history.Nodup ↔ a.handed ≤ UInt64.size := by
  rw [history_eq_map, List.nodup_map_iff_inj_on List.nodup_range]
  constructor
  · intro hinj
    by_contra hmany
    have hlt : UInt64.size < a.handed := Nat.lt_of_not_le hmany
    have hwrap : UInt64.ofNat UInt64.size = UInt64.ofNat 0 := by decide
    have hsame : a.nth 0 = a.nth UInt64.size := by
      unfold nth
      rw [hwrap]
    have hzero := hinj 0 (List.mem_range.mpr (Nat.zero_lt_of_lt hlt)) UInt64.size
      (List.mem_range.mpr hlt) hsame
    exact absurd hzero (Nat.ne_of_lt (by decide))
  · intro hfew i hi j hj heq
    have hi := Nat.lt_of_lt_of_le (List.mem_range.mp hi) hfew
    have hj := Nat.lt_of_lt_of_le (List.mem_range.mp hj) hfew
    exact (nth_inj hi hj).mp heq

end IdAllocator

end Baton
