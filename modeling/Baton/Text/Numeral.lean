/-!
# Decimal numerals

A whole number is an optional sign and at least one decimal digit, nothing else. A minus sign is
a sign only where negative numbers are admitted, and a number outside the given bounds is refused.
-/

namespace Baton.Text

/-- The number that a nonempty row of decimal digits stands for. -/
def digits? : List Char → Option Nat
  | [] => none
  | cs => if cs.all Char.isDigit then
      some (cs.foldl (fun v c => v * 10 + (c.toNat - '0'.toNat)) 0)
    else none

/-- A whole number between `lo` and `hi`. -/
def wholeNumber? (lo hi : Int) (s : String) : Option Int :=
  let signed : Option Int := match s.toList with
    | '+' :: cs => (digits? cs).map Int.ofNat
    | '-' :: cs => if lo < 0 then (digits? cs).map fun n => -(n : Int) else none
    | cs => (digits? cs).map Int.ofNat
  signed.filter fun n => lo ≤ n && n ≤ hi

theorem wholeNumber?_bounds {lo hi n : Int} {s : String} (h : wholeNumber? lo hi s = some n) :
    lo ≤ n ∧ n ≤ hi := by
  unfold wholeNumber? at h
  have := (Option.filter_eq_some_iff.1 h).2
  simpa using this

end Baton.Text
