import Baton.Text.Ranges

/-!
# Blank characters

White space in the sense of the character database, and the removal of it at both ends of a text.
The zero width space is not blank.
-/

namespace Baton.Text

/-- The code points with the property White_Space. -/
def whiteSpace : Ranges :=
  [(9, 13), (32, 32), (133, 133), (160, 160), (5760, 5760), (8192, 8202), (8232, 8233),
   (8239, 8239), (8287, 8287), (12288, 12288)]

/-- Whether `c` is white space. -/
def isBlank (c : Char) : Bool := whiteSpace.holds c

/-- The characters of a text without the blank ones at either end. -/
def trimList (cs : List Char) : List Char :=
  ((cs.dropWhile isBlank).reverse.dropWhile isBlank).reverse

/-- The text without the blank characters at either end. -/
def trim (s : String) : String := String.ofList (trimList s.toList)

/-- A trimmed text does not end in a blank character. -/
theorem isBlank_getLast_trimList {cs : List Char} (h : trimList cs ≠ []) :
    isBlank ((trimList cs).getLast h) = false := by
  have hne : (cs.dropWhile isBlank).reverse.dropWhile isBlank ≠ [] := by
    intro h0
    exact h (by simp [trimList, h0])
  have hhead := List.head_dropWhile_not isBlank hne
  simpa [trimList, List.getLast_reverse] using hhead

end Baton.Text
