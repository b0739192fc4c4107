/-!
# Words with one meaning

Texts that stand for a truth value or for a character, and for nothing else.
-/

namespace Baton.Text

/-- The truth value that a text spells out in lowercase. -/
def truthWord? : String → Option Bool
  | "true" => some true
  | "false" => some false
  | _ => none

/-- The spelling of a truth value. -/
def truthWord (b : Bool) : String := if b then "true" else "false"

/-- The character that a text consists of. -/
def singleChar? (s : String) : Option Char :=
  match s.toList with
  | [c] => some c
  | _ => none

@[simp] theorem truthWord?_truthWord (b : Bool) : truthWord? (truthWord b) = some b := by
  cases b <;> rfl

end Baton.Text
