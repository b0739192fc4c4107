import Baton.Text.Unprintable

/-!
# Quoted text

Diagnostic output shows a text between double quotes. Quotes, backslashes and the four common
control characters are escaped by a backslash, other characters that cannot be seen by their
code point in braces.
-/

namespace Baton.Text

/-- The digits of `n` in base sixteen, without leading zeros. -/
def hex (n : Nat) : String := String.ofList (Nat.toDigits 16 n)

/-- An escape that names the code point. -/
def escapeCode (c : Char) : String := "\\u\x7b" ++ hex c.toNat ++ "\x7d"

/-- One character as it stands between the quotes. -/
def quotedChar (c : Char) : String :=
  if c = '\x00' then "\\0"
  else if c = '\t' then "\\t"
  else if c = '\r' then "\\r"
  else if c = '\n' then "\\n"
  else if c = '\\' then "\\\\"
  else if c = '"' then "\\\""
  else if extendingMarks.holds c || defaultIgnorable.holds c || unprintable.holds c then
    escapeCode c
  else String.singleton c

/-- The text between double quotes. -/
def quoted (s : String) : String := "\"" ++ String.join (s.toList.map quotedChar) ++ "\""

end Baton.Text
