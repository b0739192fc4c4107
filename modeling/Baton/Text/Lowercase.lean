import Baton.Text.CaseTables

/-!
# Lowercase text

Letter by letter, with two exceptions: the capital I with a dot above becomes two characters,
and a capital sigma becomes the final form at the end of a word.
-/

namespace Baton.Text

/-- The lowercase form of one character, wherever it stands. -/
def lowercaseChar (c : Char) : List Char :=
  if c = 'İ' then ['i', '\u0307']
  else match lowercaseRuns.find? fun r => r.holds c.toNat with
    | some r => [Char.ofNat (c.toNat + r.shift).toNat]
    | none => [c]

/-- Whether the nearest character that is not passed over is a cased letter. -/
def meetsLetter (cs : List Char) : Bool :=
  match cs.dropWhile fun c => caseIgnorable.holds c with
  | c :: _ => cased.holds c
  | [] => false

/-- Lowers `after`, knowing what stands `before` it, nearest character first. A capital sigma is
final if a letter stands before it and none behind it. -/
def lowercaseFrom (before : List Char) : List Char → List Char
  | [] => []
  | c :: after =>
    let low :=
      if c = 'Σ' then
        if meetsLetter before && !meetsLetter after then ['ς'] else ['σ']
      else lowercaseChar c
    low ++ lowercaseFrom (c :: before) after

/-- The text in lowercase. -/
def lowercase (s : String) : String := String.ofList (lowercaseFrom [] s.toList)

end Baton.Text
