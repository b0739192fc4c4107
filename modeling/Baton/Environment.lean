import Baton.Text.Blank
import Baton.Text.Lowercase
import Baton.Text.Numeral
import Baton.Text.Utf8

/-!
# Environment variables

A variable is a name and bytes. Readers see only values that are well-formed text: any other value
counts as unset. A typed reader trims the text and falls back to a default if it does not parse.
-/

namespace Baton

/-- The variables of a process, each with the bytes of its value. -/
structure Environment where
  bindings : List (String × List UInt8)

namespace Environment

/-- The bytes of a variable. -/
def bytes? (env : Environment) (name : String) : Option (List UInt8) :=
  (env.bindings.find? fun b => b.1 == name).map (·.2)

/-- The value of a variable, if it is set to well-formed text. -/
def text? (env : Environment) (name : String) : Option String :=
  (env.bytes? name).bind Text.Utf8.decode?

/-- Whether a variable is set to well-formed text. -/
def isSet (env : Environment) (name : String) : Bool := (env.text? name).isSome

/-- The value of a variable as it stands, or a default. -/
def text (env : Environment) (name default : String) : String := (env.text? name).getD default

/-- The trimmed value of a variable, if it parses. -/
def read? {α : Type} (env : Environment) (parse? : String → Option α) (name : String) : Option α :=
  (env.text? name).bind fun s => parse? (Text.trim s)

/-- The trimmed value of a variable, or a default if it is unset or does not parse. -/
def read {α : Type} (env : Environment) (parse? : String → Option α) (name : String)
    (default : α) : α :=
  (env.read? parse? name).getD default

/-- Whether a text is one of the four words for a flag that is on. -/
def saysOn (s : String) : Bool :=
  ["1", "true", "yes", "on"].contains (Text.lowercase (Text.trim s))

/-- A flag: on if the variable holds a word for it, off if it holds anything else. -/
def flag? (env : Environment) (name : String) : Option Bool := (env.text? name).map saysOn

/-- A flag, or a default if the variable is unset. -/
def flag (env : Environment) (name : String) (default : Bool) : Bool :=
  (env.flag? name).getD default

end Environment

end Baton
