import Baton.Text.Blank
import Baton.Text.Numeral

/-!
# Log levels

Six levels from off to trace. A message is written if its level is at most the current one; off
is a threshold only and no message has it.
-/

namespace Baton

/-- How much is logged, and how grave a message is. -/
inductive LogLevel where
  | off | error | warn | info | debug | trace
  deriving DecidableEq

namespace LogLevel

/-- The level's place in the order, from 0 for off. -/
def rank : LogLevel → Nat
  | off => 0
  | error => 1
  | warn => 2
  | info => 3
  | debug => 4
  | trace => 5

/-- The level at a place; places beyond the last are the last. -/
def ofRank : Nat → LogLevel
  | 0 => off
  | 1 => error
  | 2 => warn
  | 3 => info
  | 4 => debug
  | _ => trace

/-- All levels in order. -/
def all : List LogLevel := [off, error, warn, info, debug, trace]

/-- The level's name. -/
def name : LogLevel → String
  | off => "off"
  | error => "error"
  | warn => "warn"
  | info => "info"
  | debug => "debug"
  | trace => "trace"

/-- The level as diagnostics show it. -/
def describe : LogLevel → String
  | off => "Off"
  | error => "Error"
  | warn => "Warn"
  | info => "Info"
  | debug => "Debug"
  | trace => "Trace"

/-- What a line of the level starts with, padded to one width. -/
def label : LogLevel → String
  | off => ""
  | error => "[ERROR]"
  | warn => "[WARN] "
  | info => "[INFO] "
  | debug => "[DEBUG]"
  | trace => "[TRACE]"

/-- The text with the letters A to Z in lowercase and nothing else changed. -/
def asciiLower (s : String) : String := String.ofList (s.toList.map Char.toLower)

/-- A level given by its name in any case, or by its place. A number from 6 to 255 is no level,
and a greater one is no name either. -/
def parse? (s : String) : Option LogLevel :=
  let word := Text.trim s
  match Text.wholeNumber? 0 255 word with
  | some n => if n ≤ 5 then some (ofRank n.toNat) else none
  | none => all.find? fun l => l.name == asciiLower word

/-- Whether a message of level `l` is written when `current` is the threshold. -/
def admits (current l : LogLevel) : Bool := l != off && l.rank ≤ current.rank

/-- A message as it stands in its line. -/
def line (l : LogLevel) (message : String) : String := l.label ++ " sp: " ++ message

@[simp] theorem ofRank_rank (l : LogLevel) : ofRank l.rank = l := by cases l <;> rfl

theorem rank_ofRank (n : Nat) : (ofRank n).rank = min n 5 := by
  match n with
  | 0 | 1 | 2 | 3 | 4 => rfl
  | n + 5 => simp [ofRank, rank]

end LogLevel

end Baton
