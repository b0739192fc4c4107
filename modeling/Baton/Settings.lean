import Baton.Environment
import Baton.Fault
import Baton.Text.Span
import Baton.Text.Word

/-!
# Settings

Which backend to use and how it behaves. Settings start from fixed defaults, which environment
variables and then the caller override. The strict reader refuses an unknown backend name and
values out of bounds; the lenient one replaces them.
-/

namespace Baton

/-- The two families of primitives. -/
inductive BackendKind where
  /-- Preemptive threads of the operating system. -/
  | native
  /-- Cooperative logical threads. -/
  | coop
  deriving DecidableEq

namespace BackendKind

/-- The backend's name. -/
def name : BackendKind → String
  | native => "native"
  | coop => "coop"

/-- The backend as diagnostics show it. -/
def describe : BackendKind → String
  | native => "Native"
  | coop => "Coop"

/-- The backend that a word in lowercase names. -/
def ofWord? : String → Option BackendKind
  | "native" | "os" | "pthread" => some native
  | "coop" | "cooperative" | "green" => some coop
  | _ => none

/-- The backend named by a text in any case, with blank characters around it. The error holds the
word that was looked for. -/
def parse (s : String) : Except ConfigError BackendKind :=
  let word := Text.lowercase (Text.trim s)
  match ofWord? word with
  | some kind => .ok kind
  | none => .error (.unknownBackend word)

/-- The backend named by a text, if any. -/
def parse? (s : String) : Option BackendKind := (parse s).toOption

end BackendKind

/-- How to build a backend. -/
structure Settings where
  /-- Which backend to register. -/
  backend : BackendKind
  /-- Attempts before a contended native mutex sleeps. -/
  mutexSpins : Nat
  /-- The longest single idle poll of the cooperative scheduler. -/
  idlePoll : Span
  /-- Whether registration sets the log level to debug. -/
  debugLogging : Bool
  deriving DecidableEq

namespace Settings

/-- The settings without any override. -/
def standard : Settings := ⟨.native, 100, Span.ofMillis 10, false⟩

/-- The greatest number of spins. -/
def maxSpins : Nat := 1000000

/-- The longest idle poll. -/
def maxIdlePoll : Span := Span.ofParts 60 0

/-- A whole number from 0 to `greatest`. -/
def unsigned? (greatest : Nat) (s : String) : Option Nat :=
  (Text.wholeNumber? 0 greatest s).map Int.toNat

/-- The standard settings with the overrides of the environment; an override that does not parse
has no effect. -/
def ofEnvironment (env : Environment) : Settings where
  backend := env.read BackendKind.parse? "SP_BACKEND" standard.backend
  mutexSpins := env.read (unsigned? 4294967295) "SP_MUTEX_SPINS" standard.mutexSpins
  idlePoll := Span.ofMillis (env.read (unsigned? 18446744073709551615) "SP_IDLE_POLL_MS" 10)
  debugLogging := env.flag "SP_DEBUG" standard.debugLogging

/-- Checks the bounds of the fields, spins first. -/
def validate (s : Settings) : Except ConfigError Unit :=
  if maxSpins < s.mutexSpins then .error (.invalidValue "mutex_spins must be <= 1000000")
  else if s.idlePoll.nanos = 0 then .error (.invalidValue "idle_poll_interval must be > 0")
  else if maxIdlePoll.nanos < s.idlePoll.nanos then
    .error (.invalidValue "idle_poll_interval must be <= 60s")
  else .ok ()

/-- The settings of the environment, unless the backend's name is unknown or a field is out of
bounds. The name is checked first. -/
def ofEnvironmentStrict (env : Environment) : Except ConfigError Settings := do
  let lenient := ofEnvironment env
  let kind ← match env.read? some "SP_BACKEND" with
    | some name => BackendKind.parse name
    | none => .ok lenient.backend
  let s := { lenient with backend := kind }
  s.validate
  return s

/-- The report of the settings, line by line. -/
def report (s : Settings) : List String :=
  ["syncport Configuration:",
   "  backend:             " ++ s.backend.name,
   "  mutex_spins:         " ++ toString s.mutexSpins,
   "  idle_poll_interval:  " ++ s.idlePoll.text,
   "  debug_logging:       " ++ Text.truthWord s.debugLogging]

theorem validate_eq_ok_iff {s : Settings} :
    s.validate = .ok () ↔
      s.mutexSpins ≤ maxSpins ∧ 0 < s.idlePoll.nanos ∧ s.idlePoll.nanos ≤ maxIdlePoll.nanos := by
  unfold validate
  split
  · simp only [reduceCtorEq, false_iff, not_and]
    omega
  · split
    · simp only [reduceCtorEq, false_iff, not_and]
      omega
    · split
      · simp only [reduceCtorEq, false_iff, not_and]
        omega
      · simp only [true_iff]
        omega

end Settings

end Baton
