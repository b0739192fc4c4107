import Baton.Text.Quoted

/-!
# Errors of the library

A configuration is refused for one of two causes; every other error concerns a primitive, the
registration of a backend, or a call made outside its scheduler.
-/

namespace Baton

/-- Why a configuration is refused. -/
inductive ConfigError where
  /-- A field is outside its bounds. -/
  | invalidValue (reason : String)
  /-- No backend has this name. -/
  | unknownBackend (name : String)
  deriving DecidableEq

/-- The error's text. -/
def ConfigError.message : ConfigError → String
  | .invalidValue reason => "invalid config: " ++ reason
  | .unknownBackend name => "unknown backend: " ++ name

/-- The error as diagnostics show it. -/
def ConfigError.describe : ConfigError → String
  | .invalidValue reason => "InvalidValue(" ++ Text.quoted reason ++ ")"
  | .unknownBackend name => "UnknownBackend(" ++ Text.quoted name ++ ")"

/-- Why an operation of the library fails. -/
inductive Fault where
  /-- A backend is registered already. -/
  | alreadyInitialized
  /-- No backend is registered yet. -/
  | notInitialized
  /-- A primitive could not be created. -/
  | resourceExhausted
  /-- A lock is released by a thread that does not hold it. -/
  | notHeld
  /-- The caller would wait for a lock that it holds itself. -/
  | wouldDeadlock
  /-- A rendezvous is given the guard of another mutex. -/
  | wrongMutex
  /-- The caller is not a logical thread. -/
  | notInScheduler
  /-- The configuration is refused. -/
  | config (cause : ConfigError)
  deriving DecidableEq

/-- The name of the cause. -/
def Fault.kind : Fault → String
  | .alreadyInitialized => "AlreadyInitialized"
  | .notInitialized => "NotInitialized"
  | .resourceExhausted => "ResourceExhausted"
  | .notHeld => "NotHeld"
  | .wouldDeadlock => "WouldDeadlock"
  | .wrongMutex => "WrongMutex"
  | .notInScheduler => "NotInScheduler"
  | .config _ => "Config"

/-- The error's text. -/
def Fault.message : Fault → String
  | .alreadyInitialized => "threading backend already registered"
  | .notInitialized => "no threading backend registered"
  | .resourceExhausted => "resource exhausted creating primitive"
  | .notHeld => "lock released by a thread that does not hold it"
  | .wouldDeadlock => "lock already held by the calling thread"
  | .wrongMutex => "rendezvous paired with a different mutex"
  | .notInScheduler => "called outside the cooperative scheduler"
  | .config cause => "config error: " ++ cause.message

/-- The error as diagnostics show it: its kind, with the cause of a refused configuration. -/
def Fault.describe : Fault → String
  | .config cause => "Config(" ++ cause.describe ++ ")"
  | e => e.kind

end Baton
