import Baton.Log.Logger
import Baton.Log.Notice
import Baton.Settings

/-!
# Registration in a process

A process registers one dispatch object for its life. The first registration stands; later ones
fail and leave it as it is. Registration from the environment checks the settings first.
-/

namespace Baton

/-- A dispatch object: a backend, and a number that tells objects of one process apart. -/
structure Dispatch where
  backend : BackendKind
  serial : Nat
  deriving DecidableEq

/-- The object as diagnostics show it. -/
def Dispatch.describe (d : Dispatch) : String :=
  "Threading \x7b backend: " ++ Text.quoted d.backend.name ++ " \x7d"

/-- The state of a process that concerns registration and logging. -/
structure Registry where
  env : Environment
  logger : Logger
  registered : Option Dispatch
  /-- How many dispatch objects have been made. -/
  made : Nat

namespace Registry

/-- A process in which nothing has happened yet. -/
def fresh (env : Environment) : Registry := ⟨env, .fresh, none, 0⟩

/-- Applies an operation of the logger. -/
def onLogger (f : Environment → Logger → Logger) (p : Registry) : Registry :=
  { p with logger := f p.env p.logger }

/-- Logs a message. -/
def log (l : LogLevel) (message : String) (p : Registry) : Registry :=
  p.onLogger fun env => Logger.log env l message

/-- Logs notices in order. -/
def record (ns : List Notice) (p : Registry) : Registry :=
  ns.foldl (fun p n => p.log n.level n.text) p

/-- The current log level. -/
def logLevel (p : Registry) : LogLevel := (p.logger.start p.env).level

/-- Whether messages of a level are written at present. To ask for off starts nothing. -/
def enabled (l : LogLevel) (p : Registry) : Bool × Registry :=
  if l = .off then (false, p) else (p.logLevel.admits l, p.onLogger Logger.start)

/-- Sets the log level. -/
def setLogLevel (l : LogLevel) (p : Registry) : Registry :=
  p.onLogger fun env => Logger.setLevel env l

/-- Makes a dispatch object for a backend. -/
def make (kind : BackendKind) (p : Registry) : Dispatch × Registry :=
  (⟨kind, p.made⟩, { p with made := p.made + 1 })

/-- Registers an object, unless one is registered already. -/
def install (d : Dispatch) (p : Registry) : Except Fault Dispatch × Registry :=
  match p.registered with
  | some old =>
    (.error .alreadyInitialized,
      p.log .warn ("syncport: " ++ d.backend.name ++ " backend not registered, " ++
        old.backend.name ++ " already is"))
  | none =>
    (.ok d,
      { p with registered := some d }.log .info ("syncport: registered " ++ d.backend.name ++
        " backend"))

/-- The registered object. -/
def threading (p : Registry) : Except Fault Dispatch :=
  match p.registered with
  | some d => .ok d
  | none => .error .notInitialized

/-- Registers an object as the environment asks. -/
def installFromEnvironment (p : Registry) : Except Fault Dispatch × Registry :=
  match Settings.ofEnvironmentStrict p.env with
  | .error e => (.error (.config e), p)
  | .ok s =>
    let p := if s.debugLogging then p.setLogLevel .debug else p
    let p := p.log .debug ("syncport: backend " ++ s.backend.name ++ " from environment")
    let (d, p) := p.make s.backend
    p.install d

end Registry

/-- A call of a process that concerns registration or logging. -/
inductive ProcessCall where
  | startLogging
  | logLevel
  | setLogLevel (l : LogLevel)
  | flush
  | setFlush (on : Bool)
  | setTime (on : Bool)
  | log (l : LogLevel) (message : String)
  | print (text : String)
  | enabled (l : LogLevel)
  /-- Registers a new object for a backend. -/
  | install (kind : BackendKind)
  | threading
  | installFromEnvironment

/-- The answer to such a call. -/
inductive ProcessReply where
  | done
  | level (l : LogLevel)
  | flag (b : Bool)
  | registration (r : Except Fault Dispatch)

namespace ProcessCall

/-- Carries out a call. -/
def perform : ProcessCall → Registry → ProcessReply × Registry
  | startLogging, p => (.done, p.onLogger Logger.start)
  | logLevel, p => (.level p.logLevel, p.onLogger Logger.start)
  | setLogLevel l, p => (.done, p.setLogLevel l)
  | flush, p => (.flag (p.logger.start p.env).flush, p.onLogger Logger.start)
  | setFlush on, p => (.done, p.onLogger fun env => Logger.setFlush env on)
  | setTime on, p => (.done, p.onLogger fun env => Logger.setTime env on)
  | log l message, p => (.done, p.log l message)
  | print text, p => (.done, p.onLogger fun env => Logger.print env text)
  | enabled l, p =>
    let (b, p) := p.enabled l
    (.flag b, p)
  | install kind, p =>
    let (d, p) := p.make kind
    let (r, p) := p.install d
    (.registration r, p)
  | threading, p => (.registration p.threading, p)
  | installFromEnvironment, p =>
    let (r, p) := p.installFromEnvironment
    (.registration r, p)

end ProcessCall

/-- The process after some calls. -/
def Registry.after (env : Environment) (calls : List ProcessCall) : Registry :=
  calls.foldl (fun p c => (c.perform p).2) (.fresh env)

end Baton
