import Baton.Environment
import Baton.Log.Level

/-!
# The logger

The logger has a level and two flags. It reads the environment once, when it is first used in any
way; a value that the caller sets stands until the caller sets another. Every function here starts
the logger before it does its own work.
-/

namespace Baton

/-- A line that was written, and whether the time stands in front of it. -/
structure LogLine where
  timed : Bool
  text : String
  deriving DecidableEq

/-- The line with `stamp` as its time. A text of several lines is stamped once. -/
def LogLine.render (stamp : String) (l : LogLine) : List String :=
  ((if l.timed then stamp ++ " " else "") ++ l.text).splitOn "\n"

/-- The state of logging in a process. -/
structure Logger where
  /-- Whether the environment has been read. -/
  started : Bool
  level : LogLevel
  /-- Whether output is flushed after each line. -/
  flush : Bool
  /-- Whether lines start with the time. -/
  time : Bool
  /-- The lines written so far, newest first. -/
  written : List LogLine

namespace Logger

/-- The logger of a fresh process. -/
def fresh : Logger := ⟨false, .warn, false, false, []⟩

/-- Takes level and flags from the environment, unless that was done before. -/
def start (env : Environment) (g : Logger) : Logger :=
  if g.started then g
  else { g with
    started := true
    level := match env.text? "SP_LOG_LEVEL" with
      | some s => (LogLevel.parse? s).getD .warn
      | none => g.level
    flush := env.flag "SP_FLUSH_EPRINT" g.flush
    time := env.flag "SP_LOG_TIME" g.time }

/-- Sets the level. -/
def setLevel (env : Environment) (l : LogLevel) (g : Logger) : Logger :=
  { g.start env with level := l }

/-- Sets the flag for flushing. -/
def setFlush (env : Environment) (on : Bool) (g : Logger) : Logger :=
  { g.start env with flush := on }

/-- Sets the flag for the time. -/
def setTime (env : Environment) (on : Bool) (g : Logger) : Logger :=
  { g.start env with time := on }

/-- Writes a bare line. -/
def print (env : Environment) (text : String) (g : Logger) : Logger :=
  let g := g.start env
  { g with written := ⟨false, text⟩ :: g.written }

/-- Writes a message of a level, if the current level admits it. -/
def log (env : Environment) (l : LogLevel) (message : String) (g : Logger) : Logger :=
  let g := g.start env
  if g.level.admits l then { g with written := ⟨g.time, l.line message⟩ :: g.written } else g

/-- The lines written so far, oldest first, with `stamp` for the time. -/
def output (stamp : String) (g : Logger) : List String :=
  g.written.reverse.flatMap (LogLine.render stamp)

@[simp] theorem started_start (env : Environment) (g : Logger) : (g.start env).started = true := by
  unfold start
  split <;> simp_all

@[simp] theorem start_start (env env' : Environment) (g : Logger) :
    (g.start env).start env' = g.start env := by
  rw [start, if_pos (started_start env g)]

@[simp] theorem written_start (env : Environment) (g : Logger) :
    (g.start env).written = g.written := by
  unfold start
  split <;> rfl

end Logger

end Baton
