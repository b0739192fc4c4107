import Baton.Proofs.Registration
import Mathlib.Data.List.Induction

/-!
# The log: what it is set to and what it holds

The variables are read when the log is used for the first time, in whatever way. A value that a call
sets stands from then on, also if that call came first. So the calls and the variables tell at any
time what the level and the flags are, and with that which lines have been written.
-/

namespace Baton

namespace ProcessCall

/-- What a call sets the level to. Registration from the environment sets it if the settings are
accepted and ask for debug logging. -/
def levelSet? (env : Environment) : ProcessCall → Option LogLevel
  | setLogLevel l => some l
  | installFromEnvironment =>
    if (Settings.ofEnvironmentStrict env).toOption.any Settings.debugLogging then some .debug
    else none
  | _ => none

/-- What a call sets the flag for flushing to. -/
def flushSet? : ProcessCall → Option Bool
  | setFlush on => some on
  | _ => none

/-- What a call sets the flag for the time to. -/
def timeSet? : ProcessCall → Option Bool
  | setTime on => some on
  | _ => none

/-- Whether a call concerns the log and nothing else. -/
def isLogging : ProcessCall → Bool
  | install _ | threading | installFromEnvironment => false
  | _ => true

/-- The line that a logging call adds where the log is set to `t`: a message, if its level is not
off and at most the level that is set; and a bare text at any level. -/
def line? (t : LogSettings) : ProcessCall → Option LogLine
  | log l message =>
    if l ≠ .off ∧ l.rank ≤ t.level.rank then some ⟨t.time, l.line message⟩ else none
  | print text => some ⟨false, text⟩
  | _ => none

end ProcessCall

namespace LogSettings

/-- Whether a variable holds one of the four words that turn a flag on. -/
def flagAsked (env : Environment) (name : String) : Bool :=
  (env.text? name).any fun s => Text.lowercase (Text.trim s) ∈ ["1", "true", "yes", "on"]

/-- What the variables ask for. The level is warn if there is none or it does not parse. -/
def ofEnvironment (env : Environment) : LogSettings where
  level := ((env.text? "SP_LOG_LEVEL").bind LogLevel.parse?).getD .warn
  flush := flagAsked env "SP_FLUSH_EPRINT"
  time := flagAsked env "SP_LOG_TIME"

/-- The last value that calls set. -/
def last? {α : Type} (set? : ProcessCall → Option α) (calls : List ProcessCall) : Option α :=
  (calls.filterMap set?).getLast?

/-- What the log is set to after some calls, as they and the variables tell: the last value that was
set, or else what the variable asks for, each for itself. -/
def told (env : Environment) (calls : List ProcessCall) : LogSettings where
  level := (last? (ProcessCall.levelSet? env) calls).getD (ofEnvironment env).level
  flush := (last? ProcessCall.flushSet? calls).getD (ofEnvironment env).flush
  time := (last? ProcessCall.timeSet? calls).getD (ofEnvironment env).time

/-- The settings after one more call. -/
def changed (env : Environment) (c : ProcessCall) (t : LogSettings) : LogSettings :=
  ⟨(c.levelSet? env).getD t.level, c.flushSet?.getD t.flush, c.timeSet?.getD t.time⟩

theorem flag_eq_flagAsked (env : Environment) (name : String) :
    env.flag name false = flagAsked env name := by
  rw [Environment.flag, Environment.flag?, flagAsked]
  cases env.text? name with
  | none => rfl
  | some s => simp [Environment.saysOn]

variable {α : Type} {set? : ProcessCall → Option α}

theorem last?_concat (calls : List ProcessCall) (c : ProcessCall) :
    last? set? (calls ++ [c]) = (set? c).or (last? set? calls) := by
  rw [last?, last?, List.filterMap_append, List.getLast?_append]
  cases h : set? c <;> simp [h]

/-- A value that is set is the last one until another is set. -/
theorem getD_last? {calls later : List ProcessCall} {c : ProcessCall} {x : α}
    (hlater : ∀ b ∈ later, set? b = none) (hset : set? c = some x) (default : α) :
    (last? set? (calls ++ c :: later)).getD default = x := by
  rw [last?, List.filterMap_append, List.filterMap_cons_some hset,
    List.filterMap_eq_nil_iff.mpr hlater, List.getLast?_concat, Option.getD_some]

theorem told_concat (env : Environment) (calls : List ProcessCall) (c : ProcessCall) :
    told env (calls ++ [c]) = (told env calls).changed env c := by
  simp only [told, changed, last?_concat, Option.getD_or]

end LogSettings

/-- The lines that logging calls write, oldest first, if the calls `before` came first: each line by
what was told up to its call. -/
def transcript (env : Environment) (before : List ProcessCall) : List ProcessCall → List LogLine
  | [] => []
  | c :: later => (c.line? (LogSettings.told env before)).toList ++
      transcript env (before ++ [c]) later

theorem transcript_concat (env : Environment) (before calls : List ProcessCall) (c : ProcessCall) :
    transcript env before (calls ++ [c]) =
      transcript env before calls ++ (c.line? (LogSettings.told env (before ++ calls))).toList := by
  induction calls generalizing before with
  | nil => simp [transcript]
  | cons b calls ih => simp [transcript, ih, List.append_assoc]

theorem LogLevel.admits_iff {current l : LogLevel} :
    current.admits l = true ↔ l ≠ .off ∧ l.rank ≤ current.rank := by
  simp [admits]

namespace Registry

variable {p : Registry}

/-! ## One call -/

/-- A process that has not used the log has it set as the variables ask. -/
theorem logSettings_fresh (env : Environment) :
    (fresh env).logSettings = .ofEnvironment env := by
  have hlevel : (Logger.fresh.start env).level = (LogSettings.ofEnvironment env).level := by
    rw [Logger.start, if_neg (by decide), LogSettings.ofEnvironment]
    cases env.text? "SP_LOG_LEVEL" with
    | none => rfl
    | some s => simp only [Option.bind_some]
  show LogSettings.mk _ (env.flag "SP_FLUSH_EPRINT" false) (env.flag "SP_LOG_TIME" false) = _
  rw [LogSettings.flag_eq_flagAsked, LogSettings.flag_eq_flagAsked]
  exact congrArg (LogSettings.mk · _ _) hlevel

theorem logSettings_start (p : Registry) : (p.onLogger Logger.start).logSettings = p.logSettings :=
  logSettings_onLogger (Logger.started_start _ _)

theorem logSettings_print (text : String) (p : Registry) :
    (p.onLogger fun env => Logger.print env text).logSettings = p.logSettings :=
  logSettings_onLogger (f := fun env => Logger.print env text) (Logger.started_start _ _)

theorem logSettings_install (d : Dispatch) (p : Registry) :
    (p.install d).2.logSettings = p.logSettings := by
  rw [install]
  split <;> exact logSettings_log _ _ _

/-- A call changes what it sets, and nothing else. -/
theorem logSettings_perform (c : ProcessCall) (p : Registry) :
    (c.perform p).2.logSettings = p.logSettings.changed p.env c := by
  cases c with
  | startLogging | logLevel | flush => exact logSettings_start p
  | setLogLevel l => exact logSettings_setLogLevel l p
  | setFlush on =>
      exact logSettings_onLogger (f := fun env => Logger.setFlush env on)
        (Logger.started_start _ _)
  | setTime on =>
      exact logSettings_onLogger (f := fun env => Logger.setTime env on)
        (Logger.started_start _ _)
  | log l message => exact logSettings_log l message p
  | print text => exact logSettings_print text p
  | enabled l =>
      show (p.enabled l).2.logSettings = p.logSettings
      rw [enabled]
      split
      · rfl
      · exact logSettings_start p
  | install kind => exact logSettings_install _ _
  | threading => rfl
  | installFromEnvironment =>
      show p.installFromEnvironment.2.logSettings = _
      cases h : Settings.ofEnvironmentStrict p.env with
      | error e =>
          rw [installFromEnvironment_of_error h, LogSettings.changed, ProcessCall.levelSet?, h]
          rfl
      | ok s =>
          rw [installFromEnvironment_of_ok h, offer, logSettings_install]
          show (p.prepare s).logSettings = _
          have hset : ProcessCall.installFromEnvironment.levelSet? p.env =
              if s.debugLogging then some .debug else none := by
            rw [ProcessCall.levelSet?, h]
            rfl
          rw [logSettings_prepare, LogSettings.changed, hset]
          cases s.debugLogging <;> rfl

/-- A logging call adds the line that it makes, if any. -/
theorem written_perform {c : ProcessCall} (hc : c.isLogging = true) (p : Registry) :
    (c.perform p).2.logger.written = (c.line? p.logSettings).toList ++ p.logger.written := by
  have hstart := Logger.written_start p.env p.logger
  cases c with
  | log l message =>
      show (p.logger.log p.env l message).written =
        (ProcessCall.line? p.logSettings (.log l message)).toList ++ _
      rw [Logger.log, ProcessCall.line?]
      by_cases hl : l ≠ .off ∧ l.rank ≤ p.logSettings.level.rank
      · have hadmits : (p.logger.start p.env).level.admits l = true := LogLevel.admits_iff.mpr hl
        rw [if_pos hadmits, if_pos hl, hstart]
        rfl
      · have hrefuses : ¬ (p.logger.start p.env).level.admits l = true :=
          mt LogLevel.admits_iff.mp hl
        rw [if_neg hrefuses, if_neg hl, hstart]
        rfl
  | print text => exact congrArg (LogLine.mk false text :: ·) hstart
  | enabled l =>
      show (p.enabled l).2.logger.written = _
      rw [enabled]
      split
      · rfl
      · exact hstart
  | startLogging | logLevel | setLogLevel _ | flush | setFlush _ | setTime _ => exact hstart
  | install _ | threading | installFromEnvironment => cases hc

/-- What calls of a process come to where the log is set to `t`. -/
structure LogsBy (p : Registry) (t : LogSettings) : Prop where
  settings : p.logSettings = t
  asksLevel : (ProcessCall.logLevel.perform p).1 = .level t.level
  asksFlush : (ProcessCall.flush.perform p).1 = .flag t.flush
  asksEnabled : ∀ l, ((ProcessCall.enabled l).perform p).1 =
    .flag (decide (l ≠ .off ∧ l.rank ≤ t.level.rank))
  setsLevel : ∀ l, ((ProcessCall.setLogLevel l).perform p).2.logSettings = { t with level := l }
  setsFlush : ∀ on, ((ProcessCall.setFlush on).perform p).2.logSettings = { t with flush := on }
  setsTime : ∀ on, ((ProcessCall.setTime on).perform p).2.logSettings = { t with time := on }
  /-- A message is written exactly if its level is not off and at most the level that is set. -/
  writes : ∀ c : ProcessCall, c.isLogging = true →
    (c.perform p).2.logger.written = (c.line? t).toList ++ p.logger.written

theorem logsBy_logSettings (p : Registry) : p.LogsBy p.logSettings where
  settings := rfl
  asksLevel := rfl
  asksFlush := rfl
  asksEnabled l := by
    show ProcessReply.flag (p.enabled l).1 = _
    rw [enabled]
    split
    case isTrue h => simp [h]
    case isFalse h =>
      exact congrArg ProcessReply.flag
        (Bool.eq_iff_iff.mpr (LogLevel.admits_iff.trans decide_eq_true_iff.symm))
  setsLevel l := logSettings_perform _ _
  setsFlush on := logSettings_perform _ _
  setsTime on := logSettings_perform _ _
  writes c hc := written_perform hc p

/-! ## All calls -/

theorem logSettings_after (env : Environment) (calls : List ProcessCall) :
    (after env calls).logSettings = .told env calls := by
  induction calls using List.reverseRecOn with
  | nil => exact logSettings_fresh env
  | append_singleton calls c ih =>
      rw [after_concat, logSettings_perform, env_after, ih, LogSettings.told_concat]

theorem written_after (env : Environment) {calls : List ProcessCall}
    (hcalls : ∀ c ∈ calls, c.isLogging = true) :
    (after env calls).logger.written.reverse = transcript env [] calls := by
  induction calls using List.reverseRecOn with
  | nil => rfl
  | append_singleton calls c ih =>
      have hc : c.isLogging = true := hcalls c (by simp)
      rw [after_concat, written_perform hc, List.reverse_append,
        ih fun b hb => hcalls b (List.mem_append_left _ hb), logSettings_after, transcript_concat,
        List.nil_append]
      cases c.line? (LogSettings.told env calls) <;> rfl

/-- After any calls the log is set to what they and the variables tell: the last value set, or else
what the variable asks for, each for itself. All calls go by that. A value that is set stands until
another is set, whether the log has been used before or not; and the lines of a process that only
logs are those that were to be written when their calls came. -/
theorem log_follows_calls (env : Environment) (calls : List ProcessCall) :
    (after env calls).LogsBy (.told env calls) ∧
    (∀ l later, (∀ c ∈ later, c.levelSet? env = none) →
      (after env (calls ++ .setLogLevel l :: later)).logSettings.level = l) ∧
    (∀ on later, (∀ c ∈ later, c.flushSet? = none) →
      (after env (calls ++ .setFlush on :: later)).logSettings.flush = on) ∧
    (∀ on later, (∀ c ∈ later, c.timeSet? = none) →
      (after env (calls ++ .setTime on :: later)).logSettings.time = on) ∧
    ((∀ c ∈ calls, c.isLogging = true) →
      (after env calls).logger.written.reverse = transcript env [] calls) := by
  refine ⟨logSettings_after env calls ▸ logsBy_logSettings _, fun l later hlater => ?_,
    fun on later hlater => ?_, fun on later hlater => ?_, written_after env⟩ <;>
    rw [logSettings_after]
  · exact LogSettings.getD_last? (c := .setLogLevel l) hlater rfl _
  · exact LogSettings.getD_last? (c := .setFlush on) hlater rfl _
  · exact LogSettings.getD_last? (c := .setTime on) hlater rfl _

/-- The environment of a process that asks for all three. -/
def chatty : Environment :=
  ⟨[("SP_LOG_LEVEL", Text.Utf8.encode " Debug".toList), ("SP_FLUSH_EPRINT", [0x31]),
    ("SP_LOG_TIME", Text.Utf8.encode "ON".toList)]⟩

/-- Calls that set the level and a flag before the first line. -/
def muffled : List ProcessCall :=
  [.setLogLevel .warn, .setFlush false, .log .debug "a", .log .warn "b", .setTime false,
    .log .error "c", .print "d"]

/-- What was set first stands, and a line bears the time until that is set to off. -/
theorem log_follows_calls_chatty :
    (∀ c ∈ muffled.drop 1, c.levelSet? chatty = none) ∧
      (∀ c ∈ muffled.drop 2, c.flushSet? = none) ∧ (∀ c ∈ muffled.drop 5, c.timeSet? = none) ∧
      (∀ c ∈ muffled, c.isLogging = true) ∧
      (after chatty muffled).logSettings.level = .warn ∧
      (after chatty muffled).logSettings.flush = false ∧
      (after chatty muffled).logSettings.time = false ∧
      (after chatty muffled).logger.written.reverse =
        [⟨true, "[WARN]  sp: b"⟩, ⟨false, "[ERROR] sp: c"⟩, ⟨false, "d"⟩] := by
  have hlevel : ∀ c ∈ muffled.drop 1, c.levelSet? chatty = none := by decide +kernel
  have hflush : ∀ c ∈ muffled.drop 2, c.flushSet? = none := by decide
  have htime : ∀ c ∈ muffled.drop 5, c.timeSet? = none := by decide
  have hlogging : ∀ c ∈ muffled, c.isLogging = true := by decide
  exact ⟨hlevel, hflush, htime, hlogging,
    (log_follows_calls chatty []).2.1 .warn _ hlevel,
    (log_follows_calls chatty [.setLogLevel .warn]).2.2.1 false _ hflush,
    (log_follows_calls chatty (muffled.take 4)).2.2.2.1 false _ htime,
    ((log_follows_calls chatty muffled).2.2.2.2 hlogging).trans (by decide +kernel)⟩

end Registry

end Baton
