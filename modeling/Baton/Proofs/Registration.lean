import Baton.Registry

/-!
# Registration: what it does to the process

Registration from the environment fails on the settings, and then changes nothing; or it fails
because an object is registered already. By then it has set the log level, so the level may change
although nothing is registered. The level is set to debug whatever it was, which lowers it from
trace.
-/

namespace Baton

/-- A sequence of checks succeeds if its first one does and the rest does. -/
theorem exists_of_bind_eq_ok {ε α β : Type} {x : Except ε α} {f : α → Except ε β} {b : β}
    (h : x >>= f = .ok b) : ∃ a, x = .ok a ∧ f a = .ok b := by
  cases x with
  | error e => cases h
  | ok a => exact ⟨a, rfl, h⟩

theorem exists_ok_of_isOk {ε α : Type} {x : Except ε α} (h : x.isOk = true) : ∃ a, x = .ok a := by
  cases x with
  | error e => cases h
  | ok a => exact ⟨a, rfl⟩

/-- The strict reader takes the flag for debug logging as the lenient one does. -/
theorem Settings.debugLogging_of_strict {env : Environment} {s : Settings}
    (h : ofEnvironmentStrict env = .ok s) : s.debugLogging = env.flag "SP_DEBUG" false := by
  rw [ofEnvironmentStrict] at h
  split at h
  all_goals
    obtain ⟨kind, -, h⟩ := exists_of_bind_eq_ok h
    obtain ⟨-, -, h⟩ := exists_of_bind_eq_ok h
    exact congrArg debugLogging (Except.ok.inj h).symm

/-- What the log is set to. -/
structure LogSettings where
  level : LogLevel
  flush : Bool
  time : Bool
  deriving DecidableEq

theorem Logger.start_of_started {env : Environment} {g : Logger} (h : g.started = true) :
    g.start env = g := if_pos h

namespace Registry

variable {p : Registry} {d old : Dispatch} {e : Fault}

/-! ## What the log is set to -/

/-- What the log of a process is set to. Whoever asks for it starts the log. -/
def logSettings (p : Registry) : LogSettings :=
  let g := p.logger.start p.env
  ⟨g.level, g.flush, g.time⟩

theorem logSettings_onLogger {f : Environment → Logger → Logger}
    (h : (f p.env p.logger).started = true) :
    (p.onLogger f).logSettings =
      ⟨(f p.env p.logger).level, (f p.env p.logger).flush, (f p.env p.logger).time⟩ := by
  rw [logSettings]
  dsimp only [onLogger]
  rw [Logger.start_of_started h]

theorem logSettings_setLogLevel (l : LogLevel) (p : Registry) :
    (p.setLogLevel l).logSettings = { p.logSettings with level := l } :=
  logSettings_onLogger (f := fun env => Logger.setLevel env l) (Logger.started_start _ _)

theorem logSettings_log (l : LogLevel) (message : String) (p : Registry) :
    (p.log l message).logSettings = p.logSettings := by
  obtain ⟨ls, hlog⟩ : ∃ ls, p.logger.log p.env l message =
      { p.logger.start p.env with written := ls } := by
    rw [Logger.log]
    dsimp only
    split <;> exact ⟨_, rfl⟩
  have hstarted := Logger.started_start p.env p.logger
  rw [log, logSettings_onLogger (f := fun env => Logger.log env l message) (hlog ▸ hstarted), hlog]
  rfl

theorem logLevel_log (l : LogLevel) (message : String) (p : Registry) :
    (p.log l message).logLevel = p.logLevel :=
  congrArg LogSettings.level (logSettings_log l message p)

/-! ## Registering an object -/

theorem install_of_none (d : Dispatch) (h : p.registered = none) :
    (p.install d).1 = .ok d ∧ (p.install d).2.registered = some d ∧
      (p.install d).2.logLevel = p.logLevel := by
  simp only [install, h]
  exact ⟨trivial, rfl, logLevel_log _ _ _⟩

theorem install_of_some (d : Dispatch) (h : p.registered = some old) :
    (p.install d).1 = .error .alreadyInitialized ∧ (p.install d).2.registered = some old ∧
      (p.install d).2.logLevel = p.logLevel := by
  simp only [install, h]
  exact ⟨trivial, h, logLevel_log _ _ _⟩

/-! ## Registration from the environment -/

/-- The log level that sound settings ask for. -/
def levelAsked (p : Registry) : LogLevel :=
  if p.env.flag "SP_DEBUG" false then .debug else p.logLevel

/-- What registration from the environment does before it registers an object. -/
def prepare (s : Settings) (p : Registry) : Registry :=
  (if s.debugLogging then p.setLogLevel .debug else p).log .debug
    ("syncport: backend " ++ s.backend.name ++ " from environment")

theorem env_prepare (s : Settings) (p : Registry) : (p.prepare s).env = p.env := by
  rw [prepare]
  split <;> rfl

theorem registered_prepare (s : Settings) (p : Registry) :
    (p.prepare s).registered = p.registered := by
  rw [prepare]
  split <;> rfl

theorem logSettings_prepare (s : Settings) (p : Registry) : (p.prepare s).logSettings =
    if s.debugLogging then { p.logSettings with level := .debug } else p.logSettings := by
  rw [prepare, logSettings_log]
  split
  · exact logSettings_setLogLevel .debug p
  · rfl

theorem logLevel_prepare (s : Settings) (p : Registry) :
    (p.prepare s).logLevel = if s.debugLogging then .debug else p.logLevel :=
  (congrArg LogSettings.level (logSettings_prepare s p)).trans (apply_ite ..)

/-- Makes an object and offers it for registration. -/
def offer (kind : BackendKind) (p : Registry) : Except Fault Dispatch × Registry :=
  (p.make kind).2.install (p.make kind).1

theorem installFromEnvironment_of_error {c : ConfigError}
    (h : Settings.ofEnvironmentStrict p.env = .error c) :
    p.installFromEnvironment = (.error (.config c), p) := by
  rw [installFromEnvironment, h]

theorem installFromEnvironment_of_ok {s : Settings}
    (h : Settings.ofEnvironmentStrict p.env = .ok s) :
    p.installFromEnvironment = (p.prepare s).offer s.backend := by
  rw [installFromEnvironment, h]
  rfl

/-- Registration from the environment fails on the settings and changes nothing, or it registers a
new object after it has set the level. -/
theorem installFromEnvironment_cases (p : Registry) :
    (∃ c, p.installFromEnvironment = (.error (.config c), p)) ∨
    ∃ (d : Dispatch) (q : Registry), p.installFromEnvironment = q.install d ∧ q.env = p.env ∧
      q.registered = p.registered ∧ q.logLevel = p.levelAsked := by
  cases hs : Settings.ofEnvironmentStrict p.env with
  | error c => exact .inl ⟨c, installFromEnvironment_of_error hs⟩
  | ok s =>
      refine .inr ⟨((p.prepare s).make s.backend).1, ((p.prepare s).make s.backend).2,
        installFromEnvironment_of_ok hs, env_prepare s p, registered_prepare s p, ?_⟩
      rw [levelAsked, ← Settings.debugLogging_of_strict hs]
      exact logLevel_prepare s p

/-- A failure is one of the settings, with nothing changed, or an object is registered. -/
theorem installFromEnvironment_error (h : p.installFromEnvironment.1 = .error e) :
    (∃ c, e = .config c ∧ p.installFromEnvironment.2 = p) ∨
      (e = .alreadyInitialized ∧ p.installFromEnvironment.2.registered = p.registered ∧
        p.installFromEnvironment.2.logLevel = p.levelAsked) := by
  rcases installFromEnvironment_cases p with ⟨c, hc⟩ | ⟨d, q, hq, -, hregistered, hlevel⟩
  · rw [hc] at h ⊢
    exact .inl ⟨c, (Except.error.inj h).symm, rfl⟩
  · rw [hq] at h ⊢
    rw [← hregistered, ← hlevel]
    cases hold : q.registered with
    | none => cases (install_of_none d hold).1.symm.trans h
    | some old =>
        obtain ⟨hr, hkept⟩ := install_of_some d hold
        exact .inr ⟨(Except.error.inj (hr.symm.trans h)).symm, hkept⟩

/-- A success registers the object. -/
theorem installFromEnvironment_ok (h : p.installFromEnvironment.1 = .ok d) :
    p.registered = none ∧ p.installFromEnvironment.2.registered = some d ∧
      p.installFromEnvironment.2.logLevel = p.levelAsked := by
  rcases installFromEnvironment_cases p with ⟨c, hc⟩ | ⟨d', q, hq, -, hregistered, hlevel⟩
  · rw [hc] at h
    cases h
  · rw [hq] at h ⊢
    rw [← hregistered, ← hlevel]
    cases hold : q.registered with
    | none =>
        obtain ⟨hr, hdone⟩ := install_of_none d' hold
        obtain rfl := Except.ok.inj (hr.symm.trans h)
        exact ⟨rfl, hdone⟩
    | some old => cases (install_of_some d' hold).1.symm.trans h

/-- Where an object is registered, registration fails. -/
theorem exists_error_of_registered (h : p.registered = some old) :
    ∃ e, p.installFromEnvironment.1 = .error e := by
  cases hr : p.installFromEnvironment.1 with
  | error e => exact ⟨e, rfl⟩
  | ok d => exact absurd ((installFromEnvironment_ok hr).1.symm.trans h) nofun

/-! ## Calls -/

theorem env_install (d : Dispatch) (p : Registry) : (p.install d).2.env = p.env := by
  rw [install]
  split <;> rfl

/-- The variables of a process stay as they are. -/
theorem env_perform (c : ProcessCall) (p : Registry) : (c.perform p).2.env = p.env := by
  cases c with
  | install kind => exact env_install _ _
  | enabled l =>
      show (p.enabled l).2.env = _
      rw [enabled]
      split <;> rfl
  | installFromEnvironment =>
      show p.installFromEnvironment.2.env = _
      rcases installFromEnvironment_cases p with ⟨c, hc⟩ | ⟨d, q, hq, henv, -⟩
      · rw [hc]
      · rw [hq, env_install, henv]
  | _ => rfl

theorem after_concat (env : Environment) (calls : List ProcessCall) (c : ProcessCall) :
    after env (calls ++ [c]) = (c.perform (after env calls)).2 := by
  rw [after, List.foldl_append]
  rfl

theorem env_after (env : Environment) (calls : List ProcessCall) :
    (after env calls).env = env := by
  have hkeeps : ∀ p : Registry, (calls.foldl (fun p c => (c.perform p).2) p).env = p.env := by
    induction calls with
    | nil => exact fun _ => rfl
    | cons c calls ih => exact fun p => (ih _).trans (env_perform c p)
  exact hkeeps _

/-- The level that sound settings ask for, in terms of the variables. -/
theorem levelAsked_after (env : Environment) (calls : List ProcessCall) :
    (after env calls).levelAsked =
      if env.flag "SP_DEBUG" false then .debug else (after env calls).logLevel := by
  rw [levelAsked, env_after]

/-- Registration from the environment that fails on the settings changes nothing. One that fails
because an object is registered leaves that object in place, and leaves the log level as it is
unless debug logging is asked for at another level. -/
theorem failed_registration_keeps (env : Environment) (calls : List ProcessCall) (e : Fault)
    (h : (after env calls).installFromEnvironment.1 = .error e) :
    let p := after env calls
    let p' := p.installFromEnvironment.2
    ((∃ c, e = .config c ∧ p' = p) ∨ e = .alreadyInitialized) ∧ p'.registered = p.registered ∧
      (p'.logLevel = p.logLevel ↔ ¬ (e = .alreadyInitialized ∧ env.flag "SP_DEBUG" false = true ∧
        p.logLevel ≠ .debug)) := by
  intro p p'
  rcases installFromEnvironment_error h with ⟨c, rfl, hp⟩ | ⟨rfl, hregistered, hlevel⟩
  · refine ⟨.inl ⟨c, rfl, hp⟩, congrArg registered hp, ?_⟩
    exact iff_of_true (congrArg logLevel hp) fun hbad => nomatch hbad.1
  · refine ⟨.inr rfl, hregistered, ?_⟩
    rw [show p'.logLevel = _ from hlevel, levelAsked_after]
    by_cases hflag : env.flag "SP_DEBUG" false = true
    · simp [p, hflag, eq_comm]
    · simp [p, hflag]

/-- The environment of a process that asks for debug logging. -/
def debugging : Environment := ⟨[("SP_DEBUG", [0x31])]⟩

/-- At the level of debug a failing call leaves the level, and the first object in place. -/
theorem failed_registration_keeps_debugging :
    (after debugging [.install .coop, .setLogLevel .debug]).installFromEnvironment.2.registered =
        some ⟨.coop, 0⟩ ∧
      (after debugging [.install .coop, .setLogLevel .debug]).installFromEnvironment.2.logLevel =
        .debug := by
  have hsome : (after debugging [.install .coop, .setLogLevel .debug]).registered =
      some ⟨.coop, 0⟩ := rfl
  have hlevel : (after debugging [.install .coop, .setLogLevel .debug]).logLevel = .debug := by
    decide +kernel
  obtain ⟨e, he⟩ := exists_error_of_registered hsome
  obtain ⟨-, hregistered, hkept⟩ := failed_registration_keeps debugging _ e he
  exact ⟨hregistered.trans hsome, (hkept.mpr fun hbad => hbad.2.2 hlevel).trans hlevel⟩

/-- At the first level it changes the level, although it registers nothing. -/
theorem failed_registration_changes_level :
    ¬ ∀ (env : Environment) (calls : List ProcessCall) (e : Fault),
      (after env calls).installFromEnvironment.1 = .error e →
        (after env calls).installFromEnvironment.2.registered = (after env calls).registered ∧
          (after env calls).installFromEnvironment.2.logLevel = (after env calls).logLevel := by
  intro hkeeps
  have hsome : (after debugging [.install .native]).registered = some ⟨.native, 0⟩ := rfl
  obtain ⟨e, he⟩ := exists_error_of_registered hsome
  exact absurd (hkeeps debugging [.install .native] e he).2 (by decide +kernel)

/-- Registration from the environment that succeeds sets the log level to debug if debug logging is
asked for. That raises the level, or leaves it, unless it was trace. -/
theorem registration_raises_level (env : Environment) (calls : List ProcessCall) (d : Dispatch)
    (h : (after env calls).installFromEnvironment.1 = .ok d) :
    let p := after env calls
    let p' := p.installFromEnvironment.2
    (p'.logLevel = if env.flag "SP_DEBUG" false then .debug else p.logLevel) ∧
      ((p'.logLevel.rank = if env.flag "SP_DEBUG" false
          then max p.logLevel.rank LogLevel.debug.rank else p.logLevel.rank) ↔
        ¬ (env.flag "SP_DEBUG" false = true ∧ p.logLevel = .trace)) ∧
      (p.logLevel.rank ≤ p'.logLevel.rank ↔
        ¬ (env.flag "SP_DEBUG" false = true ∧ p.logLevel = .trace)) := by
  intro p p'
  obtain ⟨-, -, hlevel⟩ := installFromEnvironment_ok h
  rw [show p'.logLevel = _ from hlevel, levelAsked_after]
  by_cases hflag : env.flag "SP_DEBUG" false = true
  · cases (after env calls).logLevel <;> simp [hflag, LogLevel.rank]
  · simp [p, hflag]

/-- A fresh process logs warnings, and at debug after it has registered. -/
theorem registration_raises_level_debugging :
    (after debugging [.log .error "lost", .logLevel]).logLevel = .warn ∧
      (after debugging [.log .error "lost", .logLevel]).installFromEnvironment.2.logLevel =
        .debug := by
  have hflag : debugging.flag "SP_DEBUG" false = true := by decide +kernel
  obtain ⟨d, hd⟩ := exists_ok_of_isOk
    (x := (after debugging [.log .error "lost", .logLevel]).installFromEnvironment.1)
    (by decide +kernel)
  exact ⟨by decide +kernel, (registration_raises_level debugging _ d hd).1.trans (if_pos hflag)⟩

/-- From the level of traces it lowers the level. -/
theorem registration_lowers_level :
    ¬ ∀ (env : Environment) (calls : List ProcessCall) (d : Dispatch),
      (after env calls).installFromEnvironment.1 = .ok d →
        ((after env calls).installFromEnvironment.2.logLevel.rank = if env.flag "SP_DEBUG" false
          then max (after env calls).logLevel.rank LogLevel.debug.rank
          else (after env calls).logLevel.rank) ∧
        (after env calls).logLevel.rank ≤
          (after env calls).installFromEnvironment.2.logLevel.rank := by
  intro hraises
  obtain ⟨d, hd⟩ := exists_ok_of_isOk
    (x := (after debugging [.setLogLevel .trace]).installFromEnvironment.1) (by decide +kernel)
  exact absurd (hraises debugging [.setLogLevel .trace] d hd).2 (by decide +kernel)

end Registry

end Baton
