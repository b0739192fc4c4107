import Baton.Proofs.Registration
import Baton.Proofs.Settings

/-!
# Registration: the first object that is offered stands

Calls offer objects for registration. The first one offered is registered, and it is the first one
made; every later offer is refused. Registration from the environment offers an object exactly if
the settings are accepted, so it offers none if the name of the backend is readable and unknown.
-/

namespace Baton

open Text.Utf8 (encode)
open Settings (ofEnvironment ofEnvironmentStrict)
open BackendKind (words wordOf)

/-- The backend of the object that a call offers for registration, if it comes to that. -/
def ProcessCall.offer? (env : Environment) : ProcessCall → Option BackendKind
  | install kind => some kind
  | installFromEnvironment => (ofEnvironmentStrict env).toOption.map Settings.backend
  | _ => none

namespace Registry

variable {env : Environment} {p : Registry} {old : Dispatch} {s : Settings}

/-! ## One offer -/

theorem offer_of_none (kind : BackendKind) (h : p.registered = none) :
    (p.offer kind).1 = .ok ⟨kind, p.made⟩ :=
  (install_of_none (p := (p.make kind).2) _ h).1

theorem offer_of_some (kind : BackendKind) (h : p.registered = some old) :
    (p.offer kind).1 = .error .alreadyInitialized :=
  (install_of_some (p := (p.make kind).2) _ h).1

theorem registered_offer (kind : BackendKind) (p : Registry) :
    (p.offer kind).2.registered = p.registered.or (some ⟨kind, p.made⟩) := by
  cases h : p.registered with
  | none => exact (install_of_none (p := (p.make kind).2) _ h).2.1
  | some old => exact (install_of_some (p := (p.make kind).2) _ h).2.1

theorem made_install (d : Dispatch) (p : Registry) : (p.install d).2.made = p.made := by
  rw [install]
  split <;> rfl

theorem made_offer (kind : BackendKind) (p : Registry) : (p.offer kind).2.made = p.made + 1 :=
  made_install _ _

theorem made_prepare (s : Settings) (p : Registry) : (p.prepare s).made = p.made := by
  rw [prepare]
  split <;> rfl

/-! ## One call -/

/-- A call makes an object and offers it, or leaves alone what is registered and what is made. -/
theorem perform_cases (c : ProcessCall) (p : Registry) :
    (∃ (kind : BackendKind) (q : Registry), c.offer? p.env = some kind ∧
      c.perform p = (.registration (q.offer kind).1, (q.offer kind).2) ∧
      q.registered = p.registered ∧ q.made = p.made) ∨
    (c.offer? p.env = none ∧ (c.perform p).2.registered = p.registered ∧
      (c.perform p).2.made = p.made) := by
  cases c with
  | install kind => exact .inl ⟨kind, p, rfl, rfl, rfl, rfl⟩
  | installFromEnvironment =>
      cases h : ofEnvironmentStrict p.env with
      | error e =>
          have hsame : (ProcessCall.installFromEnvironment.perform p).2 = p :=
            congrArg Prod.snd (installFromEnvironment_of_error h)
          refine .inr ⟨?_, congrArg registered hsame, congrArg made hsame⟩
          rw [ProcessCall.offer?, h]
          rfl
      | ok s =>
          refine .inl ⟨s.backend, p.prepare s, ?_, ?_, registered_prepare s p, made_prepare s p⟩
          · rw [ProcessCall.offer?, h]
            rfl
          · rw [← installFromEnvironment_of_ok h]
            rfl
  | enabled l =>
      refine .inr ⟨rfl, ?_⟩
      show (p.enabled l).2.registered = _ ∧ (p.enabled l).2.made = _
      rw [enabled]
      split <;> exact ⟨rfl, rfl⟩
  | _ => exact .inr ⟨rfl, rfl, rfl⟩

/-- A call registers the object that it offers, unless one is registered. -/
theorem registered_perform (c : ProcessCall) (p : Registry) : (c.perform p).2.registered =
    p.registered.or ((c.offer? p.env).map fun kind => ⟨kind, p.made⟩) := by
  rcases perform_cases c p with ⟨kind, q, hoffer, hc, hregistered, hmade⟩ | ⟨hoffer, hsame, -⟩
  · rw [hc, registered_offer, hoffer, hregistered, hmade]
    rfl
  · rw [hsame, hoffer]
    exact (Option.or_none).symm

/-- Each offer makes one object. -/
theorem made_perform (c : ProcessCall) (p : Registry) :
    (c.perform p).2.made = p.made + (c.offer? p.env).toList.length := by
  rcases perform_cases c p with ⟨kind, q, hoffer, hc, -, hmade⟩ | ⟨hoffer, -, hsame⟩
  · rw [hc, made_offer, hoffer, hmade]
    rfl
  · rw [hsame, hoffer]
    rfl

variable {c : ProcessCall} {kind : BackendKind}

theorem reply_of_none (hoffer : c.offer? p.env = some kind) (h : p.registered = none) :
    (c.perform p).1 = .registration (.ok ⟨kind, p.made⟩) := by
  rcases perform_cases c p with ⟨k, q, hk, hc, hregistered, hmade⟩ | ⟨hnone, -⟩
  · obtain rfl := Option.some.inj (hoffer.symm.trans hk)
    rw [hc, offer_of_none _ (hregistered.trans h), hmade]
  · cases hoffer.symm.trans hnone

theorem reply_of_some (hoffer : c.offer? p.env = some kind) (h : p.registered = some old) :
    (c.perform p).1 = .registration (.error .alreadyInitialized) := by
  rcases perform_cases c p with ⟨k, q, -, hc, hregistered, -⟩ | ⟨hnone, -⟩
  · rw [hc, offer_of_some _ (hregistered.trans h)]
  · cases hoffer.symm.trans hnone

/-! ## All calls -/

/-- The backends of the objects that calls have offered, in order. -/
def offers (env : Environment) (calls : List ProcessCall) : List BackendKind :=
  calls.filterMap (ProcessCall.offer? env)

theorem offers_append (env : Environment) (calls later : List ProcessCall) :
    offers env (calls ++ later) = offers env calls ++ offers env later := List.filterMap_append

theorem offers_singleton (env : Environment) (c : ProcessCall) :
    offers env [c] = (c.offer? env).toList := by
  cases h : c.offer? env <;> simp [offers, h]

theorem made_after (env : Environment) (calls : List ProcessCall) :
    (after env calls).made = (offers env calls).length := by
  induction calls using List.reverseRecOn with
  | nil => rfl
  | append_singleton calls c ih =>
      rw [after_concat, made_perform, env_after, offers_append, offers_singleton,
        List.length_append, ih]

/-- The object that is registered is the first one offered, which is the first one made. -/
theorem registered_after (env : Environment) (calls : List ProcessCall) :
    (after env calls).registered = (offers env calls).head?.map fun kind => ⟨kind, 0⟩ := by
  induction calls using List.reverseRecOn with
  | nil => rfl
  | append_singleton calls c ih =>
      rw [after_concat, registered_perform, env_after, offers_append, offers_singleton, ih,
        made_after]
      cases hoffers : offers env calls with
      | nil => cases c.offer? env <;> rfl
      | cons kind kinds => rfl

/-- Until an object is offered none is registered. The first call that offers one succeeds, and its
object is what every later call gets; whatever is offered after it is another object and is
refused. Registration from the environment fails on settings that are not accepted, at any time. -/
theorem first_offer_stands (env : Environment) (before : List ProcessCall) (c : ProcessCall)
    (kind : BackendKind) (hbefore : ∀ b ∈ before, b.offer? env = none)
    (hoffer : c.offer? env = some kind) :
    let d : Dispatch := ⟨kind, 0⟩
    (after env before).threading = .error .notInitialized ∧
    (∀ e, ofEnvironmentStrict env = .error e →
      (ProcessCall.installFromEnvironment.perform (after env before)).1 =
        .registration (.error (.config e))) ∧
    (c.perform (after env before)).1 = .registration (.ok d) ∧
    ∀ later, let p := after env (before ++ c :: later)
      p.threading = .ok d ∧
      (∀ k, ((ProcessCall.install k).perform p).1 = .registration (.error .alreadyInitialized) ∧
        (p.make k).1 ≠ d) ∧
      (∀ e, ofEnvironmentStrict env = .error e →
        (ProcessCall.installFromEnvironment.perform p).1 = .registration (.error (.config e))) ∧
      ∀ s, ofEnvironmentStrict env = .ok s →
        (ProcessCall.installFromEnvironment.perform p).1 =
          .registration (.error .alreadyInitialized) := by
  intro d
  have hnone : offers env before = [] := List.filterMap_eq_nil_iff.mpr hbefore
  have hfree : (after env before).registered = none := by rw [registered_after, hnone]; rfl
  have hrefused : ∀ calls e, ofEnvironmentStrict env = .error e →
      (ProcessCall.installFromEnvironment.perform (after env calls)).1 =
        .registration (.error (.config e)) := by
    intro calls e he
    rw [← env_after env calls] at he
    exact congrArg (ProcessReply.registration ·.1) (installFromEnvironment_of_error he)
  refine ⟨?_, hrefused before, ?_, fun later => ?_⟩
  · rw [threading, hfree]
  · rw [reply_of_none ((env_after env before).symm ▸ hoffer) hfree, made_after, hnone]
    rfl
  intro p
  have hoffers : offers env (before ++ c :: later) = kind :: offers env later := by
    rw [offers_append, hnone, List.nil_append]
    exact List.filterMap_cons_some hoffer
  have hregistered : p.registered = some d := by
    rw [registered_after, hoffers]
    rfl
  have henv : p.env = env := env_after env _
  refine ⟨by rw [threading, hregistered], fun k => ⟨reply_of_some rfl hregistered, ?_⟩,
    hrefused _, fun s hs => ?_⟩
  · -- By now an object has been made, so the next one has another number.
    intro hmake
    have hmade : p.made = 0 := congrArg Dispatch.serial hmake
    rw [made_after, hoffers] at hmade
    cases hmade
  · have hagain : ProcessCall.installFromEnvironment.offer? p.env = some s.backend := by
      rw [ProcessCall.offer?, henv, hs]
      rfl
    exact reply_of_some hagain hregistered

/-- The environment of a process that asks for a backend that there is not. -/
def fibrous : Environment := ⟨[("SP_BACKEND", encode "fibers".toList)]⟩

theorem first_offer_stands_fibrous :
    (∀ b ∈ [ProcessCall.installFromEnvironment, .threading], b.offer? fibrous = none) ∧
      (ProcessCall.install .coop).offer? fibrous = some .coop ∧
      (after fibrous [.installFromEnvironment, .threading, .install .coop, .install .native,
        .installFromEnvironment]).threading = .ok ⟨.coop, 0⟩ := by
  have hbefore : ∀ b ∈ [ProcessCall.installFromEnvironment, .threading],
      b.offer? fibrous = none := by decide +kernel
  obtain ⟨-, -, -, hlater⟩ :=
    first_offer_stands fibrous _ (.install .coop) .coop hbefore rfl
  exact ⟨hbefore, rfl, (hlater [.install .native, .installFromEnvironment]).1⟩

/-! ## Names that no backend has -/

/-- Where the variable of the backend holds no name, the strict reader fails unless the bytes are no
text and the bounds are kept. -/
theorem exists_error_iff {bytes : List UInt8} (hset : env.bytes? "SP_BACKEND" = some bytes)
    (hname : ∀ s : String, bytes = encode s.toList → wordOf s ∉ words) :
    (∃ e, ofEnvironmentStrict env = .error e) ↔
      ¬ ((∀ s : String, bytes ≠ encode s.toList) ∧ (ofEnvironment env).InBounds) := by
  by_cases hwritten : ∃ s : String, bytes = encode s.toList
  · obtain ⟨s, rfl⟩ := hwritten
    refine iff_of_true ⟨_, Settings.ofEnvironmentStrict_of_notMem
      (Environment.text?_eq_some_iff.mpr hset) (hname s rfl)⟩ fun h => h.1 s rfl
  · have hunread : ∀ s, env.text? "SP_BACKEND" = some s → wordOf s ∈ words := by
      intro s hs
      rw [Environment.text?_eq_some_iff, hset] at hs
      exact absurd ⟨s, Option.some.inj hs⟩ hwritten
    rw [Settings.ofEnvironmentStrict_of_mem hunread, and_iff_right (not_exists.mp hwritten),
      ← Settings.validate_eq_ok_iff_inBounds]
    cases (ofEnvironment env).validate <;> simp [Except.map]

theorem registered_installFromEnvironment_eq_iff (p : Registry) :
    p.installFromEnvironment.2.registered = p.registered ↔
      (∃ e, ofEnvironmentStrict p.env = .error e) ∨ p.registered ≠ none := by
  have hperform := registered_perform .installFromEnvironment p
  rw [show p.installFromEnvironment.2.registered = _ from hperform]
  cases hstrict : ofEnvironmentStrict p.env <;> cases hold : p.registered <;>
    simp [ProcessCall.offer?, hstrict, Except.toOption]

/-- Let the variable of the backend be set to bytes that hold no name of a backend. If they are the
bytes of a text, that text is refused, and registration changes nothing. If they are not, they are
taken as if the variable was unset: an object is registered exactly if the bounds are kept and none
was registered before. -/
theorem unnamed_backend_refused (env : Environment) (bytes : List UInt8)
    (hset : env.bytes? "SP_BACKEND" = some bytes)
    (hname : ∀ s : String, bytes = encode s.toList → wordOf s ∉ words)
    (calls : List ProcessCall) :
    let p := after env calls
    (∀ s : String, bytes = encode s.toList →
      ofEnvironmentStrict env = .error (.unknownBackend (wordOf s)) ∧
      p.installFromEnvironment = (.error (.config (.unknownBackend (wordOf s))), p)) ∧
    ((∃ e, ofEnvironmentStrict env = .error e) ↔
      ¬ ((∀ s : String, bytes ≠ encode s.toList) ∧ (ofEnvironment env).InBounds)) ∧
    (p.installFromEnvironment.2.registered = p.registered ↔
      ¬ ((∀ s : String, bytes ≠ encode s.toList) ∧ (ofEnvironment env).InBounds ∧
        p.registered = none)) := by
  intro p
  have henv : p.env = env := env_after env calls
  refine ⟨?_, exists_error_iff hset hname, ?_⟩
  · rintro s rfl
    have hstrict := Settings.ofEnvironmentStrict_of_notMem
      (Environment.text?_eq_some_iff.mpr hset) (hname s rfl)
    exact ⟨hstrict, installFromEnvironment_of_error (henv ▸ hstrict)⟩
  · rw [registered_installFromEnvironment_eq_iff, henv, exists_error_iff hset hname, ← and_assoc]
    exact not_and_or.symm

/-- A readable name is refused, and nothing is registered. -/
theorem unnamed_backend_refused_fibrous :
    fibrous.bytes? "SP_BACKEND" = some (encode "fibers".toList) ∧
      (∀ s : String, encode "fibers".toList = encode s.toList → wordOf s ∉ words) ∧
      (fresh fibrous).installFromEnvironment =
        (.error (.config (.unknownBackend (wordOf "fibers"))), fresh fibrous) := by
  have hname : ∀ s : String, encode "fibers".toList = encode s.toList → wordOf s ∉ words := by
    intro s hs
    have htext := Text.Utf8.decode?_eq_some_iff.mpr hs
    rw [Text.Utf8.decode?_encode, String.ofList_toList] at htext
    rw [← Option.some.inj htext]
    decide +kernel
  exact ⟨rfl, hname, ((unnamed_backend_refused fibrous _ rfl hname []).1 "fibers" rfl).2⟩

/-- The environment of a process whose backend is named by a byte that starts no character. -/
def garbled : Environment := ⟨[("SP_BACKEND", [0xFF])]⟩

/-- A name that cannot be read is accepted, and an object is registered. -/
theorem garbled_backend_accepted :
    ¬ ∀ (env : Environment) (bytes : List UInt8), env.bytes? "SP_BACKEND" = some bytes →
      (∀ s : String, bytes = encode s.toList → wordOf s ∉ words) →
        (∃ e, ofEnvironmentStrict env = .error e) ∧
          ∀ calls, (after env calls).installFromEnvironment.2.registered =
            (after env calls).registered := by
  intro hrefused
  have hunread : Text.Utf8.decode? [0xFF] = none := by decide +kernel
  have hname : ∀ s : String, [0xFF] = encode s.toList → wordOf s ∉ words := fun s hs =>
    nomatch hunread.symm.trans (Text.Utf8.decode?_eq_some_iff.mpr hs)
  exact absurd ((hrefused garbled _ rfl hname).2 []) (by decide +kernel)

end Registry

end Baton
