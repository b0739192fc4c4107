import Baton.Settings
import Baton.Proofs.Text.Utf8
import Mathlib.Data.List.DropRight
import Mathlib.Data.Nat.Digits.Defs

/-!
# Settings: the strict reader against the lenient one

Both readers see a variable only if it is set to well-formed text, and trim it. A number that does
not parse or is out of range counts as its default. The name of a backend is read by two routes,
which agree on the names that there are. So the strict reader gives what the lenient one gives, or
the first fault.
-/

namespace Baton

open Text.Utf8 (encode decode?)

/-! ## Texts without blanks around them -/

theorem Text.trimList_eq (cs : List Char) :
    trimList cs = (cs.dropWhile isBlank).rdropWhile isBlank := rfl

theorem Text.trimList_trimList (cs : List Char) : trimList (trimList cs) = trimList cs := by
  -- What is at the front was there before the end was cut, so it is not blank.
  have hfront : (trimList cs).dropWhile isBlank = trimList cs := by
    rw [List.dropWhile_eq_self_iff]
    intro hpos
    have hstart : trimList cs <+: cs.dropWhile isBlank := List.rdropWhile_prefix _ _
    have hne : cs.dropWhile isBlank ≠ [] := List.ne_nil_of_length_pos
      (Nat.lt_of_lt_of_le hpos hstart.length_le)
    have hhead := List.head_dropWhile_not isBlank hne
    rw [List.head_eq_getElem] at hhead
    rw [hstart.getElem hpos, hhead]
    exact Bool.false_ne_true
  rw [trimList_eq, hfront, trimList_eq, List.rdropWhile_idempotent]

@[simp] theorem Text.trim_trim (s : String) : trim (trim s) = trim s := by
  rw [trim, trim, String.toList_ofList, trimList_trimList]

/-! ## Numbers -/

namespace Text

variable {cs : List Char} {n : Nat} {s : String}

/-- `cs` is a row of decimal digits, at least one, that stands for `n`. -/
def IsRow (cs : List Char) (n : Nat) : Prop :=
  ∃ ds : List Nat, ds ≠ [] ∧ (∀ d ∈ ds, d < 10) ∧ cs = ds.map Nat.digitChar ∧
    n = Nat.ofDigits 10 ds.reverse

/-- `s` is a row of decimal digits that stands for `n`, perhaps behind a plus sign. -/
def IsWhole (s : String) (n : Nat) : Prop :=
  IsRow s.toList n ∨ ∃ cs, s.toList = '+' :: cs ∧ IsRow cs n

theorem isDigit_iff (c : Char) : c.isDigit = true ↔ 48 ≤ c.toNat ∧ c.toNat ≤ 57 := by
  simp [Char.isDigit, UInt32.le_iff_toNat_le]

theorem digitChar_toNat_sub (c : Char) (h : c.isDigit = true) :
    Nat.digitChar (c.toNat - 48) = c := by
  have hrange := (isDigit_iff c).mp h
  refine Char.toNat_inj.mp ?_
  calc (Nat.digitChar (c.toNat - 48)).toNat
    _ = 48 + (c.toNat - 48) := Nat.toNat_digitChar_of_lt_ten (by omega)
    _ = c.toNat := by omega

theorem ofDigits_reverse (ds : List Nat) :
    Nat.ofDigits 10 ds.reverse = ds.foldl (fun v d => v * 10 + d) 0 := by
  rw [Nat.ofDigits_eq_foldr, List.foldr_reverse]
  simp [Nat.mul_comm, Nat.add_comm]

theorem toNat_digitChar_sub {d : Nat} (h : d < 10) : (Nat.digitChar d).toNat - 48 = d := by
  rw [Nat.toNat_digitChar_of_lt_ten h]
  omega

theorem isDigit_digitChar {d : Nat} (h : d < 10) : (Nat.digitChar d).isDigit = true := by
  rw [isDigit_iff, Nat.toNat_digitChar_of_lt_ten h]
  omega

theorem IsRow.isDigit (h : IsRow cs n) : ∀ c ∈ cs, c.isDigit = true := by
  obtain ⟨ds, -, hsmall, rfl, -⟩ := h
  intro c hc
  obtain ⟨d, hd, rfl⟩ := List.mem_map.mp hc
  exact isDigit_digitChar (hsmall d hd)

theorem IsRow.ne_nil (h : IsRow cs n) : cs ≠ [] := by
  obtain ⟨ds, hds, -, rfl, -⟩ := h
  exact fun hnil => hds (List.map_eq_nil_iff.mp hnil)

theorem digits?_of_ne_nil (h : cs ≠ []) : digits? cs = if cs.all Char.isDigit
    then some (cs.foldl (fun v c => v * 10 + (c.toNat - 48)) 0) else none := by
  rw [digits?]
  · rfl
  · exact h

/-- Digits are a row that stands for the number that is read from them. -/
theorem isRow_of_isDigit (hne : cs ≠ []) (hdigits : ∀ c ∈ cs, c.isDigit = true) :
    IsRow cs (cs.foldl (fun v c => v * 10 + (c.toNat - 48)) 0) := by
  refine ⟨cs.map fun c => c.toNat - 48, by simpa using hne, ?_, ?_, ?_⟩
  · intro d hd
    obtain ⟨c, hc, rfl⟩ := List.mem_map.mp hd
    have hrange := (isDigit_iff c).mp (hdigits c hc)
    omega
  · symm
    calc (cs.map fun c => c.toNat - 48).map Nat.digitChar
      _ = cs.map fun c => Nat.digitChar (c.toNat - 48) := List.map_map
      _ = cs.map fun c => c :=
        List.map_congr_left fun c hc => digitChar_toNat_sub c (hdigits c hc)
      _ = cs := List.map_id' cs
  · rw [ofDigits_reverse, List.foldl_map]

/-- From a row the number is read that it stands for. -/
theorem IsRow.foldl (h : IsRow cs n) :
    cs.foldl (fun v c => v * 10 + (c.toNat - 48)) 0 = n := by
  obtain ⟨ds, -, hsmall, rfl, rfl⟩ := h
  rw [ofDigits_reverse, List.foldl_map]
  exact List.foldl_ext _ _ _ fun v d hd => by rw [toNat_digitChar_sub (hsmall d hd)]

/-- The digits that are read are those of the number that is read. -/
theorem digits?_eq_some_iff : digits? cs = some n ↔ IsRow cs n := by
  constructor
  · intro h
    have hne : cs ≠ [] := fun hnil => nomatch (hnil ▸ h : digits? [] = some n)
    rw [digits?_of_ne_nil hne] at h
    split at h
    case isTrue hall =>
      exact Option.some.inj h ▸ isRow_of_isDigit hne (List.all_eq_true.mp hall)
    case isFalse => cases h
  · intro h
    rw [digits?_of_ne_nil h.ne_nil, if_pos (List.all_eq_true.mpr h.isDigit), h.foldl]

/-- A row of digits does not start with another character. -/
theorem IsRow.head {c : Char} (hc : c.isDigit = false) (h : IsRow (c :: cs) n) : False :=
  absurd (h.isDigit c List.mem_cons_self) (Bool.eq_false_iff.mp hc)

/-- An unsigned whole number is read if it is within the bound. -/
theorem wholeNumber?_eq_some_iff {hi : Int} :
    wholeNumber? 0 hi s = some (n : Int) ↔ IsWhole s n ∧ (n : Int) ≤ hi := by
  have hread : ∀ ds : List Char, ((digits? ds).map Int.ofNat).filter (fun k => 0 ≤ k && k ≤ hi) =
      some (n : Int) ↔ IsRow ds n ∧ (n : Int) ≤ hi := by
    intro ds
    rw [← digits?_eq_some_iff]
    simp [Option.filter_eq_some_iff, Option.map_eq_some_iff]
  rw [wholeNumber?, IsWhole]
  split
  case h_1 cs hs =>
    rw [hs]
    refine (hread cs).trans (and_congr_left fun _ => ⟨fun h => .inr ⟨cs, rfl, h⟩, ?_⟩)
    rintro (h | ⟨ds, hds, h⟩)
    · exact (h.head rfl).elim
    · exact (List.cons.inj hds).2 ▸ h
  case h_2 cs hs =>
    rw [hs]
    refine ⟨nofun, ?_⟩
    rintro ⟨h | ⟨ds, hds, -⟩, -⟩
    · exact (h.head rfl).elim
    · exact absurd (List.cons.inj hds).1 (by decide)
  case h_3 hplus _ =>
    refine (hread _).trans (and_congr_left fun _ => ⟨.inl, ?_⟩)
    rintro (h | ⟨ds, hds, -⟩)
    · exact h
    · exact (hplus ds hds).elim

end Text

/-! ## Variables -/

namespace Environment

variable {env : Environment} {name s : String} {greatest default n : Nat}

/-- A variable is read as the text in whose bytes it is written. -/
theorem text?_eq_some_iff :
    env.text? name = some s ↔ env.bytes? name = some (encode s.toList) := by
  simp [text?, Option.bind_eq_some_iff, Text.Utf8.decode?_eq_some_iff]

/-- The variable holds a whole number up to `greatest`, with blanks around it. -/
def HoldsNumber (env : Environment) (name : String) (greatest n : Nat) : Prop :=
  ∃ s : String, env.bytes? name = some (encode s.toList) ∧ Text.IsWhole (Text.trim s) n ∧
    n ≤ greatest

/-- `n` is the number that the variable holds, or the default if it holds none: if it is unset, no
well-formed text, no number, or out of range. -/
def CountsAs (env : Environment) (name : String) (greatest default n : Nat) : Prop :=
  env.HoldsNumber name greatest n ∨ (∀ k, ¬ env.HoldsNumber name greatest k) ∧ n = default

theorem read?_unsigned_eq_some_iff :
    env.read? (Settings.unsigned? greatest) name = some n ↔ env.HoldsNumber name greatest n := by
  have hread : ∀ s : String, Settings.unsigned? greatest s = some n ↔
      Text.IsWhole s n ∧ n ≤ greatest := by
    intro s
    rw [← Int.ofNat_le, ← Text.wholeNumber?_eq_some_iff, Settings.unsigned?,
      Option.map_eq_some_iff]
    constructor
    · rintro ⟨k, hk, rfl⟩
      rw [hk, Int.toNat_of_nonneg (Text.wholeNumber?_bounds hk).1]
    · exact fun h => ⟨n, h, Int.toNat_natCast n⟩
  simp only [read?, Option.bind_eq_some_iff, text?_eq_some_iff, hread, HoldsNumber]

theorem countsAs_read : env.CountsAs name greatest default
    (env.read (Settings.unsigned? greatest) name default) := by
  rw [CountsAs, read]
  cases hread : env.read? (Settings.unsigned? greatest) name with
  | some n => exact .inl (read?_unsigned_eq_some_iff.mp hread)
  | none =>
      refine .inr ⟨fun k hk => ?_, rfl⟩
      cases hread.symm.trans (read?_unsigned_eq_some_iff.mpr hk)

end Environment

/-! ## Names of backends -/

namespace BackendKind

variable {s : String}

/-- The words that name a backend. -/
def words : List String := ["native", "os", "pthread", "coop", "cooperative", "green"]

/-- The word that a text is looked up as. -/
def wordOf (s : String) : String := Text.lowercase (Text.trim s)

theorem mem_words_iff {w : String} : w ∈ words ↔ ∃ kind, ofWord? w = some kind := by
  unfold ofWord?
  split <;> simp_all [words]

theorem parse_of_mem (h : wordOf s ∈ words) : ∃ kind, parse s = .ok kind := by
  obtain ⟨kind, hkind⟩ := mem_words_iff.mp h
  exact ⟨kind, by rw [parse, ← wordOf, hkind]⟩

theorem parse_of_notMem (h : wordOf s ∉ words) : parse s = .error (.unknownBackend (wordOf s)) := by
  have hnone : ofWord? (wordOf s) = none :=
    Option.eq_none_iff_forall_ne_some.mpr fun kind hkind => h (mem_words_iff.mpr ⟨kind, hkind⟩)
  rw [parse, ← wordOf, hnone]

@[simp] theorem parse_trim (s : String) : parse (Text.trim s) = parse s := by
  rw [parse, parse, Text.trim_trim]

end BackendKind

/-! ## The two readers -/

namespace Settings

open BackendKind (words wordOf parse)

variable {env : Environment} {s : String} {e : ConfigError}

/-- The variable of the backend is unset, or it holds a name in any case with blanks around it. -/
def NamesBackend (env : Environment) : Prop :=
  env.bytes? "SP_BACKEND" = none ∨
    ∃ s : String, env.bytes? "SP_BACKEND" = some (encode s.toList) ∧ wordOf s ∈ words

/-- The spins and the idle poll are within their bounds. -/
def InBounds (s : Settings) : Prop :=
  s.mutexSpins ≤ 1000000 ∧ 0 < s.idlePoll.nanos ∧ s.idlePoll.nanos ≤ 60 * 1000000000

/-- The first bound that settings violate, and the error that tells it. -/
inductive Violates (s : Settings) : ConfigError → Prop
  | spins (h : 1000000 < s.mutexSpins) :
      Violates s (.invalidValue "mutex_spins must be <= 1000000")
  | noIdle (hspins : s.mutexSpins ≤ 1000000) (h : s.idlePoll.nanos = 0) :
      Violates s (.invalidValue "idle_poll_interval must be > 0")
  | longIdle (hspins : s.mutexSpins ≤ 1000000) (hidle : 0 < s.idlePoll.nanos)
      (h : 60 * 1000000000 < s.idlePoll.nanos) :
      Violates s (.invalidValue "idle_poll_interval must be <= 60s")

/-- The first fault of the variables: a name that no backend has, or else a bound. -/
inductive Refused (env : Environment) : ConfigError → Prop
  | name {s : String} (hset : env.bytes? "SP_BACKEND" = some (encode s.toList))
      (hword : wordOf s ∉ words) : Refused env (.unknownBackend (wordOf s))
  | bounds {e : ConfigError} (hname : NamesBackend env) (h : (ofEnvironment env).Violates e) :
      Refused env e

theorem validate_eq_ok_iff_inBounds {s : Settings} : s.validate = .ok () ↔ s.InBounds :=
  validate_eq_ok_iff

theorem validate_eq_error_iff {s : Settings} : s.validate = .error e ↔ s.Violates e := by
  rw [validate]
  constructor
  · intro h
    split at h
    case isTrue hspins => exact Except.error.inj h ▸ .spins hspins
    case isFalse hspins =>
      split at h
      case isTrue hidle => exact Except.error.inj h ▸ .noIdle (Nat.le_of_not_lt hspins) hidle
      case isFalse hidle =>
        split at h
        case isTrue hlong =>
          exact Except.error.inj h ▸
            .longIdle (Nat.le_of_not_lt hspins) (Nat.pos_of_ne_zero hidle) hlong
        case isFalse => cases h
  · rintro (hspins | ⟨hspins, hidle⟩ | ⟨hspins, hidle, hlong⟩)
    · exact if_pos hspins
    · exact (if_neg (Nat.not_lt.mpr hspins)).trans (if_pos hidle)
    · exact (if_neg (Nat.not_lt.mpr hspins)).trans
        ((if_neg (Nat.ne_of_gt hidle)).trans (if_pos hlong))

/-- Where a name is refused, nothing else is looked at. -/
theorem ofEnvironmentStrict_of_notMem (hset : env.text? "SP_BACKEND" = some s)
    (hword : wordOf s ∉ words) :
    ofEnvironmentStrict env = .error (.unknownBackend (wordOf s)) := by
  rw [ofEnvironmentStrict, Environment.read?, hset]
  simp only [Option.bind_some, BackendKind.parse_trim, BackendKind.parse_of_notMem hword]
  rfl

/-- A name that is known is read alike by both readers. -/
theorem backend_ofEnvironment {kind : BackendKind} (hset : env.text? "SP_BACKEND" = some s)
    (hparse : parse s = .ok kind) : (ofEnvironment env).backend = kind := by
  have hparsed : BackendKind.parse? (Text.trim s) = some kind := by
    rw [BackendKind.parse?, BackendKind.parse_trim, hparse]
    rfl
  simp [ofEnvironment, Environment.read, Environment.read?, hset, hparsed]

/-- Where no name is refused, the two readers agree on the backend, and the bounds decide. -/
theorem ofEnvironmentStrict_of_mem
    (hname : ∀ s, env.text? "SP_BACKEND" = some s → wordOf s ∈ words) :
    ofEnvironmentStrict env = (ofEnvironment env).validate.map fun _ => ofEnvironment env := by
  -- Both routes come to the lenient settings, which are then checked.
  have hchecked : (do (ofEnvironment env).validate; return ofEnvironment env) =
      (ofEnvironment env).validate.map fun _ => ofEnvironment env := by
    cases (ofEnvironment env).validate <;> rfl
  rw [← hchecked, ofEnvironmentStrict, Environment.read?]
  cases hset : env.text? "SP_BACKEND" with
  | none => rfl
  | some s =>
      obtain ⟨kind, hkind⟩ := BackendKind.parse_of_mem (hname s hset)
      have hsame : { ofEnvironment env with backend := kind } = ofEnvironment env := by
        rw [← backend_ofEnvironment hset hkind]
      simp only [Option.bind_some, BackendKind.parse_trim, hkind]
      rw [← hsame]
      rfl

theorem checked_eq_ok_iff {s c : Settings} :
    (s.validate.map fun _ => s) = .ok c ↔ s.InBounds ∧ c = s := by
  rw [← validate_eq_ok_iff_inBounds]
  cases s.validate with
  | ok _ => simp [Except.map, eq_comm]
  | error e => simp [Except.map]

theorem checked_eq_error_iff {s : Settings} :
    (s.validate.map fun _ => s) = .error e ↔ s.Violates e := by
  rw [← validate_eq_error_iff]
  cases s.validate <;> simp [Except.map]

/-- Of a variable that is set to text, the reader sees that text. -/
theorem namesBackend_iff (hwritten : ∀ bytes, env.bytes? "SP_BACKEND" = some bytes →
    ∃ s : String, bytes = encode s.toList) :
    NamesBackend env ↔ ∀ s, env.text? "SP_BACKEND" = some s → wordOf s ∈ words := by
  constructor
  · rintro (hunset | ⟨s, hset, hword⟩) t ht
    · cases hunset.symm.trans (Environment.text?_eq_some_iff.mp ht)
    · rw [← Environment.text?_eq_some_iff, ht] at hset
      exact Option.some.inj hset ▸ hword
  · intro hname
    cases hset : env.bytes? "SP_BACKEND" with
    | none => exact .inl hset
    | some bytes =>
        obtain ⟨s, rfl⟩ := hwritten bytes hset
        exact .inr ⟨s, hset, hname s (Environment.text?_eq_some_iff.mpr hset)⟩

/-- The strict reader gives the settings of the lenient one if the variable of the backend is unset
or holds a name, and the settings are within their bounds. Otherwise it gives the first fault. In
both, a number is the one that its variable holds, or the default. -/
theorem strict_agrees_with_lenient (env : Environment)
    (hwritten : ∀ bytes, env.bytes? "SP_BACKEND" = some bytes →
      ∃ s : String, bytes = encode s.toList) :
    (∀ c, ofEnvironmentStrict env = .ok c ↔
      NamesBackend env ∧ (ofEnvironment env).InBounds ∧ c = ofEnvironment env) ∧
    (∀ e, ofEnvironmentStrict env = .error e ↔ Refused env e) ∧
    env.CountsAs "SP_MUTEX_SPINS" (2 ^ 32 - 1) 100 (ofEnvironment env).mutexSpins ∧
    ∃ ms, env.CountsAs "SP_IDLE_POLL_MS" (2 ^ 64 - 1) 10 ms ∧
      (ofEnvironment env).idlePoll = Span.ofMillis ms := by
  have hnames := namesBackend_iff hwritten
  rw [← and_assoc]
  refine ⟨?_, Environment.countsAs_read, _, Environment.countsAs_read, rfl⟩
  by_cases hname : NamesBackend env
  · rw [ofEnvironmentStrict_of_mem (hnames.mp hname)]
    refine ⟨fun c => checked_eq_ok_iff.trans (and_iff_right hname).symm, fun e =>
      checked_eq_error_iff.trans ⟨.bounds hname, ?_⟩⟩
    rintro (⟨hset, hword⟩ | ⟨-, h⟩)
    · exact absurd (hnames.mp hname _ (Environment.text?_eq_some_iff.mpr hset)) hword
    · exact h
  · obtain ⟨s, hs⟩ := not_forall.mp (mt hnames.mpr hname)
    obtain ⟨hset, hword⟩ := Classical.not_imp.mp hs
    rw [ofEnvironmentStrict_of_notMem hset hword]
    refine ⟨fun c => iff_of_false nofun fun h => hname h.1, fun e => ⟨?_, ?_⟩⟩
    · intro he
      exact Except.error.inj he ▸ .name (Environment.text?_eq_some_iff.mp hset) hword
    · rintro (⟨hset', -⟩ | ⟨hname', -⟩)
      · rw [← Environment.text?_eq_some_iff, hset] at hset'
        rw [Option.some.inj hset']
      · exact absurd hname' hname

/-- A name among blanks, a number behind a plus sign, and a number that is no text. -/
def greenish : Environment :=
  ⟨[("SP_BACKEND", encode " Green ".toList), ("SP_MUTEX_SPINS", encode "+5".toList),
    ("SP_IDLE_POLL_MS", [0x31, 0xFF])]⟩

theorem strict_agrees_with_lenient_greenish :
    (∀ bytes, greenish.bytes? "SP_BACKEND" = some bytes → ∃ s : String, bytes = encode s.toList) ∧
      ofEnvironmentStrict greenish = .ok ⟨.coop, 5, Span.ofMillis 10, false⟩ := by
  have hset : greenish.bytes? "SP_BACKEND" = some (encode " Green ".toList) := rfl
  have hwritten : ∀ bytes, greenish.bytes? "SP_BACKEND" = some bytes →
      ∃ s : String, bytes = encode s.toList :=
    fun bytes h => ⟨" Green ", Option.some.inj (h.symm.trans hset)⟩
  have hlenient : ofEnvironment greenish = ⟨.coop, 5, Span.ofMillis 10, false⟩ := by
    decide +kernel
  refine ⟨hwritten, ((strict_agrees_with_lenient greenish hwritten).1 _).mpr
    ⟨.inr ⟨" Green ", hset, by decide +kernel⟩, ?_, hlenient.symm⟩⟩
  rw [hlenient]
  exact ⟨by decide, by decide, by decide⟩

end Settings

end Baton
