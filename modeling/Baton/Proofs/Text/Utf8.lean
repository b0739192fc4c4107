import Baton.Text.Utf8

/-!
# Bytes and characters: what was written is read

The bytes of a text are read as that text, by both forms of reading. Each character has one of four
forms, and what follows it does not matter. A zero byte stands for the character zero alone. The
strict form reads nothing else: bytes that it reads are those of the text that it gives.
-/

namespace Baton.Text.Utf8

variable {c : Char} {cs : List Char} {b lead : UInt8} {tail rest : List UInt8} {n : Nat}

/-! ## One character -/

/-- Bytes that stand for a character: `lead` asks for as many bytes as follow, admits the first of
them, and their bits make up the number of the character. -/
structure Encodes (c : Char) (lead : UInt8) (tail : List UInt8) : Prop where
  length : tailLength? lead = some tail.length
  follows : ∀ b, tail.head? = some b → followsLead lead b = true
  continues : ∀ b ∈ tail, isContinuation b = true
  number : tail.foldl (fun v b => v * 64 + b.toNat % 64) (leadBits lead tail.length) = c.toNat

/-- The bytes that continue a character are taken off what follows it. -/
theorem takeTail_append (hfollows : ∀ b, tail.head? = some b → followsLead lead b = true)
    (htail : ∀ b ∈ tail, isContinuation b = true) :
    takeTail lead tail.length (tail ++ rest) = (tail, rest) := by
  cases tail with
  | nil => rfl
  | cons b tail =>
      have htaken : tail.takeWhile isContinuation = tail := by
        have hall : ∀ x ∈ tail, isContinuation x = true :=
          fun x hx => htail x (List.mem_cons_of_mem b hx)
        rw [← List.append_nil tail, List.takeWhile_append_of_pos hall, List.takeWhile_nil]
      simp [takeTail, hfollows b rfl, htaken]

theorem Encodes.next (h : Encodes c lead tail) (rest : List UInt8) :
    next lead (tail ++ rest) = (some c, rest) := by
  simp [Utf8.next, h.length, takeTail_append h.follows h.continues, h.number]

/-! ## The bytes as numbers -/

theorem isContinuation_iff : isContinuation b = true ↔ 128 ≤ b.toNat ∧ b.toNat ≤ 191 := by
  simp [isContinuation, UInt8.le_iff_toNat_le]

theorem followsLead_iff : followsLead lead b = true ↔ (128 ≤ b.toNat ∧ b.toNat ≤ 191) ∧
    (lead.toNat = 224 → 160 ≤ b.toNat) ∧ (lead.toNat = 237 → b.toNat ≤ 159) ∧
    (lead.toNat = 240 → 144 ≤ b.toNat) ∧ (lead.toNat = 244 → b.toNat ≤ 143) := by
  simp only [followsLead, ← UInt8.toNat_inj, isContinuation, UInt8.le_iff_toNat_le,
    UInt8.reduceToNat]
  grind

theorem tailLength?_eq (lead : UInt8) : tailLength? lead =
    if lead.toNat < 128 then some 0
    else if 194 ≤ lead.toNat ∧ lead.toNat ≤ 223 then some 1
    else if 224 ≤ lead.toNat ∧ lead.toNat ≤ 239 then some 2
    else if 240 ≤ lead.toNat ∧ lead.toNat ≤ 244 then some 3
    else none := by
  simp only [tailLength?, UInt8.lt_iff_toNat_lt, UInt8.le_iff_toNat_le, Bool.and_eq_true,
    decide_eq_true_eq, UInt8.reduceToNat]

/-! ## The four forms -/

/-- The number of a character is within the range, and none of a surrogate. -/
theorem toNat_range (c : Char) : c.toNat < 55296 ∨ 57343 < c.toNat ∧ c.toNat < 1114112 :=
  c.valid

variable {x y z : UInt8}

theorem encodes_one (h : c.toNat < 128) (hlead : lead.toNat = c.toNat) : Encodes c lead [] where
  length := by rw [tailLength?_eq, if_pos (by omega), List.length_nil]
  follows := by simp
  continues := by simp
  number := hlead

theorem encodes_two (h : 128 ≤ c.toNat) (h' : c.toNat < 2048)
    (hlead : lead.toNat = c.toNat / 64 + 192) (hx : x.toNat = c.toNat % 64 + 128) :
    Encodes c lead [x] where
  length := by
    rw [tailLength?_eq, if_neg (by omega), if_pos (by omega), List.length_singleton]
  follows := by
    simp only [List.head?_cons, Option.some.injEq, forall_eq', followsLead_iff]
    omega
  continues := by
    simp [isContinuation_iff]
    omega
  number := by
    simp only [List.foldl, List.length, leadBits, hlead, hx]
    omega

theorem encodes_three (h : 2048 ≤ c.toNat) (h' : c.toNat < 65536)
    (hlead : lead.toNat = c.toNat / 4096 + 224) (hx : x.toNat = c.toNat / 64 % 64 + 128)
    (hy : y.toNat = c.toNat % 64 + 128) : Encodes c lead [x, y] where
  length := by
    rw [tailLength?_eq, if_neg (by omega), if_neg (by omega), if_pos (by omega)]
    rfl
  follows := by
    -- The second byte is narrowed where the number would be too small, or one of a surrogate.
    have hrange := toNat_range c
    simp only [List.head?_cons, Option.some.injEq, forall_eq', followsLead_iff]
    omega
  continues := by
    simp [isContinuation_iff]
    omega
  number := by
    simp only [List.foldl, List.length, leadBits, hlead, hx, hy]
    omega

theorem encodes_four (h : 65536 ≤ c.toNat)
    (hlead : lead.toNat = c.toNat / 262144 + 240) (hx : x.toNat = c.toNat / 4096 % 64 + 128)
    (hy : y.toNat = c.toNat / 64 % 64 + 128) (hz : z.toNat = c.toNat % 64 + 128) :
    Encodes c lead [x, y, z] := by
  have hrange := toNat_range c
  refine ⟨?_, ?_, ?_, ?_⟩
  · rw [tailLength?_eq, if_neg (by omega), if_neg (by omega), if_neg (by omega),
      if_pos (by omega)]
    rfl
  · simp only [List.head?_cons, Option.some.injEq, forall_eq', followsLead_iff]
    omega
  · simp [isContinuation_iff]
    omega
  · simp only [List.foldl, List.length, leadBits, hlead, hx, hy, hz]
    omega

theorem toNat_ofNat (h : n < 256) : (UInt8.ofNat n).toNat = n := by
  simpa using Nat.mod_eq_of_lt h

/-- Every character has one of the four forms. -/
theorem encodeChar_encodes (c : Char) :
    ∃ lead tail, String.utf8EncodeChar c = lead :: tail ∧ Encodes c lead tail := by
  have hrange := toNat_range c
  simp only [String.utf8EncodeChar.eq_def, show c.val.toNat = c.toNat from rfl]
  by_cases h1 : c.toNat ≤ 127
  · rw [if_pos h1]
    exact ⟨_, _, rfl, encodes_one (by omega) (toNat_ofNat (by omega))⟩
  rw [if_neg h1]
  by_cases h2 : c.toNat ≤ 2047
  · rw [if_pos h2]
    refine ⟨_, _, rfl, encodes_two (by omega) (by omega) ?_ ?_⟩ <;>
      rw [toNat_ofNat (by omega)]
    omega
  rw [if_neg h2]
  by_cases h3 : c.toNat ≤ 65535
  · rw [if_pos h3]
    refine ⟨_, _, rfl, encodes_three (by omega) (by omega) ?_ ?_ ?_⟩ <;>
      rw [toNat_ofNat (by omega)]
    omega
  · rw [if_neg h3]
    refine ⟨_, _, rfl, encodes_four (by omega) ?_ ?_ ?_ ?_⟩ <;> rw [toNat_ofNat (by omega)]
    omega

/-- A lead byte continues no character. -/
theorem Encodes.starts (h : Encodes c lead tail) : isContinuation lead = false := by
  cases hlead : isContinuation lead with
  | false => rfl
  | true =>
      have hrange := isContinuation_iff.mp hlead
      have hlength := h.length
      rw [tailLength?_eq, if_neg (by omega), if_neg (by omega), if_neg (by omega),
        if_neg (by omega)] at hlength
      cases hlength

/-! ## Texts -/

/-- The bytes of a text are read as its characters. -/
theorem parts_encode (cs : List Char) : parts (encode cs) = cs.map some := by
  induction cs with
  | nil => rw [encode_nil, parts, List.map_nil]
  | cons c cs ih =>
      obtain ⟨lead, tail, he, hencodes⟩ := encodeChar_encodes c
      rw [encode_cons, he, List.cons_append, parts, hencodes.next, ih, List.map_cons]

theorem decode?_encode (cs : List Char) : decode? (encode cs) = some (String.ofList cs) := by
  have hall : (cs.map some).mapM id = some cs := by
    simpa using List.mapM_pure (m := Option) (l := cs) (f := id)
  rw [decode?, parts_encode, hall, Option.map_some]

/-- No replacement character is needed. -/
theorem decodeLenient_encode (cs : List Char) : decodeLenient (encode cs) = String.ofList cs := by
  simp [decodeLenient, parts_encode, Function.comp_def]

/-- The zero byte stands for the character zero. -/
theorem encodeChar_zero : String.utf8EncodeChar '\x00' = [0] := rfl

/-- And no other character has a zero byte. -/
theorem zero_notMem_encodeChar (hc : c ≠ '\x00') : 0 ∉ String.utf8EncodeChar c := by
  obtain ⟨lead, tail, he, hencodes⟩ := encodeChar_encodes c
  rw [he, List.mem_cons]
  rintro (rfl | hmem)
  · have htail : tail = [] := by
      simpa [tailLength?] using hencodes.length.symm
    have hnumber := hencodes.number
    rw [htail] at hnumber
    exact hc (Char.toNat_inj.mp hnumber.symm)
  · have hzero := isContinuation_iff.mp (hencodes.continues 0 hmem)
    simp at hzero

/-- The bytes before the first zero are those of the characters before the first zero. -/
theorem takeWhile_encode (cs : List Char) (rest : List UInt8) :
    (encode cs ++ 0 :: rest).takeWhile (· != 0) = encode (cs.takeWhile (· ≠ '\x00')) := by
  induction cs with
  | nil => rfl
  | cons c cs ih =>
      by_cases hc : c = '\x00'
      · simp [hc, encodeChar_zero]
      · have hall : ∀ b ∈ String.utf8EncodeChar c, (b != 0) = true := by
          intro b hb
          simpa using fun he : b = 0 => zero_notMem_encodeChar hc (he ▸ hb)
        rw [encode_cons, List.append_assoc, List.takeWhile_append_of_pos hall, ih,
          List.takeWhile_cons_of_pos (by simpa using hc), encode_cons]

/-- The size of a text is the number of its bytes. -/
theorem length_encode (cs : List Char) :
    (encode cs).length = (String.ofList cs).utf8ByteSize := by
  rw [← String.size_toByteArray, String.toByteArray_ofList, List.utf8Encode,
    List.size_toByteArray, encode]

theorem encode_eq_nil_iff : encode cs = [] ↔ cs = [] := by
  cases cs <;> simp [encode, String.utf8EncodeChar_ne_nil]

/-- Of two texts at the front of a third one, the one with fewer bytes is at the front of the
other. -/
theorem prefix_of_length_encode_le {ds es : List Char} (hc : cs <+: es) (hd : ds <+: es)
    (hle : (encode cs).length ≤ (encode ds).length) : cs <+: ds := by
  rcases List.prefix_or_prefix_of_prefix hc hd with h | ⟨rest, rfl⟩
  · exact h
  · rw [encode_append, List.length_append] at hle
    have hrest : rest = [] := encode_eq_nil_iff.mp (List.eq_nil_of_length_eq_zero (by omega))
    exact ⟨[], by rw [hrest, List.append_nil, List.append_nil]⟩

/-! ## What is read was written -/

variable {bs : List UInt8}

/-- What is taken for the tail of a character stands in front of the rest, and its bytes are such
as `lead` admits. -/
theorem takeTail_spec (lead : UInt8) (n : Nat) (bs : List UInt8) :
    bs = (takeTail lead n bs).1 ++ (takeTail lead n bs).2 ∧
      (∀ b, (takeTail lead n bs).1.head? = some b → followsLead lead b = true) ∧
      ∀ b ∈ (takeTail lead n bs).1, isContinuation b = true := by
  cases n with
  | zero => simp [takeTail]
  | succ n =>
      cases bs with
      | nil => simp [takeTail]
      | cons b bs =>
          rw [takeTail]
          by_cases hb : followsLead lead b = true
          · rw [if_pos hb]
            have hfront : (bs.take n).takeWhile isContinuation <+: bs :=
              (List.takeWhile_prefix _).trans (List.take_prefix n bs)
            refine ⟨?_, ?_, ?_⟩
            · exact congrArg (b :: ·) (List.prefix_iff_eq_append.mp hfront).symm
            · rintro x hx
              exact Option.some.inj hx ▸ hb
            · intro x hx
              rcases List.mem_cons.mp hx with rfl | hx
              · exact isContinuation_iff.mpr (followsLead_iff.mp hb).1
              · exact List.all_eq_true.mp List.all_takeWhile x hx
          · simp [hb]

/-- Bytes that one lead byte admits make up the number of a character. -/
theorem isValidChar_number (hlength : tailLength? lead = some tail.length)
    (hfollows : ∀ b, tail.head? = some b → followsLead lead b = true)
    (hcontinues : ∀ b ∈ tail, isContinuation b = true) :
    (tail.foldl (fun v b => v * 64 + b.toNat % 64) (leadBits lead tail.length)).isValidChar := by
  simp only [Nat.isValidChar]
  rw [tailLength?_eq] at hlength
  match tail with
  | [] =>
      simp only [List.length_nil] at hlength
      simp only [List.foldl, List.length, leadBits]
      grind
  | [x] =>
      simp only [List.length_singleton] at hlength
      simp only [List.foldl, List.length, leadBits]
      have hx := followsLead_iff.mp (hfollows x rfl)
      have hlead : 194 ≤ lead.toNat ∧ lead.toNat ≤ 223 := by grind
      omega
  | [x, y] =>
      simp only [List.length_cons, List.length_nil] at hlength
      simp only [List.foldl, List.length, leadBits]
      have hx := followsLead_iff.mp (hfollows x rfl)
      have hlead : 224 ≤ lead.toNat ∧ lead.toNat ≤ 239 := by grind
      omega
  | [x, y, z] =>
      simp only [List.length_cons, List.length_nil] at hlength
      simp only [List.foldl, List.length, leadBits]
      have hx := followsLead_iff.mp (hfollows x rfl)
      have hlead : 240 ≤ lead.toNat ∧ lead.toNat ≤ 244 := by grind
      omega
  | _ :: _ :: _ :: _ :: _ =>
      simp only [List.length_cons] at hlength
      grind

theorem toNat_char_ofNat (h : n.isValidChar) : (Char.ofNat n).toNat = n := by
  rw [Char.ofNat, dif_pos h]
  rfl

/-- A character that is read is the one for which the bytes in front stand. -/
theorem exists_encodes_of_next (h : next lead bs = (some c, rest)) :
    ∃ tail, bs = tail ++ rest ∧ Encodes c lead tail := by
  cases hn : tailLength? lead with
  | none => simp [next, hn] at h
  | some n =>
      obtain ⟨happend, hfollows, hcontinues⟩ := takeTail_spec lead n bs
      simp only [next, hn] at h
      generalize takeTail lead n bs = taken at h happend hfollows hcontinues
      split at h
      case isTrue hlength =>
        obtain ⟨hc, rfl⟩ := Prod.mk.inj h
        subst hlength
        refine ⟨taken.1, happend, hn, hfollows, hcontinues, ?_⟩
        rw [← Option.some.inj hc, toNat_char_ofNat (isValidChar_number hn hfollows hcontinues)]
      case isFalse => cases (Prod.mk.inj h).1

theorem ofNat_of_toNat (h : b.toNat = n) : UInt8.ofNat n = b := h ▸ UInt8.ofNat_toNat

/-- The bytes that stand for a character are those in which it is written. -/
theorem Encodes.encodeChar (h : Encodes c lead tail) : String.utf8EncodeChar c = lead :: tail := by
  have hlength := h.length
  have hnumber := h.number
  rw [tailLength?_eq] at hlength
  simp only [String.utf8EncodeChar.eq_def, show c.val.toNat = c.toNat from rfl]
  match tail with
  | [] =>
      have hlead : lead.toNat < 128 := by grind
      simp only [List.foldl, List.length, leadBits] at hnumber
      rw [if_pos (by omega), ofNat_of_toNat hnumber]
  | [x] =>
      have hx := followsLead_iff.mp (h.follows x rfl)
      have hlead : 194 ≤ lead.toNat ∧ lead.toNat ≤ 223 := by grind
      simp only [List.foldl, List.length, leadBits] at hnumber
      rw [if_neg (by omega), if_pos (by omega), ofNat_of_toNat (b := lead) (by omega),
        ofNat_of_toNat (b := x) (by omega)]
  | [x, y] =>
      have hx := followsLead_iff.mp (h.follows x rfl)
      have hy := isContinuation_iff.mp (h.continues y (by simp))
      have hlead : 224 ≤ lead.toNat ∧ lead.toNat ≤ 239 := by grind
      simp only [List.foldl, List.length, leadBits] at hnumber
      rw [if_neg (by omega), if_neg (by omega), if_pos (by omega),
        ofNat_of_toNat (b := lead) (by omega), ofNat_of_toNat (b := x) (by omega),
        ofNat_of_toNat (b := y) (by omega)]
  | [x, y, z] =>
      have hx := followsLead_iff.mp (h.follows x rfl)
      have hy := isContinuation_iff.mp (h.continues y (by simp))
      have hz := isContinuation_iff.mp (h.continues z (by simp))
      have hlead : 240 ≤ lead.toNat ∧ lead.toNat ≤ 244 := by grind
      simp only [List.foldl, List.length, leadBits] at hnumber
      rw [if_neg (by omega), if_neg (by omega), if_neg (by omega),
        ofNat_of_toNat (b := lead) (by omega), ofNat_of_toNat (b := x) (by omega),
        ofNat_of_toNat (b := y) (by omega), ofNat_of_toNat (b := z) (by omega)]
  | _ :: _ :: _ :: _ :: _ =>
      simp only [List.length_cons] at hlength
      grind

/-- Bytes that are read without an ill-formed part are those of the text that is read. -/
theorem eq_encode_of_parts (h : parts bs = cs.map some) : bs = encode cs := by
  induction cs generalizing bs with
  | nil =>
      cases bs with
      | nil => rfl
      | cons b bs =>
          rw [parts] at h
          cases h
  | cons c cs ih =>
      cases bs with
      | nil =>
          rw [parts] at h
          cases h
      | cons lead bs =>
          rw [parts, List.map_cons] at h
          obtain ⟨hc, hparts⟩ := List.cons.inj h
          obtain ⟨tail, happend, hencodes⟩ :=
            exists_encodes_of_next (Prod.ext hc rfl : next lead bs = (some c, (next lead bs).2))
          rw [encode_cons, hencodes.encodeChar, ← ih hparts, List.cons_append, ← happend]

theorem eq_map_some_of_mapM {os : List (Option Char)} (h : os.mapM id = some cs) :
    os = cs.map some := by
  induction os generalizing cs with
  | nil =>
      obtain rfl : [] = cs := Option.some.inj h
      rfl
  | cons o os ih =>
      simp only [List.mapM_cons, id, Option.bind_eq_bind, Option.bind_eq_some_iff,
        Option.pure_def, Option.some.injEq] at h
      obtain ⟨c, rfl, ds, hds, rfl⟩ := h
      rw [ih hds, List.map_cons]

/-- The strict form reads exactly the bytes in which texts are written. -/
theorem decode?_eq_some_iff {s : String} : decode? bs = some s ↔ bs = encode s.toList := by
  constructor
  · intro h
    obtain ⟨cs, hcs, rfl⟩ := Option.map_eq_some_iff.mp h
    rw [String.toList_ofList]
    exact eq_encode_of_parts (eq_map_some_of_mapM hcs)
  · rintro rfl
    rw [decode?_encode, String.ofList_toList]

end Baton.Text.Utf8
