import Baton.ErrorText
import Baton.Proofs.Text.Utf8
import Mathlib.Data.List.Induction

/-!
# Error texts: what a thread reads back

The text of a thread depends on nothing but the last thing that this thread did to it. A text is
cut where its last character ends that fits with those before it; so what is in the buffer before
the first zero is well-formed, whatever older texts have left behind it.
-/

namespace Baton

namespace ErrorText

open Text.Utf8 (encode isContinuation)

variable {cs : List Char} {bytes : List UInt8} {i j : Nat} {s p : String} {b : ErrorText}

/-! ## Where a text can be cut -/

theorem isBoundary_lastBoundary (bytes : List UInt8) (i : Nat) :
    isBoundary bytes (lastBoundary bytes i) = true := by
  induction i with
  | zero => rfl
  | succ i ih =>
      rw [lastBoundary]
      split
      · assumption
      · exact ih

theorem le_lastBoundary (hj : isBoundary bytes j = true) (hle : j ≤ i) :
    j ≤ lastBoundary bytes i := by
  induction i with
  | zero => exact hle
  | succ i ih =>
      rw [lastBoundary]
      split
      · exact hle
      · rename_i hi
        rcases Nat.le_succ_iff.mp hle with hle | rfl
        · exact ih hle
        · exact absurd hj hi

/-- The place before a text needs no exception: no character goes on there. -/
theorem isBoundary_encode_eq (cs : List Char) (i : Nat) : isBoundary (encode cs) i =
    match (encode cs)[i]? with
    | some b => !isContinuation b
    | none => i == (encode cs).length := by
  cases i with
  | succ i => rfl
  | zero =>
      cases cs with
      | nil => rfl
      | cons c cs =>
          obtain ⟨lead, tail, he, hencodes⟩ := Text.Utf8.encodeChar_encodes c
          simp [isBoundary, he, hencodes.starts]

/-- Behind its first character a text can be cut where what follows can be cut. -/
theorem isBoundary_encode_cons (c : Char) (cs : List Char) (i : Nat) :
    isBoundary (encode (c :: cs)) ((String.utf8EncodeChar c).length + i) =
      isBoundary (encode cs) i := by
  rw [isBoundary_encode_eq, isBoundary_encode_eq, Text.Utf8.encode_cons,
    List.getElem?_append_right (Nat.le_add_right ..), Nat.add_sub_cancel_left,
    List.length_append]
  cases (encode cs)[i]? with
  | some b => rfl
  | none => exact Bool.eq_iff_iff.mpr (by simp)

/-- And not within its first character. -/
theorem isBoundary_encode_within {c : Char} (hpos : 0 < i)
    (hi : i < (String.utf8EncodeChar c).length) : isBoundary (encode (c :: cs)) i = false := by
  obtain ⟨lead, tail, he, hencodes⟩ := Text.Utf8.encodeChar_encodes c
  obtain ⟨k, rfl⟩ := Nat.exists_eq_succ_of_ne_zero (Nat.ne_of_gt hpos)
  have hk : k < tail.length := by
    rw [he] at hi
    exact Nat.lt_of_succ_lt_succ hi
  rw [isBoundary_encode_eq, Text.Utf8.encode_cons, List.getElem?_append_left hi, he,
    List.getElem?_cons_succ, List.getElem?_eq_getElem hk]
  simp [hencodes.continues _ (List.getElem_mem hk)]

/-- A text can be cut where some of its characters end, and nowhere else. -/
theorem isBoundary_encode : isBoundary (encode cs) i = true ↔
    ∃ ds, ds <+: cs ∧ (encode ds).length = i := by
  induction cs generalizing i with
  | nil =>
      have hlast : isBoundary [] i = true ↔ 0 = i := by
        cases i <;> simp [isBoundary]
      simpa using hlast
  | cons c cs ih =>
      rcases Nat.eq_zero_or_pos i with rfl | hpos
      · exact ⟨fun _ => ⟨[], List.nil_prefix, rfl⟩, fun _ => rfl⟩
      rcases Nat.lt_or_ge i (String.utf8EncodeChar c).length with hi | hi
      · rw [isBoundary_encode_within hpos hi]
        refine ⟨Bool.noConfusion, ?_⟩
        rintro ⟨ds, hds, rfl⟩
        rcases List.prefix_cons_iff.mp hds with rfl | ⟨ds, rfl, -⟩
        · exact absurd hpos (Nat.lt_irrefl 0)
        · rw [Text.Utf8.encode_cons, List.length_append] at hi
          omega
      · obtain ⟨k, rfl⟩ := Nat.exists_eq_add_of_le hi
        rw [isBoundary_encode_cons, ih]
        constructor
        · rintro ⟨ds, hds, rfl⟩
          refine ⟨c :: ds, List.prefix_cons_iff.mpr (.inr ⟨ds, rfl, hds⟩), ?_⟩
          rw [Text.Utf8.encode_cons, List.length_append]
        · rintro ⟨ds, hds, hlength⟩
          rcases List.prefix_cons_iff.mp hds with rfl | ⟨es, rfl, hes⟩
          · exact absurd hlength (Nat.ne_of_lt hpos)
          · rw [Text.Utf8.encode_cons, List.length_append] at hlength
            exact ⟨es, hes, Nat.add_left_cancel hlength⟩

/-! ## What fits -/

/-- `p` consists of the characters at the front of `s` whose bytes fit into `room`, as many of them
as possible. -/
structure IsLongestFit (room : Nat) (s p : String) : Prop where
  starts : p.toList <+: s.toList
  fits : p.utf8ByteSize ≤ room
  longest : ∀ q : String, q.toList <+: s.toList → q.utf8ByteSize ≤ room → q.toList <+: p.toList

/-- There is at most one such text. -/
theorem IsLongestFit.unique {room : Nat} {q : String} (h : IsLongestFit room s p)
    (h' : IsLongestFit room s q) : p = q :=
  String.toList_injective ((h'.longest p h.starts h.fits).eq_of_length_le
    (h.longest q h'.starts h'.fits).length_le)

/-- A text that fits is cut nowhere. -/
theorem isLongestFit_self {room : Nat} (h : s.utf8ByteSize ≤ room) : IsLongestFit room s s :=
  ⟨List.prefix_rfl, h, fun _ hq _ => hq⟩

/-- The place where a text is cut is where the characters end that fit. -/
theorem exists_isLongestFit (s : String) : ∃ p, IsLongestFit (capacity - 1) s p ∧
    (encode p.toList).length = cut (encode s.toList) := by
  have hsize : ∀ q : String, q.utf8ByteSize = (encode q.toList).length := fun q => by
    rw [Text.Utf8.length_encode, String.ofList_toList]
  obtain ⟨ds, hds, hlength⟩ := isBoundary_encode.mp (isBoundary_lastBoundary (encode s.toList)
    (min (encode s.toList).length (capacity - 1)))
  have hroom := cut_le (encode s.toList)
  refine ⟨String.ofList ds, ⟨?_, ?_, fun q hq hfits => ?_⟩, ?_⟩
  · rw [String.toList_ofList]
    exact hds
  · rw [hsize, String.toList_ofList, hlength]
    exact Nat.le_sub_one_of_lt hroom.2
  · -- A longer text that fits would end at a later boundary.
    have hle : (encode q.toList).length ≤ (encode ds).length := by
      rw [hlength]
      refine le_lastBoundary (isBoundary_encode.mpr ⟨q.toList, hq, rfl⟩) (Nat.le_min.mpr ⟨?_, ?_⟩)
      · obtain ⟨rest, hrest⟩ := hq
        rw [← hrest, Text.Utf8.encode_append, List.length_append]
        exact Nat.le_add_right _ _
      · rw [← hsize]
        exact hfits
    rw [String.toList_ofList]
    exact Text.Utf8.prefix_of_length_encode_le hq hds hle
  · rw [String.toList_ofList]
    exact hlength

/-! ## What a buffer holds -/

/-- The text before the first zero. -/
def beforeZero (s : String) : String := String.ofList (s.toList.takeWhile (· ≠ '\x00'))

theorem beforeZero_of_notMem (h : '\x00' ∉ s.toList) : beforeZero s = s := by
  have hall : ∀ c ∈ s.toList, decide (c ≠ '\x00') = true := by
    intro c hc
    simpa using fun he : c = '\x00' => h (he ▸ hc)
  rw [beforeZero, ← List.append_nil s.toList, List.takeWhile_append_of_pos hall,
    List.takeWhile_nil, List.append_nil, String.ofList_toList]

theorem size_eq (s : String) : s.utf8ByteSize = (encode s.toList).length := by
  rw [Text.Utf8.length_encode, String.ofList_toList]

/-- The bytes of a buffer after a text was set: what fits of it, a zero, and what was there. -/
theorem bytes_set (s : String) (b : ErrorText) : ∃ p, IsLongestFit (capacity - 1) s p ∧
    (b.set s).bytes = encode p.toList ++ 0 :: b.bytes.drop (p.utf8ByteSize + 1) := by
  obtain ⟨p, hp, hcut⟩ := exists_isLongestFit s
  obtain ⟨rest, hrest⟩ := hp.starts
  have htaken : (encode s.toList).take (cut (encode s.toList)) = encode p.toList := by
    rw [← hcut, ← hrest, Text.Utf8.encode_append, List.take_left]
  refine ⟨p, hp, ?_⟩
  rw [size_eq, hcut, ← htaken]
  rfl

/-- The bytes behind the zero of a text that was set are those of before. -/
theorem getElem?_behind {xs ys : List UInt8} (hi : xs.length < i) :
    (xs ++ 0 :: ys.drop (xs.length + 1))[i]? = ys[i]? := by
  obtain ⟨k, rfl⟩ := Nat.exists_eq_add_of_lt hi
  rw [Nat.add_assoc, List.getElem?_append_right (Nat.le_add_right ..), Nat.add_sub_cancel_left,
    List.getElem?_cons_succ, List.getElem?_drop, Nat.add_right_comm, Nat.add_assoc]

/-- A buffer holds `p` of the last text, if there is one, and nothing otherwise. -/
structure Holds (last : Option String) (b : ErrorText) (p : String) : Prop where
  empty : last = none → p = ""
  fits : ∀ s, last = some s → IsLongestFit (capacity - 1) s p
  textBytes : b.textBytes = encode (beforeZero p).toList
  lastByte : b.bytes[capacity - 1]? = some 0

theorem holds_fresh : Holds none fresh "" where
  empty _ := rfl
  fits _ h := by cases h
  textBytes := rfl
  lastByte := rfl

theorem holds_set (s : String) (h : b.bytes[capacity - 1]? = some 0) :
    ∃ p, Holds (some s) (b.set s) p := by
  obtain ⟨p, hp, hbytes⟩ := bytes_set s b
  refine ⟨p, ⟨by simp, fun _ he => Option.some.inj he ▸ hp, ?_, ?_⟩⟩
  · rw [textBytes, hbytes, Text.Utf8.takeWhile_encode, beforeZero, String.toList_ofList]
  · have hfits := hp.fits
    rw [hbytes, size_eq] at *
    rcases Nat.eq_or_lt_of_le hfits with hfull | hroom
    · rw [← hfull, List.getElem?_append_right (Nat.le_refl _), Nat.sub_self]
      rfl
    · rw [getElem?_behind hroom, h]

theorem holds_clear (h : b.bytes[capacity - 1]? = some 0) : Holds none b.clear "" where
  empty _ := rfl
  fits _ h := by cases h
  textBytes := by
    obtain ⟨x, xs, hbytes⟩ := List.exists_cons_of_length_pos (l := b.bytes)
      (b.length_eq ▸ by decide)
    show (b.bytes.set 0 0).takeWhile (· != 0) = _
    rw [hbytes]
    rfl
  lastByte := by
    rw [clear, List.getElem?_set_ne (by decide), h]

/-- The text after a change, unless it leaves none. -/
def Change.text? : Change → Option String
  | set s => some s
  | setPieces pieces => some (String.join pieces)
  | clear => none

theorem holds_apply (c : Change) (h : b.bytes[capacity - 1]? = some 0) :
    ∃ p, Holds c.text? (c.apply b) p := by
  cases c with
  | set s => exact holds_set s h
  | setPieces pieces => exact holds_set (String.join pieces) h
  | clear => exact ⟨"", holds_clear h⟩

/-- What is read back is what a buffer holds, up to the first zero. -/
theorem Holds.message {last : Option String} (h : Holds last b p) : b.message = beforeZero p := by
  rw [ErrorText.message, h.textBytes, Text.Utf8.decodeLenient_encode, String.ofList_toList]

/-- A text is empty exactly if its first byte is zero. -/
theorem isEmpty_iff (b : ErrorText) : b.isEmpty = true ↔ b.message = "" := by
  obtain ⟨x, xs, hbytes⟩ := List.exists_cons_of_length_pos (l := b.bytes)
    (b.length_eq ▸ by decide)
  -- Bytes that are no zero are read as at least one character.
  by_cases hx : x = 0
  · simp [isEmpty, ErrorText.message, textBytes, hbytes, hx, Text.Utf8.decodeLenient,
      Text.Utf8.parts]
  · simp [isEmpty, ErrorText.message, textBytes, hbytes, hx, Text.Utf8.decodeLenient,
      Text.Utf8.parts]

/-- There is a zero behind the text. -/
theorem Holds.ended {last : Option String} (h : Holds last b p) :
    b.bytes[b.textBytes.length]? = some 0 := by
  have hmem : 0 ∈ b.bytes := List.mem_of_getElem? h.lastByte
  have hsplit : b.textBytes ++ b.bytes.dropWhile (· != 0) = b.bytes :=
    List.takeWhile_append_dropWhile
  cases hrest : b.bytes.dropWhile (· != 0) with
  | nil =>
      rw [hrest, List.append_nil] at hsplit
      rw [← hsplit] at hmem
      cases List.all_eq_true.mp List.all_takeWhile 0 hmem
  | cons x rest =>
      have hx := List.head?_dropWhile_not (· != 0) b.bytes
      rw [hrest] at hx hsplit
      rw [← hsplit, List.getElem?_append_right (Nat.le_refl _), Nat.sub_self]
      simpa using hx

/-! ## Histories -/

variable {κ : Type} [DecidableEq κ] {c : Change}

/-- The text that a thread's last change in a history left, if it has made one and did not clear. -/
def lastText? (t : κ) (h : List (κ × Change)) : Option String :=
  (h.reverse.find? fun c => c.1 = t).bind fun c => c.2.text?

theorem lastText?_concat (h : List (κ × Change)) (t u : κ) (c : Change) :
    lastText? t (h ++ [(u, c)]) = if u = t then c.text? else lastText? t h := by
  rw [lastText?, List.reverse_concat, List.find?_cons]
  split <;> simp_all [lastText?]

theorem get_after_concat (h : List (κ × Change)) (t u : κ) (c : Change) :
    (after (h ++ [(u, c)])).get t =
      if u = t then c.apply ((after h).get t) else (after h).get t := by
  rw [after, List.foldl_append]
  show ((after h).update u c.apply).get t = _
  rw [Store.get_update]
  by_cases hu : u = t
  · rw [if_pos hu.symm, if_pos hu, hu]
  · rw [if_neg (Ne.symm hu), if_neg hu]

/-- The buffer of each thread holds its own last text. -/
theorem after_holds (h : List (κ × Change)) (t : κ) :
    ∃ p, Holds (lastText? t h) ((after h).get t) p := by
  induction h using List.reverseRecOn with
  | nil => exact ⟨"", holds_fresh⟩
  | append_singleton h c ih =>
      obtain ⟨u, c⟩ := c
      obtain ⟨p, hp⟩ := ih
      rw [lastText?_concat, get_after_concat]
      split
      · exact holds_apply c hp.lastByte
      · exact ⟨p, hp⟩

/-- What other threads do to their buffers makes no difference. -/
theorem get_after_filter (h : List (κ × Change)) (t : κ) :
    (after (h.filter fun c => c.1 = t)).get t = (after h).get t := by
  induction h using List.reverseRecOn with
  | nil => rfl
  | append_singleton h c ih =>
      obtain ⟨u, c⟩ := c
      rw [List.filter_append, get_after_concat, ← ih]
      by_cases hu : u = t
      · rw [if_pos hu, List.filter_cons_of_pos (by simpa using hu), List.filter_nil]
        exact (get_after_concat _ t u c).trans (if_pos hu)
      · rw [if_neg hu, List.filter_cons_of_neg (by simpa using hu), List.filter_nil,
          List.append_nil]

/-- A text writes its bytes and a zero, and no byte behind that. -/
theorem bytes_apply (hc : c.text? = some s) (b : ErrorText) :
    ∃ p, IsLongestFit (capacity - 1) s p ∧ (c.apply b).bytes[p.utf8ByteSize]? = some 0 ∧
      ∀ i, p.utf8ByteSize < i → (c.apply b).bytes[i]? = b.bytes[i]? := by
  have hset : c.apply b = b.set s := by
    cases c with
    | set _ | setPieces _ =>
        obtain rfl := Option.some.inj hc
        rfl
    | clear => cases hc
  obtain ⟨p, hp, hbytes⟩ := bytes_set s b
  refine ⟨p, hp, ?_⟩
  rw [hset, hbytes, size_eq]
  refine ⟨?_, fun i hi => getElem?_behind hi⟩
  rw [List.getElem?_append_right (Nat.le_refl _), Nat.sub_self, List.getElem?_cons_zero]

/-- What a thread reads back whose last text is `last`, if it has one. -/
structure Recalls (last : Option String) (b : ErrorText) : Prop where
  /-- Without a text, nothing. -/
  nothing : last = none → b.message = ""
  /-- Of a text what fits, up to its first zero. -/
  fitting : ∀ s, last = some s → ∃ p, IsLongestFit 127 s p ∧ b.message = beforeZero p
  /-- So a text that fits and has no zero is read back whole. -/
  whole : ∀ s, last = some s → s.utf8ByteSize ≤ 127 → '\x00' ∉ s.toList → b.message = s
  /-- The bytes are those of a text, which is read without a replacement character. -/
  wellFormed : b.textBytes = encode b.message.toList ∧
    Text.Utf8.decode? b.textBytes = some b.message
  isEmpty_iff : b.isEmpty = true ↔ b.message = ""
  lastByte : b.bytes[127]? = some 0
  ended : b.bytes[b.textBytes.length]? = some 0

theorem Holds.recalls {last : Option String} (hb : Holds last b p) : Recalls last b where
  nothing hnone := by rw [hb.message, hb.empty hnone]; rfl
  fitting s hs := ⟨p, hb.fits s hs, hb.message⟩
  whole s hs hsize hzero := by
    rw [hb.message, (hb.fits s hs).unique (isLongestFit_self hsize), beforeZero_of_notMem hzero]
  wellFormed := by
    rw [hb.message, hb.textBytes, Text.Utf8.decode?_encode, String.ofList_toList]
    exact ⟨rfl, rfl⟩
  isEmpty_iff := b.isEmpty_iff
  lastByte := hb.lastByte
  ended := hb.ended

/-- After every history each thread reads back what fits of its own last text; the others make no
difference to it, and a text leaves the bytes behind its zero alone. -/
theorem texts_follow_history {κ : Type} [DecidableEq κ] :
    (∀ (h : List (κ × Change)) (t : κ), Recalls (lastText? t h) ((after h).get t)) ∧
    (∀ (h : List (κ × Change)) (t : κ),
      (after (h.filter fun c => c.1 = t)).get t = (after h).get t) ∧
    ∀ (h : List (κ × Change)) (t : κ) (c : Change) (s : String), c.text? = some s →
      ∃ p, IsLongestFit 127 s p ∧
        ((after (h ++ [(t, c)])).get t).bytes[p.utf8ByteSize]? = some 0 ∧
        ∀ i, p.utf8ByteSize < i →
          ((after (h ++ [(t, c)])).get t).bytes[i]? = ((after h).get t).bytes[i]? := by
  refine ⟨fun h t => ?_, get_after_filter, fun h t c s hc => ?_⟩
  · obtain ⟨p, hp⟩ := after_holds h t
    exact hp.recalls
  · rw [get_after_concat, if_pos rfl]
    exact bytes_apply hc _

/-- A text that is one byte too long loses its last character. A shorter one that replaces it is
read back whole, and bytes of the first one stay behind it. -/
theorem texts_follow_history_replaced :
    let long := String.ofList (List.replicate 64 'é')
    let h : List (Nat × Change) := [(1, .set long), (2, .set "other")]
    let c : Change := .setPieces ["worker ", "7", " failed"]
    (∃ p, IsLongestFit 127 long p ∧ String.ofList (List.replicate 63 'é') = beforeZero p) ∧
      ((after (h ++ [(1, c)])).get 1).message = "worker 7 failed" ∧
      ((after (h ++ [(1, c)])).get 1).bytes[20]? = some 0xC3 := by
  intro long h c
  have htext : c.text? = some "worker 7 failed" := by decide
  refine ⟨?_, ?_, ?_⟩
  · obtain ⟨p, hp, hmessage⟩ := (texts_follow_history.1 h 1).fitting long rfl
    exact ⟨p, hp, hmessage ▸ by decide +kernel⟩
  · refine (texts_follow_history.1 (h ++ [(1, c)]) 1).whole _ ?_ (by decide) (by decide)
    exact (lastText?_concat h 1 1 c).trans htext
  · obtain ⟨p, hp, -, hbehind⟩ := texts_follow_history.2.2 h 1 c _ htext
    obtain rfl := hp.unique (isLongestFit_self (by decide))
    exact (hbehind 20 (by decide)).trans (by decide +kernel)

end ErrorText

end Baton
