/-!
# Bytes and characters

The encoding of text in one to four bytes per character. Reading has two forms: a strict one that
refuses a text with any ill-formed part, and a lenient one that shows each ill-formed part as one
replacement character. An ill-formed part is the longest start of a character that the bytes admit,
or a single byte.
-/

namespace Baton.Text.Utf8

/-- The bytes of a text. -/
def encode (cs : List Char) : List UInt8 := cs.flatMap String.utf8EncodeChar

@[simp] theorem encode_nil : encode [] = [] := rfl

@[simp] theorem encode_cons (c : Char) (cs : List Char) :
    encode (c :: cs) = String.utf8EncodeChar c ++ encode cs := rfl

@[simp] theorem encode_append (cs ds : List Char) : encode (cs ++ ds) = encode cs ++ encode ds :=
  List.flatMap_append

/-- Whether a byte continues a character. -/
def isContinuation (b : UInt8) : Bool := 0x80 ≤ b && b ≤ 0xBF

/-- How many bytes continue a character that starts with `lead`; `none` if none starts so. -/
def tailLength? (lead : UInt8) : Option Nat :=
  if lead < 0x80 then some 0
  else if 0xC2 ≤ lead && lead ≤ 0xDF then some 1
  else if 0xE0 ≤ lead && lead ≤ 0xEF then some 2
  else if 0xF0 ≤ lead && lead ≤ 0xF4 then some 3
  else none

/-- Whether `b` may follow `lead`. Four lead bytes narrow the range, which rules out overlong
forms, surrogates and numbers beyond the last code point. -/
def followsLead (lead b : UInt8) : Bool :=
  if lead = 0xE0 then 0xA0 ≤ b && b ≤ 0xBF
  else if lead = 0xED then 0x80 ≤ b && b ≤ 0x9F
  else if lead = 0xF0 then 0x90 ≤ b && b ≤ 0xBF
  else if lead = 0xF4 then 0x80 ≤ b && b ≤ 0x8F
  else isContinuation b

/-- The bits of a lead byte that belong to the code point. -/
def leadBits (lead : UInt8) : Nat → Nat
  | 0 => lead.toNat
  | 1 => lead.toNat % 32
  | 2 => lead.toNat % 16
  | _ => lead.toNat % 8

/-- The continuation bytes at the front of `bs`, at most `n` of them, the first one also admitted
by `lead`; and what follows them. -/
def takeTail (lead : UInt8) (n : Nat) (bs : List UInt8) : List UInt8 × List UInt8 :=
  match n, bs with
  | 0, bs => ([], bs)
  | _, [] => ([], [])
  | n + 1, b :: bs =>
    if followsLead lead b then
      (b :: (bs.take n).takeWhile isContinuation,
        bs.drop ((bs.take n).takeWhile isContinuation).length)
    else ([], b :: bs)

theorem takeTail_length (lead : UInt8) (n : Nat) (bs : List UInt8) :
    (takeTail lead n bs).2.length ≤ bs.length := by
  cases n <;> cases bs <;> simp only [takeTail]
  · simp
  · simp
  · simp
  · split
    · simp only [List.length_drop, List.length_cons]
      omega
    · simp

/-- The first character of `lead :: bs`, or `none` for an ill-formed part; and what follows. -/
def next (lead : UInt8) (bs : List UInt8) : Option Char × List UInt8 :=
  match tailLength? lead with
  | none => (none, bs)
  | some n =>
    let (tail, rest) := takeTail lead n bs
    if tail.length = n then
      (some (Char.ofNat (tail.foldl (fun v b => v * 64 + b.toNat % 64) (leadBits lead n))), rest)
    else (none, rest)

theorem next_length (lead : UInt8) (bs : List UInt8) :
    (next lead bs).2.length ≤ bs.length := by
  unfold next
  split
  · exact Nat.le_refl _
  · rename_i n _
    have := takeTail_length lead n bs
    dsimp only
    split <;> exact this

/-- The characters of a byte text, `none` for each ill-formed part. -/
def parts : List UInt8 → List (Option Char)
  | [] => []
  | b :: bs => (next b bs).1 :: parts (next b bs).2
termination_by bs => bs.length
decreasing_by
  have := next_length b bs
  simp only [List.length_cons]
  omega

/-- The text of well-formed bytes. -/
def decode? (bs : List UInt8) : Option String :=
  ((parts bs).mapM id).map String.ofList

/-- The text of any bytes, with a replacement character for each ill-formed part. -/
def decodeLenient (bs : List UInt8) : String :=
  String.ofList ((parts bs).map fun c => c.getD '\uFFFD')

end Baton.Text.Utf8
