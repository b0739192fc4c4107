import Baton.Store
import Baton.Text.Quoted
import Baton.Text.Utf8

/-!
# The error text of a thread

Each thread keeps the text of its last error in a buffer of fixed size. A text ends at its first
zero byte. A longer text is cut at the last character that fits, and bytes behind the end of a
text stay as they were.
-/

namespace Baton

/-- The size of a buffer, the final zero included. -/
def ErrorText.capacity : Nat := 128

/-- A buffer that holds a text. -/
structure ErrorText where
  bytes : List UInt8
  length_eq : bytes.length = ErrorText.capacity

namespace ErrorText

/-- The buffer of a fresh thread. -/
def fresh : ErrorText := ⟨List.replicate capacity 0, List.length_replicate⟩

instance : Inhabited ErrorText := ⟨fresh⟩

/-- Whether a text of these bytes can be cut at `i`: no character goes on there. -/
def isBoundary (bytes : List UInt8) (i : Nat) : Bool :=
  i == 0 || match bytes[i]? with
    | some b => !Text.Utf8.isContinuation b
    | none => i == bytes.length

/-- The last place up to `i` where a text of these bytes can be cut. -/
def lastBoundary (bytes : List UInt8) : Nat → Nat
  | 0 => 0
  | i + 1 => if isBoundary bytes (i + 1) then i + 1 else lastBoundary bytes i

theorem lastBoundary_le (bytes : List UInt8) (i : Nat) : lastBoundary bytes i ≤ i := by
  induction i with
  | zero => exact Nat.le_refl 0
  | succ i ih =>
    rw [lastBoundary]
    split
    · exact Nat.le_refl _
    · exact Nat.le_succ_of_le ih

/-- How many of these bytes a buffer takes in. -/
def cut (bytes : List UInt8) : Nat := lastBoundary bytes (min bytes.length (capacity - 1))

theorem cut_le (bytes : List UInt8) : cut bytes ≤ bytes.length ∧ cut bytes < capacity :=
  (Nat.le_min.mp (lastBoundary_le bytes _)).imp_right Nat.lt_succ_of_le

/-- Replaces the text by as much of `s` as fits. -/
def set (s : String) (b : ErrorText) : ErrorText :=
  let bytes := Text.Utf8.encode s.toList
  ⟨bytes.take (cut bytes) ++ 0 :: b.bytes.drop (cut bytes + 1), by
    have hcut := cut_le bytes
    have hb := b.length_eq
    simp only [List.length_append, List.length_take, List.length_cons, List.length_drop]
    omega⟩

/-- Replaces the text by formatted text, which comes in pieces. -/
def setPieces (pieces : List String) (b : ErrorText) : ErrorText := b.set (String.join pieces)

/-- Empties the text. -/
def clear (b : ErrorText) : ErrorText := ⟨b.bytes.set 0 0, by simp [b.length_eq]⟩

/-- The bytes before the first zero. -/
def textBytes (b : ErrorText) : List UInt8 := b.bytes.takeWhile (· != 0)

/-- The text. -/
def message (b : ErrorText) : String := Text.Utf8.decodeLenient b.textBytes

/-- Whether there is no text. -/
def isEmpty (b : ErrorText) : Bool := b.bytes.head? == some 0

/-- The buffer as diagnostics show it. -/
def describe (b : ErrorText) : String :=
  "ErrBuf \x7b message: " ++ Text.quoted b.message ++ " \x7d"

/-- What a thread can do to its text. -/
inductive Change where
  | set (s : String)
  | setPieces (pieces : List String)
  | clear

/-- Carries out a change. -/
def Change.apply : Change → ErrorText → ErrorText
  | set s, b => b.set s
  | setPieces pieces, b => b.setPieces pieces
  | clear, b => b.clear

/-- The buffers of all threads after a history of changes, each by a thread on its own buffer. -/
def after {κ : Type} [DecidableEq κ] (history : List (κ × Change)) : Store κ ErrorText :=
  history.foldl (fun buffers c => buffers.update c.1 c.2.apply) .empty

end ErrorText

end Baton
