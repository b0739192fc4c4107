/-!
# Interest in a descriptor

What a caller wants to know of a descriptor, and what it is told: any of readable, writable and
in error. The three are one byte of bits, as a poll entry stores them.
-/

namespace Baton

/-- A set of readiness conditions. -/
structure Interest where
  bits : UInt8
  deriving DecidableEq

namespace Interest

/-- No condition. -/
def empty : Interest := ⟨0⟩

/-- There is something to read, or the end of the stream. -/
def readable : Interest := ⟨1⟩

/-- There is room to write. -/
def writable : Interest := ⟨2⟩

/-- An error, a hangup or a descriptor that is not open. -/
def error : Interest := ⟨4⟩

instance : Inhabited Interest := ⟨empty⟩

/-- Both sets together. -/
def union (a b : Interest) : Interest := ⟨a.bits ||| b.bits⟩

instance : OrOp Interest := ⟨union⟩

/-- Whether every condition of `b` is in `a`. Nothing contains the empty set. -/
def contains (a b : Interest) : Bool := a.bits &&& b.bits == b.bits && b.bits != 0

/-- Whether no condition is in the set. -/
def isEmpty (a : Interest) : Bool := a.bits == 0

/-- Whether the set asks for or reports something to read. -/
def isReadable (a : Interest) : Bool := a.contains readable

/-- Whether the set asks for or reports room to write. -/
def isWritable (a : Interest) : Bool := a.contains writable

/-- Whether the set reports an error. -/
def isError (a : Interest) : Bool := a.contains error

/-- The names of the conditions in the set. -/
def names (a : Interest) : List String :=
  (if a.isReadable then ["READABLE"] else []) ++ (if a.isWritable then ["WRITABLE"] else []) ++
    (if a.isError then ["ERROR"] else [])

/-- The set as diagnostics show it. -/
def describe (a : Interest) : String :=
  "Interest(" ++ (if a.names.isEmpty then "NONE" else String.intercalate " | " a.names) ++ ")"

end Interest

/-- One entry of a poll: a descriptor, what is asked of it and what was found. The type of
descriptors is a parameter, since a simulated pipe end serves as well as a number. -/
structure PollEntry (δ : Type) where
  descriptor : δ
  events : Interest
  revents : Interest
  deriving DecidableEq

namespace PollEntry

/-- An entry that has not been polled yet. -/
def ask {δ : Type} (d : δ) (events : Interest) : PollEntry δ := ⟨d, events, .empty⟩

/-- Whether the poll found anything. -/
def isReady {δ : Type} (p : PollEntry δ) : Bool := !p.revents.isEmpty

/-- The entry as diagnostics show it. -/
def describe (p : PollEntry Int) : String :=
  "PollFd \x7b fd: " ++ toString p.descriptor ++ ", events: " ++ p.events.describe ++
    ", revents: " ++ p.revents.describe ++ " \x7d"

end PollEntry

end Baton
