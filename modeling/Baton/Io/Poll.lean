import Baton.Io.Clock
import Baton.Io.Errno
import Baton.Io.Interest

/-!
# Polling descriptors

The operating system knows six conditions of a descriptor. A poll asks for some of them and is
told which hold; errors, hangups and invalid descriptors are reported unasked. The library's own
three conditions are expressed in these on the way in and read off them on the way out. A hangup
counts as readable, since the end of a stream still has to be read.
-/

namespace Baton

/-- The conditions of a descriptor, asked for or found. -/
structure Signals where
  input : Bool := false
  urgent : Bool := false
  output : Bool := false
  error : Bool := false
  hangup : Bool := false
  invalid : Bool := false
  deriving DecidableEq

namespace Signals

/-- No condition. -/
def quiet : Signals := {}

/-- Whether any condition is set. -/
def any (s : Signals) : Bool :=
  s.input || s.urgent || s.output || s.error || s.hangup || s.invalid

/-- What to ask of the system for an interest. -/
def request (a : Interest) : Signals := { input := a.isReadable, output := a.isWritable }

/-- What the found conditions mean to the library. -/
def interest (s : Signals) : Interest :=
  (if s.input || s.urgent then Interest.readable else .empty) |||
    (if s.output then Interest.writable else .empty) |||
    (if s.hangup then Interest.readable ||| Interest.error else .empty) |||
    (if s.error || s.invalid then Interest.error else .empty)

theorem isEmpty_interest (s : Signals) : s.interest.isEmpty = !s.any := by
  rcases s with ⟨i, u, o, e, h, v⟩
  cases i <;> cases u <;> cases o <;> cases e <;> cases h <;> cases v <;> decide

end Signals

/-- How the system answers a poll of one descriptor. -/
abbrev Poller (δ : Type) := δ → Signals → Signals

namespace Poller

variable {δ : Type}

/-- The conditions found for one entry. -/
def found (k : Poller δ) (p : PollEntry δ) : Signals := k p.descriptor (Signals.request p.events)

/-- The entry with what was found. What it held before has no effect. -/
def fill (k : Poller δ) (p : PollEntry δ) : PollEntry δ :=
  { p with revents := (k.found p).interest }

/-- One look at every entry: how many have anything to report, and the entries filled in. -/
def poll (k : Poller δ) (ps : List (PollEntry δ)) : Nat × List (PollEntry δ) :=
  (ps.countP fun p => (k.found p).any, ps.map k.fill)

@[simp] theorem isReady_fill (k : Poller δ) (p : PollEntry δ) :
    (k.fill p).isReady = (k.found p).any := by
  simp [fill, PollEntry.isReady, Signals.isEmpty_interest]

end Poller

/-- The polls of a system at one moment: they look at the descriptors, or fail as a whole. -/
abbrev PollSystem (δ : Type) := Except Errno (Poller δ)

namespace PollSystem

variable {δ : Type}

/-- One look at every entry. -/
def poll (system : PollSystem δ) (ps : List (PollEntry δ)) :
    Except Errno (Nat × List (PollEntry δ)) :=
  system.map fun k => k.poll ps

/-- A poll with a timeout, when nothing changes while it waits; `none` if the deadline cannot be
formed, which is found before anything else. -/
def pollTimed (system : PollSystem δ) (now : Instant) (timeout : Option Span)
    (ps : List (PollEntry δ)) : Option (Except Errno (Nat × List (PollEntry δ))) :=
  if timeout.any fun d => (now.after? d).isNone then none else some (system.poll ps)

end PollSystem

end Baton
