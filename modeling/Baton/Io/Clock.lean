import Baton.Text.Span

/-!
# Readings of the clock

A reading is a number of nanoseconds since some start. Its seconds are kept in 64 bits with a
sign, so a deadline too far off cannot be formed.
-/

namespace Baton

/-- A reading of the clock. -/
structure Instant where
  nanos : Nat
  deriving DecidableEq

namespace Instant

/-- The reading at which a run starts. -/
def start : Instant := ⟨1000000000⟩

/-- The reading `d` later. -/
def after (t : Instant) (d : Span) : Instant := ⟨t.nanos + d.nanos⟩

/-- The greatest number of seconds in a reading. -/
def maxSeconds : Nat := 9223372036854775807

/-- The reading `d` later, if it can be formed. -/
def after? (t : Instant) (d : Span) : Option Instant :=
  if (t.nanos + d.nanos) / 1000000000 ≤ maxSeconds then some (t.after d) else none

/-- Whether the reading `t` has reached a deadline. -/
def reached (deadline t : Instant) : Bool := deadline.nanos ≤ t.nanos

/-- How long it is from `t` to a deadline, nothing if it has passed. -/
def remaining (deadline t : Instant) : Span := ⟨deadline.nanos - t.nanos⟩

/-- The text of the failure to form a deadline. -/
def overflowText : String := "overflow when adding duration to instant"

end Instant

end Baton
