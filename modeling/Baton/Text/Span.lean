/-!
# Spans of time

A span is a number of nanoseconds. It is shown in the largest of seconds, milliseconds,
microseconds and nanoseconds that it reaches, with as many decimals as it needs.
-/

namespace Baton

/-- A span of time. -/
structure Span where
  nanos : Nat
  deriving DecidableEq

namespace Span

/-- No time. -/
def zero : Span := ⟨0⟩

/-- A span of whole seconds and nanoseconds. -/
def ofParts (seconds nanos : Nat) : Span := ⟨seconds * 1000000000 + nanos⟩

/-- A span of whole milliseconds. -/
def ofMillis (ms : Nat) : Span := ⟨ms * 1000000⟩

/-- The whole seconds of the span. -/
def seconds (d : Span) : Nat := d.nanos / 1000000000

/-- The milliseconds of a span, rounded up so that a short wait does not become none. -/
def ceilMillis (d : Span) : Nat := (d.nanos + 999999) / 1000000

/-- The digits of `part` behind a point with `width` places, without zeros at the end. -/
def decimals (width part : Nat) : List Char :=
  let ds := Nat.toDigits 10 part
  ((List.replicate (width - ds.length) '0' ++ ds).reverse.dropWhile (· == '0')).reverse

/-- The span in a unit of `size` nanoseconds, which has `width` zeros. -/
def inUnit (d : Span) (size width : Nat) (unit : String) : String :=
  let whole := toString (d.nanos / size)
  match decimals width (d.nanos % size) with
  | [] => whole ++ unit
  | ds => whole ++ "." ++ String.ofList ds ++ unit

/-- The span in the largest unit that it reaches. -/
def text (d : Span) : String :=
  if 1000000000 ≤ d.nanos then d.inUnit 1000000000 9 "s"
  else if 1000000 ≤ d.nanos then d.inUnit 1000000 6 "ms"
  else if 1000 ≤ d.nanos then d.inUnit 1000 3 "µs"
  else d.inUnit 1 0 "ns"

end Span

end Baton
