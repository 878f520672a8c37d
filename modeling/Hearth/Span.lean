import Hearth.Decimal.Binary

/-!
# Spans of time

A span is a whole number of nanoseconds, below `2 ^ 64` seconds. Spans come from numbers of
seconds: the nearest nanosecond, a half to the even neighbour.
-/

namespace Hearth

/-- A span of time in nanoseconds. -/
structure Span where
  nanos : Nat
  deriving Repr, DecidableEq, Inhabited

namespace Span

/-- Nanoseconds in a second. -/
def nanosPerSecond : Nat := 1000000000

/-- A number of milliseconds. -/
def ofMillis (n : Nat) : Span := ⟨n * 1000000⟩

/-- Whole seconds of a span. -/
def secs (s : Span) : Nat := s.nanos / nanosPerSecond

/-- What is left of a span after its whole seconds, in nanoseconds. -/
def subsecNanos (s : Span) : Nat := s.nanos % nanosPerSecond

/-- A number of seconds as a span; there is none for a negative number, for one of `2 ^ 64` or
more, and for one that is no number. -/
def ofSeconds? (x : Float) : Option Span :=
  match Decimal.Parts.ofFloat x with
  | .finite true ⟨0, _⟩ => some ⟨0⟩
  | .finite true _ => none
  | .finite false value =>
    let nanos := value.scaled nanosPerSecond
    if UInt64.size * nanosPerSecond ≤ nanos then none else some ⟨nanos⟩
  | .infinite _ => none
  | .nan => none

/-- Drops zeros at the end. -/
def dropZeros (cs : List Char) : List Char := (cs.reverse.dropWhile (· == '0')).reverse

/-- `whole` and the fraction `part / scale`, without zeros at the end. -/
def fractional (whole part places : Nat) : String :=
  let ds := (toString part).toList
  let fraction := dropZeros (List.replicate (places - ds.length) '0' ++ ds)
  if part == 0 then toString whole else toString whole ++ "." ++ String.ofList fraction

/-- The text of a span in its largest fitting unit: seconds, milliseconds, microseconds or
nanoseconds. -/
def text (s : Span) : String :=
  if 0 < s.secs then fractional s.secs s.subsecNanos 9 ++ "s"
  else if 1000000 ≤ s.nanos then fractional (s.nanos / 1000000) (s.nanos % 1000000) 6 ++ "ms"
  else if 1000 ≤ s.nanos then fractional (s.nanos / 1000) (s.nanos % 1000) 3 ++ "µs"
  else toString s.nanos ++ "ns"

end Span

end Hearth
