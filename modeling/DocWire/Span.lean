/-!
# Spans of time

A span is a count of whole seconds and of nanoseconds below one second. Its text uses the largest of
the units s, ms, µs and ns in which it is at least one, then the exact decimal fraction without
trailing zeros: `30s`, `1.5ms`, `999ns`.
-/

namespace DocWire

/-- A span of time: whole seconds, and nanoseconds beyond them. -/
structure Span where
  seconds : Nat
  nanos : Nat
  deriving DecidableEq, Repr, Inhabited

namespace Span

/-- The span of a number of milliseconds. -/
def ofMillis (n : Nat) : Span := ⟨n / 1000, n % 1000 * 1000000⟩

/-- A span from seconds and any number of nanoseconds; whole seconds among these are carried. -/
def ofParts (seconds nanos : Nat) : Span := ⟨seconds + nanos / 1000000000, nanos % 1000000000⟩

/-- The length of a span in nanoseconds. -/
def toNanos (s : Span) : Nat := s.seconds * 1000000000 + s.nanos

/-- The length of a span in milliseconds, a started one counted whole. -/
def toMillis (s : Span) : Nat := (s.toNanos + 999999) / 1000000

/-- Whether the span is empty. -/
def isZero (s : Span) : Bool := s.toNanos == 0

/-- The digits of a fraction given in units of `10 ^ -width`, without trailing zeros. -/
def fractionDigits : Nat → Nat → List Char
  | 0, _ => []
  | width + 1, n =>
    if n = 0 then [] else
      let unit := Nat.pow 10 width
      Nat.digitChar (n / unit) :: fractionDigits width (n % unit)

/-- A whole number and a fraction of it in units of `10 ^ -width`, as decimal text. -/
def decimal (whole width fraction : Nat) : String :=
  let digits := fractionDigits width fraction
  toString whole ++ (if digits.isEmpty then "" else "." ++ String.ofList digits)

/-- The text of a span, in the largest unit in which it is at least one. -/
def text (s : Span) : String :=
  if 0 < s.seconds then decimal s.seconds 9 s.nanos ++ "s"
  else if 1000000 ≤ s.nanos then decimal (s.nanos / 1000000) 6 (s.nanos % 1000000) ++ "ms"
  else if 1000 ≤ s.nanos then decimal (s.nanos / 1000) 3 (s.nanos % 1000) ++ "µs"
  else toString s.nanos ++ "ns"

end Span

end DocWire
