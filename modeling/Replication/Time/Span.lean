/-!
# Time spans

Lengths of time in whole nanoseconds.
-/

namespace Replication

/-- A length of time. -/
structure Span where
  nanos : Nat
  deriving DecidableEq, Repr

namespace Span

/-- Nanoseconds in a second. -/
def perSecond : Nat := 1000000000

def zero : Span := ⟨0⟩

def ofSeconds (n : Nat) : Span := ⟨n * perSecond⟩

def ofMillis (n : Nat) : Span := ⟨n * 1000000⟩

/-- The whole milliseconds of a span. -/
def millis (s : Span) : Nat := s.nanos / 1000000

/-- A number with zeros in front up to a width. -/
def padded (width n : Nat) : String :=
  let digits := Nat.toDigits 10 n
  String.ofList (List.replicate (width - digits.length) '0' ++ digits)

/-- Seconds, a point and nine places. -/
def text (s : Span) : String :=
  toString (s.nanos / perSecond) ++ "." ++ padded 9 (s.nanos % perSecond)

end Span

end Replication
