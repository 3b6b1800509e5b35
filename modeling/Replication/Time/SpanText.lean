import Replication.Number.Word
import Replication.Text.Blank
import Replication.Time.Span

/-!
# Spans as text

Spans are written as amounts with a unit, such as `1h 30m`, and are the sum of these. An amount is
a decimal; blanks may stand inside it, after it and around the whole. Every sum and product on the
way is bounded by 64 bits, and a fraction has to come out even: in nanoseconds for units up to the
minute, in seconds for longer ones.
-/

namespace Replication.Span

/-- A unit of time: so many nanoseconds, or so many seconds. -/
inductive TimeUnit where
  | nanos (n : Nat)
  | seconds (n : Nat)
  deriving DecidableEq, Repr

namespace TimeUnit

/-- The unit of a name. -/
def ofName? (name : String) : Option TimeUnit :=
  if name ∈ ["nanos", "nsec", "ns"] then some (.nanos 1)
  else if name ∈ ["usec", "us", "µs"] then some (.nanos 1000)
  else if name ∈ ["millis", "msec", "ms"] then some (.nanos 1000000)
  else if name ∈ ["seconds", "second", "secs", "sec", "s"] then some (.seconds 1)
  else if name ∈ ["minutes", "minute", "min", "mins", "m"] then some (.seconds 60)
  else if name ∈ ["hours", "hour", "hr", "hrs", "h"] then some (.seconds 3600)
  else if name ∈ ["days", "day", "d"] then some (.seconds 86400)
  else if name ∈ ["weeks", "week", "wk", "wks", "w"] then some (.seconds 604800)
  else if name ∈ ["months", "month", "M"] then some (.seconds 2630016)
  else if name ∈ ["years", "year", "yr", "yrs", "y"] then some (.seconds 31557600)
  else none

end TimeUnit

/-- A number that fits in 64 bits. -/
def fits? (n : Nat) : Option Nat := if n < Word.size 64 then some n else none

/-- A sum of amounts: seconds and less than a second in nanoseconds. -/
structure Total where
  seconds : Nat
  nanos : Nat
  deriving DecidableEq, Repr

/-- The sum with more seconds and nanoseconds. -/
def Total.add? (t : Total) (seconds nanos : Nat) : Option Total := do
  let n ← fits? (t.nanos + nanos)
  let s ← fits? (seconds + n / perSecond)
  let s ← fits? (t.seconds + s)
  some ⟨s, n % perSecond⟩

/-- A quotient without remainder. -/
def quotient? (num den : Nat) : Option Nat := if num % den = 0 then some (num / den) else none

/-- The sum with an amount of a unit: a whole number and a fraction. -/
def Total.addAmount? (t : Total) (n : Nat) (fraction : Option (Nat × Nat)) (unit : TimeUnit) :
    Option Total := do
  let t ← match unit with
    | .nanos k => (fits? (n * k)).bind (t.add? 0)
    | .seconds k => (fits? (n * k)).bind (t.add? · 0)
  match fraction with
  | none => some t
  | some (num, den) =>
    match unit with
    | .nanos k =>
      if k = 1 then none
      else ((fits? (num * k)).bind (quotient? · den)).bind (t.add? 0)
    | .seconds k =>
      if k ≤ 60 then ((fits? (num * (k * perSecond))).bind (quotient? · den)).bind (t.add? 0)
      else ((fits? (num * k)).bind (quotient? · den)).bind (t.add? · 0)

/-- What the reader has seen: nothing yet, whole amounts only, the digits before or after the
point of an amount, or its unit, whose letters stand last first. -/
inductive Reading where
  | nothing
  | amounts (t : Total)
  | whole (t : Total) (n : Nat)
  | places (t : Total) (n num den : Nat)
  | unit (t : Total) (n : Nat) (fraction : Option (Nat × Nat)) (letters : List Char)
  deriving DecidableEq, Repr

namespace Reading

/-- Whether a character may stand in the name of a unit. -/
def isLetter (c : Char) : Bool := c.isAlpha || c == 'µ'

/-- The digit of a character. -/
def digit (c : Char) : Nat := c.toNat - 48

/-- The sum with the amount whose unit ends here. -/
def close? (t : Total) (n : Nat) (fraction : Option (Nat × Nat)) (letters : List Char) :
    Option Total :=
  (TimeUnit.ofName? (String.ofList letters.reverse)).bind (t.addAmount? n fraction)

/-- One more character. -/
def next? (r : Reading) (c : Char) : Option Reading :=
  match r with
  | .nothing =>
    if c.isDigit then some (.whole ⟨0, 0⟩ (digit c))
    else if isBlank c then some .nothing else none
  | .amounts t =>
    if c.isDigit then some (.whole t (digit c))
    else if isBlank c then some (.amounts t) else none
  | .whole t n =>
    if c.isDigit then (fits? (n * 10 + digit c)).map (.whole t ·)
    else if isBlank c then some (.whole t n)
    else if isLetter c then some (.unit t n none [c])
    else if c = '.' then some (.places t n 0 1)
    else none
  | .places t n num den =>
    if c.isDigit then do
      let den ← fits? (den * 10)
      let num ← fits? (num * 10 + digit c)
      some (.places t n num den)
    else if isBlank c then some (.places t n num den)
    else if isLetter c ∧ den ≠ 1 then some (.unit t n (some (num, den)) [c])
    else none
  | .unit t n fraction letters =>
    if c.isDigit then (close? t n fraction letters).map (.whole · (digit c))
    else if isBlank c then (close? t n fraction letters).map .amounts
    else if isLetter c then some (.unit t n fraction (c :: letters))
    else none

/-- The sum at the end of the text. -/
def done? : Reading → Option Total
  | .amounts t => some t
  | .unit t n fraction letters => close? t n fraction letters
  | _ => none

end Reading

/-- The span that a text stands for. -/
def ofText? (text : String) : Option Span :=
  if text = "0" then some zero
  else
    ((text.toList.foldlM Reading.next? .nothing).bind Reading.done?).map fun t =>
      ⟨t.seconds * perSecond + t.nanos⟩

end Replication.Span
