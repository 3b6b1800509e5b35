import Replication.Json.Value

/-!
# Numerals

The numbers of a JSON text. A numeral is read in two steps: its parts, which only the grammar
decides, and its value, which it may lack. A numeral without point and exponent is a whole number
if it fits; any other collects its digits into 64 bits, drops the digits that do not fit, and is
scaled by a power of ten, each of the two steps rounding once.
-/

namespace Replication.Json

/-- The parts of a numeral: the digits before the point, those after it, and the exponent with
its sign. -/
structure Numeral where
  negative : Bool
  whole : List Char
  places : Option (List Char)
  exponent : Option (Bool × List Char)
  deriving DecidableEq, Repr

namespace Numeral

/-- The digits that a text starts with, and the rest. -/
def digits (cs : List Char) : List Char × List Char :=
  (cs.takeWhile Char.isDigit, cs.dropWhile Char.isDigit)

/-- The digits after a point, of which there is at least one. -/
def readPlaces : List Char → Option (Option (List Char) × List Char)
  | '.' :: rest =>
    match digits rest with
    | ([], _) => none
    | (ds, rest) => some (some ds, rest)
  | cs => some (none, cs)

/-- The sign and the digits of an exponent, of which there is at least one. -/
def readExponent : List Char → Option (Option (Bool × List Char) × List Char)
  | c :: rest =>
    if c = 'e' ∨ c = 'E' then
      let (negative, rest) := match rest with
        | '+' :: rest => (false, rest)
        | '-' :: rest => (true, rest)
        | rest => (false, rest)
      match digits rest with
      | ([], _) => none
      | (ds, rest) => some (some (negative, ds), rest)
    else some (none, c :: rest)
  | [] => some (none, [])

/-- The numeral at the start of a text, and the rest. A zero before the point stands alone. -/
def read (cs : List Char) : Option (Numeral × List Char) := do
  let (negative, cs) := match cs with
    | '-' :: rest => (true, rest)
    | cs => (false, cs)
  match digits cs with
  | ([], _) => none
  | ('0' :: _ :: _, _) => none
  | (whole, cs) =>
    let (places, cs) ← readPlaces cs
    let (exponent, cs) ← readExponent cs
    some (⟨negative, whole, places, exponent⟩, cs)

/-- The value of a decimal digit. -/
def digitValue (c : Char) : Nat := c.toNat - 48

/-- The value of a list of digits. -/
def natOfDigits (ds : List Char) : Nat := ds.foldl (fun n c => 10 * n + digitValue c) 0

/-- Digits appended to a number while it fits in 64 bits, and the digits left over. -/
def collect (significand : Nat) : List Char → Nat × List Char
  | [] => (significand, [])
  | c :: rest =>
    let next := 10 * significand + digitValue c
    if next < Word.size 64 then collect next rest else (significand, c :: rest)

/-- Division by a power of ten, in steps that a double can hold. -/
def scaleDown : Nat → Binary64 → Nat → Binary64
  | 0, x, _ => x
  | fuel + 1, x, n =>
    if n ≤ 308 then x.div (.ofNat (Decimal.tenTo n))
    else if x.isZero then x
    else scaleDown fuel (x.div (.ofNat (Decimal.tenTo 308))) (n - 308)

/-- `significand · 10 ^ exponent` as a double, unless it is too large. -/
def scale? (significand : Nat) (exponent : Int) : Option Binary64 :=
  let x := Binary64.ofNat significand
  if exponent < 0 then
    let n := (-exponent).toNat
    some (scaleDown (n / 308 + 1) x n)
  else if 308 < exponent then
    if x.isZero then some x else none
  else
    let y := x.mul (.ofNat (Decimal.tenTo exponent.toNat))
    if y.isFinite then some y else none

/-- The magnitude as a double, unless it is too large. An exponent that does not fit in 32 bits
with a sign decides alone. -/
def double? (n : Numeral) : Option Binary64 :=
  let (s, dropped) := collect 0 n.whole
  let (t, unread) := collect s (n.places.getD [])
  let read := (n.places.getD []).length - unread.length
  let point : Int := (dropped.length : Int) - read
  match n.exponent with
  | none => scale? t point
  | some (negative, ds) =>
    let e := natOfDigits ds
    if e < Word.size 31 then scale? t (if negative then point - e else point + e)
    else if t ≠ 0 ∧ negative = false then none
    else some (.zero false)

/-- The value of a numeral. Minus zero is a double. -/
def value? (n : Numeral) : Option Number :=
  let whole := natOfDigits n.whole
  let plain := n.places.isNone && n.exponent.isNone
  if plain && !n.negative && whole < Word.size 64 then some (.int whole)
  else if plain && n.negative && whole != 0 && whole ≤ Word.size 63 then some (.int (-whole))
  else (double? n).map fun x => .double (if n.negative then x.neg else x)

end Numeral

end Replication.Json
