import Replication.Number.Binary64

/-!
# Shortest decimals

The text of a double: the fewest decimal digits that read back as the same number, and of those
the ones nearest to it. A decimal reads back as a double when it lies in the interval of reals
that round to that double; if any decimal with a given number of digits does, so does one of the
two neighbours of the double itself, and these two are all that is tested.
-/

namespace Replication

/-- A decimal: `digits · 10 ^ exponent`. -/
structure Decimal where
  digits : Nat
  exponent : Int
  deriving DecidableEq, Repr

namespace Decimal

/-- A power of ten. -/
def tenTo (n : Nat) : Nat := Nat.pow 10 n

/-- The number of decimal digits of a whole number. -/
def length (n : Nat) : Nat := (Nat.toDigits 10 n).length

/-- The least `j` from a start on for which `num · 10 ^ j` reaches `den`. -/
def leadingZeros : Nat → Nat → Nat → Nat → Nat
  | 0, _, _, j => j
  | fuel + 1, num, den, j => if den ≤ num then j else leadingZeros fuel (num * 10) den (j + 1)

/-- The place of the decimal point: `num / den` lies from `10 ^ (k - 1)` up to but not at
`10 ^ k`. -/
def pointOf (num den : Nat) : Int :=
  if den ≤ num then length (num / den) else 1 - (leadingZeros 400 num den 0 : Int)

/-- The reals that round to `mantissa · 2 ^ exponent`, as two quotients over one denominator, and
the number itself over that denominator. -/
def interval (m : Nat) (e : Int) : Nat × Nat × Nat × Nat :=
  -- in quarters of the last place, so that the half gaps on both sides are whole
  let (num, den) := Binary64.quotient (4 * m) e
  let unit := (Binary64.quotient 1 e).1
  let below := if m = Binary64.leadingBit ∧ Binary64.minExponent < e then unit else 2 * unit
  (num - below, num, num + 2 * unit, 4 * den)

/-- The decimal with `n` digits nearest to a number, if it reads back. -/
def candidate? (m : Nat) (e : Int) (n : Nat) : Option Decimal :=
  let (low, value, high, den) := interval m e
  let x := pointOf value den - n
  -- the number and its interval in units of `10 ^ x`
  let scale (v : Nat) : Nat := if x < 0 then v * tenTo (-x).toNat else v
  let den := if x < 0 then den else den * tenTo x.toNat
  let fits (d : Nat) : Bool :=
    if m % 2 = 0 then scale low ≤ d * den && d * den ≤ scale high
    else scale low < d * den && d * den < scale high
  let floor := scale value / den
  let nearest := Binary64.roundDiv (scale value) den
  let other := if nearest = floor then floor + 1 else floor
  if fits nearest then some ⟨nearest, x⟩
  else if fits other then some ⟨other, x⟩
  else none

/-- The first candidate with at least `n` digits. -/
def search (m : Nat) (e : Int) : Nat → Nat → Decimal
  | 0, _ => ⟨0, 0⟩
  | fuel + 1, n => (candidate? m e n).getD (search m e fuel (n + 1))

/-- The same decimal without the zeros at its end. -/
def stripZeros : Nat → Decimal → Decimal
  | 0, d => d
  | fuel + 1, d =>
    if d.digits ≠ 0 ∧ d.digits % 10 = 0 then stripZeros fuel ⟨d.digits / 10, d.exponent + 1⟩ else d

/-- The shortest decimal that reads back as `mantissa · 2 ^ exponent`. -/
def shortest (m : Nat) (e : Int) : Decimal :=
  if m = 0 then ⟨0, 0⟩ else stripZeros 20 (search m e 17 1)

/-- A decimal written out in full, without an exponent. -/
def positional (d : Decimal) : List Char :=
  let digits := Nat.toDigits 10 d.digits
  if 0 ≤ d.exponent then
    if d.digits = 0 then ['0'] else digits ++ List.replicate d.exponent.toNat '0'
  else
    let places := (-d.exponent).toNat
    if places < digits.length then
      digits.take (digits.length - places) ++ '.' :: digits.drop (digits.length - places)
    else
      '0' :: '.' :: List.replicate (places - digits.length) '0' ++ digits

/-- A decimal as numbers are written in JSON: positional with at least one place after the point
while the point stands at most sixteen digits to the right or five to the left, otherwise with an
exponent. -/
def json (d : Decimal) : List Char :=
  let digits := Nat.toDigits 10 d.digits
  let point : Int := digits.length + d.exponent
  if d.digits = 0 then ['0', '.', '0']
  else if -5 < point ∧ point ≤ 16 then
    if 0 ≤ d.exponent then d.positional ++ ['.', '0'] else d.positional
  else
    let shown := match digits with
      | [] => []
      | [c] => [c]
      | c :: rest => c :: '.' :: rest
    shown ++ 'e' :: (toString (point - 1)).toList

end Decimal

namespace Binary64

/-- The sign of a negative number. -/
def sign (negative : Bool) : List Char := if negative then ['-'] else []

/-- The shortest text, written out in full. -/
def positional : Binary64 → String
  | .finite s m e => String.ofList (sign s ++ (Decimal.shortest m e).positional)
  | .infinite s => String.ofList (sign s ++ ['i', 'n', 'f'])
  | .notANumber => "NaN"

/-- The shortest text as numbers are written in JSON, which has none for the others. -/
def json : Binary64 → String
  | .finite s m e => String.ofList (sign s ++ (Decimal.shortest m e).json)
  | _ => "null"

end Binary64

end Replication
