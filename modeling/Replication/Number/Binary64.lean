/-!
# Binary floating point

Double precision numbers as data: a sign, a whole number of at most 53 bits and a power of two.
Every operation is exact arithmetic on whole numbers followed by one rounding to the nearest
double, a tie going to the even neighbour.
-/

namespace Replication

/-- A double precision number. A finite one is `± mantissa · 2 ^ exponent`, with 53 bits in the
mantissa unless the exponent is the least. -/
inductive Binary64 where
  | finite (negative : Bool) (mantissa : Nat) (exponent : Int)
  | infinite (negative : Bool)
  | notANumber
  deriving DecidableEq, Repr

namespace Binary64

/-- The exponent of the smallest doubles. -/
def minExponent : Int := -1074

/-- The exponent of the largest doubles. -/
def maxExponent : Int := 971

/-- The leading bit of a mantissa of 53 bits. -/
def leadingBit : Nat := 1 <<< 52

/-- Zero of either sign. -/
def zero (negative : Bool) : Binary64 := .finite negative 0 minExponent

/-- The quotient of two whole numbers rounded to the nearest, a tie to the even one. -/
def roundDiv (num den : Nat) : Nat :=
  let q := num / den
  let twice := 2 * (num % den)
  if twice < den then q else if den < twice then q + 1 else if q % 2 = 0 then q else q + 1

/-- `num / den · 2 ^ (-e)` as a quotient. -/
def scaled (num den : Nat) (e : Int) : Nat × Nat :=
  if e < 0 then (num <<< (-e).toNat, den) else (num, den <<< e.toNat)

/-- The exponent that gives `num / den` a mantissa of 53 bits, or the least exponent. -/
def exponentFor (num den : Nat) : Int :=
  let e : Int := (num.log2 : Int) - (den.log2 : Int) - 52
  let (n, d) := scaled num den e
  max (if n < leadingBit * d then e - 1 else e) minExponent

/-- The double nearest to `± num / den`. -/
def ofQuotient (negative : Bool) (num den : Nat) : Binary64 :=
  if num = 0 then zero negative
  else
    let e := exponentFor num den
    let (n, d) := scaled num den e
    let m := roundDiv n d
    let (m, e) := if m = 2 * leadingBit then (leadingBit, e + 1) else (m, e)
    if maxExponent < e then .infinite negative else .finite negative m e

/-- The double nearest to a whole number. -/
def ofNat (n : Nat) : Binary64 := ofQuotient false n 1

/-- Whether the sign is minus. -/
def isNegative : Binary64 → Bool
  | .finite neg _ _ => neg
  | .infinite neg => neg
  | .notANumber => false

/-- Whether the number is neither infinite nor missing. -/
def isFinite : Binary64 → Bool
  | .finite .. => true
  | _ => false

/-- Whether the number is a zero of either sign. -/
def isZero : Binary64 → Bool
  | .finite _ m _ => m == 0
  | _ => false

/-- The number with the other sign. -/
def neg : Binary64 → Binary64
  | .finite s m e => .finite (!s) m e
  | .infinite s => .infinite (!s)
  | .notANumber => .notANumber

/-- `mantissa · 2 ^ exponent` as a quotient. -/
def quotient (m : Nat) (e : Int) : Nat × Nat :=
  if e < 0 then (m, 1 <<< (-e).toNat) else (m <<< e.toNat, 1)

/-- The product, rounded once. -/
def mul : Binary64 → Binary64 → Binary64
  | .finite s m e, .finite t n f =>
    let (num, den) := quotient (m * n) (e + f)
    ofQuotient (s != t) num den
  | .notANumber, _ => .notANumber
  | _, .notANumber => .notANumber
  | .infinite s, x => if x.isZero then .notANumber else .infinite (s != x.isNegative)
  | x, .infinite t => if x.isZero then .notANumber else .infinite (x.isNegative != t)

/-- The quotient of a finite number and a finite one that is not zero, rounded once. -/
def div : Binary64 → Binary64 → Binary64
  | .finite s m e, .finite t n f =>
    if n = 0 then (if m = 0 then .notANumber else .infinite (s != t))
    else
      let (num, den) := quotient m (e - f)
      ofQuotient (s != t) num (den * n)
  | .notANumber, _ => .notANumber
  | _, .notANumber => .notANumber
  | .infinite _, .infinite _ => .notANumber
  | .infinite s, x => .infinite (s != x.isNegative)
  | x, .infinite t => zero (x.isNegative != t)

/-- The sum of two numbers that are not negative, rounded once. -/
def addMagnitudes : Binary64 → Binary64 → Binary64
  | .finite _ m e, .finite _ n f =>
    let (a, b) := quotient m e
    let (c, d) := quotient n f
    ofQuotient false (a * d + c * b) (b * d)
  | .notANumber, _ => .notANumber
  | _, .notANumber => .notANumber
  | _, _ => .infinite false

/-- Whether the first of two numbers that are not negative is at least the second. -/
def geMagnitudes : Binary64 → Binary64 → Bool
  | .finite _ m e, .finite _ n f =>
    let (a, b) := quotient m e
    let (c, d) := quotient n f
    c * b ≤ a * d
  | .infinite _, .notANumber => false
  | .infinite _, _ => true
  | _, _ => false

/-- Repeated squaring: `result · base ^ n`, where every product is rounded. -/
def powFrom : Nat → Binary64 → Binary64 → Nat → Binary64
  | 0, _, result, _ => result
  | fuel + 1, base, result, n =>
    let result := if n % 2 = 1 then result.mul base else result
    if n / 2 = 0 then result else powFrom fuel (base.mul base) result (n / 2)

/-- A whole power, by repeated squaring. -/
def pow (base : Binary64) (n : Nat) : Binary64 := powFrom (n.log2 + 1) base (ofNat 1) n

/-- The nearest whole multiple of `1 / parts`, counted in parts, a tie to the even one; a negative
number has none. -/
def toParts? (parts : Nat) : Binary64 → Option Nat
  | .finite s m e =>
    if s && m != 0 then none
    else
      let (num, den) := quotient m e
      some (roundDiv (num * parts) den)
  | _ => none

end Binary64

end Replication
