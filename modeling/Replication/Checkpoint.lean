import Replication.Json.Record

/-!
# Checkpoints

A checkpoint is a position in a collection's feed of changes, as the server words it. Positions
are totally ordered: those that are all digits come first and compare as numbers, whatever their
length; the others follow in the order of their bytes. Two spellings of one number are two
positions, ordered by their bytes.
-/

namespace Replication

/-- A position in a feed of changes. -/
structure Checkpoint where
  value : String
  deriving DecidableEq, Repr

namespace Checkpoint

/-- The position of a number. -/
def ofNat (n : Nat) : Checkpoint := ⟨toString n⟩

/-- Whether a spelling is a number: at least one digit and nothing else. -/
def isNumeric (cs : List Char) : Bool := !cs.isEmpty && cs.all Char.isDigit

/-- The order of characters, first difference first. -/
def compareChars : List Char → List Char → Ordering
  | [], [] => .eq
  | [], _ :: _ => .lt
  | _ :: _, [] => .gt
  | a :: as, b :: bs =>
    if a.toNat < b.toNat then .lt else if b.toNat < a.toNat then .gt else compareChars as bs

/-- The order of digits without leading zeros: the longer one is greater. -/
def compareDigits (as bs : List Char) : Ordering :=
  if as.length < bs.length then .lt
  else if bs.length < as.length then .gt
  else compareChars as bs

/-- The digits of a number without leading zeros. -/
def significant (cs : List Char) : List Char := cs.dropWhile (· == '0')

/-- The order of spellings. -/
def compareSpellings (a b : List Char) : Ordering :=
  match isNumeric a, isNumeric b with
  | true, true => (compareDigits (significant a) (significant b)).then (compareChars a b)
  | true, false => .lt
  | false, true => .gt
  | false, false => compareChars a b

/-- The order of positions. -/
def cmp (a b : Checkpoint) : Ordering := compareSpellings a.value.toList b.value.toList

/-- Whether the first position is strictly newer. -/
def isAfter (a b : Checkpoint) : Bool := cmp a b == .gt

/-- The newer of two positions. -/
def newer (a b : Checkpoint) : Checkpoint := if isAfter a b then a else b

instance : LT Checkpoint := ⟨fun a b => cmp a b = .lt⟩

instance : LE Checkpoint := ⟨fun a b => cmp a b ≠ .gt⟩

instance (a b : Checkpoint) : Decidable (a < b) := inferInstanceAs (Decidable (cmp a b = .lt))

instance (a b : Checkpoint) : Decidable (a ≤ b) := inferInstanceAs (Decidable (cmp a b ≠ .gt))

/-- A position in JSON: a string, or a whole number of 64 bits. -/
def ofTree? : Json.Tree → Option Checkpoint
  | .str s => some ⟨s⟩
  | .num (.int n) => some ⟨toString n⟩
  | _ => none

/-- A position is written as a string. -/
def toJson (c : Checkpoint) : Json := .str c.value

end Checkpoint

end Replication
