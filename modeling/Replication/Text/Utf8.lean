/-!
# UTF-8 with replacement

Text as bytes and bytes as text. Every character has its UTF-8 encoding; reading is total: the
longest stretch of bytes that starts a character's encoding without completing it is read as one
U+FFFD, and so is each byte that starts none.

The reader is a machine that takes one byte at a time, so it reads a cut sequence of bytes like
the whole one.
-/

namespace Replication.Utf8

/-- The character read for bytes that encode none. -/
def replacement : Char := '\uFFFD'

/-- A character of which some bytes have been read: the number of bytes it still owes, the range
that the next of them must lie in, and the bits read so far. -/
structure Partial where
  owed : Nat
  low : Nat
  high : Nat
  bits : Nat
  deriving DecidableEq, Repr

/-- What the first byte of a longer encoding leaves to be read. -/
def lead? (b : Nat) : Option Partial :=
  if 0xC2 ≤ b ∧ b ≤ 0xDF then some ⟨1, 0x80, 0xBF, b - 0xC0⟩
  else if b = 0xE0 then some ⟨2, 0xA0, 0xBF, 0⟩
  else if b = 0xED then some ⟨2, 0x80, 0x9F, 0xD⟩
  else if 0xE1 ≤ b ∧ b ≤ 0xEF then some ⟨2, 0x80, 0xBF, b - 0xE0⟩
  else if b = 0xF0 then some ⟨3, 0x90, 0xBF, 0⟩
  else if 0xF1 ≤ b ∧ b ≤ 0xF3 then some ⟨3, 0x80, 0xBF, b - 0xF0⟩
  else if b = 0xF4 then some ⟨3, 0x80, 0x8F, 4⟩
  else none

/-- The characters that a byte completes between two characters, and what it leaves open. -/
def start (b : Nat) : List Char × Option Partial :=
  if b < 0x80 then ([Char.ofNat b], none)
  else match lead? b with
    | some p => ([], some p)
    | none => ([replacement], none)

/-- The characters that a byte completes, and what it leaves open. A byte that cannot continue the
open character closes it as a replacement and is then read afresh. -/
def step : Option Partial → UInt8 → List Char × Option Partial
  | none, b => start b.toNat
  | some p, b =>
    if p.low ≤ b.toNat ∧ b.toNat ≤ p.high then
      let bits := p.bits * 64 + (b.toNat - 0x80)
      if p.owed ≤ 1 then ([Char.ofNat bits], none)
      else ([], some ⟨p.owed - 1, 0x80, 0xBF, bits⟩)
    else
      let (out, open?) := start b.toNat
      (replacement :: out, open?)

/-- The text of the bytes that follow an open character. -/
def decodeFrom (p : Option Partial) : List UInt8 → List Char
  | [] => if p.isSome then [replacement] else []
  | b :: rest => (step p b).1 ++ decodeFrom (step p b).2 rest

/-- The text of a sequence of bytes. -/
def decode (bytes : List UInt8) : List Char := decodeFrom none bytes

/-- The bytes of a text. -/
def encode (text : List Char) : List UInt8 := text.flatMap String.utf8EncodeChar

@[simp] theorem decode_nil : decode [] = [] := rfl

theorem decodeFrom_cons (p : Option Partial) (b : UInt8) (rest : List UInt8) :
    decodeFrom p (b :: rest) = (step p b).1 ++ decodeFrom (step p b).2 rest := rfl

end Replication.Utf8
