import Replication.Text.Utf8

/-!
# Form encoding

The encoding of query parameters: letters, digits and `* - . _` stand for themselves, a space is
written `+`, and every other byte of the text's UTF-8 form is written `%` and two capital
hexadecimal digits.
-/

namespace Replication.Form

/-- Whether a byte stands for itself. -/
def kept (b : UInt8) : Bool :=
  let c := Char.ofNat b.toNat
  b.toNat < 0x80 && (c.isAlphanum || c == '*' || c == '-' || c == '.' || c == '_')

/-- A hexadecimal digit below sixteen, in capitals. -/
def hexDigit (n : Nat) : Char :=
  if n < 10 then Char.ofNat (48 + n) else Char.ofNat (55 + n)

/-- How one byte is written. -/
def encodeByte (b : UInt8) : List Char :=
  if kept b then [Char.ofNat b.toNat]
  else if b = 0x20 then ['+']
  else ['%', hexDigit (b.toNat / 16), hexDigit (b.toNat % 16)]

/-- A text as it stands in a query. -/
def encode (text : String) : String :=
  String.ofList ((Utf8.encode text.toList).flatMap encodeByte)

/-- A list of parameters as a query, in the order given. -/
def query (parameters : List (String × String)) : String :=
  "&".intercalate (parameters.map fun p => encode p.1 ++ "=" ++ encode p.2)

end Replication.Form
