import Replication.Json.Value

/-!
# Values for diagnostics

A value written so that its kind shows. Strings stand in double quotes; a quote, a backslash and
the usual control characters are escaped by a backslash, other control characters by their code.
-/

namespace Replication.Json

/-- The digits of a number to the base of sixteen. -/
def hexText (n : Nat) : String := String.ofList (Nat.toDigits 16 n)

/-- How a character stands in a quoted string. -/
def inspectChar (c : Char) : String :=
  if c = '"' then "\\\""
  else if c = '\\' then "\\\\"
  else if c = '\n' then "\\n"
  else if c = '\r' then "\\r"
  else if c = '\t' then "\\t"
  else if c.toNat = 0 then "\\0"
  else if c.toNat < 0x20 || c.toNat = 0x7F then "\\u\x7b" ++ hexText c.toNat ++ "\x7d"
  else c.toString

/-- A string in quotes. -/
def inspectText (s : String) : String := "\"" ++ String.join (s.toList.map inspectChar) ++ "\""

mutual
/-- A value with its kind. -/
def inspect : Json → String
  | .null => "Null"
  | .bool b => "Bool(" ++ toString b ++ ")"
  | .num n => "Number(" ++ n.text ++ ")"
  | .str s => "String(" ++ inspectText s ++ ")"
  | .arr items => "Array [" ++ ", ".intercalate (inspectItems items) ++ "]"
  | .obj entries => "Object \x7b" ++ ", ".intercalate (inspectEntries entries) ++ "\x7d"

/-- Items with their kinds. -/
def inspectItems : List Json → List String
  | [] => []
  | v :: rest => inspect v :: inspectItems rest

/-- Entries with their kinds. -/
def inspectEntries : List (String × Json) → List String
  | [] => []
  | (k, v) :: rest => (inspectText k ++ ": " ++ inspect v) :: inspectEntries rest
end

/-- A value that may be missing. -/
def inspect? : Option Json → String
  | none => "None"
  | some v => "Some(" ++ v.inspect ++ ")"

end Replication.Json
