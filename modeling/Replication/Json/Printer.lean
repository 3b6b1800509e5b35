import Replication.Json.Value

/-!
# Writing JSON

The compact text of a value: no blanks, members in the order of the object, and in strings an
escape for the quote, the backslash and the control characters only.
-/

namespace Replication.Json

/-- A hexadecimal digit below sixteen. -/
def hexDigit (n : Nat) : Char :=
  if n < 10 then Char.ofNat (48 + n) else Char.ofNat (87 + n)

/-- How one character stands in a string. -/
def escape (c : Char) : List Char :=
  match c with
  | '"' => ['\\', '"']
  | '\\' => ['\\', '\\']
  | '\x08' => ['\\', 'b']
  | '\x0c' => ['\\', 'f']
  | '\n' => ['\\', 'n']
  | '\r' => ['\\', 'r']
  | '\t' => ['\\', 't']
  | c =>
    if c.toNat < 0x20 then ['\\', 'u', '0', '0', hexDigit (c.toNat / 16), hexDigit (c.toNat % 16)]
    else [c]

/-- A string with its quotes. -/
def quote (s : String) : List Char := '"' :: s.toList.flatMap escape ++ ['"']

mutual
/-- The characters of a value. -/
def chars : Json → List Char
  | .null => ['n', 'u', 'l', 'l']
  | .bool true => ['t', 'r', 'u', 'e']
  | .bool false => ['f', 'a', 'l', 's', 'e']
  | .num n => n.text.toList
  | .str s => quote s
  | .arr [] => ['[', ']']
  | .arr (v :: rest) => '[' :: chars v ++ charsOfItems rest
  | .obj [] => ['\x7b', '\x7d']
  | .obj ((k, v) :: rest) => '\x7b' :: quote k ++ ':' :: chars v ++ charsOfEntries rest

/-- The characters of the items after the first. -/
def charsOfItems : List Json → List Char
  | [] => [']']
  | v :: rest => ',' :: chars v ++ charsOfItems rest

/-- The characters of the members after the first. -/
def charsOfEntries : List (String × Json) → List Char
  | [] => ['\x7d']
  | (k, v) :: rest => ',' :: quote k ++ ':' :: chars v ++ charsOfEntries rest
end

/-- The compact text of a value. -/
def render (v : Json) : String := String.ofList (chars v)

end Replication.Json
