import Replication.Json.Numeral

/-!
# Reading JSON

The strict grammar of JSON texts. Reading gives a tree that keeps the members of an object as they
stand. A part that the grammar admits but that has no value is `unreadable` in the tree: a number
beyond the doubles, a string with half a surrogate pair, an array or object inside 127 others. So
a reader that ignores a member does not care what stands there, and one that asks for its value
fails.
-/

namespace Replication.Json

/-- A JSON text as it stands. -/
inductive Tree where
  | null
  | bool (value : Bool)
  | num (value : Number)
  | str (value : String)
  | arr (items : List Tree)
  | obj (entries : List (Option String × Tree))
  | unreadable

namespace Syntax

/-- The text after the blanks between tokens. -/
def skip (cs : List Char) : List Char :=
  cs.dropWhile fun c => c == ' ' || c == '\n' || c == '\t' || c == '\r'

/-! ## Strings -/

/-- What stands in a string: a character, or a 16-bit unit written as an escape. -/
inductive Piece where
  | char (c : Char)
  | unit (n : Nat)
  deriving DecidableEq, Repr

/-- The value of a hexadecimal digit. -/
def hexValue? (c : Char) : Option Nat :=
  if c.isDigit then some (c.toNat - 48)
  else if 'a' ≤ c ∧ c ≤ 'f' then some (c.toNat - 87)
  else if 'A' ≤ c ∧ c ≤ 'F' then some (c.toNat - 55)
  else none

/-- The value of four hexadecimal digits. -/
def hex4? (a b c d : Char) : Option Nat := do
  let a ← hexValue? a
  let b ← hexValue? b
  let c ← hexValue? c
  let d ← hexValue? d
  some (((a * 16 + b) * 16 + c) * 16 + d)

/-- The character that a backslash and one letter stand for. -/
def escaped? : Char → Option Char
  | '"' => some '"'
  | '\\' => some '\\'
  | '/' => some '/'
  | 'b' => some '\x08'
  | 'f' => some '\x0c'
  | 'n' => some '\n'
  | 'r' => some '\r'
  | 't' => some '\t'
  | _ => none

/-- The pieces of a string up to its closing quote, and the rest of the text. -/
def pieces : List Char → Option (List Piece × List Char)
  | [] => none
  | '"' :: rest => some ([], rest)
  | '\\' :: 'u' :: a :: b :: c :: d :: rest => do
    let n ← hex4? a b c d
    let (ps, rest) ← pieces rest
    some (.unit n :: ps, rest)
  | '\\' :: c :: rest => do
    let c ← escaped? c
    let (ps, rest) ← pieces rest
    some (.char c :: ps, rest)
  | c :: rest =>
    if c.toNat < 0x20 ∨ c = '\\' then none
    else do
      let (ps, rest) ← pieces rest
      some (.char c :: ps, rest)

/-- The text of a list of pieces. A high surrogate is followed by a low one, and no low one stands
alone. -/
def assemble? : List Piece → Option (List Char)
  | [] => some []
  | .char c :: rest => (assemble? rest).map (c :: ·)
  | .unit n :: rest =>
    if n < 0xD800 ∨ 0xDFFF < n then (assemble? rest).map (Char.ofNat n :: ·)
    else match rest with
      | .unit m :: rest =>
        if n < 0xDC00 ∧ 0xDC00 ≤ m ∧ m ≤ 0xDFFF then
          (assemble? rest).map (Char.ofNat (0x10000 + (n - 0xD800) * 0x400 + (m - 0xDC00)) :: ·)
        else none
      | _ => none

/-- The text of a string after its opening quote, if it has one, and the rest. -/
def string (cs : List Char) : Option (Option String × List Char) :=
  (pieces cs).map fun (ps, rest) => ((assemble? ps).map String.ofList, rest)

/-! ## Values -/

/-- An array or object where `room` of them may still be opened. -/
def within (room : Nat) (t : Tree) : Tree := if room = 0 then .unreadable else t

/-- A word of the language, and the rest. -/
def word? : List Char → Option (Tree × List Char)
  | 'n' :: 'u' :: 'l' :: 'l' :: rest => some (.null, rest)
  | 't' :: 'r' :: 'u' :: 'e' :: rest => some (.bool true, rest)
  | 'f' :: 'a' :: 'l' :: 's' :: 'e' :: rest => some (.bool false, rest)
  | _ => none

/-- A number, and the rest. -/
def number? (cs : List Char) : Option (Tree × List Char) :=
  (Numeral.read cs).map fun (n, rest) => ((n.value?.map Tree.num).getD .unreadable, rest)

mutual
/-- One value and the rest of the text. -/
def value : Nat → Nat → List Char → Option (Tree × List Char)
  | 0, _, _ => none
  | fuel + 1, room, cs =>
    match skip cs with
    | '"' :: rest => (string rest).map fun (s, rest) => ((s.map Tree.str).getD .unreadable, rest)
    | '[' :: rest =>
      match skip rest with
      | ']' :: rest => some (within room (.arr []), rest)
      | rest => (items fuel (room - 1) rest).map fun (ts, rest) => (within room (.arr ts), rest)
    | '\x7b' :: rest =>
      match skip rest with
      | '\x7d' :: rest => some (within room (.obj []), rest)
      | rest => (members fuel (room - 1) rest).map fun (es, rest) => (within room (.obj es), rest)
    | cs => (word? cs).or (number? cs)

/-- The items up to the closing bracket. -/
def items : Nat → Nat → List Char → Option (List Tree × List Char)
  | 0, _, _ => none
  | fuel + 1, room, cs => do
    let (t, rest) ← value fuel room cs
    match skip rest with
    | ',' :: rest =>
      let (ts, rest) ← items fuel room rest
      some (t :: ts, rest)
    | ']' :: rest => some ([t], rest)
    | _ => none

/-- The members up to the closing brace. -/
def members : Nat → Nat → List Char → Option (List (Option String × Tree) × List Char)
  | 0, _, _ => none
  | fuel + 1, room, cs =>
    match skip cs with
    | '"' :: rest => do
      let (key, rest) ← string rest
      match skip rest with
      | ':' :: rest =>
        let (t, rest) ← value fuel room rest
        match skip rest with
        | ',' :: rest =>
          let (es, rest) ← members fuel room rest
          some ((key, t) :: es, rest)
        | '\x7d' :: rest => some ([(key, t)], rest)
        | _ => none
      | _ => none
    | _ => none
end

end Syntax

/-- The number of arrays and objects that may stand inside each other. -/
def maxDepth : Nat := 127

namespace Tree

/-- The tree of a whole text, which holds one value and blanks around it. -/
def parse? (text : List Char) : Option Tree :=
  match Syntax.value (2 * text.length + 1) maxDepth text with
  | some (t, rest) => if (Syntax.skip rest).isEmpty then some t else none
  | none => none

mutual
/-- The value of a tree. Of members with one key the last one counts. -/
def value? : Tree → Option Json
  | .null => some .null
  | .bool b => some (.bool b)
  | .num n => some (.num n)
  | .str s => some (.str s)
  | .arr ts => (values? ts).map .arr
  | .obj es => (entries? es).map fun es => .obj (Object.ofEntries es)
  | .unreadable => none

/-- The values of a list of trees. -/
def values? : List Tree → Option (List Json)
  | [] => some []
  | t :: rest => do
    let v ← value? t
    let vs ← values? rest
    some (v :: vs)

/-- The values of a list of members. -/
def entries? : List (Option String × Tree) → Option (List (String × Json))
  | [] => some []
  | (key, t) :: rest => do
    let key ← key
    let v ← value? t
    let es ← entries? rest
    some ((key, v) :: es)
end

mutual
/-- A value as a tree. -/
def ofJson : Json → Tree
  | .null => .null
  | .bool b => .bool b
  | .num n => .num n
  | .str s => .str s
  | .arr vs => .arr (ofValues vs)
  | .obj es => .obj (ofEntries es)

/-- A list of values as trees. -/
def ofValues : List Json → List Tree
  | [] => []
  | v :: rest => ofJson v :: ofValues rest

/-- A list of members as trees. -/
def ofEntries : List (String × Json) → List (Option String × Tree)
  | [] => []
  | (key, v) :: rest => (some key, ofJson v) :: ofEntries rest
end

end Tree

/-- The value of a JSON text. -/
def parse? (text : String) : Option Json := (Tree.parse? text.toList).bind Tree.value?

end Replication.Json
