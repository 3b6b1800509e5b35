import Replication.Json.Value
import Replication.Text.Utf8

/-!
# Members

Reading a value whose shape is known, member by member, with defaults for what is left out or of
another kind.
-/

namespace Replication.Json

/-- The member of an object. -/
def member? (v : Json) (key : String) : Option Json :=
  match v with
  | .obj o => Object.get? o key
  | _ => none

/-- A member that is neither missing nor null. -/
def given? (v : Json) (key : String) : Option Json :=
  match v.member? key with
  | some .null => none
  | m => m

/-- Whether there is a member. -/
def has (v : Json) (key : String) : Bool := (v.member? key).isSome

/-- A text. -/
def asText? : Json → Option String
  | .str s => some s
  | _ => none

/-- A whole number. -/
def asInt? : Json → Option Int
  | .num (.int n) => some n
  | _ => none

/-- A whole number that is not negative. -/
def asNat? (v : Json) : Option Nat := v.asInt?.bind fun n => if 0 ≤ n then some n.toNat else none

/-- A truth value. -/
def asBool? : Json → Option Bool
  | .bool b => some b
  | _ => none

/-- An object. -/
def asObject? : Json → Option Object
  | .obj o => some o
  | _ => none

/-- The items of an array. -/
def asItems : Json → List Json
  | .arr vs => vs
  | _ => []

def text? (v : Json) (key : String) : Option String := (v.member? key).bind asText?

def textOr (v : Json) (key default : String) : String := (v.text? key).getD default

def int? (v : Json) (key : String) : Option Int := (v.member? key).bind asInt?

def nat? (v : Json) (key : String) : Option Nat := (v.member? key).bind asNat?

def natOr (v : Json) (key : String) (default : Nat) : Nat := (v.nat? key).getD default

def boolOr (v : Json) (key : String) (default : Bool) : Bool :=
  ((v.member? key).bind asBool?).getD default

def items (v : Json) (key : String) : List Json := ((v.member? key).map asItems).getD []

def texts (v : Json) (key : String) : List String := (v.items key).filterMap asText?

/-- The entries of an object in a member. -/
def entries (v : Json) (key : String) : Object := ((v.member? key).bind asObject?).getD []

/-- The entries with a text. -/
def textEntries (v : Json) (key : String) : List (String × String) :=
  (v.entries key).filterMap fun (k, x) => x.asText?.map (k, ·)

/-- The value of a hexadecimal digit. -/
def digit (c : Char) : Nat :=
  if c.isDigit then c.toNat - 48 else (c.toLower.toNat - 97) + 10

/-- Bytes written as pairs of hexadecimal digits. -/
def bytesOfDigits : List Char → List UInt8
  | a :: b :: rest => UInt8.ofNat (digit a * 16 + digit b) :: bytesOfDigits rest
  | _ => []

/-- Bytes: a text in UTF-8, or an object with their hexadecimal digits. -/
def asBytes : Json → List UInt8
  | .str s => Utf8.encode s.toList
  | v => bytesOfDigits (v.textOr "hex" "").toList

/-- An object with more members. -/
def with_ (v : Json) (more : List (String × Json)) : Json :=
  match v with
  | .obj o => .obj (o ++ more)
  | v => v

/-- A value or null. -/
def orNull {α : Type} (write : α → Json) : Option α → Json
  | some x => write x
  | none => .null

end Replication.Json
