import Replication.Json.Syntax

/-!
# Records in JSON

How a value with named fields is read. An object gives its fields by name: others are ignored, and
a field that stands twice makes it invalid. An array gives them by position in the order of their
declaration: it may be too short only by fields that have a default, and never too long.
-/

namespace Replication.Json

/-- What becomes of a field that is left out: the record is invalid, the field is empty in an
object only, or it takes its default. -/
inductive Presence where
  | required
  | optional
  | defaulted
  deriving DecidableEq, Repr

/-- A declared field. -/
structure Field where
  name : String
  presence : Presence

namespace Field

/-- A field that must stand. -/
def required (name : String) : Field := ⟨name, .required⟩

/-- A field that an object may leave out. -/
def optional (name : String) : Field := ⟨name, .optional⟩

/-- A field that an object or an array may leave out. -/
def defaulted (name : String) : Field := ⟨name, .defaulted⟩

end Field

namespace Record

/-- The members with a name. -/
def named (name : String) (entries : List (Option String × Tree)) : List Tree :=
  entries.filterMap fun e => if e.1 = some name then some e.2 else none

/-- The fields of an object, each where it is declared. -/
def byName (entries : List (Option String × Tree)) : List Field → Option (List (Option Tree))
  | [] => some []
  | f :: fields =>
    match named f.name entries with
    | [] =>
      if f.presence = .required then none else (byName entries fields).map (none :: ·)
    | [t] => (byName entries fields).map (some t :: ·)
    | _ => none

/-- The fields of an array, each where it is declared. -/
def byPosition : List Field → List Tree → Option (List (Option Tree))
  | [], [] => some []
  | [], _ :: _ => none
  | f :: fields, [] =>
    if f.presence = .defaulted then (byPosition fields []).map (none :: ·) else none
  | _ :: fields, t :: ts => (byPosition fields ts).map (some t :: ·)

/-- The declared fields of a record, in order. -/
def fields? (fields : List Field) : Tree → Option (List (Option Tree))
  | .obj entries => if entries.all (·.1.isSome) then byName entries fields else none
  | .arr ts => byPosition fields ts
  | _ => none

/-- The value of a field that stands. -/
def need {α : Type} (read : Tree → Option α) (slot : Option Tree) : Option α := slot.bind read

/-- The value of a field, or its default. -/
def orElse {α : Type} (default : α) (read : Tree → Option α) : Option Tree → Option α
  | none => some default
  | some t => read t

/-- The value of a field that may be null. -/
def orNull {α : Type} (read : Tree → Option α) : Option Tree → Option (Option α)
  | none => some none
  | some .null => some none
  | some t => (read t).map some

end Record

namespace Tree

/-- A string. -/
def string? : Tree → Option String
  | .str s => some s
  | _ => none

/-- A truth value. -/
def bool? : Tree → Option Bool
  | .bool b => some b
  | _ => none

/-- A whole number from zero up to a bound. -/
def natBelow? (bound : Nat) : Tree → Option Nat
  | .num n => n.natBelow? bound
  | _ => none

/-- A whole number of 64 bits with a sign. -/
def int64? : Tree → Option Int
  | .num (.int n) => if -(Word.size 63 : Int) ≤ n ∧ n < Word.size 63 then some n else none
  | _ => none

/-- A double; a whole number is rounded to one. -/
def double? : Tree → Option Binary64
  | .num n => some n.toDouble
  | _ => none

/-- An object with values of any kind. -/
def object? : Tree → Option Object
  | .obj es => (entries? es).map Object.ofEntries
  | _ => none

/-- A list of values of one kind. -/
def list? {α : Type} (read : Tree → Option α) : Tree → Option (List α)
  | .arr ts => ts.mapM read
  | _ => none

/-- One of a set of words: a string, or an object with that word as its only key and null as its
value. -/
def word? {α : Type} (read : String → Option α) : Tree → Option α
  | .str s => read s
  | .obj [(some s, .null)] => read s
  | _ => none

end Tree

end Replication.Json
