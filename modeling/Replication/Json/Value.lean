import Replication.Number.Shortest
import Replication.Number.Word

/-!
# JSON values

Values as documents hold them: a whole number stays exact while it fits in 64 bits, with or
without a sign, and is a double otherwise; an object has each key once, in ascending order.
-/

namespace Replication

/-- A number: whole and exact, or a double. -/
inductive Number where
  | int (value : Int)
  | double (value : Binary64)
  deriving DecidableEq, Repr

/-- A JSON value. -/
inductive Json where
  | null
  | bool (value : Bool)
  | num (value : Number)
  | str (value : String)
  | arr (items : List Json)
  | obj (entries : List (String × Json))
  deriving Repr

/-- An object on its own: the body of a document. -/
abbrev Object := List (String × Json)

namespace Number

/-- The number as text: whole numbers plainly, doubles by their shortest digits. -/
def text : Number → String
  | .int n => toString n
  | .double x => x.json

/-- The number as a double. -/
def toDouble : Number → Binary64
  | .int n => Binary64.ofQuotient (decide (n < 0)) n.natAbs 1
  | .double x => x

/-- A whole number that is not negative and lies below a bound. -/
def natBelow? (bound : Nat) : Number → Option Nat
  | .int n => if 0 ≤ n ∧ n.toNat < bound then some n.toNat else none
  | .double _ => none

end Number

namespace Object

/-- The value of a key. -/
def get? (o : Object) (key : String) : Option Json := o.lookup key

/-- The object with a key set to a value, at its place in the order of keys. -/
def insert (key : String) (value : Json) : Object → Object
  | [] => [(key, value)]
  | (k, v) :: rest =>
    if key = k then (key, value) :: rest
    else if key < k then (key, value) :: (k, v) :: rest
    else (k, v) :: insert key value rest

/-- The object without a key. -/
def erase (o : Object) (key : String) : Object := o.filter (·.1 != key)

/-- The object of a list of entries, of which a later one replaces an earlier one. -/
def ofEntries (entries : List (String × Json)) : Object :=
  entries.foldl (fun o e => insert e.1 e.2 o) []

@[simp] theorem get?_nil (key : String) : get? [] key = none := rfl

theorem get?_cons (k : String) (v : Json) (o : Object) (key : String) :
    get? ((k, v) :: o) key = if key = k then some v else get? o key := by
  by_cases h : key = k
  · subst h
    simp [get?]
  · have hk : (key == k) = false := by simpa using h
    simp [get?, List.lookup_cons, h, hk]

@[simp] theorem get?_insert (o : Object) (key other : String) (value : Json) :
    get? (insert key value o) other = if other = key then some value else get? o other := by
  induction o with
  | nil => simp [insert, get?_cons]
  | cons e o ih =>
    obtain ⟨k, v⟩ := e
    unfold insert
    split
    · next h =>
      subst h
      by_cases ho : other = key <;> simp [get?_cons, ho]
    · next h =>
      split
      · simp [get?_cons]
      · by_cases hk : other = k
        · subst hk
          simp [get?_cons, Ne.symm h]
        · simp [get?_cons, hk, ih]

@[simp] theorem get?_erase (o : Object) (key other : String) :
    get? (erase o key) other = if other = key then none else get? o other := by
  induction o with
  | nil => simp [erase]
  | cons e o ih =>
    obtain ⟨k, v⟩ := e
    unfold erase at ih
    by_cases h : k = key
    · subst h
      by_cases ho : other = k <;> simp_all [erase, get?_cons]
    · by_cases ho : other = k
      · subst ho
        simp [erase, get?_cons, h]
      · simp_all [erase, get?_cons]

/-- Keys ascend, so each stands once. -/
def Sorted (o : Object) : Prop := o.Pairwise (·.1 < ·.1)

end Object

namespace Json

/-- A whole number as a value. -/
def ofNat (n : Nat) : Json := .num (.int n)

/-- A text or nothing. -/
def ofText? : Option String → Json
  | some s => .str s
  | none => .null

mutual
/-- How many objects and arrays stand inside each other. -/
def depth : Json → Nat
  | .arr items => 1 + depthOfItems items
  | .obj entries => 1 + depthOfEntries entries
  | _ => 0

/-- The depth of the deepest item. -/
def depthOfItems : List Json → Nat
  | [] => 0
  | v :: rest => max (depth v) (depthOfItems rest)

/-- The depth of the deepest member. -/
def depthOfEntries : List (String × Json) → Nat
  | [] => 0
  | (_, v) :: rest => max (depth v) (depthOfEntries rest)
end

end Json

end Replication
