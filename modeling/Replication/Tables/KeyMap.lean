/-!
# Finite maps

Maps as lists of pairs. A key that is set stands once, where it was first set.
-/

namespace Replication

/-- A finite map. -/
abbrev KeyMap (κ α : Type) := List (κ × α)

namespace KeyMap

variable {κ α : Type} [DecidableEq κ]

/-- The value of a key. -/
def get? (m : KeyMap κ α) (key : κ) : Option α :=
  match m with
  | [] => none
  | (k, v) :: rest => if k = key then some v else get? rest key

/-- The map with a key set to a value. -/
def set (m : KeyMap κ α) (key : κ) (value : α) : KeyMap κ α :=
  match m with
  | [] => [(key, value)]
  | (k, v) :: rest => if k = key then (k, value) :: rest else (k, v) :: set rest key value

/-- The map without a key. -/
def erase (m : KeyMap κ α) (key : κ) : KeyMap κ α := m.filter (·.1 ≠ key)

@[simp] theorem get?_nil (key : κ) : get? ([] : KeyMap κ α) key = none := rfl

theorem get?_cons (k : κ) (v : α) (m : KeyMap κ α) (key : κ) :
    get? ((k, v) :: m) key = if k = key then some v else get? m key := rfl

@[simp] theorem get?_set (m : KeyMap κ α) (key other : κ) (value : α) :
    get? (set m key value) other = if key = other then some value else get? m other := by
  induction m with
  | nil => simp [set, get?_cons]
  | cons e m ih =>
    obtain ⟨k, v⟩ := e
    by_cases h : k = key
    · subst h
      by_cases ho : k = other <;> simp [set, get?_cons, ho]
    · by_cases ho : k = other
      · subst ho
        simp [set, get?_cons, h, Ne.symm h]
      · simp [set, get?_cons, h, ho, ih]

@[simp] theorem set_set (m : KeyMap κ α) (key : κ) (value value' : α) :
    set (set m key value) key value' = set m key value' := by
  induction m with
  | nil => simp [set]
  | cons e m ih =>
    obtain ⟨k, v⟩ := e
    by_cases h : k = key <;> simp [set, h, ih]

@[simp] theorem get?_erase (m : KeyMap κ α) (key other : κ) :
    get? (erase m key) other = if key = other then none else get? m other := by
  induction m with
  | nil => simp [erase]
  | cons e m ih =>
    obtain ⟨k, v⟩ := e
    unfold erase at ih
    by_cases h : k = key
    · subst h
      by_cases ho : k = other <;> simp_all [erase, get?_cons]
    · by_cases ho : k = other
      · subst ho
        simp [erase, get?_cons, h, Ne.symm h]
      · simp_all [erase, get?_cons]

end KeyMap

end Replication
