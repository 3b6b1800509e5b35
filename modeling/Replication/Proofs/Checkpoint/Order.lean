import Mathlib.Order.Lattice
import Replication.Checkpoint

/-!
# The order of positions

`Checkpoint.cmp` is a total order: spellings in digits come first and are compared by their value,
then by their characters; the others follow by their characters. The instance below makes it a
`LinearOrder`, so that everything known of linear orders holds of positions.

The positions of whole numbers keep the order of the numbers (`ofNat_lt_ofNat`).
-/

namespace Replication.Checkpoint

/-! ## Characters -/

theorem compareChars_eq_compareLex (as bs : List Char) :
    compareChars as bs = List.compareLex (compareOn Char.toNat) as bs := by
  induction as generalizing bs with
  | nil => cases bs <;> rfl
  | cons a as ih =>
    cases bs with
    | nil => rfl
    | cons b bs =>
      rw [List.compareLex_cons_cons, ← ih, compareChars, compareOn, Nat.compare_eq_ite_lt]
      by_cases h : a.toNat < b.toNat
      · simp [h]
      · by_cases h' : a.toNat = b.toNat
        · simp [h']
        · have hgt : b.toNat < a.toNat := by omega
          simp [h, hgt]

theorem compareChars_eq_fun : compareChars = List.compareLex (compareOn Char.toNat) :=
  funext fun as => funext fun bs => compareChars_eq_compareLex as bs

instance : Std.TransCmp compareChars := by
  rw [compareChars_eq_fun]
  infer_instance

instance : Std.LawfulEqCmp (compareOn Char.toNat) where
  eq_of_compare h := Char.toNat_inj.1 (Std.LawfulEqOrd.eq_of_compare h)

instance : Std.LawfulEqCmp compareChars := by
  rw [compareChars_eq_fun]
  infer_instance

/-! ## Digits -/

/-- The order of digits is by length, then by characters. -/
theorem compareDigits_eq_fun : compareDigits = compareLex (compareOn List.length) compareChars := by
  funext as bs
  rw [compareDigits, compareLex, compareOn, Nat.compare_eq_ite_lt]
  by_cases h : as.length < bs.length
  · simp [h]
  · by_cases h' : as.length = bs.length
    · simp [h']
    · have hgt : bs.length < as.length := by omega
      simp [h, hgt]

instance : Std.TransCmp compareDigits := by
  rw [compareDigits_eq_fun]
  infer_instance

/-- The order of spellings of numbers: by their digits, then by their characters. -/
def compareNumerals : List Char → List Char → Ordering :=
  compareLex (fun a b => compareDigits (significant a) (significant b)) compareChars

instance : Std.TransCmp fun a b => compareDigits (significant a) (significant b) where
  eq_swap {_ _} := @Std.OrientedCmp.eq_swap _ compareDigits _ _ _
  isLE_trans {_ _ _} := @Std.TransCmp.isLE_trans _ compareDigits _ _ _ _

instance : Std.TransCmp compareNumerals := by
  unfold compareNumerals
  infer_instance

/-! ## Spellings -/

/-- Numbers precede everything else, and each kind has its own order. -/
theorem compareSpellings_eq (a b : List Char) :
    compareSpellings a b = match isNumeric a, isNumeric b with
      | true, true => compareNumerals a b
      | true, false => .lt
      | false, true => .gt
      | false, false => compareChars a b := rfl

instance : Std.TransCmp compareSpellings where
  eq_swap {a b} := by
    rw [compareSpellings_eq, compareSpellings_eq]
    cases isNumeric a <;> cases isNumeric b
    · exact @Std.OrientedCmp.eq_swap _ compareChars _ _ _
    · rfl
    · rfl
    · exact @Std.OrientedCmp.eq_swap _ compareNumerals _ _ _
  isLE_trans {a b c} := by
    simp only [compareSpellings_eq]
    cases isNumeric a <;> cases isNumeric b <;> cases isNumeric c <;>
      simp only [Ordering.isLE_lt, Ordering.isLE_gt, Bool.false_eq_true, false_implies,
        implies_true, true_implies]
    · exact Std.TransCmp.isLE_trans
    · exact Std.TransCmp.isLE_trans

theorem compareSpellings_eq_iff {a b : List Char} : compareSpellings a b = .eq ↔ a = b := by
  constructor
  · intro h
    rw [compareSpellings_eq] at h
    cases ha : isNumeric a <;> cases hb : isNumeric b <;> rw [ha, hb] at h
    · exact Std.LawfulEqCmp.eq_of_compare h
    · cases h
    · cases h
    · exact Std.LawfulEqCmp.eq_of_compare (compareLex_eq_eq.1 h).2
  · rintro rfl
    exact Std.ReflCmp.compare_self

/-! ## Positions -/

instance : Std.TransCmp cmp where
  eq_swap {_ _} := @Std.OrientedCmp.eq_swap _ compareSpellings _ _ _
  isLE_trans {_ _ _} := @Std.TransCmp.isLE_trans _ compareSpellings _ _ _ _

instance : Std.LawfulEqCmp cmp where
  compare_self {_} := @Std.ReflCmp.compare_self _ compareSpellings _ _
  eq_of_compare {a b} h := by
    have := compareSpellings_eq_iff.1 h
    cases a
    cases b
    simpa [String.toList_inj] using this

theorem le_iff_isLE {a b : Checkpoint} : a ≤ b ↔ (cmp a b).isLE := by
  change cmp a b ≠ .gt ↔ _
  cases cmp a b <;> simp

theorem lt_iff_cmp {a b : Checkpoint} : a < b ↔ cmp a b = .lt := Iff.rfl

instance : LinearOrder Checkpoint where
  le_refl a := le_iff_isLE.2 Std.ReflCmp.isLE_rfl
  le_trans a b c := by
    simp only [le_iff_isLE]
    exact Std.TransCmp.isLE_trans
  lt_iff_le_not_ge a b := by
    rw [lt_iff_cmp, le_iff_isLE, le_iff_isLE, @Std.OrientedCmp.eq_swap _ cmp _ b]
    cases cmp a b <;> simp
  le_antisymm a b := by
    simp only [le_iff_isLE]
    exact fun h h' => Std.LawfulEqCmp.eq_of_compare (Std.OrientedCmp.isLE_antisymm h h')
  le_total a b := by
    rw [le_iff_isLE, le_iff_isLE, @Std.OrientedCmp.eq_swap _ cmp _ b]
    cases cmp a b <;> simp
  toDecidableLE := inferInstance
  toDecidableLT := inferInstance
  toDecidableEq := inferInstance

@[simp] theorem isAfter_iff {a b : Checkpoint} : isAfter a b = true ↔ b < a := by
  rw [isAfter, beq_iff_eq, Std.OrientedCmp.gt_iff_lt, lt_iff_cmp]

theorem newer_eq_max (a b : Checkpoint) : newer a b = max a b := by
  unfold newer
  by_cases h : b < a
  · rw [if_pos (isAfter_iff.2 h), max_eq_left (le_of_lt h)]
  · rw [if_neg (mt isAfter_iff.1 h), max_eq_right (not_lt.1 h)]

end Replication.Checkpoint
