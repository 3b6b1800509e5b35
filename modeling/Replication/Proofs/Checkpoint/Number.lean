import Replication.Proofs.Checkpoint.Order
import Replication.Json.Numeral

/-!
# Positions of numbers

Spellings in digits are ordered like the numbers that they denote, whatever their length and their
leading zeros (`compareSpellings_lt`). So the positions of whole numbers are ordered like the
numbers (`ofNat_lt_ofNat`).

Together: the order of positions is total, tells all of them apart, has numbers by their value and
everything else after them (`totally_ordered`).
-/

namespace Replication.Checkpoint

open Json.Numeral (digitValue natOfDigits)
open Decimal (tenTo)

/-! ## The value of digits -/

theorem tenTo_succ (n : Nat) : tenTo (n + 1) = 10 * tenTo n := by
  unfold tenTo
  rw [Nat.pow_eq, Nat.pow_eq, Nat.pow_succ, Nat.mul_comm]

theorem toNat_of_isDigit {c : Char} (h : c.isDigit) :
    c.toNat = 48 + digitValue c ∧ digitValue c < 10 := by
  have hc : 48 ≤ c.toNat ∧ c.toNat ≤ 57 := by
    simpa [Char.isDigit, UInt32.le_iff_toNat_le] using h
  unfold digitValue
  omega

theorem foldl_digits (n : Nat) (ds : List Char) :
    ds.foldl (fun n c => 10 * n + digitValue c) n = n * tenTo ds.length + natOfDigits ds := by
  induction ds generalizing n with
  | nil => simp [natOfDigits, tenTo]
  | cons c ds ih =>
    have hc : natOfDigits (c :: ds) = digitValue c * tenTo ds.length + natOfDigits ds := by
      rw [natOfDigits, List.foldl_cons, ih, Nat.mul_zero, Nat.zero_add]
    rw [List.foldl_cons, ih, hc, List.length_cons, tenTo_succ, Nat.add_mul, Nat.add_assoc,
      Nat.mul_comm 10 n, Nat.mul_assoc]

theorem natOfDigits_cons (c : Char) (ds : List Char) :
    natOfDigits (c :: ds) = digitValue c * tenTo ds.length + natOfDigits ds := by
  rw [natOfDigits, List.foldl_cons, foldl_digits, Nat.mul_zero, Nat.zero_add]

theorem natOfDigits_lt {ds : List Char} (h : ds.all Char.isDigit) :
    natOfDigits ds < tenTo ds.length := by
  induction ds with
  | nil => decide
  | cons c ds ih =>
    rw [List.all_cons, Bool.and_eq_true] at h
    have hc := (toNat_of_isDigit h.1).2
    have hds := ih h.2
    have : digitValue c * tenTo ds.length ≤ 9 * tenTo ds.length :=
      Nat.mul_le_mul_right _ (by omega)
    rw [natOfDigits_cons, List.length_cons, tenTo_succ]
    omega

/-- Digits that do not start with a zero denote a number of their length. -/
theorem tenTo_le_natOfDigits {c : Char} {ds : List Char} (hc : c.isDigit) (h0 : c ≠ '0') :
    tenTo ds.length ≤ natOfDigits (c :: ds) := by
  have hpos : 1 ≤ digitValue c := by
    have := (toNat_of_isDigit hc).1
    have hne : c.toNat ≠ '0'.toNat := fun e => h0 (Char.toNat_inj.1 e)
    change c.toNat ≠ 48 at hne
    omega
  rw [natOfDigits_cons]
  calc tenTo ds.length = 1 * tenTo ds.length := (Nat.one_mul _).symm
    _ ≤ digitValue c * tenTo ds.length := Nat.mul_le_mul_right _ hpos
    _ ≤ _ := Nat.le_add_right _ _

/-! ## The order of digits -/

/-- Of as many digits, those that denote less come first. -/
theorem compareChars_lt {as bs : List Char} (ha : as.all Char.isDigit) (hb : bs.all Char.isDigit)
    (hlen : as.length = bs.length) (h : natOfDigits as < natOfDigits bs) :
    compareChars as bs = .lt := by
  induction as generalizing bs with
  | nil =>
    cases bs with
    | nil => exact absurd h (Nat.lt_irrefl _)
    | cons b bs => cases hlen
  | cons a as ih =>
    cases bs with
    | nil => cases hlen
    | cons b bs =>
      rw [List.all_cons, Bool.and_eq_true] at ha hb
      rw [List.length_cons, List.length_cons, Nat.add_right_cancel_iff] at hlen
      rw [natOfDigits_cons, natOfDigits_cons, hlen] at h
      obtain ⟨hva, -⟩ := toNat_of_isDigit ha.1
      obtain ⟨hvb, -⟩ := toNat_of_isDigit hb.1
      have hla : natOfDigits as < tenTo bs.length := hlen ▸ natOfDigits_lt ha.2
      have hlb := natOfDigits_lt hb.2
      rw [compareChars]
      rcases Nat.lt_trichotomy (digitValue a) (digitValue b) with hlt | heq | hgt
      · rw [if_pos (by omega)]
      · rw [if_neg (by omega), if_neg (by omega)]
        exact ih ha.2 hb.2 hlen (by rw [heq] at h; omega)
      · exfalso
        have : (digitValue b + 1) * tenTo bs.length ≤ digitValue a * tenTo bs.length :=
          Nat.mul_le_mul_right _ hgt
        rw [Nat.add_mul] at this
        omega

/-- Digits of a number do not start with a zero. -/
def NoLeadingZero (cs : List Char) : Prop := cs.head? ≠ some '0'

theorem noLeadingZero_significant (cs : List Char) : NoLeadingZero (significant cs) := by
  unfold NoLeadingZero significant
  induction cs with
  | nil => simp
  | cons c cs ih =>
    by_cases h : c = '0'
    · simpa [h] using ih
    · simp [h]

theorem natOfDigits_significant (cs : List Char) :
    natOfDigits (significant cs) = natOfDigits cs := by
  unfold significant
  induction cs with
  | nil => rfl
  | cons c cs ih =>
    by_cases h : c = '0'
    · subst h
      rw [List.dropWhile_cons_of_pos (by rfl), ih, natOfDigits_cons]
      simp [digitValue]
    · rw [List.dropWhile_cons_of_neg (by simpa using h)]

theorem all_significant {cs : List Char} (h : cs.all Char.isDigit) :
    (significant cs).all Char.isDigit := by
  rw [List.all_eq_true] at h ⊢
  exact fun c hc => h c ((List.dropWhile_suffix _).subset hc)

theorem length_le_of_natOfDigits_le {as bs : List Char} (ha : as.all Char.isDigit)
    (hb : bs.all Char.isDigit) (hz : NoLeadingZero as) (h : natOfDigits as ≤ natOfDigits bs) :
    as.length ≤ bs.length := by
  cases as with
  | nil => exact Nat.zero_le _
  | cons a as =>
    rw [List.all_cons, Bool.and_eq_true] at ha
    have hlow : Nat.pow 10 as.length ≤ natOfDigits (a :: as) :=
      tenTo_le_natOfDigits ha.1 (by simpa [NoLeadingZero] using hz)
    have hhigh := natOfDigits_lt hb
    have hlt : Nat.pow 10 as.length < Nat.pow 10 bs.length :=
      Nat.lt_of_le_of_lt hlow (Nat.lt_of_le_of_lt h hhigh)
    exact (Nat.pow_lt_pow_iff_right (by decide)).1 hlt

theorem compareDigits_lt {as bs : List Char} (ha : as.all Char.isDigit) (hb : bs.all Char.isDigit)
    (hz : NoLeadingZero as) (h : natOfDigits as < natOfDigits bs) :
    compareDigits as bs = .lt := by
  have hlen := length_le_of_natOfDigits_le ha hb hz (Nat.le_of_lt h)
  unfold compareDigits
  by_cases hlt : as.length < bs.length
  · rw [if_pos hlt]
  · rw [if_neg hlt, if_neg (by omega)]
    exact compareChars_lt ha hb (by omega) h

/-- Spellings of numbers are ordered like the numbers. -/
theorem compareSpellings_lt {a b : List Char} (ha : isNumeric a) (hb : isNumeric b)
    (h : natOfDigits a < natOfDigits b) : compareSpellings a b = .lt := by
  rw [compareSpellings_eq, ha, hb]
  unfold isNumeric at ha hb
  rw [Bool.and_eq_true] at ha hb
  have hd := compareDigits_lt (all_significant ha.2) (all_significant hb.2)
    (noLeadingZero_significant a) (by rwa [natOfDigits_significant, natOfDigits_significant])
  simp only [compareNumerals, compareLex, hd, Ordering.then]

/-! ## Positions of whole numbers -/

theorem isNumeric_toDigits (n : Nat) : isNumeric (Nat.toDigits 10 n) := by
  unfold isNumeric
  rw [Bool.and_eq_true, List.all_eq_true]
  refine ⟨?_, fun c hc => Nat.isDigit_of_mem_toDigits (by decide) (by decide) hc⟩
  simp

theorem natOfDigits_toDigits (n : Nat) : natOfDigits (Nat.toDigits 10 n) = n :=
  Nat.ofDigitChars_toDigits (by decide) (by decide)

theorem ofNat_value (n : Nat) : (ofNat n).value.toList = Nat.toDigits 10 n := Nat.toList_repr

theorem ofNat_lt_of_lt {m n : Nat} (h : m < n) : ofNat m < ofNat n := by
  rw [lt_iff_cmp, cmp, ofNat_value, ofNat_value]
  refine compareSpellings_lt (isNumeric_toDigits m) (isNumeric_toDigits n) ?_
  rwa [natOfDigits_toDigits, natOfDigits_toDigits]

@[simp] theorem ofNat_lt_ofNat {m n : Nat} : ofNat m < ofNat n ↔ m < n := by
  constructor
  · intro h
    by_contra hle
    rcases Nat.lt_or_eq_of_le (Nat.not_lt.1 hle) with hlt | heq
    · exact lt_asymm h (ofNat_lt_of_lt hlt)
    · rw [heq] at h
      exact lt_irrefl _ h
  · exact ofNat_lt_of_lt

@[simp] theorem ofNat_le_ofNat {m n : Nat} : ofNat m ≤ ofNat n ↔ m ≤ n := by
  rw [← not_lt, ofNat_lt_ofNat, Nat.not_lt]

/-! ## The order of positions -/

/-- A position that is a number: at least one digit and nothing else. -/
def IsNumber (c : Checkpoint) : Prop := c.value ≠ "" ∧ ∀ d ∈ c.value.toList, d.isDigit = true

/-- The number that the digits of a position denote. -/
def number (c : Checkpoint) : Nat := natOfDigits c.value.toList

theorem isNumber_iff {c : Checkpoint} : c.IsNumber ↔ isNumeric c.value.toList = true := by
  unfold IsNumber isNumeric
  simp

instance (c : Checkpoint) : Decidable c.IsNumber := decidable_of_iff' _ isNumber_iff

/-- Numbers are ordered by their value. -/
theorem cmp_of_number_ne {a b : Checkpoint} (ha : a.IsNumber) (hb : b.IsNumber)
    (h : a.number ≠ b.number) : cmp a b = compare a.number b.number := by
  have hlt : ∀ {a b : Checkpoint}, a.IsNumber → b.IsNumber → a.number < b.number →
      cmp a b = .lt := fun ha hb => compareSpellings_lt (isNumber_iff.1 ha) (isNumber_iff.1 hb)
  rcases Nat.lt_or_gt_of_ne h with h | h
  · rw [hlt ha hb h, Nat.compare_eq_lt.2 h]
  · rw [Std.OrientedCmp.gt_iff_lt.2 (hlt hb ha h), Nat.compare_eq_gt.2 h]

/-- Numbers precede everything else. -/
theorem cmp_of_not_isNumber {a b : Checkpoint} (ha : a.IsNumber) (hb : ¬b.IsNumber) :
    cmp a b = .lt := by
  have hb' : isNumeric b.value.toList = false := Bool.eq_false_iff.2 (mt isNumber_iff.2 hb)
  rw [cmp, compareSpellings_eq, isNumber_iff.1 ha, hb']

theorem isNumber_ofNat (n : Nat) : (ofNat n).IsNumber := by
  rw [isNumber_iff, ofNat_value]
  exact isNumeric_toDigits n

theorem number_ofNat (n : Nat) : (ofNat n).number = n := by
  rw [number, ofNat_value, natOfDigits_toDigits]

theorem cmp_ofNat (m n : Nat) : cmp (ofNat m) (ofNat n) = compare m n := by
  by_cases h : m = n
  · rw [h, Nat.compare_eq_eq.2 rfl]
    exact Std.ReflCmp.compare_self
  · have hne : (ofNat m).number ≠ (ofNat n).number := by rwa [number_ofNat, number_ofNat]
    rw [cmp_of_number_ne (isNumber_ofNat m) (isNumber_ofNat n) hne, number_ofNat, number_ofNat]

/-- The order of positions is a total one and tells all positions apart; of two numbers with
different values the smaller comes first, whatever their length and their leading zeros; numbers
come before everything else; and the positions of whole numbers are ordered as these are. -/
theorem totally_ordered :
    (∀ a, cmp a a = .eq) ∧
      (∀ a b, cmp b a = (cmp a b).swap) ∧
      (∀ a b c, cmp a b ≠ .gt → cmp b c ≠ .gt → cmp a c ≠ .gt) ∧
      (∀ a b, cmp a b = .eq ↔ a = b) ∧
      (∀ a b, a.IsNumber → b.IsNumber → a.number ≠ b.number →
        cmp a b = compare a.number b.number) ∧
      (∀ a b, a.IsNumber → ¬b.IsNumber → cmp a b = .lt) ∧
      ∀ m n, cmp (ofNat m) (ofNat n) = compare m n := by
  refine ⟨fun _ => Std.ReflCmp.compare_self, fun _ _ => Std.OrientedCmp.eq_swap, ?_,
    fun _ _ => Std.LawfulEqCmp.compare_eq_iff_eq, fun _ _ => cmp_of_number_ne,
    fun _ _ => cmp_of_not_isNumber, cmp_ofNat⟩
  intro a b c hab hbc
  exact le_trans (α := Checkpoint) hab hbc

/-- Nine comes before a ten that is spelled with a zero in front, and both before a text. -/
theorem nine_before_ten :
    let nine : Checkpoint := ⟨"9"⟩
    let ten : Checkpoint := ⟨"010"⟩
    let text : Checkpoint := ⟨"0x"⟩
    cmp nine ten = .lt ∧ cmp ten text = .lt ∧ cmp nine text ≠ .gt := by
  intro nine ten text
  obtain ⟨-, -, htrans, -, hnumbers, htext, -⟩ := totally_ordered
  have hnt : cmp nine ten = .lt :=
    (hnumbers nine ten (by decide) (by decide) (by decide)).trans (by decide)
  have htt : cmp ten text = .lt := htext ten text (by decide) (by decide)
  exact ⟨hnt, htt, htrans nine ten text (by simp [hnt]) (by simp [htt])⟩

end Replication.Checkpoint
