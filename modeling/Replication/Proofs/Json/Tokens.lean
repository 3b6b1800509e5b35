import Replication.Json.Printer
import Replication.Json.Syntax
import Replication.Proofs.Checkpoint.Number

/-!
# Tokens that are written are read back

A string that is written with its escapes, and a whole number that fits in 64 bits, are read back
from the front of a text (`Json.string_quote`, `Json.number?_text`). What comes after a string may
be anything; what comes after a number must not go on with it.
-/

namespace Replication.Json

open Syntax

/-! ## Strings -/

theorem hexValue?_hexDigit {n : Nat} (h : n < 16) : hexValue? (hexDigit n) = some n := by
  have hall : ∀ n < 16, hexValue? (hexDigit n) = some n := by decide
  exact hall n h

/-- The piece that the escape of a character is read as. -/
def pieceOf (c : Char) : Piece :=
  if c.toNat < 0x20 ∧ c ∉ ['\x08', '\x0c', '\n', '\r', '\t'] then .unit c.toNat else .char c

/-- A character that needs no escape. -/
theorem pieces_plain {c : Char} (hquote : c ≠ '"') (hslash : c ≠ '\\') (hlow : ¬c.toNat < 0x20)
    (cs : List Char) : pieces (c :: cs) = (pieces cs).map fun x => (.char c :: x.1, x.2) := by
  rw [pieces.eq_def]
  split
  · next h => cases h
  · next h => exact absurd (List.cons.inj h).1 hquote
  · next h => exact absurd (List.cons.inj h).1 hslash
  · next h => exact absurd (List.cons.inj h).1 hslash
  · next h =>
    obtain ⟨rfl, rfl⟩ := List.cons.inj h
    rw [if_neg (by simp [hlow, hslash])]
    cases pieces cs <;> rfl

/-- A control character that is written by its number. -/
theorem pieces_unit {n : Nat} (h : n < 0x20) (cs : List Char) :
    pieces ('\\' :: 'u' :: '0' :: '0' :: hexDigit (n / 16) :: hexDigit (n % 16) :: cs) =
      (pieces cs).map fun x => (.unit n :: x.1, x.2) := by
  have h4 : hex4? '0' '0' (hexDigit (n / 16)) (hexDigit (n % 16)) = some n := by
    rw [hex4?, hexValue?_hexDigit (by omega), hexValue?_hexDigit (Nat.mod_lt n (by decide))]
    simp only [show hexValue? '0' = some 0 by decide, Option.bind_eq_bind, Option.bind_some]
    congr 1
    omega
  rw [pieces, h4]
  cases pieces cs <;> rfl

theorem pieces_escape (c : Char) (cs : List Char) :
    pieces (escape c ++ cs) = (pieces cs).map fun x => (pieceOf c :: x.1, x.2) := by
  unfold escape
  split
  case h_8 _ hquote hslash h8 hc hn hr ht =>
    by_cases hlow : c.toNat < 0x20
    · have hp : pieceOf c = .unit c.toNat := by
        refine if_pos ⟨hlow, ?_⟩
        simp only [List.mem_cons, List.not_mem_nil, or_false, not_or]
        exact ⟨h8, hc, hn, hr, ht⟩
      rw [if_pos hlow, hp]
      exact pieces_unit hlow cs
    · have hp : pieceOf c = .char c := if_neg fun h => hlow h.1
      rw [if_neg hlow, hp]
      exact pieces_plain hquote hslash hlow cs
  all_goals
    cases hp : pieces cs <;> simp [pieces, hp, pieceOf, escaped?]

/-- A piece that an escape is read as stands for the character. -/
theorem assemble?_pieceOf (c : Char) (ps : List Piece) :
    assemble? (pieceOf c :: ps) = (assemble? ps).map (c :: ·) := by
  unfold pieceOf
  split
  · next h =>
    rw [assemble?.eq_def]
    dsimp only
    rw [if_pos (.inl (by omega)), Char.ofNat_toNat]
  · rfl

theorem pieces_flatMap_escape (cs rest : List Char) :
    pieces (cs.flatMap escape ++ '"' :: rest) = some (cs.map pieceOf, rest) := by
  induction cs with
  | nil => rfl
  | cons c cs ih => rw [List.flatMap_cons, List.append_assoc, pieces_escape, ih]; rfl

theorem assemble?_map_pieceOf (cs : List Char) : assemble? (cs.map pieceOf) = some cs := by
  induction cs with
  | nil => rfl
  | cons c cs ih => rw [List.map_cons, assemble?_pieceOf, ih]; rfl

/-- A string is read back from its quotes, whatever comes after it. -/
theorem string_quote (s : String) (rest : List Char) :
    ∃ body, quote s ++ rest = '"' :: body ∧ string body = some (some s, rest) := by
  refine ⟨s.toList.flatMap escape ++ '"' :: rest, by simp [quote], ?_⟩
  rw [string, pieces_flatMap_escape, Option.map_some]
  dsimp only
  rw [assemble?_map_pieceOf, Option.map_some, String.ofList_toList]

/-! ## Whole numbers -/

/-- A text that does not go on with a number. -/
def Ends (rest : List Char) : Prop :=
  ∀ c ∈ rest.head?, c.isDigit = false ∧ c ≠ '.' ∧ c ≠ 'e' ∧ c ≠ 'E'

/-- The digits of a number are read up to their end. -/
theorem digits_append {ds rest : List Char} (hds : ∀ c ∈ ds, c.isDigit = true) (h : Ends rest) :
    Numeral.digits (ds ++ rest) = (ds, rest) := by
  have hrest : rest.takeWhile Char.isDigit = [] ∧ rest.dropWhile Char.isDigit = rest := by
    cases rest with
    | nil => exact ⟨rfl, rfl⟩
    | cons c rest => simp [(h c rfl).1]
  rw [Numeral.digits, List.takeWhile_append_of_pos hds, List.dropWhile_append_of_pos hds, hrest.1,
    hrest.2, List.append_nil]

/-- The digits of a number other than zero do not start with a zero. -/
theorem head?_toDigits {n : Nat} (h : n ≠ 0) : (Nat.toDigits 10 n).head? ≠ some '0' := by
  induction n using Nat.strongRecOn with
  | ind n ih =>
    by_cases hlt : n < 10
    · rw [Nat.toDigits_of_lt_base hlt]
      have hall : ∀ n < 10, n ≠ 0 → [n.digitChar].head? ≠ some '0' := by decide
      exact hall n hlt h
    · obtain ⟨c, ds, hds⟩ := List.exists_cons_of_ne_nil (Nat.toDigits_ne_nil (b := 10) (n := n / 10))
      have hfirst := ih (n / 10) (by omega) (by omega)
      rw [hds] at hfirst
      rw [Nat.toDigits_of_base_le (by decide) (Nat.not_lt.1 hlt), hds]
      exact hfirst

/-- A text that does not go on with a number has no places and no exponent at its start. -/
theorem readPlaces_of_ends {rest : List Char} (h : Ends rest) :
    Numeral.readPlaces rest = some (none, rest) := by
  cases rest with
  | nil => rfl
  | cons c rest =>
    obtain ⟨-, hpoint, -, -⟩ := h c rfl
    rw [Numeral.readPlaces.eq_def]
    split
    · next heq => exact absurd (List.cons.inj heq).1 hpoint
    · rfl

theorem readExponent_of_ends {rest : List Char} (h : Ends rest) :
    Numeral.readExponent rest = some (none, rest) := by
  cases rest with
  | nil => rfl
  | cons c rest =>
    obtain ⟨-, -, hlower, hupper⟩ := h c rfl
    rw [Numeral.readExponent.eq_def]
    exact if_neg (not_or.2 ⟨hlower, hupper⟩)

/-- The digits of a number are read with and without a sign before them. -/
theorem read_toDigits (n : Nat) {rest : List Char} (h : Ends rest) :
    Numeral.read (Nat.toDigits 10 n ++ rest) =
        some (⟨false, Nat.toDigits 10 n, none, none⟩, rest) ∧
      Numeral.read ('-' :: (Nat.toDigits 10 n ++ rest)) =
        some (⟨true, Nat.toDigits 10 n, none, none⟩, rest) := by
  have hds : ∀ c ∈ Nat.toDigits 10 n, c.isDigit = true := fun c hc =>
    Nat.isDigit_of_mem_toDigits (by decide) (by decide) hc
  have hread := digits_append hds h
  obtain ⟨c, ds, hcons⟩ := List.exists_cons_of_ne_nil (Nat.toDigits_ne_nil (b := 10) (n := n))
  have hsign : c ≠ '-' := by
    rintro rfl
    have := hds '-' (hcons ▸ List.mem_cons_self)
    simp at this
  have hzero : c = '0' → ds = [] := by
    rintro rfl
    by_cases hn : n = 0
    · rw [hn, Nat.toDigits_zero] at hcons
      exact (List.cons.inj hcons).2.symm
    · exact absurd (by rw [hcons, List.head?_cons]) (head?_toDigits hn)
  rw [hcons] at hread ⊢
  have hplaces := readPlaces_of_ends h
  have hexponent := readExponent_of_ends h
  cases ds with
  | nil =>
    rw [List.singleton_append] at hread ⊢
    simp [Numeral.read, hsign, hread, hplaces, hexponent]
  | cons d ds =>
    have hc : c ≠ '0' := fun hc => by cases hzero hc
    rw [List.cons_append, List.cons_append] at hread ⊢
    simp [Numeral.read, hsign, hc, hread, hplaces, hexponent]

/-- The first character of a whole number is a digit or a sign. -/
theorem exists_text_cons (n : Int) : ∃ c cs, (Number.int n).text.toList = c :: cs ∧
    (c.isDigit = true ∨ c = '-') := by
  cases n with
  | ofNat n =>
    obtain ⟨c, ds, hcons⟩ := List.exists_cons_of_ne_nil (Nat.toDigits_ne_nil (b := 10) (n := n))
    refine ⟨c, ds, Nat.toList_repr.trans hcons, .inl ?_⟩
    exact Nat.isDigit_of_mem_toDigits (by decide) (by decide) (hcons ▸ List.mem_cons_self)
  | negSucc n => exact ⟨'-', _, String.toList_append, .inr rfl⟩

/-- A whole number that fits in 64 bits is read back, if the text does not go on with it. -/
theorem number?_text {n : Int} (hlow : -(Word.size 63 : Int) ≤ n) (hhigh : n < Word.size 64)
    {rest : List Char} (h : Ends rest) :
    number? ((Number.int n).text.toList ++ rest) = some (.num (.int n), rest) := by
  cases n with
  | ofNat n =>
    have hfits : n < Word.size 64 := Int.ofNat_lt.1 hhigh
    rw [show (Number.int (.ofNat n)).text.toList = Nat.toDigits 10 n from Nat.toList_repr, number?,
      (read_toDigits n h).1]
    simp [Numeral.value?, Checkpoint.natOfDigits_toDigits, hfits]
  | negSucc n =>
    have hfits : n + 1 ≤ Word.size 63 := by omega
    have htext : (Number.int (.negSucc n)).text.toList = '-' :: Nat.toDigits 10 (n + 1) :=
      String.toList_append.trans (congrArg _ Nat.toList_repr)
    rw [htext, List.cons_append, number?, (read_toDigits (n + 1) h).2]
    simp [Numeral.value?, Checkpoint.natOfDigits_toDigits, hfits, Int.negSucc_eq]

end Replication.Json
