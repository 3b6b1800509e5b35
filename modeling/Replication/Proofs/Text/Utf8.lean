import Mathlib.Data.List.Basic
import Replication.Text.Utf8

/-!
# Text as bytes and bytes as text

A text is read back from its bytes (`Utf8.decode_encode`). Bytes that are those of no text have
replacements in what is read, but the characters below 0x80 stand there just where their bytes
stand: such a byte closes what is open before it, and no other bytes are read as such a character
(`Utf8.decode_append_cons`, `Utf8.mem_decode_iff`). So bytes may be cut at such a character before
they are read as well as afterwards.
-/

namespace Replication.Utf8

/-! ## Open characters -/

/-- The number of characters that an open one may still become after its next byte. -/
def Partial.span (p : Partial) : Nat :=
  match p.owed with
  | 1 => 1
  | 2 => 64
  | _ => 4096

/-- The least character that an open one may become. -/
def Partial.least (p : Partial) : Nat := (p.bits * 64 + (p.low - 0x80)) * p.span

/-- The first number behind the characters that an open one may become. -/
def Partial.bound (p : Partial) : Nat := (p.bits * 64 + (p.high - 0x80) + 1) * p.span

/-- An open character goes on with bytes from 0x80 to 0xBF only, and becomes a character that is no
surrogate and not below 0x80, whatever these are. -/
structure Partial.Sound (p : Partial) : Prop where
  owed_pos : 1 ≤ p.owed
  owed_le : p.owed ≤ 3
  low_ge : 0x80 ≤ p.low
  high_le : p.high ≤ 0xBF
  least_ge : 0x80 ≤ p.least
  scalar : p.bound ≤ 0xD800 ∨ 0xE000 ≤ p.least ∧ p.bound ≤ 0x110000

/-- The open character that a continuing byte leaves. -/
def Partial.next (p : Partial) (b : Nat) : Partial :=
  ⟨p.owed - 1, 0x80, 0xBF, p.bits * 64 + (b - 0x80)⟩

theorem Partial.sound_of_lead? {b : Nat} {p : Partial} (h : lead? b = some p) : p.Sound := by
  unfold lead? at h
  split_ifs at h <;> simp only [Option.some.injEq] at h <;> subst h
  all_goals
    constructor <;> simp only [Partial.least, Partial.bound, Partial.span] <;> omega

theorem Partial.span_next {p : Partial} (b : Nat) (hle : p.owed ≤ 3) (howed : ¬p.owed ≤ 1) :
    p.span = 64 * (p.next b).span := by
  have : p.owed = 2 ∨ p.owed = 3 := by omega
  rcases this with ho | ho <;> simp [Partial.span, Partial.next, ho]

theorem Partial.Sound.next {p : Partial} (h : p.Sound) {b : Nat} (hlow : p.low ≤ b)
    (hhigh : b ≤ p.high) (howed : ¬p.owed ≤ 1) : (p.next b).Sound := by
  have hle := h.owed_le
  have hlow' := h.low_ge
  have hhigh' := h.high_le
  have hspan := p.span_next b hle howed
  -- What the open character may become is part of what it might have become before.
  have hleast : p.least ≤ (p.next b).least := by
    have hbits : (p.next b).bits * 64 + ((p.next b).low - 0x80) =
        (p.bits * 64 + (b - 0x80)) * 64 := by
      simp only [Partial.next]
      omega
    rw [Partial.least, Partial.least, hbits, Nat.mul_assoc _ 64, ← hspan]
    exact Nat.mul_le_mul_right _ (by omega)
  have hbound : (p.next b).bound ≤ p.bound := by
    have hbits : (p.next b).bits * 64 + ((p.next b).high - 0x80) + 1 =
        (p.bits * 64 + (b - 0x80) + 1) * 64 := by
      simp only [Partial.next]
      omega
    rw [Partial.bound, Partial.bound, hbits, Nat.mul_assoc _ 64, ← hspan]
    exact Nat.mul_le_mul_right _ (by omega)
  exact
    { owed_pos := Nat.le_sub_of_add_le (by omega)
      owed_le := Nat.le_trans (Nat.sub_le _ _) hle
      low_ge := Nat.le_refl _
      high_le := Nat.le_refl _
      least_ge := Nat.le_trans h.least_ge hleast
      scalar := h.scalar.imp (Nat.le_trans hbound) fun h =>
        ⟨Nat.le_trans h.1 hleast, Nat.le_trans hbound h.2⟩ }

/-- A byte that completes an open character completes it to one that is not below 0x80. -/
theorem Partial.Sound.last {p : Partial} (h : p.Sound) {b : Nat} (hlow : p.low ≤ b)
    (hhigh : b ≤ p.high) (howed : p.owed ≤ 1) :
    0x80 ≤ (Char.ofNat (p.bits * 64 + (b - 0x80))).toNat := by
  have howed : p.owed = 1 := Nat.le_antisymm howed h.owed_pos
  have hleast := h.least_ge
  have hscalar := h.scalar
  have hlow' := h.low_ge
  simp only [Partial.least, Partial.bound, Partial.span, howed, Nat.mul_one] at hleast hscalar
  have hvalid : (p.bits * 64 + (b - 0x80)).isValidChar := by
    unfold Nat.isValidChar
    omega
  rw [Char.ofNat, dif_pos hvalid]
  show 0x80 ≤ p.bits * 64 + (b - 0x80)
  omega

/-! ## One byte -/

theorem decodeFrom_nil (p : Option Partial) :
    decodeFrom p [] = if p.isSome then [replacement] else [] := rfl

theorem start_of_lt {n : Nat} (h : n < 0x80) : start n = ([Char.ofNat n], none) := if_pos h

theorem start_of_ge {n : Nat} (h : 0x80 ≤ n) :
    (∃ q : Partial, start n = ([], some q) ∧ q.Sound) ∨ start n = ([replacement], none) := by
  unfold start
  rw [if_neg (Nat.not_lt.2 h)]
  cases hlead : lead? n with
  | none => exact .inr rfl
  | some q => exact .inl ⟨q, rfl, Partial.sound_of_lead? hlead⟩

/-- All that is open is sound. -/
def Sound (p : Option Partial) : Prop := ∀ q ∈ p, q.Sound

theorem sound_none : Sound none := fun _ h => by cases h

theorem sound_some {q : Partial} (h : q.Sound) : Sound (some q) := fun _ hq => by
  cases hq
  exact h

/-- A byte below 0x80 closes what is open and is a character itself. -/
theorem step_of_lt {p : Option Partial} (hp : Sound p) {b : UInt8} (h : b.toNat < 0x80) :
    step p b = (decodeFrom p [] ++ [Char.ofNat b.toNat], none) := by
  cases p with
  | none => exact start_of_lt h
  | some q =>
    have hlow := (hp q rfl).low_ge
    rw [step, if_neg (by omega), start_of_lt h]
    rfl

/-- Another byte gives no character below 0x80. Either it gives one, or it leaves one open. -/
theorem step_of_ge {p : Option Partial} (hp : Sound p) {b : UInt8} (h : 0x80 ≤ b.toNat) :
    (∀ c ∈ (step p b).1, 0x80 ≤ c.toNat) ∧ Sound (step p b).2 ∧
      ((step p b).1 ≠ [] ∨ (step p b).2.isSome = true) := by
  have hreplacement : 0x80 ≤ replacement.toNat := by decide
  cases p with
  | none =>
    rcases start_of_ge h with ⟨q, hstart, hq⟩ | hstart <;> rw [step, hstart]
    · exact ⟨by simp, sound_some hq, .inr rfl⟩
    · exact ⟨by simpa using hreplacement, sound_none, .inl (by simp)⟩
  | some q =>
    have hq := hp q rfl
    unfold step
    dsimp only
    split
    · next hin =>
      split
      · next howed =>
        exact ⟨by simpa using hq.last hin.1 hin.2 howed, sound_none, .inl (by simp)⟩
      · next howed =>
        exact ⟨by simp, sound_some (hq.next hin.1 hin.2 howed), .inr rfl⟩
    · rcases start_of_ge h with ⟨q', hstart, hq'⟩ | hstart <;> rw [hstart]
      · exact ⟨by simpa using hreplacement, sound_some hq', .inl (by simp)⟩
      · exact ⟨by simpa using hreplacement, sound_none, .inl (by simp)⟩

/-! ## Characters below 0x80 -/

/-- A byte below 0x80 may be cut out: what stands before it is read as if nothing came after it, and
what stands after it as if nothing came before. -/
theorem decodeFrom_append_cons {p : Option Partial} (hp : Sound p) (bs : List UInt8) {b : UInt8}
    (h : b.toNat < 0x80) (rest : List UInt8) :
    decodeFrom p (bs ++ b :: rest) = decodeFrom p bs ++ Char.ofNat b.toNat :: decode rest := by
  induction bs generalizing p with
  | nil =>
    rw [List.nil_append, decodeFrom_cons, step_of_lt hp h]
    simp [decode]
  | cons x bs ih =>
    have hnext : Sound (step p x).2 := by
      rcases Nat.lt_or_ge x.toNat 0x80 with hx | hx
      · rw [step_of_lt hp hx]
        exact sound_none
      · exact (step_of_ge hp hx).2.1
    rw [List.cons_append, decodeFrom_cons, ih hnext, decodeFrom_cons, List.append_assoc]

theorem decode_append_cons (bs : List UInt8) {b : UInt8} (h : b.toNat < 0x80)
    (rest : List UInt8) :
    decode (bs ++ b :: rest) = decode bs ++ Char.ofNat b.toNat :: decode rest :=
  decodeFrom_append_cons sound_none bs h rest

theorem toNat_ofNat_of_lt {n : Nat} (h : n < 0x80) : (Char.ofNat n).toNat = n := by
  rw [Char.ofNat, dif_pos (.inl (by omega))]
  rfl

theorem ofNat_toNat_inj {b x : UInt8} (hb : b.toNat < 0x80) (hx : x.toNat < 0x80) :
    Char.ofNat b.toNat = Char.ofNat x.toNat ↔ b = x := by
  constructor
  · intro h
    have := congrArg Char.toNat h
    rw [toNat_ofNat_of_lt hb, toNat_ofNat_of_lt hx] at this
    exact UInt8.toNat_inj.1 this
  · rintro rfl
    rfl

/-- A character below 0x80 is read just where its byte stands. -/
theorem mem_decodeFrom_iff {p : Option Partial} (hp : Sound p) {bs : List UInt8} {b : UInt8}
    (h : b.toNat < 0x80) : Char.ofNat b.toNat ∈ decodeFrom p bs ↔ b ∈ bs := by
  -- No character from 0x80 on is this one, and a replacement least of all.
  have hge : ∀ {c : Char}, 0x80 ≤ c.toNat → Char.ofNat b.toNat ≠ c := by
    rintro c hc rfl
    rw [toNat_ofNat_of_lt h] at hc
    omega
  have hclosed : ∀ q : Option Partial, Char.ofNat b.toNat ∉ decodeFrom q [] := by
    intro q
    rw [decodeFrom_nil]
    split
    · simpa using hge (c := replacement) (by decide)
    · simp
  induction bs generalizing p with
  | nil => simpa using hclosed p
  | cons x bs ih =>
    rw [decodeFrom_cons, List.mem_append, List.mem_cons]
    rcases Nat.lt_or_ge x.toNat 0x80 with hx | hx
    · rw [step_of_lt hp hx, List.mem_append, List.mem_singleton, ofNat_toNat_inj h hx]
      simp only [hclosed p, false_or, ih sound_none]
    · obtain ⟨hout, hnext, -⟩ := step_of_ge hp hx
      have hnot : Char.ofNat b.toNat ∉ (step p x).1 := fun hmem => hge (hout _ hmem) rfl
      have hne : b ≠ x := by
        rintro rfl
        omega
      simp only [hnot, hne, false_or, ih hnext]

theorem mem_decode_iff {bs : List UInt8} {b : UInt8} (h : b.toNat < 0x80) :
    Char.ofNat b.toNat ∈ decode bs ↔ b ∈ bs :=
  mem_decodeFrom_iff sound_none h

/-- Something that is open, or a byte from 0x80 on, makes a character from 0x80 on. -/
theorem exists_mem_decodeFrom {p : Option Partial} (hp : Sound p) {bs : List UInt8}
    (h : p.isSome = true ∨ ∃ b ∈ bs, 0x80 ≤ b.toNat) :
    ∃ c ∈ decodeFrom p bs, 0x80 ≤ c.toNat := by
  induction bs generalizing p with
  | nil =>
    have hopen : p.isSome = true := by simpa using h
    exact ⟨replacement, by simp [decodeFrom_nil, hopen], by decide⟩
  | cons x bs ih =>
    rw [decodeFrom_cons]
    rcases Nat.lt_or_ge x.toNat 0x80 with hx | hx
    · rw [step_of_lt hp hx]
      by_cases hopen : p.isSome = true
      · exact ⟨replacement, by simp [decodeFrom_nil, hopen], by decide⟩
      · obtain ⟨b, hb, hge⟩ := h.resolve_left hopen
        have hrest : b ∈ bs := (List.mem_cons.1 hb).resolve_left (by rintro rfl; omega)
        obtain ⟨c, hc, hge⟩ := ih sound_none (.inr ⟨b, hrest, hge⟩)
        exact ⟨c, List.mem_append_right _ hc, hge⟩
    · obtain ⟨hout, hnext, hsome⟩ := step_of_ge hp hx
      rcases hsome with hne | hopen
      · obtain ⟨c, hc⟩ := List.exists_mem_of_ne_nil _ hne
        exact ⟨c, List.mem_append_left _ hc, hout c hc⟩
      · obtain ⟨c, hc, hge⟩ := ih hnext (.inl hopen)
        exact ⟨c, List.mem_append_right _ hc, hge⟩

theorem decode_eq_nil_iff {bs : List UInt8} : decode bs = [] ↔ bs = [] := by
  constructor
  · intro h
    cases bs with
    | nil => rfl
    | cons b bs =>
      rcases Nat.lt_or_ge b.toNat 0x80 with hb | hb
      · have hmem := (mem_decode_iff hb).2 (List.mem_cons_self (l := bs))
        rw [h] at hmem
        cases hmem
      · obtain ⟨c, hc, -⟩ :=
          exists_mem_decodeFrom sound_none (.inr ⟨b, List.mem_cons_self (l := bs), hb⟩)
        rw [← decode, h] at hc
        cases hc
  · rintro rfl
    rfl

theorem decode_eq_map {bs : List UInt8} (h : ∀ b ∈ bs, b.toNat < 0x80) :
    decode bs = bs.map fun b => Char.ofNat b.toNat := by
  induction bs with
  | nil => rfl
  | cons b bs ih =>
    rw [← List.nil_append (b :: bs), decode_append_cons [] (h b List.mem_cons_self),
      ih fun x hx => h x (List.mem_cons_of_mem b hx)]
    rfl

/-- A text below 0x80 is read from no bytes but its own. -/
theorem eq_map_of_decode {bs : List UInt8} (h : ∀ c ∈ decode bs, c.toNat < 0x80) :
    bs = (decode bs).map fun c => UInt8.ofNat c.toNat := by
  have hlt : ∀ b ∈ bs, b.toNat < 0x80 := by
    intro b hb
    by_contra hge
    obtain ⟨c, hc, hge⟩ := exists_mem_decodeFrom sound_none (.inr ⟨b, hb, Nat.not_lt.1 hge⟩)
    have := h c hc
    omega
  have hid : ∀ b ∈ bs, UInt8.ofNat (Char.ofNat b.toNat).toNat = b := fun b hb => by
    rw [toNat_ofNat_of_lt (hlt b hb), UInt8.ofNat_toNat]
  rw [decode_eq_map hlt, List.map_map]
  exact ((List.map_congr_left hid).trans (List.map_id bs)).symm

/-! ## The bytes of a text -/

section

variable {n : Nat} (rest : List UInt8)

theorem decodeFrom_lead {b : UInt8} {q : Partial} (hb : 0x80 ≤ b.toNat)
    (h : lead? b.toNat = some q) :
    decodeFrom none (b :: rest) = decodeFrom (some q) rest := by
  rw [decodeFrom_cons, step, start, if_neg (Nat.not_lt.2 hb), h]
  rfl

/-- The first of two bytes. -/
theorem decodeFrom_first_of_two (hlow : 2 ≤ n) (hhigh : n < 32) :
    decodeFrom none (UInt8.ofNat (n % 32 + 192) :: rest) =
      decodeFrom (some ⟨1, 0x80, 0xBF, n⟩) rest := by
  have hb : (UInt8.ofNat (n % 32 + 192)).toNat = n + 0xC0 := by
    rw [UInt8.toNat_ofNat']
    omega
  refine decodeFrom_lead rest (by omega) ?_
  rw [hb, lead?, if_pos (by omega), Nat.add_sub_cancel]

/-- The first of three bytes. -/
theorem decodeFrom_first_of_three (h : n < 16) :
    decodeFrom none (UInt8.ofNat (n % 16 + 224) :: rest) =
      decodeFrom (some ⟨2, if n = 0 then 0xA0 else 0x80, if n = 13 then 0x9F else 0xBF, n⟩)
        rest := by
  have hb : (UInt8.ofNat (n % 16 + 224)).toNat = n + 0xE0 := by
    rw [UInt8.toNat_ofNat']
    omega
  have hall : ∀ n < 16, lead? (n + 0xE0) =
      some ⟨2, if n = 0 then 0xA0 else 0x80, if n = 13 then 0x9F else 0xBF, n⟩ := by decide
  exact decodeFrom_lead rest (by omega) (hb ▸ hall n h)

/-- The first of four bytes. -/
theorem decodeFrom_first_of_four (h : n < 5) :
    decodeFrom none (UInt8.ofNat (n % 8 + 240) :: rest) =
      decodeFrom (some ⟨3, if n = 0 then 0x90 else 0x80, if n = 4 then 0x8F else 0xBF, n⟩)
        rest := by
  have hb : (UInt8.ofNat (n % 8 + 240)).toNat = n + 0xF0 := by
    rw [UInt8.toNat_ofNat']
    omega
  have hall : ∀ n < 5, lead? (n + 0xF0) =
      some ⟨3, if n = 0 then 0x90 else 0x80, if n = 4 then 0x8F else 0xBF, n⟩ := by decide
  exact decodeFrom_lead rest (by omega) (hb ▸ hall n h)

theorem toNat_continuing (n : Nat) : (UInt8.ofNat (n % 64 + 128)).toNat = n % 64 + 0x80 := by
  rw [UInt8.toNat_ofNat']
  omega

/-- A byte in the middle. -/
theorem decodeFrom_continuing (owed : Nat) {low high bits : Nat} (hlow : low ≤ n % 64 + 0x80)
    (hhigh : n % 64 + 0x80 ≤ high) :
    decodeFrom (some ⟨owed + 2, low, high, bits⟩) (UInt8.ofNat (n % 64 + 128) :: rest) =
      decodeFrom (some ⟨owed + 1, 0x80, 0xBF, bits * 64 + n % 64⟩) rest := by
  rw [decodeFrom_cons, step, toNat_continuing, if_pos ⟨hlow, hhigh⟩, if_neg (by simp),
    Nat.add_sub_cancel]
  rfl

/-- The last byte. -/
theorem decodeFrom_last (n bits : Nat) :
    decodeFrom (some ⟨1, 0x80, 0xBF, bits⟩) (UInt8.ofNat (n % 64 + 128) :: rest) =
      Char.ofNat (bits * 64 + n % 64) :: decode rest := by
  have hin : 0x80 ≤ n % 64 + 0x80 ∧ n % 64 + 0x80 ≤ 0xBF := by omega
  rw [decodeFrom_cons, step, toNat_continuing, if_pos hin, if_pos (Nat.le_refl 1),
    Nat.add_sub_cancel]
  rfl

end

/-- A character is read back from its bytes. -/
theorem decode_utf8EncodeChar (c : Char) (rest : List UInt8) :
    decode (String.utf8EncodeChar c ++ rest) = c :: decode rest := by
  have hvalid : c.toNat < 0xD800 ∨ 0xDFFF < c.toNat ∧ c.toNat < 0x110000 := c.valid
  have hc : Char.ofNat c.toNat = c := Char.ofNat_toNat c
  unfold String.utf8EncodeChar decode
  dsimp only
  rw [show c.val.toNat = c.toNat from rfl]
  generalize c.toNat = v at *
  split
  · next hone =>
    have hb : (UInt8.ofNat v).toNat = v := by
      rw [UInt8.toNat_ofNat']
      omega
    rw [List.singleton_append, decodeFrom_cons, step_of_lt sound_none (by omega), hb, hc]
    rfl
  split
  · next hone htwo =>
    rw [List.cons_append, List.singleton_append,
      decodeFrom_first_of_two _ (by omega) (by omega), decodeFrom_last,
      show v / 64 * 64 + v % 64 = v by omega, hc]
    rfl
  split
  · next hone htwo hthree =>
    rw [List.cons_append, List.cons_append, List.singleton_append,
      decodeFrom_first_of_three _ (by omega),
      decodeFrom_continuing _ 0 (by split <;> omega) (by split <;> omega), decodeFrom_last,
      show (v / 4096 * 64 + v / 64 % 64) * 64 + v % 64 = v by omega, hc]
    rfl
  · next hone htwo hthree =>
    rw [List.cons_append, List.cons_append, List.cons_append, List.singleton_append,
      decodeFrom_first_of_four _ (by omega),
      decodeFrom_continuing _ 1 (by split <;> omega) (by split <;> omega),
      decodeFrom_continuing _ 0 (by omega) (by omega), decodeFrom_last,
      show ((v / 262144 * 64 + v / 4096 % 64) * 64 + v / 64 % 64) * 64 + v % 64 = v by omega, hc]
    rfl

/-- A text is read back from its bytes, whatever comes after them. -/
theorem decode_encode_append (text : List Char) (rest : List UInt8) :
    decode (encode text ++ rest) = text ++ decode rest := by
  induction text with
  | nil => rfl
  | cons c text ih =>
    rw [encode, List.flatMap_cons, List.append_assoc, decode_utf8EncodeChar, ← encode, ih]
    rfl

theorem decode_encode (text : List Char) : decode (encode text) = text := by
  have h := decode_encode_append text []
  rwa [List.append_nil, decode_nil, List.append_nil] at h

/-- The bytes of a text have a byte below 0x80 just where the text has its character. -/
theorem mem_encode_iff {text : List Char} {b : UInt8} (h : b.toNat < 0x80) :
    b ∈ encode text ↔ Char.ofNat b.toNat ∈ text := by
  rw [← mem_decode_iff h, decode_encode]

end Replication.Utf8
