import Mathlib.Data.List.Basic

/-!
# Histories

A history is what was done so far, oldest first. Two things are said of it: that every deed of one
kind was followed by one of another kind (`Followed`), and that between a deed of one kind and a
later one of another lies a deed of a third (`Parted`). Histories grow at their end, so each comes
with the equation for one more deed.

A machine keeps its history parted by allowing deeds of the second kind only in states in which all
deeds of the first kind were followed by one of the third (`Guarded`).
-/

namespace Replication

section

variable {α : Type} {p q r : α → Prop} {h : List α} {x : α}

/-- Every deed of the first kind is followed by one of the second. -/
def Followed (p r : α → Prop) (h : List α) : Prop :=
  ∀ before d after, h = before ++ d :: after → p d → ∃ e ∈ after, r e

/-- Between a deed of the first kind and a later one of the second lies one of the third. -/
def Parted (p q r : α → Prop) (h : List α) : Prop :=
  ∀ before d mid e after, h = before ++ d :: (mid ++ e :: after) → p d → q e → ∃ c ∈ mid, r c

/-- A deed in a history with one more is the new one, or it was there before. -/
theorem concat_eq_append_cons_iff {before after : List α} {d : α} :
    h ++ [x] = before ++ d :: after ↔
      (after = [] ∧ d = x ∧ h = before) ∨ ∃ mid, after = mid ++ [x] ∧ h = before ++ d :: mid := by
  constructor
  · intro heq
    rcases List.eq_nil_or_concat after with rfl | ⟨mid, y, rfl⟩
    · obtain ⟨hb, hd⟩ := List.append_inj' heq rfl
      exact .inl ⟨rfl, (List.singleton_inj.1 hd).symm, hb⟩
    · rw [List.concat_eq_append, ← List.cons_append, ← List.append_assoc] at heq
      obtain ⟨hb, hd⟩ := List.append_inj' heq rfl
      rw [List.singleton_inj] at hd
      exact .inr ⟨mid, by rw [List.concat_eq_append, hd], hb⟩
  · rintro (⟨rfl, rfl, rfl⟩ | ⟨mid, rfl, rfl⟩)
    · rfl
    · simp

theorem followed_nil : Followed p r [] := by
  intro before d after heq
  simp at heq

/-- A new deed is not followed yet. It follows all before it, if it is of the right kind. -/
theorem followed_concat : Followed p r (h ++ [x]) ↔ ¬ p x ∧ (r x ∨ Followed p r h) := by
  constructor
  · intro hf
    refine ⟨fun hp => ?_, ?_⟩
    · obtain ⟨e, he, -⟩ := hf h x [] rfl hp
      cases he
    · by_cases hr : r x
      · exact .inl hr
      · refine .inr fun before d mid heq hp => ?_
        obtain ⟨e, he, hre⟩ :=
          hf before d (mid ++ [x]) (concat_eq_append_cons_iff.2 (.inr ⟨mid, rfl, heq⟩)) hp
        rcases List.mem_append.1 he with he | he
        · exact ⟨e, he, hre⟩
        · rw [List.mem_singleton.1 he] at hre
          exact absurd hre hr
  · rintro ⟨hx, hr⟩ before d after heq hp
    rcases concat_eq_append_cons_iff.1 heq with ⟨-, rfl, -⟩ | ⟨mid, rfl, hh⟩
    · exact absurd hp hx
    · rcases hr with hr | hf
      · exact ⟨x, by simp, hr⟩
      · obtain ⟨e, he, hre⟩ := hf before d mid hh hp
        exact ⟨e, List.mem_append_left _ he, hre⟩

theorem parted_nil : Parted p q r [] := by
  intro before d mid e after heq
  simp at heq

/-- A new deed keeps a history parted if all before it were followed by a deed that parts. -/
theorem parted_concat : Parted p q r (h ++ [x]) ↔ Parted p q r h ∧ (q x → Followed p r h) := by
  constructor
  · intro hp
    refine ⟨fun before d mid e after heq => ?_, fun hq before d mid heq hpd => ?_⟩
    · refine hp before d mid e (after ++ [x]) ?_
      rw [heq]
      simp
    · refine hp before d mid x [] ?_ hpd hq
      rw [heq]
      simp
  · rintro ⟨hp, hf⟩ before d mid e after heq hpd hqe
    rw [← List.cons_append, ← List.append_assoc] at heq
    rcases concat_eq_append_cons_iff.1 heq with ⟨-, rfl, hh⟩ | ⟨after', -, hh⟩
    · exact hf hqe before d mid hh hpd
    · refine hp before d mid e after' ?_ hpd hqe
      rw [hh]
      simp

theorem Followed.trans (hpq : Followed p q h) (hqr : Followed q r h) : Followed p r h := by
  intro before d after heq hp
  obtain ⟨e, he, hq⟩ := hpq before d after heq hp
  obtain ⟨mid, after', rfl⟩ := List.append_of_mem he
  obtain ⟨c, hc, hr⟩ := hqr (before ++ d :: mid) e after' (by simp [heq]) hq
  exact ⟨c, List.mem_append_right _ (List.mem_cons_of_mem _ hc), hr⟩

/-- What lies between each deed of the first kind and a later one of the second follows it too. -/
theorem Followed.of_parted (hpq : Followed p q h) (hparted : Parted p q r h) : Followed p r h := by
  intro before d after heq hp
  obtain ⟨e, he, hq⟩ := hpq before d after heq hp
  obtain ⟨mid, after', rfl⟩ := List.append_of_mem he
  obtain ⟨c, hc, hr⟩ := hparted before d mid e after' heq hp hq
  exact ⟨c, List.mem_append_left _ hc, hr⟩

/-- A history that is parted, and whose next deed may be of the second kind if a guard holds. -/
structure Guarded (p q r : α → Prop) (guard : Prop) (h : List α) : Prop where
  followed : guard → Followed p r h
  parted : Parted p q r h

variable {guard guard' : Prop}

theorem guarded_nil : Guarded p q r guard [] := ⟨fun _ => followed_nil, parted_nil⟩

theorem Guarded.mono (hg : Guarded p q r guard h) (hguard : guard' → guard) :
    Guarded p q r guard' h := ⟨fun h => hg.followed (hguard h), hg.parted⟩

/-- One more deed. If it is of the second kind the guard must hold; the next guard may only hold if
this one did, or if the deed is of the third kind. -/
theorem Guarded.concat (hg : Guarded p q r guard h) (hq : q x → guard)
    (hguard : guard' → ¬ p x ∧ (r x ∨ guard)) : Guarded p q r guard' (h ++ [x]) where
  followed h' := followed_concat.2 ⟨(hguard h').1, (hguard h').2.imp_right hg.followed⟩
  parted := parted_concat.2 ⟨hg.parted, fun h' => hg.followed (hq h')⟩

end

end Replication
