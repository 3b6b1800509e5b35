import Mathlib.Data.List.TakeWhile

/-!
# Lists that are cut at a delimiter

What stands before and behind the first delimiter, and the pieces between all of them.
-/

namespace Replication

section

variable {α : Type} [BEq α] [LawfulBEq α] {a : α} {l : List α} (h : a ∉ l) (rest : List α)

include h

theorem bne_of_not_mem : ∀ x ∈ l, (x != a) = true := fun x hx => by
  rw [bne_iff_ne]
  rintro rfl
  exact h hx

theorem takeWhile_append_cons : (l ++ a :: rest).takeWhile (· != a) = l := by
  rw [List.takeWhile_append_of_pos (bne_of_not_mem h)]
  simp

theorem dropWhile_append_cons : (l ++ a :: rest).dropWhile (· != a) = a :: rest := by
  rw [List.dropWhile_append_of_pos (bne_of_not_mem h)]
  simp

theorem takeWhile_of_not_mem : l.takeWhile (· != a) = l :=
  List.takeWhile_eq_self_iff.2 (bne_of_not_mem h)

theorem dropWhile_of_not_mem : l.dropWhile (· != a) = [] :=
  List.dropWhile_eq_nil_iff.2 (bne_of_not_mem h)

end

variable {α : Type} [BEq α] [LawfulBEq α]

/-- A piece between two delimiters has no delimiter and is part of the whole. -/
theorem of_mem_splitOn {a : α} {l piece : List α} (h : piece ∈ l.splitOn a) :
    a ∉ piece ∧ piece ⊆ l := by
  induction l generalizing piece with
  | nil =>
    rw [List.splitOn_nil, List.mem_singleton] at h
    subst h
    exact ⟨List.not_mem_nil, List.Subset.refl _⟩
  | cons x l ih =>
    rw [List.splitOn_cons_eq_if_modifyHead] at h
    split at h
    · rcases List.mem_cons.1 h with rfl | h
      · exact ⟨List.not_mem_nil, List.nil_subset _⟩
      · exact (ih h).imp_right (List.subset_cons_of_subset x)
    · next hx =>
      obtain ⟨first, others, hsplit⟩ := List.exists_cons_of_ne_nil (List.splitOn_ne_nil a l)
      rw [hsplit] at h ih
      rcases List.mem_cons.1 h with rfl | h
      · obtain ⟨hnot, hsub⟩ := ih List.mem_cons_self
        refine ⟨fun hmem => (List.mem_cons.1 hmem).elim ?_ hnot, List.cons_subset_cons x hsub⟩
        rintro rfl
        exact hx (beq_self_eq_true a)
      · exact (ih (List.mem_cons_of_mem first h)).imp_right (List.subset_cons_of_subset x)

end Replication
