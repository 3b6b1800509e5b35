import Mathlib.Data.List.Nodup
import Replication.Push.Batch

/-!
# What a batch holds

A batch holds the first mutation of each document, in order, and so never two of one document.
-/

namespace Replication

theorem firstOfEach_sublist (seen : List String) (ms : List Mutation) :
    (firstOfEach seen ms).Sublist ms := by
  induction ms generalizing seen with
  | nil => exact .slnil
  | cons m ms ih =>
    rw [firstOfEach]
    split
    · exact (ih seen).cons m
    · exact (ih (m.document :: seen)).cons_cons m

theorem document_not_mem_of_mem_firstOfEach {seen : List String} {ms : List Mutation} {m : Mutation}
    (h : m ∈ firstOfEach seen ms) : m.document ∉ seen := by
  induction ms generalizing seen with
  | nil => cases h
  | cons x ms ih =>
    rw [firstOfEach] at h
    split at h
    · exact ih h
    · rename_i hx
      rcases List.mem_cons.1 h with rfl | h
      · simpa using hx
      · exact fun hs => ih h (List.mem_cons_of_mem _ hs)

theorem nodup_documents_firstOfEach (seen : List String) (ms : List Mutation) :
    ((firstOfEach seen ms).map Mutation.document).Nodup := by
  induction ms generalizing seen with
  | nil => exact List.nodup_nil
  | cons m ms ih =>
    rw [firstOfEach]
    split
    · exact ih seen
    · rw [List.map_cons, List.nodup_cons]
      refine ⟨fun hm => ?_, ih (m.document :: seen)⟩
      obtain ⟨x, hx, hd⟩ := List.mem_map.1 hm
      exact document_not_mem_of_mem_firstOfEach hx (by simp [hd])

/-- Before the first mutation of a document there is none of that document. -/
theorem exists_of_mem_firstOfEach {seen : List String} {ms : List Mutation} {m : Mutation}
    (h : m ∈ firstOfEach seen ms) :
    ∃ before after, ms = before ++ m :: after ∧ ∀ x ∈ before, x.document ≠ m.document := by
  induction ms generalizing seen with
  | nil => cases h
  | cons x ms ih =>
    rw [firstOfEach] at h
    split at h
    · rename_i hx
      obtain ⟨before, after, rfl, hb⟩ := ih h
      refine ⟨x :: before, after, rfl, List.forall_mem_cons.2 ⟨fun hd => ?_, hb⟩⟩
      exact document_not_mem_of_mem_firstOfEach h (by simpa [hd] using hx)
    · rcases List.mem_cons.1 h with rfl | h
      · exact ⟨[], ms, rfl, by simp⟩
      · obtain ⟨before, after, rfl, hb⟩ := ih h
        refine ⟨x :: before, after, rfl, List.forall_mem_cons.2 ⟨fun hd => ?_, hb⟩⟩
        exact document_not_mem_of_mem_firstOfEach h (by simp [hd])

theorem deliverable_sublist (ms : List Mutation) : (deliverable ms).Sublist ms :=
  firstOfEach_sublist [] ms

theorem nodup_documents_deliverable (ms : List Mutation) :
    ((deliverable ms).map Mutation.document).Nodup :=
  nodup_documents_firstOfEach [] ms

theorem exists_of_mem_deliverable {ms : List Mutation} {m : Mutation} (h : m ∈ deliverable ms) :
    ∃ before after, ms = before ++ m :: after ∧ ∀ x ∈ before, x.document ≠ m.document :=
  exists_of_mem_firstOfEach h

theorem deliverable_ne_nil {ms : List Mutation} (h : ms ≠ []) : deliverable ms ≠ [] := by
  cases ms with
  | nil => exact absurd rfl h
  | cons m ms => simp [deliverable, firstOfEach]

/-! ## Answers that take everything -/

namespace PushAnswer

/-- The answer that takes every mutation sent. -/
def all (sent : List Mutation) : PushAnswer := ⟨sent.map Mutation.id, [], []⟩

@[simp] theorem taken_all (sent : List Mutation) :
    (all sent).taken sent = sent.map Mutation.id := by
  refine List.filter_eq_self.2 fun id hid => ?_
  obtain ⟨m, hm, rfl⟩ := List.mem_map.1 hid
  exact List.any_eq_true.2 ⟨m, hm, by simp⟩

@[simp] theorem refused_all (sent : List Mutation) : (all sent).refused sent = [] := rfl

@[simp] theorem unanswered_all (sent : List Mutation) : (all sent).unanswered sent = [] := by
  unfold unanswered
  dsimp only
  rw [taken_all, List.filter_eq_nil_iff.2]
  · exact List.mergeSort_nil
  · simp

end PushAnswer

end Replication
