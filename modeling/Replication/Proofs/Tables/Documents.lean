import Replication.Mutation
import Replication.Tables.Documents

/-!
# Changes to the local documents

A change that is not refused leaves its document as the change says, and touches no other one.
Changes are written one after the other, each of which may be refused.
-/

namespace Replication

/-- The body that a change leaves; none if it removes its document. -/
def Change.body (c : Change) : Option Object := if c.deleted then none else some c.fields

namespace Documents

variable (d : Documents) (collection : String)

/-! ## One change -/

theorem refusal_apply (c : Change) : (d.apply collection c).2.refusal = d.refusal := by
  unfold apply upsert remove
  dsimp only
  split <;> split <;> rfl

theorem apply_of_not_refused (h : ∀ n c x, d.refusal n c x = none) (c : Change) :
    (d.apply collection c).1 = none := by
  unfold apply upsert remove
  simp only [h]
  split <;> rfl

theorem get?_apply_of_ne {c : Change} {document : String} (h : c.document ≠ document) :
    (d.apply collection c).2.get? collection document = d.get? collection document := by
  unfold apply upsert remove get?
  dsimp only
  split <;> split <;> simp [h]

theorem get?_apply_of_refused {c : Change} {reason : String}
    (h : (d.apply collection c).1 = some reason) (other document : String) :
    (d.apply collection c).2.get? other document = d.get? other document := by
  unfold apply upsert remove at h ⊢
  dsimp only at h ⊢
  split at h <;> split at h <;> simp_all [get?]

theorem get?_apply_of_written {c : Change} (h : (d.apply collection c).1 = none) :
    (d.apply collection c).2.get? collection c.document = c.body := by
  unfold apply upsert remove at h ⊢
  dsimp only at h ⊢
  split at h <;> split at h <;> simp_all [get?, Change.body]

theorem fst_apply (c : Change) :
    (d.apply collection c).1 = d.refusal d.writes collection c.document := by
  unfold apply upsert remove
  dsimp only
  cases d.refusal d.writes collection c.document <;> split <;> rfl

theorem writes_apply (c : Change) : (d.apply collection c).2.writes = d.writes + 1 := by
  unfold apply upsert remove
  dsimp only
  cases d.refusal d.writes collection c.document <;> split <;> rfl

/-- What a change makes of the documents of its collection. -/
theorem get?_apply (c : Change) (document : String) :
    (d.apply collection c).2.get? collection document =
      if (d.apply collection c).1 = none ∧ c.document = document then c.body
      else d.get? collection document := by
  by_cases hw : (d.apply collection c).1 = none
  · by_cases hd : c.document = document
    · rw [if_pos ⟨hw, hd⟩, ← hd, get?_apply_of_written d collection hw]
    · rw [if_neg fun h => hd h.2, get?_apply_of_ne d collection hd]
  · obtain ⟨reason, hreason⟩ := Option.ne_none_iff_exists'.1 hw
    rw [if_neg fun h => hw h.1, get?_apply_of_refused d collection hreason]

/-- A change leaves the documents of other collections. -/
theorem get?_apply_elsewhere {other : String} (h : other ≠ collection) (c : Change) :
    (d.apply collection c).2.get? other = d.get? other := by
  funext document
  unfold apply upsert remove get?
  dsimp only
  split <;> split <;> simp [h.symm]

/-- A local write of a mutation; gives the reason if it is refused. -/
def write (m : Mutation) : Option String × Documents :=
  match m.operation with
  | .delete => d.remove m.collection m.document
  | .create | .update => d.upsert m.collection m.document (m.payload.getD [])

theorem get?_write_of_ne {m : Mutation} {document : String} (h : m.document ≠ document)
    (other : String) : (d.write m).2.get? other document = d.get? other document := by
  unfold write upsert remove get?
  split <;> dsimp only <;> split <;> simp [h]

/-- A write that is refused leaves all documents. -/
theorem get?_write_refused {m : Mutation} {reason : String} (h : (d.write m).1 = some reason)
    (other document : String) :
    (d.write m).2.get? other document = d.get? other document := by
  unfold write upsert remove at h ⊢
  cases ho : m.operation <;> simp only [ho] at h ⊢ <;> split at h <;> simp_all [get?]

/-! ## Many changes -/

/-- Changes of a collection, each with the reason if the documents refuse it. -/
def outcomes (d : Documents) (collection : String) : List Change → List (Change × Option String)
  | [] => []
  | c :: cs => (c, (d.apply collection c).1) :: outcomes (d.apply collection c).2 collection cs

/-- The documents after changes of a collection, refused ones among them. -/
def applyAll (d : Documents) (collection : String) (cs : List Change) : Documents :=
  cs.foldl (fun d c => (d.apply collection c).2) d

@[simp] theorem applyAll_nil (d : Documents) (collection : String) :
    d.applyAll collection [] = d := rfl

@[simp] theorem applyAll_cons (d : Documents) (collection : String) (c : Change)
    (cs : List Change) :
    d.applyAll collection (c :: cs) = (d.apply collection c).2.applyAll collection cs := rfl

theorem applyAll_append (d : Documents) (collection : String) (cs cs' : List Change) :
    d.applyAll collection (cs ++ cs') = (d.applyAll collection cs).applyAll collection cs' :=
  List.foldl_append

@[simp] theorem map_fst_outcomes (d : Documents) (collection : String) (cs : List Change) :
    (d.outcomes collection cs).map Prod.fst = cs := by
  induction cs generalizing d with
  | nil => rfl
  | cons c cs ih => rw [outcomes, List.map_cons, ih]

theorem outcomes_append (d : Documents) (collection : String) (cs cs' : List Change) :
    d.outcomes collection (cs ++ cs') =
      d.outcomes collection cs ++ (d.applyAll collection cs).outcomes collection cs' := by
  induction cs generalizing d with
  | nil => rfl
  | cons c cs ih => rw [List.cons_append, outcomes, outcomes, applyAll_cons, ih, List.cons_append]

/-- A log of changes is what the documents make of them. -/
def Logged (d : Documents) (collection : String) (log : List (Change × Option String)) : Prop :=
  log = d.outcomes collection (log.map Prod.fst)

theorem logged_outcomes (d : Documents) (collection : String) (cs : List Change) :
    d.Logged collection (d.outcomes collection cs) := by
  rw [Logged, map_fst_outcomes]

theorem Logged.append {d : Documents} {collection : String}
    {log l : List (Change × Option String)} (h : d.Logged collection log)
    (hl : (d.applyAll collection (log.map Prod.fst)).Logged collection l) :
    d.Logged collection (log ++ l) := by
  rw [Logged, List.map_append, outcomes_append, ← h, ← hl]

theorem fst_mem_of_mem_outcomes {d : Documents} {collection : String} {cs : List Change}
    {e : Change × Option String} (he : e ∈ d.outcomes collection cs) : e.1 ∈ cs := by
  rw [← d.map_fst_outcomes collection cs]
  exact List.mem_map_of_mem he

theorem refusal_applyAll (cs : List Change) :
    (d.applyAll collection cs).refusal = d.refusal := by
  induction cs generalizing d with
  | nil => rfl
  | cons c cs ih => rw [applyAll_cons, ih, refusal_apply]

theorem snd_eq_none_of_mem_outcomes (h : ∀ n c x, d.refusal n c x = none) {cs : List Change}
    {e : Change × Option String} (he : e ∈ d.outcomes collection cs) : e.2 = none := by
  induction cs generalizing d with
  | nil => cases he
  | cons c cs ih =>
    rcases List.mem_cons.1 he with rfl | he
    · exact d.apply_of_not_refused collection h c
    · exact ih _ (by rw [refusal_apply]; exact h) he

/-- The documents accept every write. -/
def Accepting (d : Documents) : Prop := ∀ n c x, d.refusal n c x = none

theorem Accepting.applyAll {d : Documents} (h : d.Accepting) (collection : String)
    (cs : List Change) : (d.applyAll collection cs).Accepting := by
  unfold Accepting
  rw [refusal_applyAll]
  exact h

/-- A document is as the changes that were written say, or as before if none of them was. -/
theorem get?_applyAll {cs : List Change} {document : String} {body : Option Object}
    (h : ∀ e ∈ d.outcomes collection cs, e.1.document = document → e.2 = none → e.1.body = body) :
    (∃ e ∈ d.outcomes collection cs, e.1.document = document ∧ e.2 = none) ∧
        (d.applyAll collection cs).get? collection document = body ∨
      (∀ e ∈ d.outcomes collection cs, e.1.document = document → e.2 ≠ none) ∧
        (d.applyAll collection cs).get? collection document = d.get? collection document := by
  induction cs generalizing d with
  | nil => exact .inr ⟨(fun _ he => by cases he), rfl⟩
  | cons c cs ih =>
    rw [outcomes] at h ⊢
    rw [applyAll_cons]
    obtain ⟨hc, hcs⟩ := List.forall_mem_cons.1 h
    rcases ih _ hcs with ⟨⟨e, he, hd⟩, hget⟩ | ⟨hnone, hget⟩
    · exact .inl ⟨⟨e, List.mem_cons_of_mem _ he, hd⟩, hget⟩
    · by_cases hd : c.document = document
      · cases hr : (d.apply collection c).1 with
        | none =>
          refine .inl ⟨⟨_, List.mem_cons_self, hd, rfl⟩, hget.trans ?_⟩
          rw [← hd, get?_apply_of_written _ _ hr]
          exact hc hd hr
        | some reason =>
          refine .inr ⟨List.forall_mem_cons.2 ⟨fun _ => by simp, hnone⟩, hget.trans ?_⟩
          exact d.get?_apply_of_refused collection hr collection document
      · refine .inr ⟨List.forall_mem_cons.2 ⟨fun hd' => absurd hd' hd, hnone⟩, hget.trans ?_⟩
        exact d.get?_apply_of_ne collection hd

end Documents

end Replication
