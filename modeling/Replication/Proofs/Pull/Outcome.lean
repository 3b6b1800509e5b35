import Replication.Proofs.Pull.Page
import Replication.Proofs.Replica.Action
import Replication.Proofs.Tables.Documents

/-!
# What becomes of the changes of a page

The changes of a page are written to the local documents one after the other, each of which may be
refused. The outcome of a page forgets most of that: it keeps the refusals and the position of the
last change before any of them. That is enough to move the checkpoint no further than the changes
that were written, since the positions of a page never decrease (`clean_of_le_reaches`).
-/

namespace Replication

/-- The changes that were written, as opposed to refused. -/
def Clean (l : List (Change × Option String)) : Prop := ∀ e ∈ l, e.2 = none

@[simp] theorem clean_nil : Clean [] := by simp [Clean]

theorem clean_append {l l' : List (Change × Option String)} :
    Clean (l ++ l') ↔ Clean l ∧ Clean l' := List.forall_mem_append

/-- Changes are all written, or some are written before the first that is refused. -/
theorem clean_or_refused (l : List (Change × Option String)) :
    Clean l ∨ ∃ before c reason after, l = before ++ (c, some reason) :: after ∧ Clean before := by
  induction l with
  | nil => exact .inl clean_nil
  | cons e l ih =>
    obtain ⟨c, _ | reason⟩ := e
    · rcases ih with h | ⟨before, c', reason, after, rfl, h⟩
      · exact .inl (List.forall_mem_cons.2 ⟨rfl, h⟩)
      · exact .inr ⟨(c, none) :: before, c', reason, after, rfl, List.forall_mem_cons.2 ⟨rfl, h⟩⟩
    · exact .inr ⟨[], c, reason, l, rfl, clean_nil⟩

namespace PageOutcome

/-- The outcome with more changes. -/
def recordAll (o : PageOutcome) (l : List (Change × Option String)) : PageOutcome :=
  l.foldl (fun o e => o.record e.1 e.2) o

theorem recordAll_append (o : PageOutcome) (l l' : List (Change × Option String)) :
    o.recordAll (l ++ l') = (o.recordAll l).recordAll l' := List.foldl_append

/-- As long as nothing is refused, the position of the last change is kept. -/
theorem recordAll_clean {o : PageOutcome} {l : List (Change × Option String)}
    (ho : o.failures = []) (h : Clean l) :
    (o.recordAll l).failures = [] ∧ (o.recordAll l).cleanBefore =
      (l.getLast?.map fun e => e.1.checkpoint).or o.cleanBefore := by
  induction l generalizing o with
  | nil => exact ⟨ho, rfl⟩
  | cons e l ih =>
    obtain ⟨he, hl⟩ := List.forall_mem_cons.1 h
    obtain ⟨hf, hc⟩ := ih (o := o.record e.1 e.2) (by rw [he]; exact ho) hl
    refine ⟨hf, ?_⟩
    rw [recordAll, List.foldl_cons, ← recordAll, hc, he, List.getLast?_cons]
    cases l.getLast? <;> simp [record, ho]

/-- After a refusal neither the first refusal nor the position before it changes. -/
theorem recordAll_refused {o : PageOutcome} {first : ApplyFailure}
    (ho : o.failures.head? = some first) (l : List (Change × Option String)) :
    (o.recordAll l).failures.head? = some first ∧ (o.recordAll l).cleanBefore = o.cleanBefore := by
  induction l generalizing o with
  | nil => exact ⟨ho, rfl⟩
  | cons e l ih =>
    have hne : o.failures.isEmpty = false := by
      cases hf : o.failures with
      | nil => simp [hf] at ho
      | cons => rfl
    obtain ⟨c, _ | reason⟩ := e
    · obtain ⟨hf, hc⟩ := ih (o := o.record c none) ho
      refine ⟨hf, ?_⟩
      rw [recordAll, List.foldl_cons, ← recordAll, hc, record, hne]
      rfl
    · have hr : (o.record c (some reason)).failures.head? = some first := by
        simp [record, List.head?_append, ho]
      exact ih hr

/-- The outcome of a page. -/
def of (l : List (Change × Option String)) : PageOutcome := recordAll {} l

theorem of_clean {l : List (Change × Option String)} (h : Clean l) : (of l).failures = [] :=
  (recordAll_clean rfl h).1

theorem of_refused {before after : List (Change × Option String)} {c : Change} {reason : String}
    (h : Clean before) :
    (of (before ++ (c, some reason) :: after)).failures.head? =
        some ⟨c.document, c.checkpoint, reason⟩ ∧
      (of (before ++ (c, some reason) :: after)).cleanBefore =
        before.getLast?.map fun e => e.1.checkpoint := by
  obtain ⟨hf, hc⟩ := recordAll_clean (o := {}) rfl h
  have hr : ((recordAll {} before).record c (some reason)).failures.head? =
      some ⟨c.document, c.checkpoint, reason⟩ := by
    simp [record, hf]
  obtain ⟨hf', hc'⟩ := recordAll_refused hr after
  rw [of, recordAll_append]
  refine ⟨hf', hc'.trans ?_⟩
  rw [record, hc, Option.or_none]

theorem failures_of_eq_nil_iff {l : List (Change × Option String)} :
    (of l).failures = [] ↔ Clean l := by
  refine ⟨fun hf => ?_, of_clean⟩
  rcases clean_or_refused l with h | ⟨before, c, reason, after, rfl, h⟩
  · exact h
  · have := (@of_refused before after c reason h).1
    simp [hf] at this

/-! ## Where a page leads -/

theorem reaches?_clean {l : List (Change × Option String)} (h : Clean l) (page : Page) :
    (of l).reaches? page = page.trailing? := by
  rw [reaches?, of_clean h]
  rfl

theorem reaches?_refused {before after : List (Change × Option String)} {c : Change}
    {reason : String} (h : Clean before) (page : Page) :
    (of (before ++ (c, some reason) :: after)).reaches? page =
      (before.getLast?.map fun e => e.1.checkpoint).filter fun q => c.checkpoint.isAfter q := by
  obtain ⟨hf, hc⟩ := @of_refused before after c reason h
  rw [reaches?, hf, hc]

/-- A page with refusals leads to the position of one of its changes. -/
theorem exists_of_reaches?_refused {l : List (Change × Option String)} {page : Page}
    {q : Checkpoint} (hl : ¬Clean l) (hq : (of l).reaches? page = some q) :
    ∃ e ∈ l, e.1.checkpoint = q := by
  obtain ⟨before, c, reason, after, rfl, h⟩ := (clean_or_refused l).resolve_left hl
  rw [reaches?_refused h, Option.filter_eq_some_iff] at hq
  obtain ⟨e, he, rfl⟩ := Option.map_eq_some_iff.1 hq.1
  exact ⟨e, List.mem_append_left _ (List.mem_of_getLast? he), rfl⟩

/-- A page leads to a position only if its changes up to that position were written. -/
theorem clean_of_le_reaches {l : List (Change × Option String)} {page : Page} {q : Checkpoint}
    (hl : (l.map fun e => e.1.checkpoint).Pairwise (· ≤ ·))
    (hq : (of l).reaches? page = some q) {e : Change × Option String} (he : e ∈ l)
    (hle : e.1.checkpoint ≤ q) : e.2 = none := by
  rcases clean_or_refused l with h | ⟨before, c, reason, after, rfl, h⟩
  · exact h e he
  · rw [reaches?_refused h, Option.filter_eq_some_iff] at hq
    have hlt : q < c.checkpoint := by simpa using hq.2
    -- The refused change and all after it are behind the position.
    rw [List.map_append, List.pairwise_append, List.map_cons, List.pairwise_cons] at hl
    rcases List.mem_append.1 he with he | he
    · exact h e he
    · rcases List.mem_cons.1 he with rfl | he
      · exact absurd hle (not_le_of_gt hlt)
      · have hafter := hl.2.1.1 e.1.checkpoint (List.mem_map_of_mem he)
        exact absurd (le_trans hafter hle) (not_le_of_gt hlt)

end PageOutcome

/-- A page is applied by writing all of its changes. -/
theorem PullPass.applyAll_eq (collection : String) (cs : List Change) (o : PageOutcome)
    (r : Replica) :
    ∃ m, PullPass.applyAll collection cs o r =
      (o.recordAll (r.documents.outcomes collection cs),
        { r with documents := r.documents.applyAll collection cs, metrics := m }) := by
  induction cs generalizing o r with
  | nil => exact ⟨r.metrics, rfl⟩
  | cons c cs ih =>
    obtain ⟨m, hm⟩ := Action.exec_applyChange collection c r
    obtain ⟨m', h⟩ := ih (o.record c (r.documents.apply collection c).1)
      { r with documents := (r.documents.apply collection c).2, metrics := m }
    exact ⟨m', by rw [applyAll, hm]; exact h⟩

end Replication
