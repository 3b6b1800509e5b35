import Mathlib.Data.List.Chain
import Replication.Proofs.Checkpoint.Order
import Replication.Pull.Pass

/-!
# Valid pages

A page is without fault exactly when it is valid: its changes are of the collection, newer than the
position asked for and in order, and its next position is not behind them
(`fault?_eq_none_iff`). The position that a valid page covers is then newer than the one asked for
and not older than any of its changes.
-/

namespace Replication

/-- The last of the changes in order is the newest one. -/
theorem Change.le_getLast {cs : List Change} (hs : (cs.map Change.checkpoint).Pairwise (· ≤ ·))
    {last : Change} (hlast : cs.getLast? = some last) {c : Change} (hc : c ∈ cs) :
    c.checkpoint ≤ last.checkpoint := by
  obtain ⟨xs, rfl⟩ := List.getLast?_eq_some_iff.1 hlast
  rw [List.map_append, List.pairwise_append] at hs
  rcases List.mem_append.1 hc with hc | hc
  · exact hs.2.2 _ (List.mem_map_of_mem hc) _ (by simp)
  · rw [List.mem_singleton.1 hc]

/-- The changes of a list that are newer than a position. -/
def Change.newerThan (position : Option Checkpoint) (cs : List Change) : List Change :=
  cs.filter fun c => position.all c.checkpoint.isAfter

/-- What is newer than a later position is newer than an earlier one. -/
theorem Change.newerThan_some {position : Option Checkpoint} {q : Checkpoint}
    (h : ∀ p, position = some p → p < q) (cs : List Change) :
    newerThan (some q) cs = (newerThan position cs).filter fun c => c.checkpoint.isAfter q := by
  unfold newerThan
  rw [List.filter_filter]
  refine List.filter_congr fun c _ => ?_
  rw [Bool.eq_iff_iff]
  cases position with
  | none => simp
  | some p =>
    simp only [Option.all_some, Checkpoint.isAfter_iff, Bool.and_eq_true]
    exact ⟨fun hc => ⟨hc, lt_trans (h p rfl) hc⟩, And.left⟩

namespace Page

/-- What a page owes the one who asked for it from a position. -/
structure Valid (p : Page) (collection : String) (position : Option Checkpoint) : Prop where
  own : ∀ c ∈ p.changes, c.collection = collection
  newer : ∀ c ∈ p.changes, ∀ q, position = some q → q < c.checkpoint
  ordered : (p.changes.map Change.checkpoint).Pairwise (· ≤ ·)
  ahead : ∀ n, p.next = some n → ∀ c ∈ p.changes, c.checkpoint ≤ n

theorem changeFault?_eq_none_iff {collection : String} {position previous : Option Checkpoint}
    {c : Change} :
    changeFault? collection position previous c = none ↔
      c.collection = collection ∧ (∀ q, position = some q → q < c.checkpoint) ∧
        ∀ p, previous = some p → p ≤ c.checkpoint := by
  unfold changeFault?
  by_cases hc : c.collection = collection
  · cases position <;> cases previous <;> simp [hc]
  · simp [hc]

/-- The checks of a list of changes amount to one statement on the positions from the previous one
on. -/
theorem faultFrom?_eq_none_iff {collection : String} {position next : Option Checkpoint}
    (cs : List Change) (previous : Option Checkpoint) :
    faultFrom? collection position next previous cs = none ↔
      (∀ c ∈ cs, c.collection = collection) ∧
      (∀ c ∈ cs, ∀ q, position = some q → q < c.checkpoint) ∧
      (previous.toList ++ cs.map Change.checkpoint).Pairwise (· ≤ ·) ∧
      ∀ n, next = some n → ∀ q ∈ previous.toList ++ cs.map Change.checkpoint, q ≤ n := by
  induction cs generalizing previous with
  | nil =>
    cases next <;> cases previous <;> simp [faultFrom?]
  | cons c cs ih =>
    rw [faultFrom?, Option.or_eq_none_iff, changeFault?_eq_none_iff, ih]
    cases previous with
    | none =>
      simp only [Option.toList_none, Option.toList_some, List.nil_append, List.cons_append,
        List.mem_cons, forall_eq_or_imp, List.map_cons, reduceCtorEq, false_implies, implies_true,
        and_true]
      constructor
      · rintro ⟨⟨hc, hn⟩, hcs, hns, h⟩
        exact ⟨⟨hc, hcs⟩, ⟨hn, hns⟩, h⟩
      · rintro ⟨⟨hc, hcs⟩, ⟨hn, hns⟩, h⟩
        exact ⟨⟨hc, hn⟩, hcs, hns, h⟩
    | some p =>
      simp only [Option.toList_some, List.nil_append, List.cons_append, List.mem_cons,
        forall_eq_or_imp, List.map_cons, Option.some.injEq, forall_eq', List.pairwise_cons]
      constructor
      · rintro ⟨⟨hc, hn, hp⟩, hcs, hns, ⟨hle, hpw⟩, hahead⟩
        refine ⟨⟨hc, hcs⟩, ⟨hn, hns⟩, ⟨⟨hp, fun q hq => le_trans hp (hle q hq)⟩, hle, hpw⟩, ?_⟩
        exact fun n h => ⟨le_trans hp (hahead n h).1, hahead n h⟩
      · rintro ⟨⟨hc, hcs⟩, ⟨hn, hns⟩, ⟨⟨hp, -⟩, hle, hpw⟩, hahead⟩
        exact ⟨⟨hc, hn, hp⟩, hcs, hns, ⟨hle, hpw⟩, fun n h => (hahead n h).2⟩

theorem fault?_eq_none_iff {p : Page} {collection : String} {position : Option Checkpoint} :
    p.fault? collection position = none ↔ p.Valid collection position := by
  rw [fault?, faultFrom?_eq_none_iff]
  simp only [Option.toList_none, List.nil_append, List.mem_map, forall_exists_index, and_imp,
    forall_apply_eq_imp_iff₂]
  constructor
  · rintro ⟨hown, hnewer, hordered, hahead⟩
    exact ⟨hown, hnewer, hordered, hahead⟩
  · intro h
    exact ⟨h.own, h.newer, h.ordered, h.ahead⟩

/-- What a valid page owes, read off neighbouring changes and the last one. -/
theorem valid_iff {p : Page} {collection : String} {position : Option Checkpoint} :
    p.Valid collection position ↔
      (∀ c ∈ p.changes, c.collection = collection) ∧
      (∀ q, position = some q → ∀ c ∈ p.changes, q < c.checkpoint) ∧
      (p.changes.map Change.checkpoint).IsChain (· ≤ ·) ∧
      ∀ n last, p.next = some n → p.changes.getLast? = some last → last.checkpoint ≤ n := by
  constructor
  · intro h
    refine ⟨h.own, fun q hq c hc => h.newer c hc q hq, h.ordered.isChain, fun n last hn hlast => ?_⟩
    exact h.ahead n hn last (List.mem_of_getLast? hlast)
  · rintro ⟨hown, hnewer, hchain, hahead⟩
    have hordered := List.isChain_iff_pairwise.1 hchain
    refine ⟨hown, fun c hc q hq => hnewer q hq c hc, hordered, fun n hn c hc => ?_⟩
    have hlast := List.getLast?_eq_some_getLast (List.ne_nil_of_mem hc)
    exact le_trans (Change.le_getLast hordered hlast hc) (hahead n _ hn hlast)

/-! ## The position that a page covers -/

theorem trailing?_isSome {p : Page} (h : p.changes ≠ []) : ∃ q, p.trailing? = some q := by
  unfold trailing?
  rw [List.getLast?_eq_some_getLast h]
  cases p.next with
  | none => exact ⟨_, rfl⟩
  | some n => exact ⟨_, rfl⟩

/-- No change of a valid page is newer than the position that the page covers. -/
theorem Valid.le_trailing {p : Page} {collection : String} {position : Option Checkpoint}
    (hv : p.Valid collection position) {q : Checkpoint} (hq : p.trailing? = some q) {c : Change}
    (hc : c ∈ p.changes) : c.checkpoint ≤ q := by
  obtain ⟨last, hl⟩ : ∃ last, p.changes.getLast? = some last :=
    ⟨_, List.getLast?_eq_some_getLast (List.ne_nil_of_mem hc)⟩
  have hlast := Change.le_getLast hv.ordered hl hc
  unfold trailing? at hq
  rw [hl] at hq
  cases hn : p.next with
  | none =>
    rw [hn] at hq
    exact (Option.some.inj hq) ▸ hlast
  | some n =>
    rw [hn] at hq
    rw [← Option.some.inj hq, Checkpoint.newer_eq_max]
    exact le_trans hlast (le_max_right _ _)

theorem Valid.lt_trailing {p : Page} {collection : String} {position : Option Checkpoint}
    (hv : p.Valid collection position) (hne : p.changes ≠ []) {q : Checkpoint}
    (hq : p.trailing? = some q) {r : Checkpoint} (hr : position = some r) : r < q := by
  obtain ⟨c, hc⟩ := List.exists_mem_of_ne_nil _ hne
  exact lt_of_lt_of_le (hv.newer c hc r hr) (hv.le_trailing hq hc)

end Page

end Replication
