import Mathlib.Data.List.Perm.Basic
import Replication.Proofs.Tables.Rows

/-!
# Rows that are given up

Of the statements on the outbox only one gives up a mutation that waits, and its row is added to
those of given up ones (`Rows.dead_markFailed`). What several statements give up is told by the
notices of the rows (`Rows.Buries`), up to their order: rows stay where they are in the table, and
notices come in the order in which mutations were given up.
-/

namespace Replication

namespace Rows

/-- The rows of mutations that were given up. -/
def dead (rows : Rows) : List Row := rows.filter Row.failed

/-- The rows that were given up between two states of the table: those that waited. -/
def buried (rows rows' : Rows) : List Row :=
  rows'.filter fun row => row.failed && (rows.pendingRow? row.id).isSome

theorem pendingRow?_isSome_iff {rows : Rows} {id : String} :
    (rows.pendingRow? id).isSome = true ↔ rows.Waits id := by
  unfold pendingRow? Waits
  simp [List.find?_isSome, Row.pending]

/-- Some rows that waited were given up, with these notices, and no mutation waits anew. -/
structure Buries (rows rows' : Rows) (notices : List FailedMutation) : Prop where
  waits : ∀ id, rows'.Waits id → rows.Waits id
  dead : ∃ b : List Row, rows'.dead.Perm (rows.dead ++ b) ∧
    b.map Row.failure = notices.map Except.ok ∧ ∀ row ∈ b, rows.Waits row.id

theorem Buries.of_dead {rows rows' : Rows} (hw : ∀ id, rows'.Waits id → rows.Waits id)
    (hd : rows'.dead = rows.dead) : Buries rows rows' [] where
  waits := hw
  dead := ⟨[], by rw [hd, List.append_nil], rfl, fun _ h => by cases h⟩

theorem Buries.trans {rows rows' rows'' : Rows} {ns ns' : List FailedMutation}
    (h : Buries rows rows' ns) (h' : Buries rows' rows'' ns') : Buries rows rows'' (ns ++ ns') where
  waits id hid := h.waits id (h'.waits id hid)
  dead := by
    obtain ⟨b, hb, hbn, hbw⟩ := h.dead
    obtain ⟨b', hb', hbn', hbw'⟩ := h'.dead
    refine ⟨b ++ b', ?_, ?_, ?_⟩
    · rw [← List.append_assoc]
      exact hb'.trans (hb.append_right b')
    · rw [List.map_append, List.map_append, hbn, hbn']
    · intro row hrow
      rcases List.mem_append.1 hrow with hrow | hrow
      · exact hbw row hrow
      · exact h.waits row.id (hbw' row hrow)

/-- The notices are those of the rows that were given up in between. -/
theorem Buries.perm {rows rows' : Rows} {ns : List FailedMutation} (h : Buries rows rows' ns)
    (hu : rows.Unique) : ((buried rows rows').map Row.failure).Perm (ns.map Except.ok) := by
  obtain ⟨b, hb, hbn, hbw⟩ := h.dead
  let waited (row : Row) : Bool := (rows.pendingRow? row.id).isSome
  have hsplit : buried rows rows' = rows'.dead.filter waited := by
    unfold buried Rows.dead
    rw [List.filter_filter]
    exact List.filter_congr fun row _ => Bool.and_comm _ _
  have hold : rows.dead.filter waited = [] := by
    refine List.filter_eq_nil_iff.2 fun row hrow hw => ?_
    obtain ⟨hrow, hf⟩ := List.mem_filter.1 hrow
    obtain ⟨row', hrow', hf', hid⟩ := pendingRow?_isSome_iff.1 hw
    rw [hu.eq hrow' hrow hid, hf] at hf'
    cases hf'
  have hnew : b.filter waited = b :=
    List.filter_eq_self.2 fun row hrow => pendingRow?_isSome_iff.2 (hbw row hrow)
  have hperm := hb.filter waited
  rw [List.filter_append, hold, hnew, List.nil_append, ← hsplit] at hperm
  rw [← hbn]
  exact hperm.map Row.failure

theorem waits_acknowledge {rows : Rows} {ids : List String} {id : String}
    (h : Waits (rows.acknowledge ids).2 id) : rows.Waits id := by
  obtain ⟨row, hrow, hf, hid⟩ := h
  exact ⟨row, (List.mem_filter.1 hrow).1, hf, hid⟩

theorem buries_acknowledge (rows : Rows) (ids : List String) :
    Buries rows (rows.acknowledge ids).2 [] := by
  refine .of_dead (fun id h => waits_acknowledge h) ?_
  unfold dead acknowledge
  rw [List.filter_filter]
  refine List.filter_congr fun row _ => ?_
  cases hf : row.failed <;> simp [Row.pending, hf]

theorem Struck.waits {ids : List String} {rows rows' : Rows} (h : Struck ids rows rows')
    {id : String} (hw : rows'.Waits id) : rows.Waits id := by
  have ht : Turned { taken := [], struck := ids } rows rows' :=
    turned_acknowledge_struck (by simpa [acknowledge] using h)
  exact ht.waits hw

theorem dead_requeue (rows : Rows) (id reason : String) :
    dead (rows.requeue id reason).2 = rows.dead := by
  unfold dead requeue
  dsimp only
  rw [alterPending_eq]
  induction rows with
  | nil => rfl
  | cons row rows ih =>
    rw [List.map_cons, List.filter_cons, List.filter_cons, ih]
    by_cases hp : row.failed = false ∧ row.id = id
    · rw [if_pos hp]
      simp [recordFailure, hp.1]
    · rw [if_neg hp]

theorem buries_requeue (rows : Rows) (id reason : String) :
    Buries rows (rows.requeue id reason).2 [] :=
  .of_dead (fun _ h => (struck_requeue rows id reason).waits h) (dead_requeue rows id reason)

theorem alterPending_of_not_mem {rows : Rows} {id : String} (h : id ∉ rows.map Row.id)
    (f : Row → Row) : rows.alterPending id f = rows := by
  rw [alterPending_eq]
  refine (List.map_congr_left fun row hrow => if_neg ?_).trans (List.map_id rows)
  rintro ⟨-, rfl⟩
  exact h (List.mem_map_of_mem hrow)

theorem alterPending_cons (row : Row) (rows : Rows) (id : String) (f : Row → Row) :
    alterPending (row :: rows) id f =
      (if row.pending && row.id == id then f row else row) :: alterPending rows id f := rfl

theorem pendingRow?_cons (row : Row) (rows : Rows) (id : String) :
    pendingRow? (row :: rows) id =
      if row.pending && row.id == id then some row else pendingRow? rows id := by
  unfold pendingRow?
  rw [List.find?_cons]
  cases row.pending && row.id == id <;> rfl

/-- Giving up a mutation adds its row to those of given up ones. -/
theorem dead_markFailed {rows : Rows} (hu : rows.Unique) (id reason : String) :
    (dead (rows.markFailed id reason).2).Perm
      (rows.dead ++ (rows.markFailed id reason).1.toList) := by
  unfold markFailed dead
  dsimp only
  induction rows with
  | nil => exact .nil
  | cons row rows ih =>
    have hu' : row.id ∉ rows.map Row.id ∧ Unique rows := by
      unfold Unique at hu ⊢
      rwa [List.map_cons, List.nodup_cons] at hu
    rw [alterPending_cons, pendingRow?_cons]
    by_cases hp : (row.pending && row.id == id) = true
    · rw [if_pos hp, if_pos hp]
      simp only [Bool.and_eq_true, beq_iff_eq, Row.pending, Bool.not_eq_true'] at hp
      obtain ⟨hwaits, rfl⟩ := hp
      rw [alterPending_of_not_mem hu'.1, List.filter_cons_of_pos (by rfl),
        List.filter_cons_of_neg (by simp [hwaits])]
      exact (List.perm_append_singleton (giveUp reason row) (rows.filter Row.failed)).symm
    · rw [if_neg hp, if_neg hp, List.filter_cons, List.filter_cons]
      split
      · exact (ih hu'.2).cons row
      · exact ih hu'.2

/-- A mutation that is given up has one notice, that of its row. -/
theorem buries_markFailed {rows : Rows} (hu : rows.Unique) (id reason : String)
    {notice : Option FailedMutation}
    (hn : (rows.markFailed id reason).1.toList.map Row.failure = notice.toList.map Except.ok) :
    Buries rows (rows.markFailed id reason).2 notice.toList where
  waits id' hw := (turned_markFailed rows id reason).waits hw
  dead := by
    refine ⟨_, dead_markFailed hu id reason, hn, fun row hrow => ?_⟩
    obtain ⟨old, hold, rfl⟩ := Option.map_eq_some_iff.1 (Option.mem_toList.1 hrow)
    have hp := List.find?_some hold
    rw [Bool.and_eq_true] at hp
    exact ⟨old, List.mem_of_find?_eq_some hold, by simpa [Row.pending] using hp.1, rfl⟩

end Rows

end Replication
