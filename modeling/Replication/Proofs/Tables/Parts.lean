import Replication.Proofs.Tables.Buried

/-!
# The rows of one collection

All collections have their rows in one table, and a statement names its rows by mutation. If the
mutations that it names are those of one collection (`Rows.Owns`), it sees the rows of that
collection only and leaves every other row as it is (`Rows.Local`).
-/

namespace Replication

namespace Rows

/-- The rows of a collection. -/
def of (rows : Rows) (collection : String) : Rows := rows.filter (·.collection == collection)

/-- The rows but those of some mutations of a collection. -/
def apart (rows : Rows) (collection : String) (ids : List String) : Rows :=
  rows.filter fun row => !(row.collection == collection && ids.contains row.id)

/-- These mutations have rows in one collection only. -/
def Owns (collection : String) (ids : List String) (rows : Rows) : Prop :=
  ∀ row ∈ rows, row.id ∈ ids → row.collection = collection

variable {collection : String} {ids : List String} {rows : Rows}

theorem mem_of {row : Row} :
    row ∈ rows.of collection ↔ row ∈ rows ∧ row.collection = collection := by
  simp [of]

theorem mem_apart {row : Row} :
    row ∈ rows.apart collection ids ↔
      row ∈ rows ∧ ¬(row.collection = collection ∧ row.id ∈ ids) := by
  simp [apart, imp_iff_not_or]

/-- The rows of another collection are left. -/
theorem of_apart {other : String} (h : other ≠ collection) :
    Rows.of (rows.apart collection ids) other = rows.of other := by
  unfold of apart
  rw [List.filter_filter]
  refine List.filter_congr fun row _ => ?_
  by_cases hr : row.collection = other
  · simp [hr, h]
  · simp [hr]

/-- The pending rows of a collection are among its rows. -/
theorem pending_of (rows : Rows) (collection : String) :
    Rows.pending (rows.of collection) collection = rows.pending collection := by
  unfold pending of
  rw [List.filter_filter]
  refine List.filter_congr fun row _ => ?_
  cases row.collection == collection <;> simp

theorem apart_apart {ids' : List String} (h : ids ⊆ ids') :
    Rows.apart (rows.apart collection ids) collection ids' = rows.apart collection ids' := by
  unfold apart
  rw [List.filter_filter]
  refine List.filter_congr fun row _ => ?_
  by_cases hid : row.id ∈ ids
  · simp [hid, h hid]
  · simp [hid]

/-- What a statement gives, and the rows of a collection after it, depend on the rows of that
collection only; all other rows stay, but for some mutations, and none is new. -/
structure Local {α : Type} (collection : String) (ids : List String) (f : Rows → α × Rows) :
    Prop where
  given : ∀ rows, Owns collection ids rows → (f rows).1 = (f (rows.of collection)).1
  left : ∀ rows, Owns collection ids rows →
    Rows.of (f rows).2 collection = Rows.of (f (rows.of collection)).2 collection
  rest : ∀ rows, Owns collection ids rows →
    Rows.apart (f rows).2 collection ids = rows.apart collection ids
  fewer : ∀ rows, ((f rows).2.map Row.queued).Sublist (rows.map Row.queued)

/-- What is found is found among the rows of a collection if it is one of them. -/
theorem find?_of {p : Row → Bool} (h : ∀ row ∈ rows, p row = true → row.collection = collection) :
    List.find? p rows = List.find? p (rows.of collection) := by
  induction rows with
  | nil => rfl
  | cons row rows ih =>
    obtain ⟨hrow, hrows⟩ := List.forall_mem_cons.1 h
    have ih := ih hrows
    unfold of at ih ⊢
    rw [List.filter_cons]
    cases hp : p row with
    | true =>
      rw [if_pos (by simpa using hrow hp), List.find?_cons_of_pos hp, List.find?_cons_of_pos hp]
    | false =>
      rw [List.find?_cons_of_neg (by simp [hp]), ih]
      split
      · rw [List.find?_cons_of_neg (by simp [hp])]
      · rfl

section alterPending

variable {id : String} {f : Row → Row} (hid : id ∈ ids) (hf : ∀ row, (f row).queued = row.queued)

include hf

/-- A row whose pending deliveries change says the same of its mutation. -/
theorem queued_alter (row : Row) :
    (if row.failed = false ∧ row.id = id then f row else row).queued = row.queued := by
  split_ifs
  · exact hf row
  · rfl

/-- A filter that sees only what a row says of its mutation. -/
theorem filter_alterPending {p : Row → Bool}
    (hp : ∀ row row' : Row, row.queued = row'.queued → p row = p row') :
    (rows.alterPending id f).filter p = alterPending (rows.filter p) id f := by
  rw [alterPending_eq, alterPending_eq, List.filter_map]
  congr 1
  exact List.filter_congr fun row _ => hp _ _ (queued_alter hf row)

theorem map_queued_alterPending :
    (rows.alterPending id f).map Row.queued = rows.map Row.queued := by
  rw [alterPending_eq, List.map_map]
  exact List.map_congr_left fun row _ => queued_alter hf row

include hid

/-- A change of a pending row, of which the row afterwards is given. -/
theorem local_alterPending :
    Local collection ids fun rows => ((rows.pendingRow? id).map f, rows.alterPending id f) where
  given rows h := by
    refine congrArg (Option.map f) (find?_of fun row hrow hp => h row hrow ?_)
    simp only [Bool.and_eq_true, beq_iff_eq] at hp
    exact hp.2 ▸ hid
  left rows _ := by
    unfold of
    have hc : ∀ row row' : Row, row.queued = row'.queued →
        (row.collection == collection) = (row'.collection == collection) :=
      fun row row' hq => by rw [Row.collection_of_queued hq]
    rw [filter_alterPending hf hc, filter_alterPending hf hc, List.filter_filter]
    simp
  rest rows h := by
    have hap : ∀ row row' : Row, row.queued = row'.queued →
        (!(row.collection == collection && ids.contains row.id)) =
          !(row'.collection == collection && ids.contains row'.id) :=
      fun row row' hq => by rw [Row.collection_of_queued hq, Row.id_of_queued hq]
    refine (filter_alterPending hf hap).trans (alterPending_of_not_mem (fun hmem => ?_) f)
    obtain ⟨row, hrow, rfl⟩ := List.mem_map.1 hmem
    obtain ⟨hrow, hnot⟩ := mem_apart.1 hrow
    exact hnot ⟨h row hrow hid, hid⟩
  fewer rows := by
    rw [map_queued_alterPending hf]

end alterPending

theorem local_requeue {id : String} (hid : id ∈ ids) (reason : String) :
    Local collection ids (·.requeue id reason) :=
  local_alterPending hid fun _ => rfl

theorem local_markFailed {id : String} (hid : id ∈ ids) (reason : String) :
    Local collection ids (·.markFailed id reason) :=
  local_alterPending hid fun _ => rfl

theorem local_acknowledge {taken : List String} (ht : taken ⊆ ids) :
    Local collection ids (·.acknowledge taken) where
  given rows h := by
    unfold acknowledge of
    dsimp only
    rw [List.countP_filter]
    refine List.countP_congr fun row hrow => ?_
    simp only [Bool.and_eq_true, List.contains_iff_mem, beq_iff_eq, iff_self_and]
    exact fun hgone => h row hrow (ht hgone.2)
  left rows _ := by
    unfold acknowledge of
    dsimp only
    rw [List.filter_filter, List.filter_filter, List.filter_filter]
    refine List.filter_congr fun row _ => ?_
    cases row.collection == collection <;> simp
  rest rows h := by
    unfold acknowledge apart
    dsimp only
    rw [List.filter_filter]
    refine List.filter_congr fun row hrow => ?_
    by_cases hid : row.id ∈ taken
    · simp [ht hid, h row hrow (ht hid)]
    · simp [hid]
  fewer rows := List.filter_sublist.map Row.queued

end Rows

end Replication
