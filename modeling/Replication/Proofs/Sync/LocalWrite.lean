import Replication.Proofs.Sync.Writers

/-!
# The ends of a local write

A local write is two writes, first to the documents and then to the outbox, and each of them may
fail. So it ends in one of three ways (`Replica.exec_writeLocally`):

1. The documents refuse it. Nothing changes.
2. The documents take it and the outbox cannot be written. The document shows the write, which was
   made first, and no row changes.
3. Both take it. The document shows the write, and the mutation has a row: a new one, unless its
   identifier has one already, for then queueing changes nothing.

The mutation waits after a write that succeeds just when its identifier was new or it waited before
(`Replica.writeLocally_ends`).
-/

namespace Replication

/-- Some pending row says what a mutation says: its identifier, operation, document and payload. -/
def Rows.Queues (rows : Rows) (m : Mutation) : Prop :=
  ∃ row ∈ rows, row.pending = true ∧ row.id = m.id ∧ row.operation = m.operation.name ∧
    row.document = m.document ∧ row.payload = (Row.ofMutation m).payload

instance (rows : Rows) (m : Mutation) : Decidable (rows.Queues m) := by
  unfold Rows.Queues
  infer_instance

theorem Rows.queues_append_ofMutation (rows : Rows) (m : Mutation) :
    Rows.Queues (rows ++ [Row.ofMutation m]) m :=
  ⟨Row.ofMutation m, List.mem_append_right _ (List.mem_singleton_self _), rfl, rfl, rfl, rfl, rfl⟩

/-- Once a mutation is inserted, it waits if its identifier was new, or if it waited before. -/
theorem Rows.queues_insert_iff {rows : Rows} {m : Mutation} :
    (rows.insert (Row.ofMutation m)).2.Queues m ↔ m.id ∉ rows.map Row.id ∨ rows.Queues m := by
  by_cases hm : m.id ∈ rows.map Row.id
  · rw [Rows.insert_of_mem (Row.ofMutation m) hm]
    exact ⟨.inr, fun h => h.resolve_left fun hnew => hnew hm⟩
  · rw [Rows.insert_of_not_mem (Row.ofMutation m) hm]
    exact ⟨fun _ => .inl hm, fun _ => rows.queues_append_ofMutation m⟩

namespace Replica

/-- Nothing keeps a mutation from being queued: the outbox is there and its next write is
admitted. -/
def Takes (r : Replica) : Prop := r.Admits ∧ r.rows?.isSome = true

theorem takes_iff_of_database (r : Replica) {r' : Replica} (h : r'.database = r.database) :
    r'.Takes ↔ r.Takes := by
  have hadmits : r'.Admits ↔ r.Admits :=
    ⟨fun ha => ⟨h ▸ ha.opened, h ▸ ha.granted⟩, fun ha => ⟨h ▸ ha.opened, h ▸ ha.granted⟩⟩
  unfold Takes rows?
  rw [hadmits, h]

theorem exec_enqueue_takes (m : Mutation) {r : Replica} (hr : r.Takes) :
    ∃ rows r', r.rows? = some rows ∧ r.Alike r' ∧ (enqueue m).exec r = (.ok (), r') ∧
      r'.rows? = some (rows.insert (Row.ofMutation m)).2 := by
  obtain ⟨rows, hrows⟩ := Option.isSome_iff_exists.1 hr.2
  have hok : ((enqueue m).exec r).1 = .ok () := by
    obtain ⟨r', -, hw, -⟩ := exec_write_change_admitted "outbox_enqueue"
      (·.insert (Row.ofMutation m)) hr.1 hrows
    rw [enqueue_eq, Action.exec_bind, hw]
    dsimp only
    rw [Action.exec_ite]
    split <;> rfl
  obtain ⟨r', hr', ⟨he, -⟩ | ⟨he, hrows'⟩⟩ := exec_enqueue m hrows
  · rw [he] at hok
    cases hok
  · exact ⟨rows, r', hrows, hr', he, hrows'⟩

theorem exec_enqueue_refused (m : Mutation) {r : Replica} (hr : ¬r.Takes) :
    ∃ r', r.Alike r' ∧ (enqueue m).exec r = (.error .persistence, r') ∧ r'.rows? = r.rows? := by
  have hwrite : ¬(r.Admits ∧
      (change (·.insert (Row.ofMutation m)) r.database.tables).isSome = true) := by
    simpa [Takes, change, rows?] using hr
  obtain ⟨n, k, hw⟩ := Action.exec_write_refused "outbox_enqueue" hwrite
  refine ⟨_, r.alike_written r.rows? n k, ?_, rfl⟩
  rw [enqueue_eq, Action.exec_bind, hw]
  rfl

/-- How a local write ends: refused by the documents, written there and not queued, or both. -/
theorem exec_writeLocally (m : Mutation) (r : Replica) :
    (∃ reason, (r.documents.write m).1 = some reason ∧
      (writeLocally m).exec r =
        (.error (.localStore reason), { r with documents := (r.documents.write m).2 })) ∨
    (r.documents.write m).1 = none ∧ ¬r.Takes ∧
      (∃ r', (writeLocally m).exec r = (.error .persistence, r') ∧
        r'.documents = (r.documents.write m).2 ∧ r'.rows? = r.rows?) ∨
    (r.documents.write m).1 = none ∧ r.Takes ∧
      ∃ rows r', r.rows? = some rows ∧ (writeLocally m).exec r = (.ok (), r') ∧
        r'.documents = (r.documents.write m).2 ∧
        r'.rows? = some (rows.insert (Row.ofMutation m)).2 := by
  unfold writeLocally
  rw [Action.exec_bind, exec_writeDocument]
  cases hw : (r.documents.write m).1 with
  | some reason => exact .inl ⟨reason, rfl, rfl⟩
  | none =>
    let written : Replica := { r with documents := (r.documents.write m).2 }
    have htakes : written.Takes ↔ r.Takes := r.takes_iff_of_database rfl
    by_cases hr : r.Takes
    · obtain ⟨rows, r', hrows, hr', he, hrows'⟩ := exec_enqueue_takes m (htakes.2 hr)
      exact .inr (.inr ⟨rfl, hr, rows, r', hrows, he, hr'.documents, hrows'⟩)
    · obtain ⟨r', hr', he, hrows'⟩ := exec_enqueue_refused m (mt htakes.1 hr)
      exact .inr (.inl ⟨rfl, hr, r', he, hr'.documents, hrows'⟩)

/-- A local write, whatever the documents and the outbox do. It succeeds just when the documents do
not refuse it and the outbox can be written. Then its document, and no other, is as the mutation
says; the rows have one more, that of the mutation, or are as before if its identifier has a row
already; so the mutation waits if it is new or waited before. If the write fails no row changes. The
documents are as before if it was they that refused it, and show it if the outbox did not take it,
for they are written first. -/
theorem writeLocally_ends (m : Mutation) (r : Replica) :
    let out := ((writeLocally m).exec r).1
    let r' := ((writeLocally m).exec r).2
    let Shown := ∀ c d, r'.documents.get? c d =
      if m.about c d then m.body else r.documents.get? c d
    (out = .ok () ↔ (r.documents.write m).1 = none ∧ r.Takes) ∧
    (out = .ok () → Shown ∧ ∃ rows rows', r.rows? = some rows ∧ r'.rows? = some rows' ∧
      (m.id ∉ rows.map Row.id → rows' = rows ++ [Row.ofMutation m]) ∧
      (m.id ∈ rows.map Row.id → rows' = rows) ∧
      (rows'.Queues m ↔ m.id ∉ rows.map Row.id ∨ rows.Queues m)) ∧
    ∀ e, out = .error e → r'.rows? = r.rows? ∧
      (∀ reason, (r.documents.write m).1 = some reason →
        e = .localStore reason ∧ ∀ c d, r'.documents.get? c d = r.documents.get? c d) ∧
      ((r.documents.write m).1 = none → e = .persistence ∧ Shown) := by
  intro out r' Shown
  have hshown (hw : (r.documents.write m).1 = none)
      (hdocs : r'.documents = (r.documents.write m).2) : Shown := by
    intro c d
    rw [hdocs]
    exact Documents.get?_write hw c d
  rcases exec_writeLocally m r with
    ⟨reason, hw, he⟩ | ⟨hw, hr, r₁, he, hdocs, hrows⟩ | ⟨hw, hr, rows, r₁, hrows, he, hdocs, hrows₁⟩
  · -- The documents refuse it.
    have hout : out = .error (.localStore reason) := congrArg Prod.fst he
    have hr' : r' = { r with documents := (r.documents.write m).2 } := congrArg Prod.snd he
    refine ⟨by simp [hout, hw], by simp [hout], fun e hoe => ⟨?_, fun reason' hw' => ?_, ?_⟩⟩
    · rw [hr']
      rfl
    · obtain rfl : reason = reason' := Option.some.inj (hw.symm.trans hw')
      refine ⟨(Except.error.inj (hout.symm.trans hoe)).symm, fun c d => ?_⟩
      rw [hr']
      exact r.documents.get?_write_refused hw c d
    · simp [hw]
  · -- They take it and the outbox cannot be written.
    have hout : out = .error .persistence := congrArg Prod.fst he
    have hr' : r' = r₁ := congrArg Prod.snd he
    refine ⟨by simp [hout, hr], by simp [hout], fun e hoe => ⟨?_, by simp [hw], fun _ => ?_⟩⟩
    · rw [hr', hrows]
    · exact ⟨(Except.error.inj (hout.symm.trans hoe)).symm, hshown hw (hr' ▸ hdocs)⟩
  · -- Both take it.
    have hout : out = .ok () := congrArg Prod.fst he
    have hr' : r' = r₁ := congrArg Prod.snd he
    refine ⟨by simp [hout, hw, hr], fun _ => ⟨hshown hw (hr' ▸ hdocs), ?_⟩, by simp [hout]⟩
    refine ⟨rows, _, hrows, hr' ▸ hrows₁, fun hnew => ?_, fun hold => ?_, Rows.queues_insert_iff⟩
    · rw [Rows.insert_of_not_mem (Row.ofMutation m) hnew]
    · rw [Rows.insert_of_mem (Row.ofMutation m) hold]

/-- A first local write is shown and waits; one that comes when the database is closed fails and
adds no row. -/
theorem writeLocally_then_closed :
    let m (id : String) : Mutation := ⟨id, "notes", .update, "d", none, 0, 0⟩
    let r := ({} : Replica).opened {}
    let r₁ := ((writeLocally (m "a")).exec r).2
    let shut := r₁.close
    ((writeLocally (m "a")).exec r).1 = .ok () ∧
      (∃ rows, r₁.rows? = some rows ∧ rows.Queues (m "a")) ∧
      ((writeLocally (m "b")).exec shut).1 = .error .persistence ∧
      ((writeLocally (m "b")).exec shut).2.rows? = shut.rows? := by
  intro m r r₁ shut
  obtain ⟨hiff, hok, -⟩ := writeLocally_ends (m "a") r
  have hdone : ((writeLocally (m "a")).exec r).1 = .ok () :=
    hiff.2 ⟨rfl, ⟨rfl, rfl⟩, rfl⟩
  obtain ⟨-, rows, rows₁, hrows, hrows₁, -, -, hwaits⟩ := hok hdone
  obtain rfl : [] = rows := Option.some.inj hrows
  have hshut : ((writeLocally (m "b")).exec shut).1 = .error .persistence := rfl
  obtain ⟨-, -, herror⟩ := writeLocally_ends (m "b") shut
  exact ⟨hdone, ⟨rows₁, hrows₁, hwaits.2 (.inl (by simp))⟩, hshut, (herror _ hshut).1⟩

/-- A local write may succeed and not wait: the mutation deletes the document, and an earlier one
with its identifier, which created it, is what waits. And it may fail and be shown: it comes when
the database is closed, and the document is there. -/
theorem writeLocally_one_of_both :
    let m (id : String) (operation : Operation) (document : String) : Mutation :=
      ⟨id, "notes", operation, document, none, 0, 0⟩
    let r := ((writeLocally (m "a" .create "d")).exec (({} : Replica).opened {})).2
    let again := (writeLocally (m "a" .delete "d")).exec r
    let late := (writeLocally (m "b" .create "e")).exec r.close
    again.1.isOk = true ∧ (again.2.documents.get? "notes" "d").isNone = true ∧
      again.2.rows? = some [Row.ofMutation (m "a" .create "d")] ∧
      ¬Rows.Queues [Row.ofMutation (m "a" .create "d")] (m "a" .delete "d") ∧
      late.1.isOk = false ∧ (r.documents.get? "notes" "e").isNone = true ∧
      (late.2.documents.get? "notes" "e").isSome = true := by
  decide +kernel

end Replica

end Replication
