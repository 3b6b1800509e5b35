import Replication.Proofs.Replica.Action
import Replication.Proofs.Tables.Documents
import Replication.Proofs.Tables.Rows

/-!
# Operations on the outbox

Each operation on the outbox comes to one change of its rows, or is refused and changes none. It
leaves the rest of the replica as it is but for counters and notices (`Replica.Alike`).
-/

namespace Replication

namespace Replica

/-- Replicas that agree in their database but for its outbox, and in the checkpoints handed out. -/
structure Steady (r r' : Replica) : Prop where
  kept : r'.database.tables.checkpoints = r.database.tables.checkpoints
  closed : r'.database.closed = r.database.closed
  locked : r'.database.locked = r.database.locked
  handed : r'.checkpoints = r.checkpoints

/-- Replicas that differ at most in their outbox, their counters and their notices. -/
structure Alike (r r' : Replica) : Prop extends Steady r r' where
  documents : r'.documents = r.documents

theorem Steady.trans {r r' r'' : Replica} (h : r.Steady r') (h' : r'.Steady r'') :
    r.Steady r'' where
  kept := h'.kept.trans h.kept
  closed := h'.closed.trans h.closed
  locked := h'.locked.trans h.locked
  handed := h'.handed.trans h.handed

theorem alike_refl (r : Replica) : r.Alike r := ⟨⟨rfl, rfl, rfl, rfl⟩, rfl⟩

theorem Alike.trans {r r' r'' : Replica} (h : r.Alike r') (h' : r'.Alike r'') : r.Alike r'' :=
  ⟨h.toSteady.trans h'.toSteady, h'.documents.trans h.documents⟩

theorem Alike.of_metrics {r r' : Replica} (h : r.Alike r') (m : Metrics) :
    r.Alike { r' with metrics := m } := ⟨⟨h.kept, h.closed, h.locked, h.handed⟩, h.documents⟩

theorem alike_written (r : Replica) (rows : Option Rows) (n : Nat) (m : Metrics) :
    r.Alike (r.written { r.database.tables with outbox := rows } n m) :=
  ⟨⟨rfl, rfl, rfl, rfl⟩, rfl⟩

theorem Steady.free {r r' : Replica} (h : r.Steady r') (hr : r.Free) : r'.Free where
  opened := h.closed.trans hr.opened
  unlocked n := (congrFun h.locked n).trans (hr.unlocked n)

theorem Steady.writable {r r' : Replica} (h : r.Steady r') (hr : r.Writable) : r'.Writable where
  opened := h.closed.trans hr.opened
  granted n := h.locked ▸ hr.granted n

/-- The rows of the outbox; none if its table is missing. -/
def rows? (r : Replica) : Option Rows := r.database.tables.outbox

/-- The write that changes the rows of the outbox. -/
def change {α : Type} (f : Rows → α × Rows) (t : Tables) : Option (α × Tables) :=
  t.outbox.map fun rows => ((f rows).1, { t with outbox := some (f rows).2 })

theorem change_of_some {α : Type} {f : Rows → α × Rows} {t : Tables} {rows : Rows}
    (h : t.outbox = some rows) :
    change f t = some ((f rows).1, { t with outbox := some (f rows).2 }) := by
  unfold change
  rw [h]
  rfl

/-- A write to the outbox is refused and changes no row, or is done as a whole. -/
theorem exec_write_change {α : Type} (operation : String) (f : Rows → α × Rows) {r : Replica}
    {rows : Rows} (h : r.rows? = some rows) :
    ∃ r', r.Alike r' ∧
      ((Action.write operation (change f)).exec r = (.error .persistence, r') ∧
          r'.rows? = some rows ∨
        (Action.write operation (change f)).exec r = (.ok (f rows).1, r') ∧
          r'.rows? = some (f rows).2) := by
  rcases Action.exec_write operation (change f) r with ⟨n, m, hw⟩ | ⟨x, t, n, m, hf, hw⟩
  · exact ⟨_, r.alike_written r.rows? n m, .inl ⟨hw, h⟩⟩
  · rw [change_of_some h] at hf
    obtain ⟨rfl, rfl⟩ := Prod.mk.inj (Option.some.inj hf)
    refine ⟨_, ?_, .inr ⟨hw, rfl⟩⟩
    exact r.alike_written (some (f rows).2) n m

/-- A write to the outbox that gets through is done. -/
theorem exec_write_change_admitted {α : Type} (operation : String) (f : Rows → α × Rows)
    {r : Replica} {rows : Rows} (hr : r.Admits) (h : r.rows? = some rows) :
    ∃ r', r.Alike r' ∧ (Action.write operation (change f)).exec r = (.ok (f rows).1, r') ∧
      r'.rows? = some (f rows).2 := by
  obtain ⟨n, m, hw⟩ := Action.exec_write_admitted operation hr (change_of_some (f := f) h)
  refine ⟨_, ?_, hw, rfl⟩
  exact r.alike_written (some (f rows).2) n m

/-! ## Reading -/

theorem mapM_eq_ok {α β : Type} {f : α → Except SyncError β} {xs : List α} {ys : List β} :
    xs.mapM f = .ok ys ↔ List.Forall₂ (fun x y => f x = .ok y) xs ys := by
  induction xs generalizing ys with
  | nil => cases ys <;> simp [pure, Except.pure]
  | cons x xs ih =>
    rw [List.mapM_cons]
    cases hx : f x with
    | error e => cases ys <;> simp [bind, Except.bind, hx]
    | ok y =>
      cases hxs : xs.mapM f <;> cases ys <;>
        simp [bind, Except.bind, pure, Except.pure, ← ih, hxs, hx]

/-- Rows are read if their counts can be and each of them can be. -/
theorem decode_eq_ok {α : Type} {read : Row → Except SyncError α} {rows : List Row} {xs : List α} :
    decode read rows = .ok xs ↔
      (∀ r ∈ rows, Row.countable r.retries = true) ∧
        List.Forall₂ (fun r x => read r = .ok x) rows xs := by
  unfold decode
  by_cases h : (rows.all fun r => Row.countable r.retries) = true
  · rw [if_pos h, mapM_eq_ok]
    exact ⟨fun hx => ⟨List.all_eq_true.1 h, hx⟩, And.right⟩
  · rw [if_neg h]
    simp only [reduceCtorEq, false_iff, not_and]
    exact fun hc => absurd (List.all_eq_true.2 hc) h

@[simp] theorem exec_lift {α : Type} (x : Except SyncError α) (r : Replica) :
    (lift x).exec r = (x, r) := by
  cases x <;> rfl

theorem exec_pending {r : Replica} {rows : Rows} (hc : r.database.closed = false)
    (h : r.rows? = some rows) (collection : String) (limit : Nat) :
    (pending collection limit).exec r =
      (decode Row.mutation ((rows.pending collection).take limit), r) := by
  unfold pending
  have hrows : r.database.tables.outbox = some rows := h
  rw [Action.exec_bind, Action.exec_query_ok hc (by rw [hrows]; rfl)]
  exact exec_lift _ r

theorem exec_failedMutations {r : Replica} {rows : Rows} (hc : r.database.closed = false)
    (h : r.rows? = some rows) (collection : String) :
    (failedMutations collection).exec r = (decode Row.failure (rows.failed collection), r) := by
  unfold failedMutations
  have hrows : r.database.tables.outbox = some rows := h
  rw [Action.exec_bind, Action.exec_query_ok hc (by rw [hrows]; rfl)]
  exact exec_lift _ r

/-! ## Queueing, and the ends of deliveries -/

theorem enqueue_eq (m : Mutation) :
    enqueue m = (do
      let inserted ← Action.write "outbox_enqueue" (change (·.insert (Row.ofMutation m)))
      if inserted then
        Action.measure (·.outboxEnqueued m.collection)
        modify fun r => { r with enqueued := r.enqueued.send m.collection }) := rfl

theorem acknowledge_eq (ids : List String) :
    acknowledge ids =
      if ids.isEmpty then return 0
      else Action.write "outbox_acknowledge" (change (·.acknowledge ids)) := rfl

theorem requeue_eq (id reason : String) :
    requeue id reason = (do
      match ← Action.write "outbox_requeue" (change (·.requeue id reason)) with
      | none => return none
      | some r =>
        if Row.countable r.retries then return some (Row.reported r.retries)
        else throw .persistence) := rfl

theorem markFailed_eq (id reason : String) :
    markFailed id reason = (do
      let row ← Action.write "outbox_mark_failed" (change (·.markFailed id reason))
      return (← lift (decode Row.failure row.toList)).head?) := rfl

theorem discard_cons (id : String) (ids : List String) :
    discard (id :: ids) = (do
      let removed ← Action.write "outbox_discard" (change (·.discard id))
      return removed + (← discard ids)) := rfl

theorem exec_enqueue (m : Mutation) {r : Replica} {rows : Rows} (h : r.rows? = some rows) :
    ∃ r', r.Alike r' ∧
      ((enqueue m).exec r = (.error .persistence, r') ∧ r'.rows? = some rows ∨
        (enqueue m).exec r = (.ok (), r') ∧
          r'.rows? = some (rows.insert (Row.ofMutation m)).2) := by
  rw [enqueue_eq, Action.exec_bind]
  obtain ⟨r', hr', ⟨hw, hrows⟩ | ⟨hw, hrows⟩⟩ :=
    exec_write_change "outbox_enqueue" (·.insert (Row.ofMutation m)) h
  · rw [hw]
    exact ⟨r', hr', .inl ⟨rfl, hrows⟩⟩
  · rw [hw]
    dsimp only
    rw [Action.exec_ite]
    split
    · refine ⟨_, ?_, .inr ⟨rfl, hrows⟩⟩
      exact ⟨⟨hr'.kept, hr'.closed, hr'.locked, hr'.handed⟩, hr'.documents⟩
    · exact ⟨r', hr', .inr ⟨rfl, hrows⟩⟩

theorem exec_acknowledge (ids : List String) {r : Replica} {rows : Rows} (h : r.rows? = some rows) :
    ∃ r', r.Alike r' ∧
      ((acknowledge ids).exec r = (.error .persistence, r') ∧ r'.rows? = some rows ∨
        (acknowledge ids).exec r = (.ok (rows.acknowledge ids).1, r') ∧
          r'.rows? = some (rows.acknowledge ids).2) := by
  rw [acknowledge_eq, Action.exec_ite]
  by_cases hids : ids.isEmpty = true
  · rw [if_pos hids]
    obtain rfl := List.isEmpty_iff.1 hids
    rw [Rows.acknowledge_nil]
    exact ⟨r, r.alike_refl, .inr ⟨rfl, h⟩⟩
  · rw [if_neg hids]
    exact exec_write_change "outbox_acknowledge" (·.acknowledge ids) h

/-- What the server took is removed if the write gets through. -/
theorem exec_acknowledge_admitted (ids : List String) {r : Replica} {rows : Rows}
    (hr : r.Admits) (h : r.rows? = some rows) :
    ∃ r', r.Alike r' ∧ (acknowledge ids).exec r = (.ok (rows.acknowledge ids).1, r') ∧
      r'.rows? = some (rows.acknowledge ids).2 := by
  rw [acknowledge_eq, Action.exec_ite]
  by_cases hids : ids.isEmpty = true
  · rw [if_pos hids]
    obtain rfl := List.isEmpty_iff.1 hids
    rw [Rows.acknowledge_nil]
    exact ⟨r, r.alike_refl, rfl, h⟩
  · rw [if_neg hids]
    exact exec_write_change_admitted "outbox_acknowledge" (·.acknowledge ids) hr h

/-- A count that `requeue` gives is that of a row that can be counted. -/
theorem exec_requeue (id reason : String) {r : Replica} {rows : Rows} (h : r.rows? = some rows) :
    ∃ out r', r.Alike r' ∧ (requeue id reason).exec r = (out, r') ∧
      (r'.rows? = some rows ∧ (∃ e, out = .error e) ∨
        r'.rows? = some (rows.requeue id reason).2 ∧
          ∀ n, out = .ok (some n) →
            ∃ row, (rows.requeue id reason).1 = some row ∧ Row.countable row.retries = true) := by
  rw [requeue_eq, Action.exec_bind]
  obtain ⟨r', hr', ⟨hw, hrows⟩ | ⟨hw, hrows⟩⟩ :=
    exec_write_change "outbox_requeue" (·.requeue id reason) h
  · rw [hw]
    exact ⟨_, r', hr', rfl, .inl ⟨hrows, _, rfl⟩⟩
  · rw [hw]
    dsimp only
    cases hrow : (rows.requeue id reason).1 with
    | none => exact ⟨.ok none, r', hr', rfl, .inr ⟨hrows, fun n hn => by simp at hn⟩⟩
    | some row =>
      dsimp only
      rw [Action.exec_ite]
      split
      · exact ⟨_, r', hr', rfl, .inr ⟨hrows, fun n _ => ⟨row, rfl, ‹_›⟩⟩⟩
      · exact ⟨.error .persistence, r', hr', rfl, .inr ⟨hrows, fun n hn => by simp at hn⟩⟩

theorem exec_markFailed (id reason : String) {r : Replica} {rows : Rows}
    (h : r.rows? = some rows) :
    ∃ out r', r.Alike r' ∧ (markFailed id reason).exec r = (out, r') ∧
      (r'.rows? = some rows ∧ (∃ e, out = .error e) ∨
        r'.rows? = some (rows.markFailed id reason).2) := by
  rw [markFailed_eq, Action.exec_bind]
  obtain ⟨r', hr', ⟨hw, hrows⟩ | ⟨hw, hrows⟩⟩ :=
    exec_write_change "outbox_mark_failed" (·.markFailed id reason) h
  · rw [hw]
    exact ⟨_, r', hr', rfl, .inl ⟨hrows, _, rfl⟩⟩
  · rw [hw]
    simp only [Action.exec_bind, exec_lift]
    cases decode Row.failure (rows.markFailed id reason).1.toList with
    | ok dead => exact ⟨_, r', hr', rfl, .inr hrows⟩
    | error e => exact ⟨_, r', hr', rfl, .inr hrows⟩

/-- Dropping mutations drops those up to one where it fails. -/
theorem exec_discard (ids : List String) {r : Replica} {rows : Rows} (h : r.rows? = some rows) :
    ∃ out r' dropped, r.Alike r' ∧ (discard ids).exec r = (out, r') ∧ dropped <+: ids ∧
      (∀ n, out = .ok n → dropped = ids) ∧ r'.rows? = some (rows.without dropped) := by
  induction ids generalizing r rows with
  | nil =>
    exact ⟨_, r, [], r.alike_refl, rfl, List.prefix_rfl, fun _ _ => rfl,
      by rw [rows.without_nil]; exact h⟩
  | cons id ids ih =>
    rw [discard_cons, Action.exec_bind]
    obtain ⟨r₁, hr₁, ⟨hw, hrows⟩ | ⟨hw, hrows⟩⟩ :=
      exec_write_change "outbox_discard" (·.discard id) h
    · rw [hw]
      exact ⟨_, r₁, [], hr₁, rfl, List.nil_prefix, nofun,
        by rw [rows.without_nil]; exact hrows⟩
    · rw [hw]
      obtain ⟨out, r', dropped, hr', he, hd, hall, hrows'⟩ := ih hrows
      simp only [Action.exec_bind, he]
      rw [Rows.without_discard] at hrows'
      have hd' : id :: dropped <+: id :: ids := (List.prefix_cons_inj id).2 hd
      cases out with
      | error e => exact ⟨_, r', _, hr₁.trans hr', rfl, hd', nofun, hrows'⟩
      | ok n =>
        exact ⟨_, r', _, hr₁.trans hr', rfl, hd', fun _ _ => by rw [hall n rfl], hrows'⟩

/-! ## Local writes -/

theorem exec_writeDocument (m : Mutation) (r : Replica) :
    (writeDocument m).exec r =
      (match (r.documents.write m).1 with
        | some reason => .error (.localStore reason)
        | none => .ok (), { r with documents := (r.documents.write m).2 }) := by
  unfold writeDocument Documents.write
  rw [Action.exec_bind, Action.exec_get]
  cases m.operation with
  | delete =>
    cases h : (r.documents.remove m.collection m.document).1 <;> simp [h]
  | create =>
    cases h : (r.documents.upsert m.collection m.document (m.payload.getD [])).1 <;> simp [h]
  | update =>
    cases h : (r.documents.upsert m.collection m.document (m.payload.getD [])).1 <;> simp [h]

/-- A document is written if nothing refuses it, and nothing else changes. -/
theorem exec_writeDocument_ok {m : Mutation} {r r' : Replica}
    (h : (writeDocument m).exec r = (.ok (), r')) :
    (r.documents.write m).1 = none ∧ r' = { r with documents := (r.documents.write m).2 } := by
  rw [exec_writeDocument] at h
  cases hw : (r.documents.write m).1 with
  | some reason => simp [hw] at h
  | none => exact ⟨rfl, (Prod.mk.inj h).2.symm⟩

/-- A new mutation that is queued comes last. -/
theorem exec_enqueue_ok {m : Mutation} {r r' : Replica} {rows : Rows} (hrows : r.rows? = some rows)
    (hm : m.id ∉ rows.map Row.id) (h : (enqueue m).exec r = (.ok (), r')) :
    r.Alike r' ∧ r'.rows? = some (rows ++ [Row.ofMutation m]) := by
  obtain ⟨r₁, hr₁, ⟨he, -⟩ | ⟨he, hrows₁⟩⟩ := exec_enqueue m hrows
  · rw [he] at h
    cases h
  · rw [he] at h
    obtain rfl := (Prod.mk.inj h).2
    rw [Rows.insert_of_not_mem (Row.ofMutation m) hm] at hrows₁
    exact ⟨hr₁, hrows₁⟩

/-- A local write of a new mutation that succeeds queues it and writes its document only. -/
theorem exec_writeLocally_ok {m : Mutation} {r r' : Replica} {rows : Rows}
    (h : (writeLocally m).exec r = (.ok (), r')) (hrows : r.rows? = some rows)
    (hm : m.id ∉ rows.map Row.id) :
    r.Steady r' ∧ r'.rows? = some (rows ++ [Row.ofMutation m]) ∧
      ∀ collection document, document ≠ m.document →
        r'.documents.get? collection document = r.documents.get? collection document := by
  obtain ⟨_, r₁, hwrite, hqueue⟩ := Action.exec_bind_eq_ok h
  obtain ⟨-, rfl⟩ := exec_writeDocument_ok hwrite
  obtain ⟨hr', hrows'⟩ :=
    exec_enqueue_ok (r := { r with documents := (r.documents.write m).2 }) hrows hm hqueue
  refine ⟨⟨hr'.kept, hr'.closed, hr'.locked, hr'.handed⟩, hrows', fun c d hd => ?_⟩
  rw [hr'.documents]
  exact r.documents.get?_write_of_ne hd.symm c

end Replica

end Replication
