import Replication.Proofs.Push.Reconcile

/-!
# Steps of a push pass

A step of its own leaves the outbox as it is; it may read a batch, which holds for each document the
mutation of the first pending row (`PushPass.Reads`). Only an answer changes rows, and then the
request is over.
-/

namespace Replication.PushPass

open Replica (Steady)

/-- A batch was read from the rows of a collection. -/
def Reads (collection : String) (limit : Nat) (rows : Rows) (batch : List Mutation) : Prop :=
  ∃ ms, List.Forall₂ (fun row m => row.mutation = .ok m) ((rows.pending collection).take limit) ms ∧
    batch = deliverable ms

/-- What was read waits in a row. -/
theorem exists_row_of_reads {collection : String} {limit : Nat} {rows : Rows}
    {batch : List Mutation} (h : Reads collection limit rows batch) {m : Mutation}
    (hm : m ∈ batch) :
    ∃ row ∈ rows, row.failed = false ∧ row.collection = collection ∧ row.mutation = .ok m := by
  obtain ⟨ms, hms, rfl⟩ := h
  obtain ⟨i, hi, rfl⟩ := List.mem_iff_getElem.1 ((deliverable_sublist ms).subset hm)
  have hlen := hms.length_eq
  have hrow := (List.forall₂_iff_get.1 hms).2 i (by omega) hi
  refine ⟨_, ?_, ?_, ?_, hrow⟩
  all_goals
    have hin := List.mem_of_mem_take
      (List.get_mem ((rows.pending collection).take limit) ⟨i, by omega⟩)
    simp only [Rows.pending, List.mem_filter, Bool.and_eq_true, beq_iff_eq, Row.pending,
      Bool.not_eq_true'] at hin
  · exact hin.1
  · exact hin.2.2
  · exact hin.2.1

theorem exec_pendingCount_snd (collection : String) (r : Replica) :
    ((Replica.pendingCount collection).exec r).2 = r := by
  unfold Replica.pendingCount
  rw [Action.exec_query]

theorem exec_count (p : PushPass) (r : Replica) :
    ∃ out m, p.count.exec r = (out, { r with metrics := m }) := by
  unfold count
  simp only [Action.exec_bind, Action.exec_measure, Action.exec_attempt, exec_pendingCount_snd]
  split <;> exact ⟨_, _, rfl⟩

/-- A step of its own leaves the outbox as it is, and asks only for a batch that it read. -/
theorem proceed_cases (p : PushPass) {r : Replica} {rows : Rows} (hc : r.database.closed = false)
    (h : r.rows? = some rows) :
    ∃ p' r', p.proceed r = (p', r') ∧ r.Alike r' ∧ r'.rows? = some rows ∧
      p'.collection = p.collection ∧
      ∀ batch, p'.request? = some batch → p.request? = some batch ∨
        p.phase = .reading ∧ Reads p.collection p.limit rows batch := by
  unfold proceed
  cases hp : p.phase with
  | reading =>
    dsimp only
    rw [Replica.exec_pending hc h]
    cases hd : Replica.decode Row.mutation ((rows.pending p.collection).take p.limit) with
    | error e => exact ⟨_, r, rfl, r.alike_refl, h, rfl, fun batch hb => by cases hb⟩
    | ok ms =>
      cases ms with
      | nil => exact ⟨_, r, rfl, r.alike_refl, h, rfl, fun batch hb => by cases hb⟩
      | cons m ms =>
        refine ⟨_, r, rfl, r.alike_refl, h, rfl, fun batch hb => .inr ⟨rfl, m :: ms, ?_, ?_⟩⟩
        · exact (Replica.decode_eq_ok.1 hd).2
        · exact (Option.some.inj hb).symm
  | closing error =>
    obtain ⟨out, m, he⟩ := p.exec_count r
    dsimp only
    rw [he]
    exact ⟨_, _, rfl, r.alike_refl.of_metrics m, h, rfl, fun batch hb => by cases hb⟩
  | asking batch read =>
    refine ⟨p, r, rfl, r.alike_refl, h, rfl, fun batch' hb => .inl ?_⟩
    exact hb
  | done result =>
    refine ⟨p, r, rfl, r.alike_refl, h, rfl, fun batch' hb => .inl ?_⟩
    exact hb

/-- An answer without a request changes nothing. -/
theorem answered_of_none {p : PushPass} (h : p.request? = none)
    (answer : Except SyncError PushAnswer) (r : Replica) : p.answered answer r = (p, r) := by
  unfold request? at h
  unfold answered
  split at h
  · cases h
  · rfl

theorem phase_of_request? {p : PushPass} {batch : List Mutation} (hp : p.request? = some batch) :
    ∃ read, p.phase = .asking batch read := by
  unfold request? at hp
  split at hp
  · rename_i b read heq
    exact ⟨read, by rw [heq, Option.some.inj hp]⟩
  · cases hp

/-- No request is under way after an answer. -/
theorem request?_answered (p : PushPass) (answer : Except SyncError PushAnswer) (r : Replica) :
    (p.answered answer r).1.request? = none := by
  cases hp : p.request? with
  | none =>
    rw [answered_of_none hp]
    exact hp
  | some batch =>
    obtain ⟨read, hphase⟩ := phase_of_request? hp
    unfold answered
    rw [hphase]
    cases answer with
    | error e => rfl
    | ok a =>
      rcases he : (Reconcile.apply p.collection p.maxRetries batch a).exec r with ⟨_ | part, r'⟩
      · simp only [he]
        rfl
      · simp only [he, request?]
        split
        · split at * <;> simp_all
        · rfl

/-- An answer ends the request; it changes rows only if it came. -/
theorem answered_cases {p : PushPass} {batch : List Mutation} (hp : p.request? = some batch)
    (answer : Except SyncError PushAnswer) {r : Replica} {rows : Rows} (h : r.rows? = some rows)
    (hu : rows.Unique) :
    ∃ p' r' rows', p.answered answer r = (p', r') ∧ r.Steady r' ∧ r'.rows? = some rows' ∧
      p'.collection = p.collection ∧ p'.request? = none ∧
      match answer with
      | .error _ => rows' = rows ∧ r'.documents = r.documents
      | .ok a => Rows.Turned (Reconcile.causes a batch) rows rows' ∧
          (a.serverState = [] → r'.documents = r.documents) := by
  obtain ⟨read, hphase⟩ := phase_of_request? hp
  have hnone := p.request?_answered answer r
  unfold answered at hnone ⊢
  rw [hphase] at hnone ⊢
  cases answer with
  | error e => exact ⟨_, r, rows, rfl, r.alike_refl.toSteady, h, rfl, hnone, rfl, rfl⟩
  | ok a =>
    obtain ⟨out, r', rows', he, hr', hd, hrows', ht⟩ :=
      Reconcile.exec_apply p.collection p.maxRetries batch a h hu
    dsimp only at hnone ⊢
    rw [he] at hnone ⊢
    cases out with
    | error e => exact ⟨_, r', rows', rfl, hr', hrows', rfl, hnone, ht, hd⟩
    | ok part => exact ⟨_, r', rows', rfl, hr', hrows', rfl, hnone, ht, hd⟩

/-- What a pass was begun with. -/
def begun (p : PushPass) : String × Nat × Nat := (p.collection, p.limit, p.maxRetries)

theorem begun_proceed (p : PushPass) (r : Replica) : (p.proceed r).1.begun = p.begun := by
  unfold proceed
  split
  · split <;> rfl
  · rfl
  · rfl

theorem begun_answered (p : PushPass) (answer : Except SyncError PushAnswer) (r : Replica) :
    (p.answered answer r).1.begun = p.begun := by
  unfold answered
  split
  · split
    · rfl
    · split <;> rfl
  · rfl

end Replication.PushPass
