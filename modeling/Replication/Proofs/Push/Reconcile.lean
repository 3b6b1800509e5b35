import Replication.Proofs.Push.Batch
import Replication.Proofs.Replica.Outbox
import Replication.Push.Pass

/-!
# What an answer changes

An answer to sent mutations removes those that it takes from the outbox and counts a failed
delivery of the others. Wherever a failure stops this, the rows that changed are those of sent
mutations, and a row left only because its mutation was taken (`Reconcile.exec_apply`).
-/

namespace Replication.Reconcile

open Replica (Steady)

theorem exec_recordFailure (maxRetries : Nat) (id reason : String) {r : Replica} {rows : Rows}
    (h : r.rows? = some rows) (hu : rows.Unique) :
    ∃ out r' rows', (recordFailure maxRetries id reason).exec r = (out, r') ∧ r.Alike r' ∧
      r'.rows? = some rows' ∧ Rows.Struck [id] rows rows' := by
  have hq := Rows.struck_requeue rows id reason
  unfold recordFailure
  rw [Action.exec_bind]
  obtain ⟨out, r₁, hr₁, he, ⟨hrows, e, rfl⟩ | ⟨hrows, hout⟩⟩ := Replica.exec_requeue id reason h
  · rw [he]
    exact ⟨_, r₁, rows, rfl, hr₁, hrows, Rows.struck_refl _ _⟩
  · rw [he]
    obtain e | _ | count := out
    · exact ⟨_, r₁, _, rfl, hr₁, hrows, hq⟩
    · exact ⟨_, r₁, _, rfl, hr₁, hrows, hq⟩
    · dsimp only
      rw [Action.exec_ite]
      split
      · obtain ⟨row, hrow, hc⟩ := hout count rfl
        obtain ⟨out, r', hr', he', ⟨hrows', -⟩ | hrows'⟩ := Replica.exec_markFailed id reason hrows
        · exact ⟨out, r', _, he', hr₁.trans hr', hrows', hq⟩
        · refine ⟨out, r', _, he', hr₁.trans hr', hrows', hq.trans ?_⟩
          refine Rows.struck_markFailed reason fun x hx hf hid => ?_
          rw [Rows.eq_of_requeue hu hrow hx hf hid]
          exact hc
      · exact ⟨_, r₁, _, rfl, hr₁, hrows, hq⟩

theorem exec_recordFailures (maxRetries : Nat) (failures : List (String × String)) {r : Replica}
    {rows : Rows} (h : r.rows? = some rows) (hu : rows.Unique) :
    ∃ out r' rows', (recordFailures maxRetries failures).exec r = (out, r') ∧ r.Alike r' ∧
      r'.rows? = some rows' ∧ Rows.Struck (failures.map Prod.fst) rows rows' := by
  induction failures generalizing r rows with
  | nil => exact ⟨_, r, rows, rfl, r.alike_refl, h, Rows.struck_refl _ _⟩
  | cons f failures ih =>
    obtain ⟨id, reason⟩ := f
    obtain ⟨out, r₁, rows₁, he, hr₁, hrows₁, hs⟩ := exec_recordFailure maxRetries id reason h hu
    have hs₁ : Rows.Struck (id :: failures.map Prod.fst) rows rows₁ := hs.mono (by simp)
    unfold recordFailures
    rw [Action.exec_bind, he]
    cases out with
    | error e => exact ⟨_, r₁, rows₁, rfl, hr₁, hrows₁, hs₁⟩
    | ok dead =>
      obtain ⟨out, r', rows', he', hr', hrows', hs'⟩ := ih hrows₁ (hs.unique hu)
      have hs₂ : Rows.Struck (id :: failures.map Prod.fst) rows rows' :=
        hs₁.trans (hs'.mono fun x hx => List.mem_cons_of_mem _ hx)
      simp only [Action.exec_bind, he']
      cases out with
      | error e => exact ⟨_, r', rows', rfl, hr₁.trans hr', hrows', hs₂⟩
      | ok rest => exact ⟨_, r', rows', rfl, hr₁.trans hr', hrows', hs₂⟩

/-- Applying states of the server never fails and touches nothing but documents and counters. -/
theorem exec_applyStates (collection : String) (cs : List Change) (r : Replica) :
    ∃ n m, (applyStates collection cs).exec r =
      (.ok n, { r with documents := r.documents.applyAll collection cs, metrics := m }) := by
  induction cs generalizing r with
  | nil => exact ⟨0, r.metrics, rfl⟩
  | cons c cs ih =>
    obtain ⟨m, hm⟩ := Action.exec_applyChange collection c r
    obtain ⟨n, m', h⟩ :=
      ih { r with documents := (r.documents.apply collection c).2, metrics := m }
    unfold applyStates
    simp only [Action.exec_bind, hm, h]
    exact ⟨_, m', rfl⟩

theorem exec_announce (collection : String) (dead : List FailedMutation) (r : Replica) :
    ∃ f m, (announce collection dead).exec r =
      (.ok (), { r with failures := f, metrics := m }) := by
  unfold announce
  rw [Action.exec_ite]
  split
  · exact ⟨r.failures, r.metrics, rfl⟩
  · exact ⟨_, _, rfl⟩

theorem mem_sent_of_wasSent {sent : List Mutation} {id : String}
    (h : PushAnswer.wasSent sent id = true) : id ∈ sent.map Mutation.id := by
  unfold PushAnswer.wasSent at h
  simpa using h

theorem mem_sent_of_taken {a : PushAnswer} {sent : List Mutation} {id : String}
    (h : id ∈ a.taken sent) : id ∈ sent.map Mutation.id :=
  mem_sent_of_wasSent (List.mem_filter.1 h).2

theorem mem_sent_of_refused {a : PushAnswer} {sent : List Mutation} {id : String}
    (h : id ∈ (a.refused sent).map Rejection.id) : id ∈ sent.map Mutation.id := by
  obtain ⟨x, hx, rfl⟩ := List.mem_map.1 h
  exact mem_sent_of_wasSent (List.mem_filter.1 hx).2

theorem mem_sent_of_unanswered {a : PushAnswer} {sent : List Mutation} {id : String}
    (h : id ∈ a.unanswered sent) : id ∈ sent.map Mutation.id := by
  unfold PushAnswer.unanswered at h
  have h := List.mem_mergeSort.1 h
  exact List.mem_eraseDups.1 (List.mem_filter.1 h).1

/-- Why an answer to sent mutations changes rows. -/
def causes (a : PushAnswer) (sent : List Mutation) : Row.Causes :=
  { taken := a.taken sent, struck := sent.map Mutation.id }

/-- An answer changes rows of sent mutations only, wherever it stops, and documents only for states
of the server that it holds. -/
theorem exec_apply (collection : String) (maxRetries : Nat) (sent : List Mutation) (a : PushAnswer)
    {r : Replica} {rows : Rows} (h : r.rows? = some rows) (hu : rows.Unique) :
    ∃ out r' rows', (apply collection maxRetries sent a).exec r = (out, r') ∧ r.Steady r' ∧
      (a.serverState = [] → r'.documents = r.documents) ∧ r'.rows? = some rows' ∧
      Rows.Turned (causes a sent) rows rows' := by
  unfold apply
  simp only [Action.exec_bind]
  obtain ⟨r₁, hr₁, ⟨he, hrows₁⟩ | ⟨he, hrows₁⟩⟩ := Replica.exec_acknowledge (a.taken sent) h
  · rw [he]
    exact ⟨_, r₁, rows, rfl, hr₁.toSteady, fun _ => hr₁.documents, hrows₁, Rows.turned_refl _ _⟩
  · rw [he]
    have hu₁ : (rows.acknowledge (a.taken sent)).2.Unique :=
      (List.filter_sublist.map Row.id).nodup hu
    dsimp only
    obtain ⟨out, r₂, rows₂, he₂, hr₂, hrows₂, hs₂⟩ := exec_recordFailures maxRetries
      ((a.refused sent).map fun r => (r.id, r.reason)) hrows₁ hu₁
    have hs₂' : Rows.Struck (sent.map Mutation.id) (rows.acknowledge (a.taken sent)).2 rows₂ :=
      hs₂.mono fun id hid => mem_sent_of_refused (by simpa using hid)
    have hr₂ := hr₁.trans hr₂
    rw [he₂]
    cases out with
    | error e =>
      exact ⟨_, r₂, rows₂, rfl, hr₂.toSteady, fun _ => hr₂.documents, hrows₂,
        Rows.turned_acknowledge_struck hs₂'⟩
    | ok deadRefused =>
      dsimp only
      obtain ⟨out, r₃, rows₃, he₃, hr₃, hrows₃, hs₃⟩ := exec_recordFailures maxRetries
        ((a.unanswered sent).map fun id => (id, unansweredReason)) hrows₂ (hs₂.unique hu₁)
      have hs₃' : Rows.Struck (sent.map Mutation.id) (rows.acknowledge (a.taken sent)).2 rows₃ :=
        hs₂'.trans (hs₃.mono fun id hid => mem_sent_of_unanswered (by simpa using hid))
      have hr₃ := hr₂.trans hr₃
      rw [he₃]
      cases out with
      | error e =>
        exact ⟨_, r₃, rows₃, rfl, hr₃.toSteady, fun _ => hr₃.documents, hrows₃,
          Rows.turned_acknowledge_struck hs₃'⟩
      | ok deadSilent =>
        dsimp only
        obtain ⟨n, m, he₄⟩ := exec_applyStates collection a.serverState r₃
        rw [he₄]
        dsimp only
        obtain ⟨f, m', he₅⟩ := exec_announce collection (deadRefused ++ deadSilent)
          { r₃ with
            documents := r₃.documents.applyAll collection a.serverState
            metrics := m }
        rw [he₅]
        exact ⟨_, _, rows₃, rfl, ⟨hr₃.kept, hr₃.closed, hr₃.locked, hr₃.handed⟩,
          fun hs => hs ▸ hr₃.documents, hrows₃, Rows.turned_acknowledge_struck hs₃'⟩

/-- An answer that takes everything removes just that, if nothing stops it. -/
theorem exec_apply_all (collection : String) (maxRetries : Nat) (sent : List Mutation)
    {r : Replica} {rows : Rows} (hr : r.Free) (h : r.rows? = some rows) :
    ∃ r', r.Alike r' ∧ r'.rows? = some (rows.acknowledge (sent.map Mutation.id)).2 ∧
      (apply collection maxRetries sent (.all sent)).exec r =
        (.ok { accepted := sent.map Mutation.id }, r') := by
  obtain ⟨r', hr', he, hrows⟩ := Replica.exec_acknowledge_admitted (sent.map Mutation.id)
    hr.writable.admits h
  refine ⟨r', hr', hrows, ?_⟩
  unfold apply
  simp only [Action.exec_bind, PushAnswer.taken_all, PushAnswer.refused_all,
    PushAnswer.unanswered_all, he]
  rfl

end Replication.Reconcile
