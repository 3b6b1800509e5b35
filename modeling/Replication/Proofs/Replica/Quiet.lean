import Replication.Collection.Pass
import Replication.Proofs.Metrics
import Replication.Proofs.Pull.Outcome
import Replication.Proofs.Replica.Action

/-!
# Actions that send no notice

A replica sends notices of two kinds: of mutations that were queued, and of mutations that were
given up, which it also counts. What else passes do is not heard on these channels: every view of a
replica that looks at its notices only is kept (`Replica.Heard`, `Action.Keeps`). Writing to the
tables leaves the documents as well (`Replica.Unwritten`).

Of all that passes do only `Reconcile.announce` sends notices, those of given up mutations. So
passes are quiet: they leave the channel of queued mutations as it is (`Pass.enqueued_proceed`,
`Pass.enqueued_answered`).
-/

namespace Replication

variable {α β σ : Type}

namespace Replica

/-- A view of the notices of a replica: it looks at nothing but its channels and its counters of
given up mutations. -/
def Heard (view : Replica → σ) : Prop :=
  ∀ r r' : Replica, r'.enqueued = r.enqueued → r'.failures = r.failures →
    r'.metrics.deadLetters = r.metrics.deadLetters → view r' = view r

/-- A view that writes to the tables keep: it looks at neither the tables nor any counters but those
of given up mutations. -/
def Unwritten (view : Replica → σ) : Prop :=
  ∀ r t n m, m.deadLetters = r.metrics.deadLetters → view (r.written t n m) = view r

theorem Heard.unwritten {view : Replica → σ} (h : Heard view) : Unwritten view :=
  fun r _ _ _ hm => h r _ rfl rfl hm

theorem unwritten_documents : Unwritten documents := fun _ _ _ _ _ => rfl

theorem heard_enqueued : Heard enqueued := fun _ _ h _ _ => h

/-- The mutations that were made known as given up, and how many were counted as such. -/
def announced (r : Replica) : Channel FailedMutation × (String → Nat) :=
  (r.failures, r.metrics.deadLetters)

theorem heard_announced : Heard announced := by
  intro r r' _ hf hd
  unfold announced
  rw [hf, hd]

end Replica

open Replica (Heard Unwritten)

namespace Action

/-- The action leaves a view of the replica as it is, whatever becomes of it. -/
def Keeps (view : Replica → σ) (a : Action α) : Prop := ∀ r, view (a.exec r).2 = view r

/-- The action leaves a view of the replica as it is if it fails. -/
def KeepsIfFails (view : Replica → σ) (a : Action α) : Prop :=
  ∀ r e r', a.exec r = (.error e, r') → view r' = view r

/-- The action says nothing on the channel of queued mutations, whatever becomes of it. -/
def Quiet (a : Action α) : Prop := ∀ r, (a.exec r).2.enqueued = r.enqueued

section keeps

variable {view : Replica → σ}

theorem Keeps.of_exec {a : Action α} (h : a.Keeps view) {r r' : Replica} {x : Except SyncError α}
    (he : a.exec r = (x, r')) : view r' = view r := by
  have hr := h r
  rw [he] at hr
  exact hr

theorem keeps_pure (x : α) : (pure x : Action α).Keeps view := fun _ => rfl

theorem keeps_throw (e : SyncError) : (throw e : Action α).Keeps view := fun _ => rfl

theorem Keeps.bind {a : Action α} {f : α → Action β} (ha : a.Keeps view)
    (hf : ∀ x, (f x).Keeps view) : (a >>= f).Keeps view := by
  intro r
  have h := ha r
  rw [exec_bind]
  rcases he : a.exec r with ⟨e | x, r'⟩
  · rw [he] at h
    exact h
  · rw [he] at h
    exact (hf x r').trans h

/-- What is done first is kept also if it succeeds and what follows fails. -/
theorem Keeps.bind_ifFails {a : Action α} {f : α → Action β} (ha : a.Keeps view)
    (hf : ∀ x, (f x).KeepsIfFails view) : (a >>= f).KeepsIfFails view := by
  intro r e r' he
  rw [exec_bind] at he
  rcases hx : a.exec r with ⟨e' | x, r₁⟩
  · rw [hx] at he
    obtain rfl := (Prod.mk.inj he).2
    exact ha.of_exec hx
  · rw [hx] at he
    exact (hf x r₁ e r' he).trans (ha.of_exec hx)

theorem Keeps.attempt {a : Action α} (ha : a.Keeps view) : (attempt a).Keeps view := fun r => ha r

theorem keeps_get : (get : Action Replica).Keeps view := fun _ => rfl

theorem keeps_modify {f : Replica → Replica} (hf : ∀ r, view (f r) = view r) :
    (modify f : Action PUnit).Keeps view := hf

theorem keeps_query (f : Tables → Option α) : (query f).Keeps view := by
  intro r
  rw [exec_query]

theorem keeps_lift (x : Except SyncError α) : (Replica.lift x).Keeps view := by
  cases x with
  | ok x => exact keeps_pure x
  | error e => exact keeps_throw e

theorem keeps_measure (hv : Unwritten view) {f : Metrics → Metrics}
    (hf : ∀ m, (f m).deadLetters = m.deadLetters) : (measure f).Keeps view :=
  fun r => hv r r.database.tables r.database.attempts _ (hf r.metrics)

theorem keeps_write (hv : Unwritten view) (operation : String)
    (f : Tables → Option (α × Tables)) : (write operation f).Keeps view := by
  intro r
  have hretries (n : Nat) (m : Metrics) :
      ((List.range n).foldl (fun m _ => m.writeRetry operation) m).deadLetters =
        m.deadLetters := by
    induction n with
    | zero => rfl
    | succ n ih =>
      rw [List.range_succ, List.foldl_append, List.foldl_cons, List.foldl_nil,
        Metrics.deadLetters_writeRetry, ih]
  have hdead : ((write operation f).exec r).2.metrics.deadLetters = r.metrics.deadLetters := by
    obtain ⟨n, hn⟩ := metrics_write operation f r
    rw [hn, hretries]
  rcases exec_write operation f r with ⟨n, m, h⟩ | ⟨x, t, n, m, -, h⟩
  · rw [h] at hdead ⊢
    exact hv r _ n m hdead
  · rw [h] at hdead ⊢
    exact hv r t n m hdead

theorem keeps_applyChange (hv : Heard view) (collection : String) (c : Change) :
    (applyChange collection c).Keeps view := by
  intro r
  unfold applyChange
  rw [exec_bind, exec_get]
  simp only [exec_bind, exec_set, exec_ite, exec_measure, exec_pure]
  split
  · exact hv r _ rfl rfl (Metrics.deadLetters_applyFailure _ _)
  · exact hv r _ rfl rfl rfl

end keeps

theorem quiet_write (operation : String) (f : Tables → Option (α × Tables)) :
    (write operation f).Quiet :=
  keeps_write Replica.heard_enqueued.unwritten operation f

end Action

/-! ## What passes do to a replica -/

section actions

variable {view : Replica → σ} (hv : Unwritten view)

namespace Replica

theorem keeps_pending (collection : String) (limit : Nat) :
    (pending collection limit).Keeps view :=
  (Action.keeps_query _).bind fun _ => Action.keeps_lift _

theorem keeps_pendingCount (collection : String) : (pendingCount collection).Keeps view :=
  Action.keeps_query _

include hv

omit hv in
/-- What is queued is not announced. -/
theorem keeps_enqueue (m : Mutation) : (enqueue m).Keeps announced := by
  have hv := heard_announced.unwritten
  refine (Action.keeps_write hv _ _).bind fun inserted => ?_
  split
  · refine (Action.keeps_measure hv fun _ => Metrics.deadLetters_outboxEnqueued _ _).bind fun _ =>
      Action.keeps_modify ?_
    intro r
    rfl
  · exact Action.keeps_pure _

theorem keeps_acknowledge (ids : List String) : (acknowledge ids).Keeps view := by
  unfold acknowledge
  split
  · exact Action.keeps_pure 0
  · exact Action.keeps_write hv _ _

theorem keeps_requeue (id reason : String) : (requeue id reason).Keeps view := by
  refine (Action.keeps_write hv _ _).bind fun row => ?_
  cases row with
  | none => exact Action.keeps_pure none
  | some row =>
    dsimp only
    split
    · exact Action.keeps_pure _
    · exact Action.keeps_throw _

theorem keeps_markFailed (id reason : String) : (markFailed id reason).Keeps view :=
  (Action.keeps_write hv _ _).bind fun _ => (Action.keeps_lift _).bind fun _ => Action.keeps_pure _

theorem keeps_discard (ids : List String) : (discard ids).Keeps view := by
  induction ids with
  | nil => exact Action.keeps_pure 0
  | cons id ids ih =>
    exact (Action.keeps_write hv _ _).bind fun _ => ih.bind fun _ => Action.keeps_pure _

omit hv in
theorem keeps_setCheckpoint (hv : Heard view) (collection : String) (next : Checkpoint) :
    (setCheckpoint collection next).Keeps view := by
  refine Action.keeps_get.bind fun r => ?_
  dsimp only
  split
  · exact Action.keeps_throw _
  · exact Action.keeps_pure _
  · refine (Action.keeps_write hv.unwritten _ _).attempt.bind fun outcome => ?_
    split
    · refine (Action.keeps_modify ?_).bind fun _ =>
        Action.keeps_measure hv.unwritten fun m => m.deadLetters_checkpointPersist collection true
      intro r
      exact hv r _ rfl rfl rfl
    · exact (Action.keeps_measure hv.unwritten fun m =>
        m.deadLetters_checkpointPersist collection false).bind fun _ => Action.keeps_throw _

end Replica

namespace Reconcile

include hv

theorem keeps_recordFailure (maxRetries : Nat) (id reason : String) :
    (recordFailure maxRetries id reason).Keeps view := by
  refine (Replica.keeps_requeue hv id reason).bind fun count => ?_
  cases count with
  | none => exact Action.keeps_pure none
  | some count =>
    dsimp only
    split
    · exact Replica.keeps_markFailed hv id reason
    · exact Action.keeps_pure none

theorem keeps_recordFailures (maxRetries : Nat) (failures : List (String × String)) :
    (recordFailures maxRetries failures).Keeps view := by
  induction failures with
  | nil => exact Action.keeps_pure []
  | cons f failures ih =>
    exact (keeps_recordFailure hv maxRetries f.1 f.2).bind fun dead =>
      ih.bind fun rest => Action.keeps_pure _

omit hv in
theorem keeps_applyStates (hv : Heard view) (collection : String) (cs : List Change) :
    (applyStates collection cs).Keeps view := by
  induction cs with
  | nil => exact Action.keeps_pure 0
  | cons c cs ih =>
    exact (Action.keeps_applyChange hv collection c).bind fun refused =>
      ih.bind fun n => Action.keeps_pure _

omit hv in
theorem quiet_announce (collection : String) (dead : List FailedMutation) :
    (announce collection dead).Quiet := by
  intro r
  unfold announce
  split
  · rfl
  · rfl

omit hv in
theorem quiet_apply (collection : String) (maxRetries : Nat) (sent : List Mutation)
    (a : PushAnswer) : (apply collection maxRetries sent a).Quiet := by
  have hv := Replica.heard_enqueued
  have h : (apply collection maxRetries sent a).Keeps Replica.enqueued :=
    (Replica.keeps_acknowledge hv.unwritten _).bind fun _ =>
      (keeps_recordFailures hv.unwritten maxRetries _).bind fun _ =>
        (keeps_recordFailures hv.unwritten maxRetries _).bind fun _ =>
          (keeps_applyStates hv collection _).bind fun _ =>
            Action.Keeps.bind (quiet_announce collection _) fun _ => Action.keeps_pure _
  exact h

end Reconcile

namespace PushPass

include hv

theorem keeps_count (p : PushPass) : p.count.Keeps view := by
  refine (Action.keeps_measure hv fun m => m.deadLetters_pushPass _ _ _).bind fun _ =>
    (Replica.keeps_pendingCount p.collection).attempt.bind fun depth => ?_
  cases depth with
  | ok depth => exact Action.keeps_measure hv fun m => m.deadLetters_outboxDepth _ depth
  | error e => exact Action.keeps_pure _

theorem keeps_proceed (p : PushPass) (r : Replica) : view (p.proceed r).2 = view r := by
  unfold proceed
  split
  · have h : view _ = view r := Replica.keeps_pending p.collection p.limit r
    split <;> simp_all
  · exact p.keeps_count hv r
  · rfl

end PushPass

end actions

/-! ## Passes -/

namespace PullPass

theorem enqueued_answered (p : PullPass) (answer : Except SyncError Page) (r : Replica) :
    (p.answered answer r).2.enqueued = r.enqueued := by
  unfold answered
  cases answer with
  | error e => rfl
  | ok page =>
    dsimp only
    split
    · rfl
    · split <;> rfl

theorem enqueued_saveTo (p : PullPass) (next : Option Checkpoint) (r : Replica) :
    (p.saveTo next r).2.enqueued = r.enqueued := by
  unfold saveTo
  cases next with
  | none => rfl
  | some next =>
    dsimp only
    split
    · have h := Replica.keeps_setCheckpoint Replica.heard_enqueued p.collection next r
      split <;> simp_all
    · rfl

theorem enqueued_proceed (p : PullPass) (r : Replica) :
    (p.proceed r).2.enqueued = r.enqueued := by
  unfold proceed
  split
  · rename_i page hp
    obtain ⟨m, h⟩ := applyAll_eq p.collection page.changes {} r
    simp only [h]
  · rename_i page o hp
    have h := p.enqueued_saveTo (o.reaches? page) r
    split
    · simp_all
    · dsimp only
      split <;> simp_all [complete]
  · rfl

end PullPass

namespace PushPass

theorem enqueued_answered (p : PushPass) (answer : Except SyncError PushAnswer) (r : Replica) :
    (p.answered answer r).2.enqueued = r.enqueued := by
  unfold answered
  split
  · rename_i batch read hp
    cases answer with
    | error e => rfl
    | ok a =>
      have h := Reconcile.quiet_apply p.collection p.maxRetries batch a r
      dsimp only
      split <;> simp_all
  · rfl

end PushPass

namespace Pass

/-- The reply to a request of a pass queues nothing. -/
theorem enqueued_answered (p : Pass) (reply : Reply) (r : Replica) :
    (p.answered reply r).2.enqueued = r.enqueued := by
  cases p with
  | pull p => cases reply with
    | page x => exact p.enqueued_answered x r
    | answer x => rfl
  | push p => cases reply with
    | page x => rfl
    | answer x => exact p.enqueued_answered x r

/-- A step of a pass on its own queues nothing. -/
theorem enqueued_proceed (p : Pass) (r : Replica) : (p.proceed r).2.enqueued = r.enqueued := by
  cases p with
  | pull p => exact p.enqueued_proceed r
  | push p => exact p.keeps_proceed Replica.heard_enqueued.unwritten r

end Pass

end Replication
