import Replication.Proofs.Push.Pass
import Replication.Proofs.Replica.Locality
import Replication.Pull.Pass

/-!
# Passes are local

Every step of a pass is local to the collection of the pass (`Local`): a step of a pull pass changes
no row, and the answer to a push changes rows of mutations that were sent and no others, whichever
it names. The mutations of a request have rows in the collection of the pass only
(`PushPass.Rightful`), since they were read from there.
-/

namespace Replication

namespace Local

variable {collection : String} {ids : List String}

/-! ## Reconciling an answer -/

theorem recordFailure {id : String} (hid : id ∈ ids) (maxRetries : Nat) (reason : String) :
    Local collection ids (Reconcile.recordFailure maxRetries id reason).exec := by
  refine (requeue hid reason).bind fun count => ?_
  cases count with
  | none => exact pure none
  | some count => exact ite (markFailed hid reason) (pure none)

theorem recordFailures (maxRetries : Nat) {failures : List (String × String)}
    (h : ∀ f ∈ failures, f.1 ∈ ids) :
    Local collection ids (Reconcile.recordFailures maxRetries failures).exec := by
  induction failures with
  | nil => exact pure []
  | cons f failures ih =>
    obtain ⟨hf, hfailures⟩ := List.forall_mem_cons.1 h
    exact (recordFailure hf maxRetries f.2).bind fun dead =>
      (ih hfailures).bind fun rest => pure _

theorem applyStates (cs : List Change) :
    Local collection ids (Reconcile.applyStates collection cs).exec := by
  induction cs with
  | nil => exact pure 0
  | cons c cs ih => exact (applyChange c).bind fun refused => ih.bind fun n => pure _

theorem announce (dead : List FailedMutation) :
    Local collection ids (Reconcile.announce collection dead).exec :=
  ite (pure ()) ((measure _).bind fun _ => of_kept _ fun _ => ⟨rfl, rfl, rfl⟩)

/-- Whatever an answer names, only mutations that were sent are touched. -/
theorem apply (maxRetries : Nat) {sent : List Mutation} (hs : sent.map Mutation.id ⊆ ids)
    (a : PushAnswer) :
    Local collection ids (Reconcile.apply collection maxRetries sent a).exec := by
  have hrefused : ∀ f ∈ (a.refused sent).map fun r => (r.id, r.reason), f.1 ∈ ids := by
    intro f hf
    obtain ⟨r, hr, rfl⟩ := List.mem_map.1 hf
    exact hs (Reconcile.mem_sent_of_refused (List.mem_map_of_mem hr))
  have hsilent : ∀ f ∈ (a.unanswered sent).map fun id => (id, Reconcile.unansweredReason),
      f.1 ∈ ids := by
    intro f hf
    obtain ⟨id, hid, rfl⟩ := List.mem_map.1 hf
    exact hs (Reconcile.mem_sent_of_unanswered hid)
  exact (acknowledge fun id hid => hs (Reconcile.mem_sent_of_taken hid)).bind fun _ =>
    (recordFailures maxRetries hrefused).bind fun _ =>
      (recordFailures maxRetries hsilent).bind fun _ =>
        (applyStates a.serverState).bind fun _ => (announce _).bind fun _ => pure _

end Local

/-! ## Push passes -/

namespace PushPass

open Replica (Owns Sole)

variable {collection : String} {ids : List String} {p : PushPass}

/-- The mutations that a pass asks for. -/
def asked (p : PushPass) : List String := (p.request?.getD []).map Mutation.id

theorem asked_of_some {batch : List Mutation} (h : p.request? = some batch) :
    p.asked = batch.map Mutation.id := by
  rw [asked, h]
  rfl

theorem asked_of_none (h : p.request? = none) : p.asked = [] := by
  rw [asked, h]
  rfl

theorem local_count (p : PushPass) : Local p.collection ids p.count.exec := by
  refine (Local.measure _).bind fun _ => (Local.pendingCount.attempt).bind fun depth => ?_
  cases depth with
  | ok depth => exact Local.measure _
  | error e => exact Local.pure ()

theorem local_proceed (hp : p.collection = collection) : Local collection ids p.proceed := by
  subst hp
  cases hphase : p.phase with
  | reading =>
    refine (Local.pending p.limit).followed fun out => ?_
    rcases out with e | _ | ⟨m, ms⟩
    · refine ⟨_, Local.of_pure { p with phase := .closing (some e) }, fun r r' hr => ?_⟩
      simp only [proceed, hphase, hr]
    · refine ⟨_, Local.of_pure { p with phase := .closing none }, fun r r' hr => ?_⟩
      simp only [proceed, hphase, hr]
    · refine ⟨_, Local.of_pure { p with
        phase := .asking (deliverable (m :: ms)) (m :: ms).length }, fun r r' hr => ?_⟩
      simp only [proceed, hphase, hr]
  | closing error =>
    refine p.local_count.followed fun out => ?_
    refine ⟨_, Local.of_pure { p with phase := .done (error.elim (.ok p.report) .error) },
      fun r r' hr => ?_⟩
    cases error with
    | none => simp only [proceed, hphase, hr, Option.elim_none]
    | some e => simp only [proceed, hphase, hr, Option.elim_some]
  | _ =>
    refine Local.of_still (x := p) fun r => ?_
    unfold proceed
    rw [hphase]

theorem local_answered (hp : p.collection = collection) (answer : Except SyncError PushAnswer) :
    Local collection p.asked (p.answered answer) := by
  subst hp
  cases hq : p.request? with
  | none => exact Local.of_still fun r => answered_of_none hq answer r
  | some batch =>
    obtain ⟨read, hphase⟩ := phase_of_request? hq
    cases answer with
    | error e =>
      refine Local.of_still (x := { p with phase := .closing (some e) }) fun r => ?_
      unfold answered
      rw [hphase]
    | ok a =>
      have hids : batch.map Mutation.id ⊆ p.asked := by
        rw [asked_of_some hq]
        exact List.Subset.refl _
      refine (Local.apply p.maxRetries hids a).followed fun out => ?_
      cases out with
      | error e =>
        refine ⟨_, Local.of_pure { p with phase := .closing (some e) }, fun r r' hr => ?_⟩
        simp only [answered, hphase, hr]
      | ok part =>
        let phase : PushPhase :=
          if continues p.limit read batch.length part then .reading else .closing none
        refine ⟨_, Local.of_pure { p with report := p.report.merge part, phase },
          fun r r' hr => ?_⟩
        simp only [answered, hphase, hr, phase]

theorem collection_proceed (p : PushPass) (r : Replica) :
    (p.proceed r).1.collection = p.collection := congrArg (·.1) (p.begun_proceed r)

theorem collection_answered (p : PushPass) (answer : Except SyncError PushAnswer) (r : Replica) :
    (p.answered answer r).1.collection = p.collection :=
  congrArg (·.1) (p.begun_answered answer r)

theorem collection_settle (p : PushPass) (r : Replica) :
    (p.settle r).1.collection = p.collection :=
  (collection_proceed _ _).trans (p.collection_proceed r)

theorem collection_receive (p : PushPass) (answer : Except SyncError PushAnswer) (r : Replica) :
    (p.receive answer r).1.collection = p.collection :=
  (collection_settle _ _).trans (p.collection_answered answer r)

theorem local_settle (hp : p.collection = collection) : Local collection ids p.settle :=
  (local_proceed hp).andThen fun r => local_proceed ((p.collection_proceed r).trans hp)

theorem local_receive (hp : p.collection = collection) (answer : Except SyncError PushAnswer) :
    Local collection p.asked (p.receive answer) :=
  (local_answered hp answer).andThen fun r =>
    local_settle ((p.collection_answered answer r).trans hp)

/-! ### What is asked for -/

/-- A pass of a collection asks for mutations that have rows in that collection only. -/
structure Rightful (collection : String) (p : PushPass) (r : Replica) : Prop where
  own : p.collection = collection
  owns : r.Owns collection p.asked

theorem exec_pending_ok {limit : Nat} {r r' : Replica} {ms : List Mutation}
    (h : (Replica.pending collection limit).exec r = (.ok ms, r')) :
    r' = r ∧ ∃ rows, r.rows? = some rows ∧
      List.Forall₂ (fun row m => row.mutation = .ok m)
        ((rows.pending collection).take limit) ms := by
  obtain ⟨read, r₁, hq, hl⟩ := Action.exec_bind_eq_ok h
  rw [Action.exec_query] at hq
  rw [Replica.exec_lift] at hl
  obtain ⟨hout, rfl⟩ := Prod.mk.inj hq
  obtain ⟨hdecode, rfl⟩ := Prod.mk.inj hl
  refine ⟨rfl, ?_⟩
  cases hrows : r.database.tables.outbox with
  | none =>
    rw [hrows] at hout
    split at hout <;> cases hout
  | some rows =>
    rw [hrows] at hout
    split at hout
    · cases hout
    · obtain rfl := Except.ok.inj hout
      exact ⟨rows, hrows, (Replica.decode_eq_ok.1 hdecode).2⟩

theorem Reads.owns {limit : Nat} {rows : Rows} {batch : List Mutation}
    (h : Reads collection limit rows batch) (hu : rows.Unique) :
    rows.Owns collection (batch.map Mutation.id) := by
  intro row hrow hid
  obtain ⟨m, hm, hid⟩ := List.mem_map.1 hid
  obtain ⟨row', hrow', -, hc, hread⟩ := exists_row_of_reads h hm
  obtain rfl := hu.eq hrow' hrow ((Row.mutation_eq_ok hread).1.symm.trans hid)
  exact hc

/-- A step of its own asks for what it reads, or for what was asked. -/
theorem Rightful.proceed {r : Replica} (h : p.Rightful collection r) (hr : r.Sole) :
    (p.proceed r).1.Rightful collection (p.proceed r).2 := by
  refine ⟨(p.collection_proceed r).trans h.own, ?_⟩
  unfold PushPass.proceed
  cases hphase : p.phase with
  | reading =>
    dsimp only
    rcases he : (Replica.pending p.collection p.limit).exec r with ⟨_ | _ | ⟨m, ms⟩, r'⟩
    · exact r'.owns_nil collection
    · exact r'.owns_nil collection
    · rw [h.own] at he
      obtain ⟨rfl, rows, hrows, hread⟩ := exec_pending_ok he
      intro rows' hrows'
      obtain rfl := Option.some.inj (hrows.symm.trans hrows')
      have hreads : Reads collection p.limit rows (deliverable (m :: ms)) := ⟨m :: ms, hread, rfl⟩
      exact hreads.owns (hr rows hrows)
  | closing error => exact Replica.owns_nil collection _
  | _ => exact h.owns

theorem Rightful.settle {r : Replica} (h : p.Rightful collection r) (hr : r.Sole) :
    (p.settle r).1.Rightful collection (p.settle r).2 := by
  have hconfined : r.Confined collection [] (p.proceed r).2 :=
    (local_proceed h.own).confined r (r.owns_nil collection)
  exact (h.proceed hr).proceed (hconfined.sole hr)

theorem Rightful.receive {r : Replica} (h : p.Rightful collection r) (hr : r.Sole)
    (answer : Except SyncError PushAnswer) :
    (p.receive answer r).1.Rightful collection (p.receive answer r).2 := by
  have hconfined := (local_answered h.own answer).confined r h.owns
  have hnext : (p.answered answer r).1.Rightful collection (p.answered answer r).2 := by
    refine ⟨(p.collection_answered answer r).trans h.own, ?_⟩
    rw [asked_of_none (p.request?_answered answer r)]
    exact Replica.owns_nil collection _
  exact hnext.settle (hconfined.sole hr)

end PushPass

/-! ## Pull passes -/

namespace PullPass

variable {collection : String} {p : PullPass}

theorem local_applyAll (cs : List Change) (o : PageOutcome) :
    Local collection [] (applyAll collection cs o) := by
  induction cs generalizing o with
  | nil => exact Local.of_pure o
  | cons c cs ih =>
    refine (Local.applyChange c).followed fun out => ?_
    cases out with
    | error e => exact ⟨_, ih o, fun r r' hr => by rw [applyAll, hr]⟩
    | ok refused => exact ⟨_, ih (o.record c refused), fun r r' hr => by rw [applyAll, hr]⟩

theorem local_complete (p : PullPass) : Local collection [] p.complete :=
  Local.of_kept _ fun _ => ⟨rfl, rfl, rfl⟩

theorem local_saveTo (hp : p.collection = collection) (next : Option Checkpoint) :
    Local collection [] (p.saveTo next) := by
  subst hp
  cases next with
  | none => exact Local.of_pure _
  | some q =>
    by_cases hq : p.position.all q.isAfter = true
    · refine (Local.setCheckpoint q).followed fun out => ?_
      cases out with
      | error e =>
        refine ⟨_, Local.of_pure (.error e), fun r r' hr => ?_⟩
        simp only [saveTo, hq, hr, if_true]
      | ok u =>
        refine ⟨_, Local.of_pure (.ok { p with position := some q }), fun r r' hr => ?_⟩
        simp only [saveTo, hq, hr, if_true]
    · refine Local.of_still (x := .ok p) fun r => ?_
      dsimp only [saveTo]
      rw [if_neg hq]

theorem local_answered (answer : Except SyncError Page) :
    Local collection [] (p.answered answer) := by
  cases answer with
  | error e => exact Local.of_pure _
  | ok page =>
    unfold answered
    dsimp only
    cases page.fault? p.collection p.position with
    | some fault => exact Local.of_pure _
    | none =>
      cases page.changes.isEmpty with
      | true => exact local_complete _
      | false => exact Local.of_pure _

theorem local_proceed (hp : p.collection = collection) : Local collection [] p.proceed := by
  subst hp
  cases hphase : p.phase with
  | applying page =>
    refine (local_applyAll page.changes {}).followed fun o => ?_
    refine ⟨_, Local.of_pure { p with
      report := { p.report with applied := p.report.applied + o.applied }
      phase := .saving page o }, fun r r' hr => ?_⟩
    simp only [proceed, hphase, hr]
  | saving page o =>
    refine (local_saveTo rfl (o.reaches? page)).followed fun out => ?_
    cases out with
    | error e =>
      exact ⟨_, Local.of_pure (p.failed e), fun r r' hr => by simp only [proceed, hphase, hr]⟩
    | ok p' =>
      let told : PullPass :=
        { p' with report := { p'.report with failures := p'.report.failures ++ o.failures } }
      by_cases hfull : (o.failures.isEmpty && told.limit ≤ page.changes.length) = true
      · refine ⟨_, Local.of_pure { told with phase := .asking }, fun r r' hr => ?_⟩
        simp only [proceed, hphase, hr]
        rw [if_pos hfull]
      · refine ⟨_, local_complete told, fun r r' hr => ?_⟩
        simp only [proceed, hphase, hr]
        rw [if_neg hfull]
  | _ =>
    refine Local.of_still (x := p) fun r => ?_
    unfold proceed
    rw [hphase]

theorem collection_saveTo {next : Option Checkpoint} {r r' : Replica} {p' : PullPass}
    (h : p.saveTo next r = (.ok p', r')) : p'.collection = p.collection := by
  unfold saveTo at h
  split at h
  · obtain rfl := Except.ok.inj (Prod.mk.inj h).1
    rfl
  split at h
  · split at h
    · obtain rfl := Except.ok.inj (Prod.mk.inj h).1
      rfl
    · cases h
  · obtain rfl := Except.ok.inj (Prod.mk.inj h).1
    rfl

theorem collection_proceed (p : PullPass) (r : Replica) :
    (p.proceed r).1.collection = p.collection := by
  unfold proceed
  split
  · rfl
  · split
    · rfl
    · rename_i hs
      have hown := collection_saveTo hs
      dsimp only
      split
      · exact hown
      · exact hown
  · rfl

theorem collection_answered (p : PullPass) (answer : Except SyncError Page) (r : Replica) :
    (p.answered answer r).1.collection = p.collection := by
  unfold answered
  split
  · rfl
  · dsimp only
    split
    · rfl
    · split <;> rfl

theorem local_receive (hp : p.collection = collection) (answer : Except SyncError Page) :
    Local collection [] (p.receive answer) := by
  have htwice : ∀ p' : PullPass, p'.collection = collection →
      Local collection [] fun r => (p'.proceed r).1.proceed (p'.proceed r).2 := fun p' hp' =>
    (local_proceed hp').andThen fun r => local_proceed ((p'.collection_proceed r).trans hp')
  exact (local_answered answer).andThen (g := fun p' r => (p'.proceed r).1.proceed (p'.proceed r).2)
    fun r => htwice _ ((p.collection_answered answer r).trans hp)

theorem collection_receive (p : PullPass) (answer : Except SyncError Page) (r : Replica) :
    (p.receive answer r).1.collection = p.collection :=
  (collection_proceed _ _).trans ((collection_proceed _ _).trans (p.collection_answered answer r))

end PullPass

end Replication
