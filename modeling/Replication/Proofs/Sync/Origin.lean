import Replication.Proofs.Http.Answer
import Replication.Proofs.Pull.Exchanges
import Replication.Proofs.Push.Announce
import Replication.Proofs.Push.Delivery
import Replication.Proofs.Sync.Apart

/-!
# Where the documents of a collection come from

A pass writes to the documents of its collection what the server sends: a pull pass the changes of
its pages, a push pass the states that answers hold. Each of them says of which collection it is.
Pages are checked for this and answers to a push are not. So what a pull pass brings is of its
collection, and what a push pass brings is just when the states of all answers that it reconciles
are (`Errand.brings_own_iff`).

A server that sends states of the collection that was pushed only (`Remote.Labels`) keeps push
passes to it as well (`Errand.brings_own_of_labels`). The web service is read as such a server
(`Http.labels_remote`).
-/

namespace Replication

/-! ## Documents -/

namespace Documents

/-- A document that changes leave otherwise than it was is as one of them says. -/
theorem exists_of_get?_applyAll_ne {d : Documents} {collection : String} {cs : List Change}
    {c document : String}
    (h : (d.applyAll collection cs).get? c document ≠ d.get? c document) :
    c = collection ∧ ∃ x ∈ cs, x.document = document ∧
      (d.applyAll collection cs).get? c document = x.body := by
  induction cs using List.reverseRecOn with
  | nil => exact absurd rfl h
  | append_singleton cs x ih =>
    rw [applyAll_append, applyAll_cons, applyAll_nil] at h ⊢
    -- What the last change does not decide was decided before it.
    have hbefore (he : ((d.applyAll collection cs).apply collection x).2.get? c document =
        (d.applyAll collection cs).get? c document) :
        c = collection ∧ ∃ y ∈ cs ++ [x], y.document = document ∧
          ((d.applyAll collection cs).apply collection x).2.get? c document = y.body := by
      rw [he] at h ⊢
      obtain ⟨hc, y, hy, hd, hbody⟩ := ih h
      exact ⟨hc, y, List.mem_append_left _ hy, hd, hbody⟩
    by_cases hc : c = collection
    · subst hc
      have hx := (d.applyAll c cs).get?_apply c x document
      by_cases hlast : ((d.applyAll c cs).apply c x).1 = none ∧ x.document = document
      · rw [if_pos hlast] at hx
        exact ⟨rfl, x, by simp, hlast.2, hx⟩
      · rw [if_neg hlast] at hx
        exact hbefore hx
    · exact hbefore (congrFun (get?_apply_elsewhere _ _ hc x) document)

end Documents

/-! ## Pull passes -/

namespace PullPass

theorem documents_saveTo (p : PullPass) (next : Option Checkpoint) (r : Replica) :
    (p.saveTo next r).2.documents = r.documents := by
  rcases p.saveTo_ends next r with
    ⟨e, n, m, hs⟩ | hs | ⟨q, r', -, -, hs, ⟨-, rfl⟩ | ⟨t, n, m, -, rfl⟩⟩
  all_goals simp [hs]

theorem documents_proceed_saving {p : PullPass} {page : Page} {o : PageOutcome}
    (hp : p.phase = .saving page o) (r : Replica) : (p.proceed r).2.documents = r.documents := by
  have hsaved := p.documents_saveTo (o.reaches? page) r
  rcases hs : p.saveTo (o.reaches? page) r with ⟨e | p', r'⟩
  · rw [proceed_unsaved hp hs]
    rwa [hs] at hsaved
  · rw [hs] at hsaved
    rcases proceed_saved hp hs with ⟨-, -, report, h⟩ | ⟨report, m, -, h⟩
    · rw [h]
      exact hsaved
    · rw [h]
      exact hsaved

/-- An answer changes documents by what it brings. -/
theorem documents_receive (p : PullPass) (answer : Except SyncError Page) (r : Replica) :
    (p.receive answer r).2.documents =
      r.documents.applyAll p.collection ((p.brought answer r).map Prod.fst) := by
  rw [map_fst_brought]
  cases answer with
  | error e => rfl
  | ok page =>
    cases hf : page.fault? p.collection p.position with
    | some fault =>
      obtain ⟨report, h⟩ := receive_fault hf r
      rw [h, accepted, if_neg (by simp [hf])]
      rfl
    | none =>
      rw [accepted, if_pos hf]
      by_cases hne : page.changes = []
      · obtain ⟨report, m, -, h⟩ := receive_empty hf hne r
        rw [h, hne]
        rfl
      · obtain ⟨report, m, h⟩ := receive_page hf hne r
        rw [h, documents_proceed_saving rfl]

/-- A page is accepted only if it is of the collection as a whole. -/
theorem own_of_accepted {collection : String} {position : Option Checkpoint}
    {answer : Except SyncError Page} {c : Change} (hc : c ∈ accepted collection position answer) :
    c.collection = collection := by
  cases answer with
  | error e => cases hc
  | ok page =>
    rw [accepted] at hc
    split at hc
    · rename_i hf
      exact (Page.valid_iff.1 (Page.fault?_eq_none_iff.1 hf)).1 c hc
    · cases hc

variable {σ : Type} (remote : Remote σ)

theorem documents_run (fuel : Nat) (p : PullPass) (r : Replica) (s : σ) :
    (run remote fuel p r s).2.1.documents =
      r.documents.applyAll p.collection ((log remote fuel p r s).map Prod.fst) := by
  induction fuel generalizing p r s with
  | zero => rfl
  | succ fuel ih =>
    by_cases hp : p.phase = .asking
    · simp only [run, log, hp, List.map_append, Documents.applyAll_append, ih,
        collection_receive, documents_receive]
    · rw [run_over remote _ hp, log_over remote _ hp]
      rfl

theorem own_of_mem_log {fuel : Nat} {p : PullPass} {r : Replica} {s : σ} {c : Change}
    (hc : c ∈ (log remote fuel p r s).map Prod.fst) : c.collection = p.collection := by
  rw [map_fst_log] at hc
  obtain ⟨x, -, hx⟩ := List.mem_flatMap.1 hc
  exact own_of_accepted hx

end PullPass

/-! ## Push passes -/

namespace Reconcile

/-- Reconciling an answer brings the states that it holds to the documents, or fails and brings
nothing. -/
theorem documents_apply (collection : String) (maxRetries : Nat) (sent : List Mutation)
    (a : PushAnswer) (r : Replica) :
    ((apply collection maxRetries sent a).exec r).2.documents =
      if ((apply collection maxRetries sent a).exec r).1.isOk then
        r.documents.applyAll collection a.serverState
      else r.documents := by
  have hv := Replica.unwritten_documents
  rcases hack : (Replica.acknowledge (a.taken sent)).exec r with ⟨e | n, r₁⟩
  · simp only [apply_eq, Action.exec_bind, hack]
    exact (Replica.keeps_acknowledge hv _).of_exec hack
  · have h₁ := (Replica.keeps_acknowledge hv _).of_exec hack
    rcases hfail : (recordFailures maxRetries (a.misses sent)).exec r₁ with ⟨e | dead, r₂⟩
    · simp only [apply_eq, Action.exec_bind, hack, hfail]
      exact ((keeps_recordFailures hv maxRetries _).of_exec hfail).trans h₁
    · have h₂ := ((keeps_recordFailures hv maxRetries _).of_exec hfail).trans h₁
      -- From here on nothing fails.
      obtain ⟨n, m, hs⟩ := exec_applyStates collection a.serverState r₂
      obtain ⟨f, m', ha⟩ := exec_announce collection dead
        { r₂ with documents := r₂.documents.applyAll collection a.serverState, metrics := m }
      simp only [apply_eq, Action.exec_bind, hack, hfail, hs, ha]
      rw [← h₂]
      rfl

end Reconcile

namespace PushPass

/-- The answer to the request of a pass, if it is reconciled. -/
def reconciled? (p : PushPass) (answer : Except SyncError PushAnswer) (r : Replica) :
    Option PushAnswer :=
  match p.phase, answer with
  | .asking batch _, .ok a =>
    if ((Reconcile.apply p.collection p.maxRetries batch a).exec r).1.isOk then some a else none
  | _, _ => none

theorem eq_of_reconciled? {p : PushPass} {answer : Except SyncError PushAnswer} {r : Replica}
    {a : PushAnswer} (h : p.reconciled? answer r = some a) : answer = .ok a := by
  unfold reconciled? at h
  split at h
  · split at h
    · rw [Option.some.inj h]
    · cases h
  · cases h

/-- The answers that a run reconciles. -/
def reconciled {σ : Type} (remote : Remote σ) :
    Nat → PushPass → Replica → σ → List PushAnswer
  | 0, _, _, _ => []
  | fuel + 1, p, r, s =>
    match p.phase with
    | .asking batch _ =>
      let (answer, s) := remote.send p.collection batch s
      (p.reconciled? answer r).toList ++
        reconciled remote fuel (p.receive answer r).1 (p.receive answer r).2 s
    | _ => []

theorem documents_settle (p : PushPass) (r : Replica) :
    (p.settle r).2.documents = r.documents :=
  ((p.proceed r).1.keeps_proceed Replica.unwritten_documents _).trans
    (p.keeps_proceed Replica.unwritten_documents r)

/-- An answer changes documents by the states that it holds, if it is reconciled. -/
theorem documents_receive {p : PushPass} {batch : List Mutation} {read : Nat}
    (hp : p.phase = .asking batch read) (answer : Except SyncError PushAnswer) (r : Replica) :
    (p.receive answer r).2.documents = r.documents.applyAll p.collection
      ((p.reconciled? answer r).toList.flatMap PushAnswer.serverState) := by
  have hq : p.request? = some batch := by rw [request?, hp]
  unfold receive
  rw [documents_settle]
  cases answer with
  | error e =>
    simp only [replica_answered_error, reconciled?, hp]
    rfl
  | ok a =>
    rw [replica_answered_ok hq, Reconcile.documents_apply]
    simp only [reconciled?, hp]
    split
    · simp
    · rfl

variable {σ : Type} (remote : Remote σ)

theorem documents_run (fuel : Nat) (p : PushPass) (r : Replica) (s : σ) :
    (run remote fuel p r s).2.1.documents = r.documents.applyAll p.collection
      ((reconciled remote fuel p r s).flatMap PushAnswer.serverState) := by
  induction fuel generalizing p r s with
  | zero => rfl
  | succ fuel ih =>
    cases hp : p.phase with
    | asking batch read =>
      simp only [run, reconciled, hp, List.flatMap_append, Documents.applyAll_append, ih,
        collection_receive, documents_receive hp]
    | _ =>
      simp only [run, reconciled, hp]
      rfl

/-- What is reconciled was sent to the pass, as an answer for its collection. -/
theorem exists_send_of_mem_reconciled {fuel : Nat} {p : PushPass} {r : Replica} {s : σ}
    {a : PushAnswer} (ha : a ∈ reconciled remote fuel p r s) :
    ∃ batch s₁ s₂, remote.send p.collection batch s₁ = (.ok a, s₂) := by
  induction fuel generalizing p r s with
  | zero => cases ha
  | succ fuel ih =>
    cases hp : p.phase with
    | asking batch read =>
      simp only [reconciled, hp] at ha
      rcases List.mem_append.1 ha with ha | ha
      · exact ⟨batch, s, (remote.send p.collection batch s).2,
          Prod.ext (eq_of_reconciled? (Option.mem_toList.1 ha)) rfl⟩
      · obtain ⟨batch', s₁, s₂, hsent⟩ := ih ha
        exact ⟨batch', s₁, s₂, by rw [← hsent, collection_receive]⟩
    | _ =>
      simp only [reconciled, hp] at ha
      cases ha

end PushPass

/-! ## Errands -/

/-- All states that the server sends are of the collection that was pushed. -/
def Remote.Labels {σ : Type} (remote : Remote σ) : Prop :=
  ∀ collection sent s a s', remote.send collection sent s = (.ok a, s') →
    ∀ x ∈ a.serverState, x.collection = collection

namespace Errand

variable {σ : Type} (remote : Remote σ)

/-- The answers that an errand reconciles. -/
def reconciled (e : Errand) (r : Replica) (s : σ) : List PushAnswer :=
  match e with
  | .pull _ _ _ => []
  | .push collection limit maxRetries fuel =>
    let (p, r) := (PushPass.begin collection limit maxRetries).settle r
    PushPass.reconciled remote fuel p r s

/-- What an errand brings to the documents of its collection. -/
def brings (e : Errand) (r : Replica) (s : σ) : List Change :=
  match e with
  | .pull collection limit fuel =>
    (PullPass.log remote fuel (r.beginPull collection limit) r s).map Prod.fst
  | .push .. => (e.reconciled remote r s).flatMap PushAnswer.serverState

theorem documents_run (e : Errand) (r : Replica) (s : σ) :
    (e.run remote r s).1.documents =
      r.documents.applyAll e.collection (e.brings remote r s) := by
  cases e with
  | pull collection limit fuel =>
    exact PullPass.documents_run remote fuel (r.beginPull collection limit) r s
  | push collection limit maxRetries fuel =>
    let p := PushPass.begin collection limit maxRetries
    have hrun := PushPass.documents_run remote fuel (p.settle r).1 (p.settle r).2 s
    rw [p.documents_settle r, p.collection_settle r] at hrun
    exact hrun

/-- What a pull pass brings is of its collection; what a push pass brings is just when the states of
every answer that it reconciles are. -/
theorem own_brings_iff (e : Errand) (r : Replica) (s : σ) :
    (∀ x ∈ e.brings remote r s, x.collection = e.collection) ↔
      ∀ a ∈ e.reconciled remote r s, ∀ x ∈ a.serverState, x.collection = e.collection := by
  cases e with
  | pull collection limit fuel =>
    have hnone : (pull collection limit fuel).reconciled remote r s = [] := rfl
    rw [hnone]
    exact iff_of_true (fun x hx => PullPass.own_of_mem_log remote hx) (fun _ ha => by cases ha)
  | push collection limit maxRetries fuel =>
    unfold brings
    simp only [List.mem_flatMap]
    exact ⟨fun h a ha x hx => h x ⟨a, ha, hx⟩, fun h x ⟨a, ha, hx⟩ => h a ha x hx⟩

/-- Every document that an errand leaves otherwise than it was belongs to the collection of the
errand, and is as some change says that the errand brought. What a pull pass brings is of its
collection. What a push pass brings is if and only if the states of every answer that it reconciles
are. -/
theorem brings_own_iff (e : Errand) (r : Replica) (s : σ) :
    let after := (e.run remote r s).1.documents
    after = r.documents.applyAll e.collection (e.brings remote r s) ∧
    (∀ c d, after.get? c d ≠ r.documents.get? c d → c = e.collection ∧
      ∃ x ∈ e.brings remote r s, x.document = d ∧ after.get? c d = x.body) ∧
    ((∀ x ∈ e.brings remote r s, x.collection = e.collection) ↔
      ∀ a ∈ e.reconciled remote r s, ∀ x ∈ a.serverState, x.collection = e.collection) := by
  intro after
  have hafter : after = r.documents.applyAll e.collection (e.brings remote r s) :=
    e.documents_run remote r s
  refine ⟨hafter, fun c d hne => ?_, own_brings_iff remote e r s⟩
  rw [hafter] at hne ⊢
  exact Documents.exists_of_get?_applyAll_ne hne

/-- A push pass writes a state of another collection under its own; a pull pass is refused a page
with it and writes nothing. -/
theorem foreign_state_written :
    let foreign : Change := ⟨"x", "tasks", [], false, ⟨"1"⟩⟩
    let m : Mutation := ⟨"a", "notes", .delete, "d", none, 0, 0⟩
    let r : Replica := { database := { tables := { outbox := some [Row.ofMutation m] } } }
    let s : Script :=
      { pages := [⟨false, .ok ⟨[foreign], none⟩⟩]
        replies := [⟨false, .answer ⟨["a"], [], [foreign]⟩⟩] }
    let push := Errand.push "notes" 10 5 1
    let pull := Errand.pull "notes" 10 1
    (r.documents.get? "notes" "x").isNone = true ∧
      (push.brings Script.remote r s).map Change.collection = ["tasks"] ∧
      ((push.run Script.remote r s).1.documents.get? "notes" "x").isSome = true ∧
      (pull.brings Script.remote r s).isEmpty = true ∧
      ((pull.run Script.remote r s).1.documents.get? "notes" "x").isNone = true := by
  decide +kernel

/-- What is brought from a server that sends states of the pushed collection only is of the
collection of the errand. -/
theorem brings_own_of_labels {remote : Remote σ} (h : remote.Labels) (e : Errand) (r : Replica)
    (s : σ) : ∀ x ∈ e.brings remote r s, x.collection = e.collection := by
  refine (own_brings_iff remote e r s).2 fun a ha => ?_
  cases e with
  | pull collection limit fuel => cases ha
  | push collection limit maxRetries fuel =>
    let p := PushPass.begin collection limit maxRetries
    obtain ⟨batch, s₁, s₂, hsent⟩ : ∃ batch s₁ s₂,
        remote.send (p.settle r).1.collection batch s₁ = (.ok a, s₂) :=
      PushPass.exists_send_of_mem_reconciled remote ha
    rw [p.collection_settle r] at hsent
    exact h collection batch s₁ a s₂ hsent

end Errand

/-! ## The web service -/

/-- The web service is read as sending states of the pushed collection only. -/
theorem Http.labels_remote {σ : Type} (net : Network σ) (url : String) :
    (remote net url).Labels := by
  intro collection sent w a w' h
  obtain ⟨h, -⟩ := Prod.mk.inj h
  simp only [bind, Except.bind] at h
  split at h
  · cases h
  split at h
  · cases h
  split at h
  · cases h
  · exact PushBody.collection_of_answer h

end Replication
