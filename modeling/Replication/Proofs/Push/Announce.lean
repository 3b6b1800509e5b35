import Replication.Proofs.Push.Desk
import Replication.Proofs.Replica.Quiet
import Replication.Proofs.Tables.Buried

/-!
# Which given up mutations are made known

A mutation is given up by one write, and its notice is sent at the end of the reconciling of the
answer (`Reconcile.announce`). A failure in between ends the reconciling without a notice.

1. Reconciling that succeeds gives up just the mutations of its notices (`Rows.Buries`), sends each
   notice once and counts it (`Reconcile.apply_ok`).
2. Reconciling that fails sends nothing and counts nothing (`Reconcile.apply_error`), whatever it
   gave up before.
3. So over any events the mutations given up are those that were made known, each once, and those
   that were given up by reconciling that failed then (`Desk.announced_once_iff`).
-/

namespace Replication

/-! ## Reconciling an answer -/

namespace Replica

/-- The mutations of these notices were given up, and no others. -/
def Buries (r r' : Replica) (notices : List FailedMutation) : Prop :=
  ∀ rows, r.rows? = some rows → rows.Unique →
    ∃ rows', r'.rows? = some rows' ∧ rows'.Unique ∧ rows.Buries rows' notices

theorem Buries.of_rows {r r' : Replica} (h : r'.rows? = r.rows?) : r.Buries r' [] :=
  fun rows hrows hu => ⟨rows, h.trans hrows, hu, .of_dead (fun _ hw => hw) rfl⟩

theorem Buries.trans {r r' r'' : Replica} {ns ns' : List FailedMutation} (h : r.Buries r' ns)
    (h' : r'.Buries r'' ns') : r.Buries r'' (ns ++ ns') := by
  intro rows hrows hu
  obtain ⟨rows', hrows', hu', hb⟩ := h rows hrows hu
  obtain ⟨rows'', hrows'', hu'', hb'⟩ := h' rows' hrows' hu'
  exact ⟨rows'', hrows'', hu'', hb.trans hb'⟩

variable {r r' : Replica}

theorem buries_of_acknowledge {ids : List String} {n : Nat}
    (he : (acknowledge ids).exec r = (.ok n, r')) : r.Buries r' [] := by
  intro rows hrows hu
  obtain ⟨r₁, -, ⟨hw, -⟩ | ⟨hw, hrows'⟩⟩ := exec_acknowledge ids hrows
  · rw [hw] at he
    cases he
  · rw [hw] at he
    obtain rfl := (Prod.mk.inj he).2
    exact ⟨_, hrows', (List.filter_sublist.map Row.id).nodup hu, rows.buries_acknowledge ids⟩

theorem buries_of_requeue {id reason : String} {count : Option Nat}
    (he : (requeue id reason).exec r = (.ok count, r')) : r.Buries r' [] := by
  intro rows hrows hu
  obtain ⟨out, r₁, -, hw, ⟨-, e, rfl⟩ | ⟨hrows', -⟩⟩ := exec_requeue id reason hrows
  · rw [hw] at he
    cases he
  · rw [hw] at he
    obtain rfl := (Prod.mk.inj he).2
    exact ⟨_, hrows', (rows.struck_requeue id reason).unique hu, rows.buries_requeue id reason⟩

/-- A row that is read makes one notice. -/
theorem failures_of_decode {row : Option Row} {notices : List FailedMutation}
    (h : decode Row.failure row.toList = .ok notices) :
    row.toList.map Row.failure = notices.head?.toList.map Except.ok := by
  have hread := (decode_eq_ok.1 h).2
  cases row with
  | none =>
    obtain rfl := List.forall₂_nil_left_iff.1 hread
    rfl
  | some row =>
    obtain ⟨notice, rest, hrow, hrest, rfl⟩ := List.forall₂_cons_left_iff.1 hread
    exact congrArg (fun x => [x]) hrow

theorem buries_of_markFailed {id reason : String} {notice : Option FailedMutation}
    (he : (markFailed id reason).exec r = (.ok notice, r')) : r.Buries r' notice.toList := by
  intro rows hrows hu
  rw [markFailed_eq] at he
  obtain ⟨row, r₁, hw, he⟩ := Action.exec_bind_eq_ok he
  obtain ⟨notices, r₂, hl, he⟩ := Action.exec_bind_eq_ok he
  obtain ⟨r₁', -, ⟨hw', -⟩ | ⟨hw', hrows'⟩⟩ :=
    exec_write_change "outbox_mark_failed" (·.markFailed id reason) hrows
  · rw [hw] at hw'
    cases hw'
  · rw [hw] at hw'
    obtain ⟨hrow, rfl⟩ := Prod.mk.inj hw'
    obtain rfl := Except.ok.inj hrow
    rw [exec_lift] at hl
    obtain ⟨hread, rfl⟩ := Prod.mk.inj hl
    obtain ⟨hn, rfl⟩ := Prod.mk.inj he
    obtain rfl := Except.ok.inj hn
    exact ⟨_, hrows', (rows.turned_markFailed id reason).unique hu,
      rows.buries_markFailed hu id reason (failures_of_decode hread)⟩

end Replica

namespace Reconcile

open Replica (announced heard_announced)

variable {collection : String} {maxRetries : Nat} {r r' : Replica}

theorem recordFailure_ok {id reason : String} {notice : Option FailedMutation}
    (he : (recordFailure maxRetries id reason).exec r = (.ok notice, r')) :
    r.Buries r' notice.toList := by
  obtain ⟨count, r₁, hq, he⟩ := Action.exec_bind_eq_ok he
  have hb := Replica.buries_of_requeue hq
  cases count with
  | none =>
    obtain ⟨hn, rfl⟩ := Prod.mk.inj he
    obtain rfl := Except.ok.inj hn
    exact hb
  | some count =>
    dsimp only at he
    rw [Action.exec_ite] at he
    split at he
    · exact hb.trans (Replica.buries_of_markFailed he)
    · obtain ⟨hn, rfl⟩ := Prod.mk.inj he
      obtain rfl := Except.ok.inj hn
      exact hb

theorem recordFailures_ok {failures : List (String × String)} {notices : List FailedMutation}
    (he : (recordFailures maxRetries failures).exec r = (.ok notices, r')) :
    r.Buries r' notices := by
  induction failures generalizing r notices with
  | nil =>
    obtain ⟨hn, rfl⟩ := Prod.mk.inj he
    obtain rfl := Except.ok.inj hn
    exact .of_rows rfl
  | cons f failures ih =>
    obtain ⟨dead, r₁, hf, he⟩ := Action.exec_bind_eq_ok he
    obtain ⟨rest, r₂, hrest, he⟩ := Action.exec_bind_eq_ok he
    obtain ⟨hn, rfl⟩ := Prod.mk.inj he
    obtain rfl := Except.ok.inj hn
    exact (recordFailure_ok hf).trans (ih hrest)

/-- Notices are sent in their order, and counted. -/
theorem announced_announce (collection : String) (dead : List FailedMutation) (r : Replica) :
    announced ((announce collection dead).exec r).2 =
      (r.failures.sendAll dead,
        fun c => r.metrics.deadLetters c + if c = collection then dead.length else 0) := by
  unfold announce
  rw [Action.exec_ite]
  split
  · rename_i hd
    obtain rfl := List.isEmpty_iff.1 hd
    simp [announced, Channel.sendAll]
  · simp only [Action.exec_bind, Action.exec_measure, Action.exec_modify, announced]
    refine Prod.ext rfl (funext fun c => ?_)
    dsimp only
    rw [Metrics.deadLetters_deadLettered]
    split <;> rfl

/-- Reconciling that succeeds gives up the mutations of its notices, sends these and counts them. -/
theorem apply_ok {sent : List Mutation} {a : PushAnswer} {report : PushReport}
    (he : (apply collection maxRetries sent a).exec r = (.ok report, r')) :
    r.Buries r' report.deadLettered ∧
      announced r' = (r.failures.sendAll report.deadLettered,
        fun c => r.metrics.deadLetters c +
          if c = collection then report.deadLettered.length else 0) := by
  obtain ⟨n, r₁, h₁, he⟩ := Action.exec_bind_eq_ok he
  obtain ⟨refused, r₂, h₂, he⟩ := Action.exec_bind_eq_ok he
  obtain ⟨silent, r₃, h₃, he⟩ := Action.exec_bind_eq_ok he
  obtain ⟨reconciled, r₄, h₄, he⟩ := Action.exec_bind_eq_ok he
  obtain ⟨_, r₅, h₅, he⟩ := Action.exec_bind_eq_ok he
  obtain ⟨hreport, rfl⟩ := Prod.mk.inj he
  obtain rfl := Except.ok.inj hreport
  dsimp only
  constructor
  · have hdead : r.Buries r₃ (refused ++ silent) :=
      ((Replica.buries_of_acknowledge h₁).trans (recordFailures_ok h₂)).trans (recordFailures_ok h₃)
    have hrows : r₅.rows? = r₃.rows? := by
      obtain ⟨k, m, hs⟩ := exec_applyStates collection a.serverState r₃
      obtain ⟨f, m', ha⟩ := exec_announce collection (refused ++ silent) r₄
      rw [h₄] at hs
      rw [h₅] at ha
      rw [(Prod.mk.inj ha).2, (Prod.mk.inj hs).2]
      rfl
    simpa using hdead.trans (.of_rows hrows)
  · have hkept : announced r₄ = announced r :=
      calc announced r₄ = announced r₃ := (keeps_applyStates heard_announced _ _).of_exec h₄
        _ = announced r₂ := (keeps_recordFailures heard_announced.unwritten _ _).of_exec h₃
        _ = announced r₁ := (keeps_recordFailures heard_announced.unwritten _ _).of_exec h₂
        _ = announced r := (Replica.keeps_acknowledge heard_announced.unwritten _).of_exec h₁
    have hsaid := announced_announce collection (refused ++ silent) r₄
    rw [h₅] at hsaid
    obtain ⟨hf, hd⟩ := Prod.mk.inj hkept
    rw [hsaid, hf, hd]

/-- Reconciling that fails sends and counts nothing. -/
theorem apply_error (collection : String) (maxRetries : Nat) (sent : List Mutation)
    (a : PushAnswer) : (apply collection maxRetries sent a).KeepsIfFails announced := by
  have hv := heard_announced
  refine (Replica.keeps_acknowledge hv.unwritten _).bind_ifFails fun _ =>
    (keeps_recordFailures hv.unwritten maxRetries _).bind_ifFails fun refused =>
      (keeps_recordFailures hv.unwritten maxRetries _).bind_ifFails fun silent =>
        (keeps_applyStates hv collection _).bind_ifFails fun _ => ?_
  -- The notices are sent last, and sending them does not fail.
  intro r e r' he
  obtain ⟨f, m, ha⟩ := exec_announce collection (refused ++ silent) r
  rw [Action.exec_bind, ha] at he
  cases he

end Reconcile

namespace PushPass

/-- The reconciling of an answer is what it does to the replica. -/
theorem replica_answered_ok {p : PushPass} {batch : List Mutation} (hq : p.request? = some batch)
    (a : PushAnswer) (r : Replica) :
    (p.answered (.ok a) r).2 =
      ((Reconcile.apply p.collection p.maxRetries batch a).exec r).2 := by
  obtain ⟨read, hphase⟩ := phase_of_request? hq
  unfold answered
  rw [hphase]
  dsimp only
  split
  · rename_i he
    rw [he]
  · rename_i he
    rw [he]

theorem replica_answered_error (p : PushPass) (e : SyncError) (r : Replica) :
    (p.answered (.error e) r).2 = r := by
  unfold answered
  split <;> rfl

end PushPass

/-! ## What events give up and make known -/

namespace Desk

/-- The reconciling of an answer that comes to a request. -/
def reconciling? (d : Desk) : Event → Option (Action PushReport)
  | .answer c (.ok a) => (d.passes.get? c).bind fun p => p.request?.map fun batch =>
      Reconcile.apply p.collection p.maxRetries batch a
  | _ => none

/-- Whether an event brings an answer whose reconciling fails on its way. -/
def cutOff (d : Desk) (e : Event) : Bool :=
  (d.reconciling? e).any fun action => !(action.exec d.replica).1.isOk

/-- The rows of the mutations that a push pass gives up in an event. -/
def buried (d : Desk) (e : Event) : List Row :=
  match e with
  | .answer _ _ => Rows.buried d.rows (d.step e).rows
  | _ => []

/-- The rows of the mutations that are given up in an event whose reconciling fails after that. -/
def lost (d : Desk) (e : Event) : List Row := if d.cutOff e then d.buried e else []

/-- The notices that a push pass sends in an event, each with the collection of the pass. -/
def notices (d : Desk) (e : Event) : List (String × FailedMutation) :=
  match e with
  | .answer c _ =>
    ((d.step e).replica.failures.sent.drop d.replica.failures.sent.length).map fun n => (c, n)
  | _ => []

/-- What is found in events, oldest first. -/
def gather {α : Type} (f : Desk → Event → List α) (d : Desk) : List Event → List α
  | [] => []
  | e :: es => f d e ++ gather f (d.step e) es

/-! ### One event -/

theorem replica_answer (d : Desk) (c : String) (answer : Except SyncError PushAnswer) :
    (d.step (.answer c answer)).replica =
      match d.reconciling? (.answer c answer) with
      | some action => (action.exec d.replica).2
      | none => d.replica := by
  dsimp only [Desk.step]
  cases hp : d.passes.get? c with
  | none =>
    rw [stepPass, hp]
    cases answer <;> simp [reconciling?, hp]
  | some p =>
    rw [stepPass, hp]
    dsimp only
    cases answer with
    | error e => exact p.replica_answered_error e d.replica
    | ok a =>
      simp only [reconciling?, hp, Option.bind_some]
      cases hq : p.request? with
      | none => rw [PushPass.answered_of_none hq, Option.map_none]
      | some batch => rw [PushPass.replica_answered_ok hq, Option.map_some]

theorem exists_of_reconciling? {d : Desk} (h : d.Orderly) {c : String}
    {answer : Except SyncError PushAnswer} {action : Action PushReport}
    (ha : d.reconciling? (.answer c answer) = some action) :
    ∃ maxRetries batch a, action = Reconcile.apply c maxRetries batch a := by
  cases answer with
  | error e => cases ha
  | ok a =>
    obtain ⟨p, hp, hq⟩ := Option.bind_eq_some_iff.1 ha
    obtain ⟨batch, -, rfl⟩ := Option.map_eq_some_iff.1 hq
    exact ⟨p.maxRetries, batch, a, by rw [h.own c p hp]⟩

/-- What is announced in an event: its notices are counted for their collections and come to those
that were sent, and the mutations that it gives up are those of its notices and those it loses. -/
structure Announces (d : Desk) (e : Event) : Prop where
  counted : ∀ c, (d.step e).replica.metrics.deadLetters c =
    d.replica.metrics.deadLetters c + (d.notices e).countP (·.1 == c)
  told : e ≠ .restart →
    (d.step e).replica.failures.sent = d.replica.failures.sent ++ (d.notices e).map Prod.snd
  given : ((d.buried e).map Row.failure).Perm
    ((d.notices e).map (fun n => .ok n.2) ++ (d.lost e).map Row.failure)

/-- Of events that are no answers none is announced. -/
theorem announces_of_eq {d : Desk} {e : Event} (ha : ∀ c a, e ≠ .answer c a)
    (hd : (d.step e).replica.metrics.deadLetters = d.replica.metrics.deadLetters)
    (hf : e ≠ .restart → (d.step e).replica.failures = d.replica.failures) : d.Announces e := by
  have hn : d.notices e = [] := by
    unfold notices
    split
    · exact absurd rfl (ha _ _)
    · rfl
  have hb : d.buried e = [] := by
    unfold buried
    split
    · exact absurd rfl (ha _ _)
    · rfl
  refine ⟨fun c => ?_, fun he => ?_, ?_⟩
  · rw [hd, hn]
    rfl
  · rw [hf he, hn]
    simp
  · rw [hn, hb, lost, hb]
    simp

section answer

variable {d : Desk} {c : String} {answer : Except SyncError PushAnswer}

/-- An answer announces what was sent and counted, if it gave up just that and what was lost. -/
theorem announces_of_announced (ns : List FailedMutation)
    (hs : (d.step (.answer c answer)).replica.announced = (d.replica.failures.sendAll ns,
      fun c' => d.replica.metrics.deadLetters c' + if c' = c then ns.length else 0))
    (hb : ((d.buried (.answer c answer)).map Row.failure).Perm
      (ns.map .ok ++ (d.lost (.answer c answer)).map Row.failure)) :
    d.Announces (.answer c answer) := by
  obtain ⟨hfailures, hdead⟩ := Prod.mk.inj hs
  have hn : d.notices (.answer c answer) = ns.map fun n => (c, n) := by
    unfold notices
    dsimp only
    rw [hfailures, Channel.sendAll, List.drop_left]
  refine ⟨fun c' => ?_, fun _ => ?_, ?_⟩
  · rw [hdead, hn, List.countP_map]
    dsimp only
    by_cases hc : c' = c
    · subst hc
      simp [Function.comp_def]
    · have hc' : c ≠ c' := Ne.symm hc
      simp [Function.comp_def, hc, hc']
  · rw [hfailures, hn, List.map_map]
    simp [Channel.sendAll, Function.comp_def]
  · rw [hn, List.map_map]
    exact hb

/-- An answer announces what its reconciling gives up, unless that fails. -/
theorem Orderly.announces_answer (h : d.Orderly) : d.Announces (.answer c answer) := by
  have hreplica := d.replica_answer c answer
  have hnothing : d.replica.announced = (d.replica.failures.sendAll [],
      fun c' => d.replica.metrics.deadLetters c' + if c' = c then 0 else 0) := by
    simp [Replica.announced, Channel.sendAll]
  cases ha : d.reconciling? (.answer c answer) with
  | none =>
    rw [ha] at hreplica
    have hrows : (d.step (.answer c answer)).rows = d.rows := by
      unfold Desk.rows
      rw [hreplica]
    refine announces_of_announced [] ?_ ?_
    · rw [hreplica]
      exact hnothing
    · have hcut : d.cutOff (.answer c answer) = false := by
        rw [cutOff, ha]
        rfl
      have hsame : d.rows.Buries d.rows [] := .of_dead (fun _ hw => hw) rfl
      rw [lost, if_neg (by simp [hcut]), buried, hrows]
      exact hsame.perm h.unique
  | some action =>
    rw [ha] at hreplica
    obtain ⟨maxRetries, batch, a, rfl⟩ := exists_of_reconciling? h ha
    rcases he : (Reconcile.apply c maxRetries batch a).exec d.replica with ⟨e | report, r'⟩
    · -- What was given up before the failure is lost.
      dsimp only at hreplica
      rw [he] at hreplica
      have hcut : d.cutOff (.answer c answer) = true := by
        rw [cutOff, ha, Option.any_some, he]
        rfl
      refine announces_of_announced [] ?_ ?_
      · rw [hreplica, Reconcile.apply_error c maxRetries batch a _ _ _ he]
        exact hnothing
      · rw [lost, if_pos hcut]
        exact .refl _
    · dsimp only at hreplica
      rw [he] at hreplica
      have hcut : d.cutOff (.answer c answer) = false := by
        rw [cutOff, ha, Option.any_some, he]
        rfl
      obtain ⟨hburies, hsaid⟩ := Reconcile.apply_ok he
      refine announces_of_announced report.deadLettered ?_ ?_
      · rw [hreplica]
        exact hsaid
      · obtain ⟨rows', hrows', -, hb⟩ := hburies d.rows h.there h.unique
        have hrows : (d.step (.answer c answer)).rows = rows' := by
          rw [Desk.rows, hreplica, hrows']
          rfl
        rw [lost, if_neg (by simp [hcut]), List.map_nil, List.append_nil, buried, hrows]
        exact hb.perm h.unique

end answer

/-- What an event gives up is announced or lost. -/
theorem Orderly.announces {d : Desk} (h : d.Orderly) (e : Event) : d.Announces e := by
  have hv := Replica.heard_announced.unwritten
  -- Nothing but an answer is heard where mutations that were given up are.
  have hkept {e : Event} (ha : ∀ c a, e ≠ .answer c a)
      (hk : (d.step e).replica.announced = d.replica.announced) : d.Announces e := by
    obtain ⟨hf, hd⟩ := Prod.mk.inj hk
    exact announces_of_eq ha hd fun _ => hf
  cases e with
  | enqueue m => exact hkept (fun _ _ he => by cases he) (Replica.keeps_enqueue m _)
  | discard ids => exact hkept (fun _ _ he => by cases he) (Replica.keeps_discard hv ids _)
  | giveUp id reason =>
    exact hkept (fun _ _ he => by cases he) (Replica.keeps_markFailed hv id reason _)
  | restart => exact announces_of_eq (fun _ _ he => by cases he) rfl fun he => absurd rfl he
  | begin c limit maxRetries => exact hkept (fun _ _ he => by cases he) rfl
  | proceed c =>
    refine hkept (fun _ _ he => by cases he) ?_
    dsimp only [Desk.step, stepPass]
    split
    · rfl
    · exact PushPass.keeps_proceed hv _ _
  | answer c answer => exact h.announces_answer
  | disturb locked refusal => exact hkept (fun _ _ he => by cases he) rfl

/-! ### Many events -/

theorem Orderly.counted {d : Desk} (h : d.Orderly) (es : List Event) (c : String) :
    (d.run es).replica.metrics.deadLetters c =
      d.replica.metrics.deadLetters c + (d.gather notices es).countP (·.1 == c) := by
  induction es generalizing d with
  | nil => rfl
  | cons e es ih =>
    have hstep := (h.announces e).counted c
    have hrest := ih (h.step e).1
    rw [gather, List.countP_append]
    change ((d.step e).run es).replica.metrics.deadLetters c = _
    omega

theorem Orderly.told {d : Desk} (h : d.Orderly) (es : List Event) (hes : .restart ∉ es) :
    (d.run es).replica.failures.sent =
      d.replica.failures.sent ++ (d.gather notices es).map Prod.snd := by
  induction es generalizing d with
  | nil => simp [gather]
  | cons e es ih =>
    rw [List.mem_cons, not_or] at hes
    have hstep := (h.announces e).told (Ne.symm hes.1)
    have hrest := ih (h.step e).1 hes.2
    rw [gather, List.map_append, ← List.append_assoc, ← hstep]
    exact hrest

theorem Orderly.announced_or_lost {d : Desk} (h : d.Orderly) (es : List Event) :
    ((d.gather buried es).map Row.failure).Perm
      ((d.gather notices es).map (fun n => .ok n.2) ++ (d.gather lost es).map Row.failure) := by
  induction es generalizing d with
  | nil => exact .nil
  | cons e es ih =>
    have hstep := (h.announces e).given
    have hrest := ih (h.step e).1
    simp only [gather, List.map_append]
    refine (hstep.append hrest).trans ?_
    rw [List.append_assoc, List.append_assoc]
    exact (List.perm_append_comm_assoc _ _ _).append_left _

/-- After any events, whatever was answered and whichever writes failed: each notice that a push
pass sent was counted for its collection, and while the client runs its channel holds these notices
in their order. The mutations that push passes gave up are those of the notices, each once, and
those that were given up by reconciling that failed after that; so all of them are made known,
each once, just when reconciling never failed after it gave up a mutation. -/
theorem announced_once_iff (es : List Event) :
    (∀ c, (opened.run es).replica.metrics.deadLetters c =
      (opened.gather notices es).countP (·.1 == c)) ∧
    (.restart ∉ es →
      (opened.run es).replica.failures.sent = (opened.gather notices es).map Prod.snd) ∧
    ((opened.gather buried es).map Row.failure).Perm
      ((opened.gather notices es).map (fun n => .ok n.2) ++
        (opened.gather lost es).map Row.failure) ∧
    (((opened.gather buried es).map Row.failure).Perm
        ((opened.gather notices es).map fun n => .ok n.2) ↔
      opened.gather lost es = []) := by
  have hperm := orderly_opened.announced_or_lost es
  refine ⟨fun c => ?_, fun hes => orderly_opened.told es hes, hperm, fun hall => ?_,
    fun hnone => ?_⟩
  · have hcounted := orderly_opened.counted es c
    rw [hcounted]
    exact Nat.zero_add _
  · have hlen := hperm.length_eq
    have hlen' := hall.length_eq
    simp only [List.length_append, List.length_map] at hlen hlen'
    exact List.eq_nil_of_length_eq_zero (by omega)
  · rw [hnone, List.map_nil, List.append_nil] at hperm
    exact hperm

/-- Two mutations are refused more often than they may be: both are given up, and their notices are
sent and counted. -/
theorem announced_two :
    let m (id document : String) : Mutation := ⟨id, "notes", .delete, document, none, 0, 0⟩
    let es : List Event :=
      [.enqueue (m "a" "x"), .enqueue (m "b" "y"), .begin "notes" 10 0, .proceed "notes",
        .answer "notes" (.ok ⟨[], [⟨"a", "no"⟩, ⟨"b", "no"⟩], []⟩), .proceed "notes"]
    (opened.gather buried es).map Row.id = ["a", "b"] ∧
      (opened.run es).replica.metrics.deadLetters "notes" = 2 ∧
      (opened.run es).replica.failures.sent = (opened.gather notices es).map Prod.snd ∧
      ((opened.gather buried es).map Row.failure).Perm
        ((opened.gather notices es).map fun n => .ok n.2) := by
  intro m es
  obtain ⟨hcounted, htold, -, honce⟩ := announced_once_iff es
  have hrestart : Event.restart ∉ es := by
    intro h
    simp [es] at h
  have hcount : (opened.gather notices es).countP (·.1 == "notes") = 2 := by decide +kernel
  refine ⟨by decide +kernel, (hcounted "notes").trans hcount, htold hrestart, honce.2 ?_⟩
  decide +kernel

/-- Two mutations are refused more often than they may be, and the database is locked when the
second refusal is to be counted: the first mutation is given up, the pass is over, and its notice
was not sent, nor was it counted. -/
theorem given_up_unannounced :
    let m (id document : String) : Mutation := ⟨id, "notes", .delete, document, none, 0, 0⟩
    let es : List Event :=
      [.enqueue (m "a" "x"), .enqueue (m "b" "y"), .begin "notes" 10 0, .proceed "notes",
        .disturb (fun attempt => 4 ≤ attempt) (fun _ _ _ => none),
        .answer "notes" (.ok ⟨[], [⟨"a", "no"⟩, ⟨"b", "no"⟩], []⟩), .proceed "notes"]
    ((opened.run es).passes.get? "notes").any (fun p => p.result?.isSome) = true ∧
      ((opened.run es).rows.map fun row => (row.id, row.failed)) = [("a", true), ("b", false)] ∧
      (opened.gather buried es).map Row.id = ["a"] ∧
      (opened.run es).replica.failures.sent.length = 0 ∧
      (opened.run es).replica.metrics.deadLetters "notes" = 0 ∧
      ¬((opened.gather buried es).map Row.failure).Perm
        ((opened.gather notices es).map fun n => .ok n.2) := by
  intro m es
  refine ⟨by decide +kernel, by decide +kernel, by decide +kernel, by decide +kernel,
    by decide +kernel, fun hperm => ?_⟩
  have hlen := hperm.length_eq
  have hnone : (opened.gather notices es).length = 0 := by decide +kernel
  have hone : (opened.gather buried es).length = 1 := by decide +kernel
  rw [List.length_map, List.length_map, hnone, hone] at hlen
  cases hlen

end Desk

end Replication
