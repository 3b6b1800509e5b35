import Replication.Push.Batch
import Replication.Remote
import Replication.Replica.Outbox

/-!
# Push passes

A push pass sends the mutations of a collection that wait, batch by batch.

1. It reads the oldest mutations and sends the first one of each document. A failed request ends
   the pass, and the mutations stay as they are.
2. It reconciles the answer: mutations that were taken leave the outbox; one that was refused, or
   that the answer is silent about, has one more failed delivery and is given up when it has too
   many; the states that the server holds instead go to the local documents.
3. It goes on after a batch that was taken as a whole if more may wait; otherwise it is complete.

However it ends, the pass is counted and the number of mutations that wait is taken.
-/

namespace Replication

/-- What a push pass did: the mutations taken, refused and given up, the states of the server that
were applied, and the mutations without an answer. -/
structure PushReport where
  accepted : List String := []
  rejected : List Rejection := []
  deadLettered : List FailedMutation := []
  reconciled : Nat := 0
  unresolved : Nat := 0

namespace PushReport

/-- Whether nothing was refused and nothing left unanswered. -/
def clean (r : PushReport) : Bool := r.rejected.isEmpty && r.unresolved == 0

/-- What two batches did together. -/
def merge (r s : PushReport) : PushReport where
  accepted := r.accepted ++ s.accepted
  rejected := r.rejected ++ s.rejected
  deadLettered := r.deadLettered ++ s.deadLettered
  reconciled := r.reconciled + s.reconciled
  unresolved := r.unresolved + s.unresolved

end PushReport

namespace Reconcile

/-- Why a delivery failed that the server did not answer. -/
def unansweredReason : String := "no response from server"

/-- Counts a failed delivery; a mutation with more of them than the limit is given up. -/
def recordFailure (maxRetries : Nat) (id reason : String) : Action (Option FailedMutation) := do
  match ← Replica.requeue id reason with
  | some count => if maxRetries < count then Replica.markFailed id reason else return none
  | none => return none

/-- Counts a failed delivery for each of a list of mutations; gives those given up. -/
def recordFailures (maxRetries : Nat) : List (String × String) → Action (List FailedMutation)
  | [] => return []
  | (id, reason) :: rest => do
    let dead ← recordFailure maxRetries id reason
    return dead.toList ++ (← recordFailures maxRetries rest)

/-- Applies the states that the server holds instead; gives the number of those not refused. -/
def applyStates (collection : String) : List Change → Action Nat
  | [] => return 0
  | c :: rest => do
    let refused ← Action.applyChange collection c
    let n ← applyStates collection rest
    return if refused.isNone then n + 1 else n

/-- Makes known which mutations were given up. -/
def announce (collection : String) (dead : List FailedMutation) : Action Unit :=
  if dead.isEmpty then return
  else do
    Action.measure (·.deadLettered collection dead.length)
    modify fun r => { r with failures := r.failures.sendAll dead }

/-- What an answer to sent mutations changes. A failure stops it on the way. -/
def apply (collection : String) (maxRetries : Nat) (sent : List Mutation) (a : PushAnswer) :
    Action PushReport := do
  let taken := a.taken sent
  let _ ← Replica.acknowledge taken
  let refused := a.refused sent
  let deadRefused ← recordFailures maxRetries (refused.map fun r => (r.id, r.reason))
  let silent := a.unanswered sent
  let deadSilent ← recordFailures maxRetries (silent.map fun id => (id, unansweredReason))
  let reconciled ← applyStates collection a.serverState
  let dead := deadRefused ++ deadSilent
  announce collection dead
  return ⟨taken, refused, dead, reconciled, silent.length⟩

end Reconcile

/-- Where a push pass stands. -/
inductive PushPhase where
  /-- A batch is to be read. -/
  | reading
  /-- A batch was sent and is to be answered; some mutations that were read were left out. -/
  | asking (batch : List Mutation) (read : Nat)
  /-- The pass is to be counted. -/
  | closing (error : Option SyncError)
  | done (result : Except SyncError PushReport)

/-- A push pass: its collection, the size of its batches, the failed deliveries that a mutation
may have, and what it did so far. -/
structure PushPass where
  collection : String
  limit : Nat
  maxRetries : Nat
  report : PushReport
  phase : PushPhase

namespace PushPass

/-- A pass. A batch holds at least one mutation. -/
def begin (collection : String) (limit maxRetries : Nat) : PushPass :=
  ⟨collection, max limit 1, maxRetries, {}, .reading⟩

/-- The batch of a pass that waits for an answer. -/
def request? (p : PushPass) : Option (List Mutation) :=
  match p.phase with
  | .asking batch _ => some batch
  | _ => none

/-- The result of a pass that is over. -/
def result? (p : PushPass) : Option (Except SyncError PushReport) :=
  match p.phase with
  | .done result => some result
  | _ => none

/-- Whether to go on after a batch of so many mutations out of so many that were read. -/
def continues (limit read batch : Nat) (part : PushReport) : Bool :=
  !part.accepted.isEmpty && part.clean && !(decide (read < limit) && read == batch)

/-- The answer to the pass's request. -/
def answered (p : PushPass) (answer : Except SyncError PushAnswer) (r : Replica) :
    PushPass × Replica :=
  match p.phase with
  | .asking batch read =>
    match answer with
    | .error e => ({ p with phase := .closing (some e) }, r)
    | .ok a =>
      match (Reconcile.apply p.collection p.maxRetries batch a).exec r with
      | (.error e, r) => ({ p with phase := .closing (some e) }, r)
      | (.ok part, r) =>
        let phase :=
          if continues p.limit read batch.length part then .reading else .closing none
        ({ p with report := p.report.merge part, phase }, r)
  | _ => (p, r)

/-- Counts a pass that is over. -/
def count (p : PushPass) : Action Unit := do
  Action.measure (·.pushPass p.collection p.report.accepted.length p.report.rejected.length)
  match ← Action.attempt (Replica.pendingCount p.collection) with
  | .ok depth => Action.measure (·.outboxDepth p.collection depth)
  | .error _ => return

/-- One step of the pass on its own. A pass that asks or is over stays where it is. -/
def proceed (p : PushPass) (r : Replica) : PushPass × Replica :=
  match p.phase with
  | .reading =>
    match (Replica.pending p.collection p.limit).exec r with
    | (.error e, r) => ({ p with phase := .closing (some e) }, r)
    | (.ok [], r) => ({ p with phase := .closing none }, r)
    | (.ok ms, r) => ({ p with phase := .asking (deliverable ms) ms.length }, r)
  | .closing error =>
    let (_, r) := p.count.exec r
    ({ p with phase := .done (match error with
        | some e => .error e
        | none => .ok p.report) }, r)
  | _ => (p, r)

/-- All steps of the pass before its next request. -/
def settle (p : PushPass) (r : Replica) : PushPass × Replica :=
  let (p, r) := p.proceed r
  p.proceed r

/-- The answer to the pass's request and all that it leads to before the next one. -/
def receive (p : PushPass) (answer : Except SyncError PushAnswer) (r : Replica) :
    PushPass × Replica :=
  let (p, r) := p.answered answer r
  p.settle r

/-- Runs a pass against a server, up to a number of requests. -/
def run {σ : Type} (remote : Remote σ) : Nat → PushPass → Replica → σ → PushPass × Replica × σ
  | 0, p, r, s => (p, r, s)
  | fuel + 1, p, r, s =>
    match p.phase with
    | .asking batch _ =>
      let (answer, s) := remote.send p.collection batch s
      let (p, r) := p.receive answer r
      run remote fuel p r s
    | _ => (p, r, s)

end PushPass

namespace Replica

/-- Sends given mutations of a collection in one request and reconciles the answer. Nothing is sent
for no mutations. -/
def pushBatch {σ : Type} (remote : Remote σ) (collection : String) (maxRetries : Nat)
    (ms : List Mutation) (r : Replica) (s : σ) : Except SyncError PushReport × Replica × σ :=
  if ms.isEmpty then (.ok {}, r, s)
  else
    match remote.send collection ms s with
    | (.error e, s) => (.error e, r, s)
    | (.ok a, s) =>
      let (outcome, r) := (Reconcile.apply collection maxRetries ms a).exec r
      (outcome, r, s)

end Replica

end Replication
