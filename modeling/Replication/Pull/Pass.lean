import Replication.Pull.Page
import Replication.Remote
import Replication.Replica.Checkpoints

/-!
# Pull passes

A pull pass brings the changes of a collection into the local documents, page by page.

1. It asks for the changes after its position. A failed request ends the pass.
2. It checks the page; one with a fault ends the pass, and an empty one completes it.
3. It applies every change of the page, whether or not others are refused.
4. It moves the checkpoint over the page, or up to but not to the first change that was refused.
5. It asks again after a full page without refusals; otherwise it is complete.

A pass is a value that says where it stands, so that anything may happen between two of its steps.
-/

namespace Replication

/-- A change that the local documents refused. -/
structure ApplyFailure where
  document : String
  checkpoint : Checkpoint
  error : String
  deriving DecidableEq, Repr

/-- What a pull pass did: the changes applied and refused, the pages, and its last position. -/
structure PullReport where
  applied : Nat := 0
  failures : List ApplyFailure := []
  batches : Nat := 0
  checkpoint : Option Checkpoint := none
  deriving DecidableEq, Repr

namespace PullReport

/-- Whether nothing was refused. -/
def clean (r : PullReport) : Bool := r.failures.isEmpty

end PullReport

/-- What became of the changes of a page: how many were applied, which were refused, and the
position of the last one applied before any was refused. -/
structure PageOutcome where
  applied : Nat := 0
  failures : List ApplyFailure := []
  cleanBefore : Option Checkpoint := none
  deriving DecidableEq, Repr

namespace PageOutcome

/-- The outcome with one more change. -/
def record (o : PageOutcome) (c : Change) : Option String → PageOutcome
  | none =>
    { o with
      applied := o.applied + 1
      cleanBefore := if o.failures.isEmpty then some c.checkpoint else o.cleanBefore }
  | some reason => { o with failures := o.failures ++ [⟨c.document, c.checkpoint, reason⟩] }

/-- The position that a page with this outcome leads to: all of it, or what was applied strictly
before the position of the first refusal. -/
def reaches? (o : PageOutcome) (page : Page) : Option Checkpoint :=
  match o.failures.head? with
  | none => page.trailing?
  | some first => o.cleanBefore.filter fun c => first.checkpoint.isAfter c

end PageOutcome

/-- Where a pull pass stands. -/
inductive PullPhase where
  /-- A request is to be answered. -/
  | asking
  /-- A page without fault is to be applied. -/
  | applying (page : Page)
  /-- The checkpoint is to be moved over an applied page. -/
  | saving (page : Page) (outcome : PageOutcome)
  | done (result : Except SyncError PullReport)

/-- A pull pass: its collection, the size of its pages, its position, and what it did so far. -/
structure PullPass where
  collection : String
  limit : Nat
  position : Option Checkpoint
  report : PullReport
  phase : PullPhase

namespace PullPass

/-- A pass from a position. A page holds at least one change. -/
def begin (collection : String) (limit : Nat) (position : Option Checkpoint) : PullPass :=
  ⟨collection, max limit 1, position, { checkpoint := position }, .asking⟩

/-- The result of a pass that is over. -/
def result? (p : PullPass) : Option (Except SyncError PullReport) :=
  match p.phase with
  | .done result => some result
  | _ => none

/-- The pass, over with an error. -/
def failed (p : PullPass) (e : SyncError) : PullPass := { p with phase := .done (.error e) }

/-- Completes a pass: its report is final and counted. -/
def complete (p : PullPass) (r : Replica) : PullPass × Replica :=
  let report := { p.report with checkpoint := p.position }
  ({ p with report, phase := .done (.ok report) },
    { r with metrics := r.metrics.pullPass p.collection report.applied report.failures.length })

/-- The answer to the pass's request. -/
def answered (p : PullPass) (answer : Except SyncError Page) (r : Replica) : PullPass × Replica :=
  match answer with
  | .error e => (p.failed e, r)
  | .ok page =>
    let p := { p with report := { p.report with batches := p.report.batches + 1 } }
    match page.fault? p.collection p.position with
    | some fault => (p.failed (.protocol fault.text), r)
    | none =>
      if page.changes.isEmpty then p.complete r else ({ p with phase := .applying page }, r)

/-- Applies changes one after the other. -/
def applyAll (collection : String) : List Change → PageOutcome → Replica → PageOutcome × Replica
  | [], o, r => (o, r)
  | c :: rest, o, r =>
    match (Action.applyChange collection c).exec r with
    | (.ok refused, r) => applyAll collection rest (o.record c refused) r
    | (.error _, r) => applyAll collection rest o r

/-- Moves the checkpoint to where an applied page leads, if that is ahead of the pass. -/
def saveTo (p : PullPass) (next : Option Checkpoint) (r : Replica) :
    Except SyncError PullPass × Replica :=
  match next with
  | none => (.ok p, r)
  | some next =>
    if p.position.all next.isAfter then
      match (Replica.setCheckpoint p.collection next).exec r with
      | (.ok (), r) => (.ok { p with position := some next }, r)
      | (.error e, r) => (.error e, r)
    else (.ok p, r)

/-- One step of the pass on its own. A pass that asks or is over stays where it is. -/
def proceed (p : PullPass) (r : Replica) : PullPass × Replica :=
  match p.phase with
  | .applying page =>
    let (o, r) := applyAll p.collection page.changes {} r
    let report := { p.report with applied := p.report.applied + o.applied }
    ({ p with report, phase := .saving page o }, r)
  | .saving page o =>
    match p.saveTo (o.reaches? page) r with
    | (.error e, r) => (p.failed e, r)
    | (.ok p, r) =>
      let p := { p with report := { p.report with failures := p.report.failures ++ o.failures } }
      if o.failures.isEmpty && p.limit ≤ page.changes.length then ({ p with phase := .asking }, r)
      else p.complete r
  | _ => (p, r)

/-- The answer to the pass's request and all that it leads to before the next one. -/
def receive (p : PullPass) (answer : Except SyncError Page) (r : Replica) : PullPass × Replica :=
  let (p, r) := p.answered answer r
  let (p, r) := p.proceed r
  p.proceed r

/-- Runs a pass against a server, up to a number of requests. -/
def run {σ : Type} (remote : Remote σ) : Nat → PullPass → Replica → σ → PullPass × Replica × σ
  | 0, p, r, s => (p, r, s)
  | fuel + 1, p, r, s =>
    match p.phase with
    | .asking =>
      let (answer, s) := remote.fetch p.collection p.position p.limit s
      let (p, r) := p.receive answer r
      run remote fuel p r s
    | _ => (p, r, s)

end PullPass

namespace Replica

/-- A pull pass from the checkpoint of a collection. -/
def beginPull (r : Replica) (collection : String) (limit : Nat) : PullPass :=
  .begin collection limit (r.checkpoint? collection)

end Replica

end Replication
