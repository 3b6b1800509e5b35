import Replication.Collection.Progress
import Replication.Pull.Pass
import Replication.Push.Pass
import Replication.Settings

/-!
# Passes of a lane

A pass of either direction, as its lane sees it: it asks a server that works from a script, takes
the reply, goes on by itself, and ends cleanly or not.
-/

namespace Replication

/-- A pass of either direction. -/
inductive Pass where
  | pull (p : PullPass)
  | push (p : PushPass)

/-- The server's reply to a request of a pass. -/
inductive Reply where
  | page (r : Except SyncError Page)
  | answer (r : Except SyncError PushAnswer)

namespace PullPass

/-- Whether the next step of the pass writes to the tables. -/
def usesTables (p : PullPass) : Bool :=
  match p.phase with
  | .saving page o => (o.reaches? page).any fun next => p.position.all next.isAfter
  | _ => false

end PullPass

namespace PushPass

/-- Whether the next step of the pass on its own reads or writes the tables. -/
def usesTables (p : PushPass) : Bool :=
  match p.phase with
  | .reading | .closing _ => true
  | _ => false

end PushPass

namespace Pass

/-- A pass of a lane of a collection. -/
def begin (s : Settings) (l : Lane) (collection : String) (r : Replica) : Pass :=
  match l with
  | .pull => .pull (r.beginPull collection s.pull.effectiveBatch)
  | .push => .push (.begin collection s.push.batchSize s.push.maxRetries)

/-- How a pass ended: whether it left nothing to do again, or its failure. -/
def result? : Pass → Option (Except SyncError Bool)
  | .pull p => p.result?.map (·.map PullReport.clean)
  | .push p => p.result?.map (·.map PushReport.clean)

/-- Whether a pass is about to ask, or waits for a reply. -/
def asks : Pass → Bool
  | .pull p => match p.phase with
    | .asking => true
    | _ => false
  | .push p => p.request?.isSome

/-- Asks the server; gives the reply that the script has for the request. -/
def ask : Pass → Script → Scripted Reply × Script
  | .pull p, s =>
    let (x, s) := s.nextPage p.position p.limit
    (⟨x.held, .page x.reply⟩, s)
  | .push p, s =>
    let batch := p.request?.getD []
    let (x, s) := s.nextReply batch
    (⟨x.held, .answer (x.reply.resolve batch)⟩, s)

/-- The reply to the pass's request. -/
def answered : Pass → Reply → Replica → Pass × Replica
  | .pull p, .page x, r =>
    let (p, r) := p.answered x r
    (.pull p, r)
  | .push p, .answer x, r =>
    let (p, r) := p.answered x r
    (.push p, r)
  | p, _, r => (p, r)

/-- One step of the pass on its own. -/
def proceed : Pass → Replica → Pass × Replica
  | .pull p, r =>
    let (p, r) := p.proceed r
    (.pull p, r)
  | .push p, r =>
    let (p, r) := p.proceed r
    (.push p, r)

/-- Whether the next step of the pass reads or writes the tables. The answer to a push does. -/
def usesTables : Pass → Bool
  | .pull p => p.usesTables
  | .push p => p.usesTables || p.request?.isSome

end Pass

end Replication
