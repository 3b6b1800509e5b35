import Replication.Pull.Pass
import Replication.Push.Pass
import Replication.Report.Basic

/-!
# Passes as JSON

How the reports of passes, and the requests that a server got, are written.
-/

namespace Replication

namespace ApplyFailure

def toJson (f : ApplyFailure) : Json :=
  .obj
    [("document_id", .str f.document), ("checkpoint", f.checkpoint.toJson),
      ("error", .str f.error)]

end ApplyFailure

namespace PullReport

def toJson (r : PullReport) : Json :=
  .obj
    [("applied", .ofNat r.applied), ("batches", .ofNat r.batches),
      ("checkpoint", Checkpoint.orNull r.checkpoint), ("clean", .bool r.clean),
      ("failures", .list ApplyFailure.toJson r.failures)]

end PullReport

namespace PushReport

def toJson (r : PushReport) : Json :=
  .obj
    [("accepted", .list .str r.accepted), ("rejected", .list Rejection.toJson r.rejected),
      ("dead_lettered", .list FailedMutation.toJson r.deadLettered),
      ("reconciled", .ofNat r.reconciled), ("unresolved", .ofNat r.unresolved),
      ("clean", .bool r.clean)]

end PushReport

namespace Script

/-- The requests for changes: where from, and how many at most. -/
def fetchedJson (s : Script) : Json :=
  .list (fun (position, limit) =>
    .obj [("checkpoint", Checkpoint.orNull position), ("limit", .ofNat limit)]) s.fetched

/-- The pushes: the identifiers of their mutations. -/
def sentJson (s : Script) : Json := .list (.list .str) s.sent

end Script

namespace Documents

/-- The documents of a collection. -/
def toJson (d : Documents) (collection : String) : Json :=
  .obj ((d.collection collection).map fun (id, o) => (id, .obj o))

end Documents

end Replication
