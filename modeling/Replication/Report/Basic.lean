import Replication.Checkpoint
import Replication.Error
import Replication.Json.Member
import Replication.Metrics
import Replication.Tables.Channel

/-!
# Results as JSON

How the outcome of a call, the counters and the messages of a channel are written.
-/

namespace Replication

namespace SyncError

/-- A failure: its kind, and its text unless another party words it. -/
def toJson (e : SyncError) : Json :=
  .obj (("error", .str e.kind) :: (e.ownText?.map fun t => ("message", Json.str t)).toList)

end SyncError

namespace Json

/-- A success. -/
def ok (v : Json) : Json := .obj [("ok", v)]

/-- A success or a failure. -/
def outcome {α : Type} (write : α → Json) : Except SyncError α → Json
  | .ok x => ok (write x)
  | .error e => e.toJson

/-- Nothing, as the value of a success. -/
def unit : Unit → Json := fun _ => .null

/-- A list of values. -/
def list {α : Type} (write : α → Json) (xs : List α) : Json := .arr (xs.map write)

end Json

namespace Checkpoint

/-- A position or null. -/
def orNull (c : Option Checkpoint) : Json := Json.orNull Checkpoint.toJson c

end Checkpoint

namespace Metrics

/-- All instruments by their texts. -/
def toJson (m : Metrics) : Json :=
  .obj
    [("counters", .obj (m.counters.map fun (i, n) => (i.text, .ofNat n))),
      ("gauges", .obj (m.gauges.map fun (i, n) => (i.text, .num (.int n)))),
      ("histogram_counts", .obj (m.timings.map fun (i, n) => (i.text, .ofNat n)))]

end Metrics

namespace Channel

variable {α : Type}

/-- The messages since a place, and before them the number of those that were missed. -/
def toJson (c : Channel α) (place : Nat) (write : α → Json) : Json :=
  let (missed, messages) := c.drain place
  .arr ((if missed = 0 then [] else [.obj [("lagged", .ofNat missed)]]) ++ messages.map write)

end Channel

end Replication
