import Replication.Checkpoint
import Replication.Collection.Progress
import Replication.Listener.Basic

/-!
# Health of a collection

A snapshot of a collection from what the client knows itself; the server is not asked.
-/

namespace Replication

/-- The health of a collection: its state, the mutations that wait and that were given up, its
checkpoint, and the state of its listener while it has one. -/
structure Health where
  collection : String
  state : SyncState
  pending : Nat
  failed : Nat
  checkpoint : Option Checkpoint
  listener : Option ListenerState

namespace Health

/-- Whether the collection runs without error and no mutation was given up. -/
def healthy (h : Health) : Bool := h.state.isRunning && h.state != .error && h.failed == 0

end Health

end Replication
