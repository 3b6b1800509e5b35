import Replication.Replica.Basic

/-!
# Keeping checkpoints

A checkpoint is written to the table before it is handed out, and only ever moves forward until it
is deleted.
-/

namespace Replication.Replica

/-- The checkpoint of a collection; none before the first pull. -/
def checkpoint? (r : Replica) (collection : String) : Option Checkpoint :=
  r.checkpoints.get? collection

/-- Whether a checkpoint is already there. An older one than the current one is refused. -/
def settled (current : Option Checkpoint) (next : Checkpoint) : Except SyncError Bool :=
  match current with
  | none => .ok false
  | some c =>
    match next.cmp c with
    | .eq => .ok true
    | .lt => .error (.invalidState ("checkpoint >= " ++ c.value) next.value)
    | .gt => .ok false

/-- Moves the checkpoint of a collection forward. On a failure nothing changes. -/
def setCheckpoint (collection : String) (next : Checkpoint) : Action Unit := do
  let current := (← get).checkpoint? collection
  match settled current next with
  | .error e => throw e
  | .ok true => return
  | .ok false =>
    let outcome ← Action.attempt <| Action.write "checkpoint_set" fun t =>
      t.checkpoints.map fun m => ((), { t with checkpoints := some (m.set collection next) })
    match outcome with
    | .ok () =>
      modify fun r => { r with checkpoints := r.checkpoints.set collection next }
      Action.measure (·.checkpointPersist collection true)
    | .error e =>
      Action.measure (·.checkpointPersist collection false)
      throw e

/-- Forgets the checkpoint of a collection, so that the next pull starts from scratch. On a
failure nothing changes. -/
def deleteCheckpoint (collection : String) : Action Unit := do
  Action.write "checkpoint_delete" fun t =>
    t.checkpoints.map fun m => ((), { t with checkpoints := some (m.erase collection) })
  modify fun r => { r with checkpoints := r.checkpoints.erase collection }

/-- Flushes what the database still holds back. -/
def flush : Action Unit := Action.query fun _ => some ()

end Replication.Replica
