import Replication.Metrics
import Replication.Tables.Channel
import Replication.Tables.Database
import Replication.Tables.Documents

/-!
# The replica

The client's side of replication: its tables, the checkpoints that it hands out, the local
documents, the notices that it sends, and its counters. An action changes the replica and may
fail; what it changed before it failed stays changed.
-/

namespace Replication

/-- The state of a client. -/
structure Replica where
  database : Database := {}
  /-- The checkpoints that are handed out; those of the table. -/
  checkpoints : KeyMap String Checkpoint := []
  documents : Documents := {}
  /-- The collections of the mutations that came into the outbox. -/
  enqueued : Channel String := {}
  /-- The mutations that were given up. -/
  failures : Channel FailedMutation := {}
  metrics : Metrics := {}

/-- A step of a client that may fail. -/
abbrev Action (α : Type) := ExceptT SyncError (StateM Replica) α

namespace Action

variable {α : Type}

/-- The outcome of an action on a replica, and the replica afterwards. -/
def exec (a : Action α) (r : Replica) : Except SyncError α × Replica := StateT.run (ExceptT.run a) r

/-- The outcome of an action as a value. -/
def attempt (a : Action α) : Action (Except SyncError α) := ExceptT.lift (ExceptT.run a)

/-- Counts something. -/
def measure (f : Metrics → Metrics) : Action Unit := modify fun r => { r with metrics := f r.metrics }

/-- Reads from the tables; the answer is missing if a table is. -/
def query (f : Tables → Option α) : Action α := do
  let r ← get
  if r.database.closed then throw .persistence
  match f r.database.tables with
  | some x => return x
  | none => throw .persistence

/-- Writes to the tables, all or nothing. An attempt that meets the lock is counted and repeated
while attempts are left. -/
def write (operation : String) (f : Tables → Option (α × Tables)) : Action α := do
  let r ← get
  if r.database.closed then throw .persistence
  match f r.database.tables with
  | none => throw .persistence
  | some (x, tables) =>
    let d := r.database
    let (through, retries) := Database.acquire d.locked Database.maxAttempts d.attempts
    let metrics := (List.range retries).foldl (fun m _ => m.writeRetry operation) r.metrics
    let database := { d with attempts := d.attempts + retries + 1 }
    if through then
      set { r with metrics, database := { database with tables } }
      return x
    else
      set { r with metrics, database }
      throw .persistence

/-- Brings a change into a collection of the local documents; gives the reason if it is refused,
which is counted. -/
def applyChange (collection : String) (c : Change) : Action (Option String) := do
  let r ← get
  let (refused, documents) := r.documents.apply collection c
  set { r with documents }
  if refused.isSome then measure (·.applyFailure collection)
  return refused

end Action

namespace Replica

/-- A replica whose database was just opened: missing tables are created, the checkpoints are
those of the table, and nobody listens yet. -/
def opened (r : Replica) (tables : Tables) : Replica :=
  let tables := Database.restored tables
  { r with
    database := { tables }
    checkpoints := tables.checkpoints.getD []
    enqueued := {}
    failures := {} }

/-- The replica, where writes to some documents are refused for a reason. -/
def refusing (r : Replica) (reasons : KeyMap String String) : Replica :=
  { r with documents := r.documents.refusing reasons }

/-- The replica with its database closed. -/
def close (r : Replica) : Replica := { r with database := { r.database with closed := true } }

end Replica

end Replication
