import Replication.Replica.Basic

/-!
# Keeping mutations

A mutation waits in the outbox until the server takes it or its delivery is given up. Its
identifier makes queueing idempotent.
-/

namespace Replication.Replica

/-- Reads rows and then their mutations. A count that cannot be read fails first. -/
def decode {α : Type} (read : Row → Except SyncError α) (rows : List Row) :
    Except SyncError (List α) :=
  if rows.all fun r => Row.countable r.retries then rows.mapM read else .error .persistence

/-- A value read from a row, or the failure of an action. -/
def lift {α : Type} : Except SyncError α → Action α
  | .ok x => return x
  | .error e => throw e

/-- Queues a mutation and says so. One whose identifier is there already changes nothing. -/
def enqueue (m : Mutation) : Action Unit := do
  let inserted ← Action.write "outbox_enqueue" fun t => t.outbox.map fun rows =>
    let (inserted, rows) := rows.insert (Row.ofMutation m)
    (inserted, { t with outbox := some rows })
  if inserted then
    Action.measure (·.outboxEnqueued m.collection)
    modify fun r => { r with enqueued := r.enqueued.send m.collection }

/-- The oldest mutations of a collection that wait, at most a number of them. -/
def pending (collection : String) (limit : Nat) : Action (List Mutation) := do
  let rows ← Action.query fun t => t.outbox.map fun rows => (rows.pending collection).take limit
  lift (decode Row.mutation rows)

/-- A mutation, whether it waits or was given up. -/
def mutation? (id : String) : Action (Option Mutation) := do
  let row ← Action.query fun t => t.outbox.map fun rows => (rows.find? id).toList
  return (← lift (decode Row.mutation row)).head?

/-- Removes mutations that the server took. Those that do not wait are left alone. -/
def acknowledge (ids : List String) : Action Nat :=
  if ids.isEmpty then return 0
  else Action.write "outbox_acknowledge" fun t => t.outbox.map fun rows =>
    let (removed, rows) := rows.acknowledge ids
    (removed, { t with outbox := some rows })

/-- Counts a failed delivery of a mutation that waits, and gives the new count. -/
def requeue (id reason : String) : Action (Option Nat) := do
  let row ← Action.write "outbox_requeue" fun t => t.outbox.map fun rows =>
    let (row, rows) := rows.requeue id reason
    (row, { t with outbox := some rows })
  match row with
  | none => return none
  | some r =>
    if Row.countable r.retries then return some (Row.reported r.retries) else throw .persistence

/-- Gives up a mutation that waits. -/
def markFailed (id reason : String) : Action (Option FailedMutation) := do
  let row ← Action.write "outbox_mark_failed" fun t => t.outbox.map fun rows =>
    let (row, rows) := rows.markFailed id reason
    (row, { t with outbox := some rows })
  return (← lift (decode Row.failure row.toList)).head?

/-- The mutations of a collection that were given up. -/
def failedMutations (collection : String) : Action (List FailedMutation) := do
  let rows ← Action.query fun t => t.outbox.map fun rows => rows.failed collection
  lift (decode Row.failure rows)

/-- Drops mutations that were given up, one after the other. -/
def discard : List String → Action Nat
  | [] => return 0
  | id :: ids => do
    let removed ← Action.write "outbox_discard" fun t => t.outbox.map fun rows =>
      let (removed, rows) := rows.discard id
      (removed, { t with outbox := some rows })
    return removed + (← discard ids)

/-- The number of mutations of a collection that wait. -/
def pendingCount (collection : String) : Action Nat :=
  Action.query fun t => t.outbox.map fun rows => (rows.pending collection).length

/-- The number of mutations of a collection that were given up. -/
def failedCount (collection : String) : Action Nat :=
  Action.query fun t => t.outbox.map fun rows => (rows.failed collection).length

/-- Writes a mutation to the local documents, which may refuse it. -/
def writeDocument (m : Mutation) : Action Unit := do
  let r ← get
  let (refused, documents) := match m.operation with
    | .delete => r.documents.remove m.collection m.document
    | .create | .update => r.documents.upsert m.collection m.document (m.payload.getD [])
  set { r with documents }
  match refused with
  | some reason => throw (.localStore reason)
  | none => return

/-- Writes a mutation to the local documents and then queues it. If the documents refuse it,
nothing is queued. -/
def writeLocally (m : Mutation) : Action Unit := do
  writeDocument m
  enqueue m

end Replication.Replica
