import Replication.Mutation
import Replication.Error
import Replication.Json.Printer

/-!
# The outbox table

The rows of the outbox in the order in which they were inserted. A row is pending until its
delivery is given up; then it is failed. Each statement on the table is one function on rows.
-/

namespace Replication

/-- A row: a mutation with its operation and its payload as text, since others may have written
them, the number of failed deliveries, the reason of the last one, and whether it was given up. -/
structure Row where
  id : String
  collection : String
  operation : String
  document : String
  payload : Option String
  enqueuedAt : Int
  retries : Int
  lastError : Option String
  failed : Bool
  deriving DecidableEq, Repr

namespace Row

/-- The row of a mutation that was not tried yet. -/
def ofMutation (m : Mutation) : Row where
  id := m.id
  collection := m.collection
  operation := m.operation.name
  document := m.document
  payload := m.payload.map fun o => (Json.obj o).render
  enqueuedAt := m.enqueuedAt
  retries := m.retries
  lastError := none
  failed := false

/-- Whether the row waits for delivery. -/
def pending (r : Row) : Bool := !r.failed

/-- The greatest count that is reported. -/
def maxRetries : Nat := Word.greatest 32

/-- A count as it is reported: one out of range is the greatest. -/
def reported (n : Int) : Nat := if 0 ≤ n ∧ n ≤ maxRetries then n.toNat else maxRetries

/-- Whether a count can be read back: it fits in 64 bits. -/
def countable (n : Int) : Bool := n < Word.size 63

/-- The payload of a text. -/
def payloadOf? (text : String) : Option Object :=
  (Json.Tree.parse? text.toList).bind Json.Tree.object?

/-- The mutation of a row. A foreign row may have none. -/
def mutation (r : Row) : Except SyncError Mutation := do
  let operation ← match Operation.ofName? r.operation with
    | some o => .ok o
    | none =>
      .error (.internal ("Unknown outbox operation '" ++ r.operation ++ "' for " ++ r.id))
  let payload ← match r.payload with
    | none => .ok none
    | some text => match payloadOf? text with
      | some o => .ok (some o)
      | none => .error (.internal ("Corrupt outbox payload for " ++ r.id ++ ": <detail>"))
  return ⟨r.id, r.collection, operation, r.document, payload, r.enqueuedAt, reported r.retries⟩

/-- The mutation of a failed row, and the reason. -/
def failure (r : Row) : Except SyncError FailedMutation := do
  return ⟨← r.mutation, r.lastError.getD ""⟩

end Row

/-- The rows of the outbox, oldest first. -/
abbrev Rows := List Row

namespace Rows

/-- The row of a mutation. -/
def find? (rows : Rows) (id : String) : Option Row := List.find? (·.id == id) rows

/-- The rows of a collection that wait for delivery. -/
def pending (rows : Rows) (collection : String) : List Row :=
  rows.filter fun r => r.collection == collection && r.pending

/-- The rows of a collection that were given up. -/
def failed (rows : Rows) (collection : String) : List Row :=
  rows.filter fun r => r.collection == collection && r.failed

/-- Appends a row unless its mutation is there, and says whether it did. -/
def insert (rows : Rows) (row : Row) : Bool × Rows :=
  if (rows.find? row.id).isSome then (false, rows) else (true, rows ++ [row])

/-- Removes the pending rows of mutations, and counts them. -/
def acknowledge (rows : Rows) (ids : List String) : Nat × Rows :=
  let gone (r : Row) : Bool := r.pending && ids.contains r.id
  (rows.countP gone, rows.filter fun r => !gone r)

/-- Removes the failed row of a mutation, and counts it. -/
def discard (rows : Rows) (id : String) : Nat × Rows :=
  let gone (r : Row) : Bool := r.failed && r.id == id
  (rows.countP gone, rows.filter fun r => !gone r)

/-- Changes the pending row of a mutation. -/
def alterPending (rows : Rows) (id : String) (f : Row → Row) : Rows :=
  rows.map fun r => if r.pending && r.id == id then f r else r

/-- The pending row of a mutation. -/
def pendingRow? (rows : Rows) (id : String) : Option Row :=
  List.find? (fun r => r.pending && r.id == id) rows

/-- One more failed delivery of a pending row, and why. -/
def recordFailure (reason : String) (r : Row) : Row :=
  { r with retries := r.retries + 1, lastError := some reason }

/-- The end of a pending row's deliveries, and why. -/
def giveUp (reason : String) (r : Row) : Row := { r with failed := true, lastError := some reason }

/-- Counts a failed delivery of a pending mutation; gives its row afterwards. -/
def requeue (rows : Rows) (id reason : String) : Option Row × Rows :=
  ((rows.pendingRow? id).map (recordFailure reason), rows.alterPending id (recordFailure reason))

/-- Gives up a pending mutation; gives its row afterwards. -/
def markFailed (rows : Rows) (id reason : String) : Option Row × Rows :=
  ((rows.pendingRow? id).map (giveUp reason), rows.alterPending id (giveUp reason))

end Rows

end Replication
