import Replication.Checkpoint

/-!
# Mutations

What a client changed and the server has yet to hear of: one operation on one document of one
collection.
-/

namespace Replication

open Json (Tree Field Record.fields? Record.need Record.orNull Record.orElse)

/-- What a mutation does to its document. -/
inductive Operation where
  | create
  | update
  | delete
  deriving DecidableEq, Repr

namespace Operation

def name : Operation → String
  | .create => "create"
  | .update => "update"
  | .delete => "delete"

/-- The operation with a name. -/
def ofName? : String → Option Operation
  | "create" => some .create
  | "update" => some .update
  | "delete" => some .delete
  | _ => none

@[simp] theorem ofName?_name (o : Operation) : ofName? o.name = some o := by cases o <;> rfl

end Operation

/-- A mutation as it waits in the outbox. -/
structure Mutation where
  id : String
  collection : String
  operation : Operation
  document : String
  payload : Option Object
  enqueuedAt : Int
  retries : Nat
  deriving Repr

namespace Mutation

/-- A mutation in JSON. -/
def ofTree? (t : Tree) : Option Mutation := do
  let slots ← Record.fields?
    [.required "mutation_id", .required "collection_path", .required "operation",
      .required "document_id", .optional "payload", .required "enqueued_at",
      .required "retry_count"] t
  match slots with
  | [id, collection, operation, document, payload, enqueuedAt, retries] =>
    some
      { id := ← Record.need Tree.string? id
        collection := ← Record.need Tree.string? collection
        operation := ← Record.need (Tree.word? Operation.ofName?) operation
        document := ← Record.need Tree.string? document
        payload := ← Record.orNull Tree.object? payload
        enqueuedAt := ← Record.need Tree.int64? enqueuedAt
        retries := ← Record.need (Tree.natBelow? (Word.size 32)) retries }
  | _ => none

def toJson (m : Mutation) : Json :=
  .obj
    [("collection_path", .str m.collection), ("document_id", .str m.document),
      ("enqueued_at", .num (.int m.enqueuedAt)), ("mutation_id", .str m.id),
      ("operation", .str m.operation.name),
      ("payload", match m.payload with
        | some o => .obj o
        | none => .null),
      ("retry_count", .ofNat m.retries)]

end Mutation

/-- A mutation that was given up, and why. -/
structure FailedMutation where
  entry : Mutation
  reason : String
  deriving Repr

namespace FailedMutation

/-- A given up mutation in JSON, and when it was given up. -/
def ofTree? (t : Tree) : Option (FailedMutation × Int) := do
  let slots ← Record.fields? [.required "entry", .required "reason", .required "failed_at"] t
  match slots with
  | [entry, reason, failedAt] =>
    let failed : FailedMutation :=
      { entry := ← Record.need Mutation.ofTree? entry
        reason := ← Record.need Tree.string? reason }
    some (failed, ← Record.need Tree.int64? failedAt)
  | _ => none

def toJson (f : FailedMutation) : Json :=
  .obj [("entry", f.entry.toJson), ("reason", .str f.reason)]

end FailedMutation

end Replication
