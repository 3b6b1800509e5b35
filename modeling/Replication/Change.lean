import Replication.Checkpoint

/-!
# Changes from the server

What the server says about documents: the changes of a feed, page by page, its answer to pushed
mutations, and the notices that something changed.
-/

namespace Replication

open Json (Tree Field Record.fields? Record.need Record.orNull Record.orElse)

/-- The state of one document on the server, at a position of its collection's feed. A tombstone
says that the document is gone. -/
structure Change where
  document : String
  collection : String
  fields : Object
  deleted : Bool
  checkpoint : Checkpoint
  deriving Repr

namespace Change

def ofTree? (t : Tree) : Option Change := do
  let slots ← Record.fields?
    [.required "document_id", .required "collection_path", .required "fields",
      .defaulted "deleted", .required "server_checkpoint"] t
  match slots with
  | [document, collection, fields, deleted, checkpoint] =>
    some
      { document := ← Record.need Tree.string? document
        collection := ← Record.need Tree.string? collection
        fields := ← Record.need Tree.object? fields
        deleted := ← Record.orElse false Tree.bool? deleted
        checkpoint := ← Record.need Checkpoint.ofTree? checkpoint }
  | _ => none

def toJson (c : Change) : Json :=
  .obj
    [("collection_path", .str c.collection), ("deleted", .bool c.deleted),
      ("document_id", .str c.document), ("fields", .obj c.fields),
      ("server_checkpoint", c.checkpoint.toJson)]

end Change

/-- A page of a feed, and the position to ask from next. -/
structure Page where
  changes : List Change
  next : Option Checkpoint
  deriving Repr

namespace Page

/-- The page without changes. -/
def empty : Page := ⟨[], none⟩

def ofTree? (t : Tree) : Option Page := do
  let slots ← Record.fields? [.required "changes", .optional "next_checkpoint"] t
  match slots with
  | [changes, next] =>
    some
      { changes := ← Record.need (Tree.list? Change.ofTree?) changes
        next := ← Record.orNull Checkpoint.ofTree? next }
  | _ => none

def toJson (p : Page) : Json :=
  .obj
    [("changes", .arr (p.changes.map Change.toJson)),
      ("next_checkpoint", .ofText? (p.next.map Checkpoint.value))]

end Page

/-- A mutation that the server refused, and why. -/
structure Rejection where
  id : String
  reason : String
  deriving DecidableEq, Repr

namespace Rejection

def ofTree? (t : Tree) : Option Rejection := do
  let slots ← Record.fields? [.required "mutation_id", .required "reason"] t
  match slots with
  | [id, reason] =>
    some { id := ← Record.need Tree.string? id, reason := ← Record.need Tree.string? reason }
  | _ => none

def toJson (r : Rejection) : Json :=
  .obj [("mutation_id", .str r.id), ("reason", .str r.reason)]

end Rejection

/-- The server's answer to pushed mutations: those it took, those it refused, and the states of
documents that it holds instead. -/
structure PushAnswer where
  accepted : List String
  rejected : List Rejection
  serverState : List Change
  deriving Repr

namespace PushAnswer

def ofTree? (t : Tree) : Option PushAnswer := do
  let slots ← Record.fields?
    [.required "accepted", .required "rejected", .defaulted "server_state"] t
  match slots with
  | [accepted, rejected, serverState] =>
    some
      { accepted := ← Record.need (Tree.list? Tree.string?) accepted
        rejected := ← Record.need (Tree.list? Rejection.ofTree?) rejected
        serverState := ← Record.orElse [] (Tree.list? Change.ofTree?) serverState }
  | _ => none

def toJson (a : PushAnswer) : Json :=
  .obj
    [("accepted", .arr (a.accepted.map .str)), ("rejected", .arr (a.rejected.map Rejection.toJson)),
      ("server_state", .arr (a.serverState.map Change.toJson))]

end PushAnswer

/-- How a document changed. -/
inductive ChangeKind where
  | create
  | update
  | delete
  deriving DecidableEq, Repr

namespace ChangeKind

def name : ChangeKind → String
  | .create => "create"
  | .update => "update"
  | .delete => "delete"

/-- The kind with a name. -/
def ofName? : String → Option ChangeKind
  | "create" => some .create
  | "update" => some .update
  | "delete" => some .delete
  | _ => none

end ChangeKind

/-- A notice that a document of a collection changed. -/
structure ChangeEvent where
  collection : String
  kind : ChangeKind
  document : Option String
  deriving DecidableEq, Repr

namespace ChangeEvent

def ofTree? (t : Tree) : Option ChangeEvent := do
  let slots ← Record.fields?
    [.required "collection_path", .required "change_kind", .defaulted "document_path"] t
  match slots with
  | [collection, kind, document] =>
    some
      { collection := ← Record.need Tree.string? collection
        kind := ← Record.need (Tree.word? ChangeKind.ofName?) kind
        document := ← Record.orNull Tree.string? document }
  | _ => none

def toJson (e : ChangeEvent) : Json :=
  .obj
    [("change_kind", .str e.kind.name), ("collection_path", .str e.collection),
      ("document_path", .ofText? e.document)]

end ChangeEvent

end Replication
