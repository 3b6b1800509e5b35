import Replication.Change
import Replication.Error
import Replication.Json.Inspect
import Replication.Mutation

/-!
# Documents on the wire

On the wire a document is one flat object: the fields of its body and a few reserved ones. `id`
holds its collection and its identifier with a slash between them, `_updated_at` or else `_version`
its position in the feed, and `deleted` says that it is a tombstone.
-/

namespace Replication.Document

/-- The reserved fields. -/
def idField : String := "id"

def updatedField : String := "_updated_at"

def versionField : String := "_version"

def deletedField : String := "deleted"

/-- The position that a field holds: a number as its text, or a text that is not empty. -/
def positionIn? (document : Object) (field : String) : Option Checkpoint :=
  match document.get? field with
  | some (.num n) => some ⟨n.text⟩
  | some (.str s) => if s.isEmpty then none else some ⟨s⟩
  | _ => none

/-- The position of a document. -/
def position? (document : Object) : Option Checkpoint :=
  (positionIn? document updatedField).or (positionIn? document versionField)

/-- The identifier within a collection: without the collection and the slash in front of it. -/
def localId (collection id : String) : String :=
  let lead := collection.toList ++ ['/']
  if lead.isPrefixOf id.toList then String.ofList (id.toList.drop lead.length) else id

/-- The identifier of a document on the wire. -/
def wireId (collection document : String) : String := collection ++ "/" ++ document

/-- The position that stands for a missing one. -/
def origin : Checkpoint := ⟨"0"⟩

/-- The change that a document stands for. Without a usable identifier it stands for none, nor
without a position where one is required. -/
def toChange (collection : String) (positioned : Bool) (document : Object) :
    Except SyncError Change := do
  let id ← match document.get? idField with
    | some (.str id) =>
      if id.isEmpty then .error (unusable (some (.str id))) else .ok id
    | other => .error (unusable other)
  let document := document.erase idField
  let checkpoint ← match position? document, positioned with
    | some c, _ => .ok c
    | none, false => .ok origin
    | none, true =>
      .error (.protocol ("Document '" ++ id ++ "' has neither " ++ updatedField ++ " nor "
        ++ versionField))
  return {
    document := localId collection id
    collection
    fields := document.erase deletedField
    deleted := match document.get? deletedField with
      | some (.bool true) => true
      | _ => false
    checkpoint }
where
  /-- An identifier that cannot be used. -/
  unusable (found : Option Json) : SyncError :=
    .protocol ("Document in '" ++ collection ++ "' has no usable id: " ++ Json.inspect? found)

/-- The document of a mutation: its payload under its identifier. -/
def ofMutation (m : Mutation) : Object :=
  (m.payload.getD []).insert idField (.str (wireId m.collection m.document))

end Replication.Document
