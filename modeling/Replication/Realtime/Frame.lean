import Replication.Change
import Replication.Error
import Replication.Json.Printer

/-!
# Realtime frames

The messages of an event session. Each is one JSON envelope with a type and a payload; a change
notice names its collection by the path of the document that changed, or else by a field of the
document itself.
-/

namespace Replication

open Json (Tree Field Record.fields? Record.need Record.orNull Record.orElse)

/-- The collection of a document's path: what stands before the last slash. Both the collection
and the part after it have at least one character. -/
def collectionOf? (path : String) : Option String :=
  let backwards := path.toList.reverse
  let name := backwards.takeWhile (· != '/')
  let collection := (backwards.dropWhile (· != '/')).drop 1
  if name.isEmpty || collection.isEmpty then none else some (String.ofList collection.reverse)

/-- A message of the server. -/
inductive Frame where
  | authAck
  | event (event : ChangeEvent)
  | error (code message : String)
  /-- A type that replication does not act on. -/
  | ignored (type : String)
  deriving DecidableEq, Repr

namespace Frame

/-- What stands for the diagnostics of the JSON reader. -/
def detail : String := "<detail>"

/-- A type and a payload. -/
def envelope? (t : Tree) : Option (String × Option Json) := do
  match ← Record.fields? [.required "type", .defaulted "payload"] t with
  | [type, payload] =>
    some (← Record.need Tree.string? type, ← Record.orNull Tree.value? payload)
  | _ => none

/-- What changed: the kind of the change, the path of the document, and the document. -/
structure Delta where
  kind : ChangeKind
  path : String
  document : Option Object

def Delta.ofTree? (t : Tree) : Option Delta := do
  let slots ← Record.fields? [.required "type", .defaulted "path", .defaulted "document"] t
  match slots with
  | [kind, path, document] =>
    some
      { kind := ← Record.need (Tree.word? ChangeKind.ofName?) kind
        path := ← Record.orElse "" Tree.string? path
        document := ← Record.orNull Tree.object? document }
  | _ => none

/-- The payload of a change notice. -/
def delta? (payload : Json) : Option Delta := do
  match ← Record.fields? [.required "delta"] (.ofJson payload) with
  | [delta] => Record.need Delta.ofTree? delta
  | _ => none

/-- The collection that a document names itself. -/
def namedCollection? (document : Option Object) : Option String :=
  match document.bind (Object.get? · "collection") with
  | some (.str s) => some s
  | _ => none

/-- The change notice of a payload. -/
def eventOf (payload : Json) : Except SyncError ChangeEvent :=
  match delta? payload with
  | none => .error (.protocol ("Invalid event payload: " ++ detail))
  | some d =>
    match (collectionOf? d.path).or (namedCollection? d.document) with
    | none => .error (.protocol ("Event without collection (path '" ++ d.path ++ "')"))
    | some collection =>
      .ok ⟨collection, d.kind, if d.path.isEmpty then none else some d.path⟩

/-- The text of an error code: a string as it is, null as nothing, anything else as JSON. -/
def codeText : Json → String
  | .str s => s
  | .null => ""
  | v => v.render

/-- The code and the message of an error payload. -/
def errorOf (payload : Option Json) : Except SyncError Frame :=
  match payload with
  | none => .ok (.error "" "")
  | some v =>
    let parts := do
      match ← Record.fields? [.defaulted "code", .defaulted "message"] (.ofJson v) with
      | [code, message] =>
        some (← Record.orElse .null Tree.value? code, ← Record.orElse "" Tree.string? message)
      | _ => none
    match parts with
    | some (code, message) => .ok (.error (codeText code) message)
    | none => .error (.protocol ("Invalid error payload: " ++ detail))

/-- The message of a text. -/
def decode (text : String) : Except SyncError Frame :=
  match (Tree.parse? text.toList).bind envelope? with
  | none => .error (.protocol ("Invalid realtime frame: " ++ detail))
  | some ("auth_ack", _) => .ok .authAck
  | some ("event", none) => .error (.protocol "Event frame without payload")
  | some ("event", some payload) => (eventOf payload).map .event
  | some ("error", payload) => errorOf payload
  | some (type, _) => .ok (.ignored type)

end Frame

end Replication
