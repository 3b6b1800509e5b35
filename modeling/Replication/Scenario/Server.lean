import Replication.Json.Member
import Replication.Remote

/-!
# Scripted servers in JSON

A scripted reply is a failure, an answer in the server's own form, or a shorthand; null is the
reply of a server that has nothing to say. A reply in a member `hang` is held back.
-/

namespace Replication

/-- A value that must be there. -/
def needed {α : Type} (what : String) : Option α → Except String α
  | some x => .ok x
  | none => .error what

/-- A text that must be there. -/
def neededText (v : Json) (key : String) : Except String String :=
  needed ("missing string '" ++ key ++ "'") (v.text? key)

namespace SyncError

/-- A scripted failure. -/
def ofJson (v : Json) : SyncError :=
  let message := v.textOr "message" ""
  match v.textOr "error" "" with
  | "transport" => .transport (v.textOr "operation" "op") message
  | "server_rejection" => .serverRejection (v.textOr "mutation_id" "") (v.textOr "reason" "")
  | "persistence" => .persistence
  | "local_store" => .localStore message
  | "protocol" => .protocol message
  | "session" => .session message
  | "config" => .config message
  | "invalid_state" => .invalidState (v.textOr "expected" "") (v.textOr "actual" "")
  | "shutdown" => .shutdown
  | _ => .internal message

end SyncError

namespace Page

/-- A scripted reply to a request for changes. -/
def replyOfJson (v : Json) : Except String (Except SyncError Page) :=
  match v with
  | .null => .ok (.ok .empty)
  | v =>
    if v.has "error" then .ok (.error (.ofJson v))
    else (needed "page" (Page.ofTree? (.ofJson v))).map .ok

end Page

namespace PushReply

/-- A scripted reply to a push. -/
def ofJson (v : Json) : Except String PushReply :=
  match v with
  | .null => .ok .acceptAll
  | v =>
    if v.has "error" then .ok (.fail (.ofJson v))
    else match v.text? "reject_all" with
      | some reason => .ok (.rejectAll reason)
      | none => (needed "answer" (PushAnswer.ofTree? (.ofJson v))).map .answer

end PushReply

namespace Scripted

/-- A reply that may be held back. -/
def ofJson {α : Type} (read : Json → Except String α) (v : Json) : Except String (Scripted α) :=
  match v.member? "hang" with
  | some reply => (read reply).map (⟨true, ·⟩)
  | none => (read v).map (⟨false, ·⟩)

end Scripted

namespace Script

/-- More scripted pages. -/
def addPages (s : Script) (vs : List Json) : Except String Script := do
  return { s with pages := s.pages ++ (← vs.mapM (Scripted.ofJson Page.replyOfJson)) }

/-- More scripted replies to pushes. -/
def addReplies (s : Script) (vs : List Json) : Except String Script := do
  return { s with replies := s.replies ++ (← vs.mapM (Scripted.ofJson PushReply.ofJson)) }

end Script

namespace Mutation

/-- A mutation in short form: its id, its collection, its operation and its document must be there,
and are looked for in this order. -/
def ofShortJson (v : Json) : Except String Mutation := do
  return {
    id := ← neededText v "id"
    collection := ← neededText v "collection"
    operation := ← needed "kind" (Operation.ofName? (← neededText v "kind"))
    document := ← neededText v "doc"
    payload := (v.given? "payload").bind Json.asObject?
    enqueuedAt := (v.int? "at").getD 0
    retries := v.natOr "retries" 0 }

end Mutation

end Replication
