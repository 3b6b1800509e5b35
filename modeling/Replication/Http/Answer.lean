import Replication.Http.Document
import Replication.Realtime.Frame

/-!
# Answers on the wire

What the bodies of the server's answers say. Everything in them is optional. A conflict is the
state that the server holds for a document instead of what was pushed; it refuses the mutation of
that document.
-/

namespace Replication.Http

open Json (Tree Field Record.fields? Record.need Record.orNull Record.orElse)

/-- The body of an answer to a request for changes. -/
structure PullBody where
  documents : List Object
  checkpoint : Option Checkpoint

def PullBody.ofTree? (t : Tree) : Option PullBody := do
  match ← Record.fields? [.defaulted "documents", .defaulted "checkpoint"] t with
  | [documents, checkpoint] =>
    some
      { documents := (← Record.orNull (Tree.list? Tree.object?) documents).getD []
        checkpoint := ← Record.orNull Checkpoint.ofTree? checkpoint }
  | _ => none

/-- The page that a body holds. -/
def PullBody.page (b : PullBody) (collection : String) : Except SyncError Page := do
  let changes ← b.documents.mapM (Document.toChange collection true)
  return ⟨changes, b.checkpoint.filter fun c => !c.value.isEmpty⟩

/-- The body of an answer to a push. -/
structure PushBody where
  accepted : Option (List String)
  rejected : List Rejection
  conflicts : List Object

/-- A rejection names the mutation; its reason may be left out. -/
def rejectionOfTree? (t : Tree) : Option Rejection := do
  match ← Record.fields? [.required "id", .defaulted "reason"] t with
  | [id, reason] =>
    some { id := ← Record.need Tree.string? id, reason := ← Record.orElse "" Tree.string? reason }
  | _ => none

def PushBody.ofTree? (t : Tree) : Option PushBody := do
  let slots ← Record.fields?
    [.defaulted "accepted", .defaulted "rejected", .defaulted "conflicts"] t
  match slots with
  | [accepted, rejected, conflicts] =>
    some
      { accepted := ← Record.orNull (Tree.list? Tree.string?) accepted
        rejected := (← Record.orNull (Tree.list? rejectionOfTree?) rejected).getD []
        conflicts := (← Record.orNull (Tree.list? Tree.object?) conflicts).getD [] }
  | _ => none

/-- A rejection with a reason. -/
def named (r : Rejection) : Rejection := if r.reason.isEmpty then ⟨r.id, "rejected"⟩ else r

/-- The rejections with that of the mutation that a conflict refuses, if it was sent and is not
refused already. -/
def addConflict (sent : List Mutation) (rejected : List Rejection) (c : Change) : List Rejection :=
  match sent.find? (·.document == c.document) with
  | some m =>
    if rejected.any (·.id == m.id) then rejected else rejected ++ [⟨m.id, "conflict"⟩]
  | none => rejected

/-- What a body says about the mutations that were sent. Without a list of those that were taken,
all that were not refused were. -/
def PushBody.answer (b : PushBody) (collection : String) (sent : List Mutation) :
    Except SyncError PushAnswer := do
  let states ← b.conflicts.mapM (Document.toChange collection false)
  let rejected := states.foldl (addConflict sent) (b.rejected.map named)
  let accepted := match b.accepted with
    | some ids => ids
    | none => (sent.filter fun m => !rejected.any (·.id == m.id)).map Mutation.id
  return ⟨accepted, rejected, states⟩

/-- The body of a text, or a failure that names what it should have been. -/
def parseBody {α : Type} (what : String) (ofTree? : Tree → Option α) (text : List Char) :
    Except SyncError α :=
  match (Tree.parse? text).bind ofTree? with
  | some b => .ok b
  | none => .error (.protocol ("Invalid " ++ what ++ " response: " ++ Frame.detail))

end Replication.Http
