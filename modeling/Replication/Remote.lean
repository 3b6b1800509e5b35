import Replication.Change
import Replication.Error
import Replication.Mutation

/-!
# The remote authority

The server as the client sees it: it answers a request for changes with a page and a push of
mutations with an answer, or fails. It has a state of its own, which requests may change. A script
is a server that reads its answers from a list and keeps what it was asked.
-/

namespace Replication

/-- A server. -/
structure Remote (σ : Type) where
  /-- Asks for changes of a collection after a position, at most a number of them. -/
  fetch : (collection : String) → Option Checkpoint → (limit : Nat) → σ → Except SyncError Page × σ
  /-- Sends mutations of a collection. -/
  send : (collection : String) → List Mutation → σ → Except SyncError PushAnswer × σ

/-- A scripted answer to a push. -/
inductive PushReply where
  /-- Every mutation is taken. -/
  | acceptAll
  /-- Every mutation is refused for one reason. -/
  | rejectAll (reason : String)
  | answer (a : PushAnswer)
  | fail (e : SyncError)

namespace PushReply

/-- The answer to the mutations that were sent. -/
def resolve (sent : List Mutation) : PushReply → Except SyncError PushAnswer
  | .acceptAll => .ok ⟨sent.map (·.id), [], []⟩
  | .rejectAll reason => .ok ⟨[], sent.map (⟨·.id, reason⟩), []⟩
  | .answer a => .ok a
  | .fail e => .error e

end PushReply

/-- A scripted answer, given at once or held back until it is released. -/
structure Scripted (α : Type) where
  held : Bool
  reply : α

/-- The answers that a script has left for one collection, and what it was asked. -/
structure Script where
  pages : List (Scripted (Except SyncError Page)) := []
  replies : List (Scripted PushReply) := []
  fetched : List (Option Checkpoint × Nat) := []
  sent : List (List String) := []

namespace Script

/-- The next page of a script; an empty one when the script has come to its end. -/
def nextPage (s : Script) (position : Option Checkpoint) (limit : Nat) :
    Scripted (Except SyncError Page) × Script :=
  let asked := { s with fetched := s.fetched ++ [(position, limit)] }
  match s.pages with
  | [] => (⟨false, .ok .empty⟩, asked)
  | p :: rest => (p, { asked with pages := rest })

/-- The next reply of a script; the mutations are taken when it has come to its end. -/
def nextReply (s : Script) (mutations : List Mutation) : Scripted PushReply × Script :=
  let asked := { s with sent := s.sent ++ [mutations.map (·.id)] }
  match s.replies with
  | [] => (⟨false, .acceptAll⟩, asked)
  | r :: rest => (r, { asked with replies := rest })

/-- The script without the record of what it was asked. -/
def forget (s : Script) : Script := { s with fetched := [], sent := [] }

/-- The server that answers from one script and holds nothing back. -/
def remote : Remote Script where
  fetch _ position limit s :=
    let (p, s) := s.nextPage position limit
    (p.reply, s)
  send _ mutations s :=
    let (r, s) := s.nextReply mutations
    (r.reply.resolve mutations, s)

end Script

end Replication
