import Replication.Mutation
import Replication.Change

/-!
# Batches

Which mutations go out together, and what an answer says about each of them. A batch holds the
oldest mutation of each document only, so that a document's mutations arrive in their order.
-/

namespace Replication

/-- The first mutation of each document, in order, where some documents have had theirs. -/
def firstOfEach (seen : List String) : List Mutation → List Mutation
  | [] => []
  | m :: rest =>
    if seen.contains m.document then firstOfEach seen rest
    else m :: firstOfEach (m.document :: seen) rest

/-- The first mutation of each document, in order. -/
def deliverable (ms : List Mutation) : List Mutation := firstOfEach [] ms

namespace PushAnswer

/-- Whether a mutation was sent. -/
def wasSent (sent : List Mutation) (id : String) : Bool := sent.any (·.id == id)

/-- The sent mutations that an answer takes. -/
def taken (a : PushAnswer) (sent : List Mutation) : List String :=
  a.accepted.filter (wasSent sent)

/-- The rejections of an answer that name a sent mutation. -/
def refused (a : PushAnswer) (sent : List Mutation) : List Rejection :=
  a.rejected.filter fun r => wasSent sent r.id

/-- The sent mutations that an answer is silent about, each once, in the order of their
identifiers. -/
def unanswered (a : PushAnswer) (sent : List Mutation) : List String :=
  let ids := (sent.map (·.id)).eraseDups
  let resolved := a.taken sent ++ (a.refused sent).map (·.id)
  (ids.filter fun id => !resolved.contains id).mergeSort (fun x y => !decide (y < x))

end PushAnswer

end Replication
