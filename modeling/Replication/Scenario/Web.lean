import Replication.Http.Client
import Replication.Report.Basic
import Replication.Scenario.Server

/-!
# Scripted web servers in JSON

A web server answers from a list, one answer a request, and keeps the requests that reach it. An
answer has a status and a body, or a body in chunks; either may break. A connection may also fail
without an answer, and all of them do while nothing listens.
-/

namespace Replication.Http

/-- A scripted web server: whether it listens, its answers to come, and the requests it got. -/
structure WebServer where
  listens : Bool
  answers : List (Option Response) := []
  received : List Request := []

namespace WebServer

/-- The answer of a script that has come to its end. -/
def exhausted : Response :=
  { status := 500, body := ⟨[Utf8.encode "script exhausted".toList], false⟩ }

/-- The network in front of a scripted server. -/
def network : Network WebServer where
  exchange q s :=
    if s.listens then
      (s.answers.headD (some exhausted),
        { s with answers := s.answers.tail, received := s.received ++ [q] })
    else (none, s)

/-- The server without the record of what it got. -/
def forget (s : WebServer) : WebServer := { s with received := [] }

end WebServer

namespace Response

/-- A scripted answer; none if the connection fails. -/
def ofJson (v : Json) : Option Response :=
  if v.boolOr "drop" false || v.boolOr "hang" false || v.has "raw" then none
  else
    let chunks := match v.member? "chunks" with
      | some chunks => chunks.asItems.map Json.asBytes
      | none => [((v.member? "body").map Json.asBytes).getD []]
    some { status := v.natOr "status" 200, body := ⟨chunks, v.boolOr "cut" false⟩ }

end Response

namespace Request

/-- A request as it was received. -/
def toJson (q : Request) : Json :=
  .obj
    [("method", .str q.method), ("target", .str q.target),
      ("authorization", .ofText? q.authorization), ("accept", .str q.accept),
      ("content_type", .ofText? q.contentType), ("body", .orNull id q.body)]

end Request

end Replication.Http
