import Replication.Http.Answer
import Replication.Json.Printer
import Replication.Realtime.Stream
import Replication.Remote
import Replication.Session.Refresher
import Replication.Text.Form

/-!
# The client on the wire

Requests over a network that answers them or fails. A request carries the session's token; one that
is refused for it is repeated once with a new token, if the session can renew it. An answer without
success is a failure by its status.
-/

namespace Replication.Http

/-- A request. -/
structure Request where
  method : String
  target : String
  authorization : Option String := none
  accept : String := "*/*"
  contentType : Option String := none
  body : Option Json := none

/-- An answer: its status and its body, which may break before it is complete. -/
structure Response where
  status : Nat
  body : StreamBody

namespace Response

/-- Whether a status means success. -/
def succeeded (r : Response) : Bool := 200 ≤ r.status && r.status < 300

/-- The text of the whole body. -/
def text? (r : Response) : Option (List Char) :=
  if r.body.broken then none else some (Utf8.decode r.body.chunks.flatten)

end Response

/-- A network: it brings a request to the server and the answer back, or the connection fails. -/
structure Network (σ : Type) where
  exchange : Request → σ → Option Response × σ

/-- What a client works with: its session, what renews the token, and the network. -/
structure World (σ : Type) where
  session : Session
  refresher : Refresher
  network : σ

/-- The failure of a status: overload and trouble of the server pass, refused credentials do not,
and anything else breaks the contract. At most 200 characters of the body are told. -/
def statusError (operation : String) (status : Nat) (body : List Char) : SyncError :=
  let told := "HTTP " ++ toString status ++ ": " ++ String.ofList (body.take 200)
  if 500 ≤ status && status < 600 || status = 408 || status = 429 then .transport operation told
  else if status = 401 || status = 403 then
    .session (operation ++ " rejected credentials (HTTP " ++ toString status ++ ")")
  else .protocol (operation ++ " failed with " ++ told)

variable {σ : Type}

/-- The request with the session's token. -/
def authorize (s : Session) (q : Request) : Request :=
  { q with authorization := s.token.map ("Bearer " ++ ·) }

/-- Sends a request once. -/
def send (net : Network σ) (operation : String) (q : Request) (w : World σ) :
    Except SyncError Response × World σ :=
  let (response, network) := net.exchange (authorize w.session q) w.network
  let w := { w with network }
  match response with
  | some r => (.ok r, w)
  | none => (.error (.connection operation), w)

/-- Renews the token of the session. -/
def renew (w : World σ) : Except SyncError Unit × World σ :=
  let (results, session, refresher) := w.session.refresh w.refresher 1
  let w := { w with session, refresher }
  match results.head? with
  | some (.error e) => (.error e, w)
  | _ => (.ok (), w)

/-- Sends a request, and once more with a new token if it is refused for its token. -/
def sendAuthorized (net : Network σ) (operation : String) (q : Request) (w : World σ) :
    Except SyncError Response × World σ :=
  match send net operation q w with
  | (.ok r, w) =>
    if r.status = 401 && w.session.renewable then
      match renew w with
      | (.ok (), w) => send net operation q w
      | (.error e, w) => (.error e, w)
    else (.ok r, w)
  | failed => failed

/-- The text of a successful answer. -/
def successText (operation : String) (r : Response) : Except SyncError (List Char) :=
  match r.text? with
  | none => .error (.connection operation)
  | some text => if r.succeeded then .ok text else .error (statusError operation r.status text)

/-- The base of all targets: without slashes at its end. -/
def base (url : String) : String :=
  String.ofList (url.toList.reverse.dropWhile (· == '/')).reverse

/-- The request for changes of a collection. -/
def pullRequest (url collection : String) (position : Option Checkpoint) (limit : Nat) : Request :=
  let parameters := [("collection", collection), ("limit", toString limit)]
    ++ (position.map fun c => ("checkpoint", c.value)).toList
  { method := "GET", target := base url ++ "/v1/replication/pull?" ++ Form.query parameters }

/-- The request that pushes mutations. -/
def pushRequest (url collection : String) (sent : List Mutation) : Request :=
  let change (m : Mutation) : Json :=
    .obj [("action", .str m.operation.name), ("document", .obj (Document.ofMutation m))]
  { method := "POST"
    target := base url ++ "/v1/replication/push"
    contentType := some "application/json"
    body := some (.obj [("changes", .arr (sent.map change)), ("collection", .str collection)]) }

/-- The request that opens an event session. -/
def openRequest (url scope : String) : Request :=
  { method := "GET"
    target := base url ++ "/v1/realtime?" ++ Form.query [("collection", scope)]
    accept := "text/event-stream" }

/-- Asks for changes of a collection. -/
def pull (net : Network σ) (url collection : String) (position : Option Checkpoint) (limit : Nat)
    (w : World σ) : Except SyncError Page × World σ :=
  let (response, w) := sendAuthorized net "pull" (pullRequest url collection position limit) w
  (do
    let body ← parseBody "pull" PullBody.ofTree? (← successText "pull" (← response))
    body.page collection, w)

/-- Pushes mutations of a collection. -/
def push (net : Network σ) (url collection : String) (sent : List Mutation) (w : World σ) :
    Except SyncError PushAnswer × World σ :=
  let (response, w) := sendAuthorized net "push" (pushRequest url collection sent) w
  (do
    let body ← parseBody "push" PushBody.ofTree? (← successText "push" (← response))
    body.answer collection sent, w)

/-- Opens an event session for a scope. -/
def openStream (net : Network σ) (url scope : String) (w : World σ) :
    Except SyncError EventStream × World σ :=
  let (response, w) := sendAuthorized net "realtime" (openRequest url scope) w
  (do
    let r ← response
    if r.succeeded then return { body := r.body }
    else throw (statusError "realtime" r.status (r.text?.getD [])), w)

/-- The server behind a network, as passes see it. -/
def remote (net : Network σ) (url : String) : Remote (World σ) where
  fetch collection position limit w := pull net url collection position limit w
  send collection sent w := push net url collection sent w

end Replication.Http
