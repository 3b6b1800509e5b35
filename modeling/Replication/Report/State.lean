import Replication.Collection.Health
import Replication.Realtime.Frame
import Replication.Report.Basic

/-!
# Messages and states as JSON

How the messages of an event session, the doings of a listener and the health of a collection are
written.
-/

namespace Replication

namespace Frame

def toJson : Frame → Json
  | .authAck => .obj [("frame", .str "auth_ack")]
  | .event e => .obj [("frame", .str "event"), ("event", e.toJson)]
  | .error code message =>
    .obj [("frame", .str "error"), ("code", .str code), ("message", .str message)]
  | .ignored type => .obj [("frame", .str "ignored"), ("type", .str type)]

/-- The message of a text, or why it is none. -/
def decodedJson (text : String) : Json :=
  match Frame.decode text with
  | .ok f => f.toJson
  | .error e => e.toJson

end Frame

namespace SourceCall

/-- A call with the scope of the session. -/
def text (scope : String) (c : SourceCall) : String :=
  (match c with
    | .open => "open"
    | .subscribe => "subscribe"
    | .close => "close") ++ " " ++ scope

end SourceCall

namespace Notice

def toJson : Notice → Json
  | .connected resumed => .obj [("connected", .obj [("resumed", .bool resumed)])]
  | .dropped reason => .obj [("dropped", .str reason)]
  | .event e => .obj [("event", e.toJson)]

end Notice

namespace Health

def toJson (h : Health) : Json :=
  .obj
    [("collection", .str h.collection), ("state", .str h.state.name), ("pending", .ofNat h.pending),
      ("failed", .ofNat h.failed), ("checkpoint", Checkpoint.orNull h.checkpoint),
      ("listener", .ofText? (h.listener.map ListenerState.name)), ("healthy", .bool h.healthy)]

end Health

end Replication
