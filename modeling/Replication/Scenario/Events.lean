import Replication.Listener.Basic
import Replication.Scenario.Server

/-!
# Scripted event sessions in JSON

A session says how it opens, whether its subscription fails, what it brings, and whether closing it
ends; everything is optional.
-/

namespace Replication

namespace Incoming

/-- What a session brings: a failure, its end, or an event. -/
def ofJson (v : Json) : Except String Incoming :=
  if v.has "error" then .ok (.failure (.ofJson v))
  else if v.boolOr "end" false then .ok .finish
  else (needed "event" (ChangeEvent.ofTree? (.ofJson v))).map .event

end Incoming

namespace EventSession

/-- A scripted session. -/
def ofJson (v : Json) : Except String EventSession := do
  return {
    opening := match v.given? "open_error" with
      | some e => .fails (.ofJson e)
      | none => if v.boolOr "open_hang" false then .hangs else .succeeds
    refusal := (v.given? "subscribe_error").map SyncError.ofJson
    incoming := ← (v.items "events").mapM Incoming.ofJson
    closes := !v.boolOr "close_hang" false }

end EventSession

end Replication
