/-!
# Metrics

What the engine counts about its own work. An instrument is a name with labels; counters only
grow, gauges hold the last value, and of timings only their number is kept.
-/

namespace Replication

/-- An instrument: its name and its labels in the order of their declaration. -/
structure Instrument where
  name : String
  labels : List (String × String)
  deriving DecidableEq, Repr

namespace Instrument

/-- The name with the labels in braces. -/
def text (i : Instrument) : String :=
  i.name ++ "\x7b" ++ ",".intercalate (i.labels.map fun l => l.1 ++ "=" ++ l.2) ++ "\x7d"

end Instrument

/-- The state of all instruments that were ever used. -/
structure Metrics where
  counters : List (Instrument × Nat) := []
  gauges : List (Instrument × Int) := []
  timings : List (Instrument × Nat) := []
  deriving DecidableEq, Repr

namespace Metrics

/-- An association list with the value of a key changed, or a new key at its end. -/
def alter {κ α : Type} [DecidableEq κ] (key : κ) (f : Option α → α) : List (κ × α) → List (κ × α)
  | [] => [(key, f none)]
  | (k, v) :: rest => if k = key then (k, f (some v)) :: rest else (k, v) :: alter key f rest

/-- The value of a counter. -/
def counter (m : Metrics) (i : Instrument) : Nat := (m.counters.lookup i).getD 0

/-- A counter grows; growing by nothing still makes it known. -/
def count (m : Metrics) (name : String) (labels : List (String × String)) (by_ : Nat) : Metrics :=
  { m with counters := alter ⟨name, labels⟩ (fun v => v.getD 0 + by_) m.counters }

/-- A gauge is set. -/
def gauge (m : Metrics) (name : String) (labels : List (String × String)) (value : Int) :
    Metrics :=
  { m with gauges := alter ⟨name, labels⟩ (fun _ => value) m.gauges }

/-- A duration was measured. -/
def timing (m : Metrics) (name : String) (labels : List (String × String)) : Metrics :=
  { m with timings := alter ⟨name, labels⟩ (fun v => v.getD 0 + 1) m.timings }

/-! ## Passes -/

/-- A pull pass ended without an error. -/
def pullPass (m : Metrics) (collection : String) (applied failed : Nat) : Metrics :=
  let labels := [("collection", collection)]
  let m := m.count "replication_pull_passes_total" labels 1
  let m := m.count "replication_pull_documents_applied_total" labels applied
  let m := if 0 < failed then m.count "replication_pull_documents_failed_total" labels failed else m
  m.timing "replication_pull_duration_seconds" labels

/-- A push pass ended. -/
def pushPass (m : Metrics) (collection : String) (accepted rejected : Nat) : Metrics :=
  let labels := [("collection", collection)]
  let m := m.count "replication_push_passes_total" labels 1
  let m := m.count "replication_push_mutations_accepted_total" labels accepted
  let m :=
    if 0 < rejected then m.count "replication_push_mutations_rejected_total" labels rejected else m
  m.timing "replication_push_duration_seconds" labels

/-- A pass of a lane ended with an error of a kind. -/
def passFailure (m : Metrics) (collection lane kind : String) : Metrics :=
  m.count "replication_pass_failures_total"
    [("collection", collection), ("lane", lane), ("error_type", kind)] 1

/-- The local store refused a document. -/
def applyFailure (m : Metrics) (collection : String) : Metrics :=
  m.count "replication_apply_failures_total" [("collection", collection)] 1

/-- A source triggered a pass of a lane. -/
def trigger (m : Metrics) (collection lane source : String) : Metrics :=
  m.count "replication_triggers_total"
    [("collection", collection), ("lane", lane), ("source", source)] 1

/-! ## Tables -/

/-- A checkpoint was written, or was not. -/
def checkpointPersist (m : Metrics) (collection : String) (success : Bool) : Metrics :=
  m.count "replication_checkpoint_persists_total"
    [("collection", collection), ("status", if success then "success" else "failure")] 1

/-- A mutation came into the outbox. -/
def outboxEnqueued (m : Metrics) (collection : String) : Metrics :=
  m.count "replication_outbox_enqueued_total" [("collection", collection)] 1

/-- The number of mutations that wait. -/
def outboxDepth (m : Metrics) (collection : String) (depth : Nat) : Metrics :=
  m.gauge "replication_outbox_depth" [("collection", collection)] depth

/-- Mutations were given up. -/
def deadLettered (m : Metrics) (collection : String) (n : Nat) : Metrics :=
  m.count "replication_dead_lettered_total" [("collection", collection)] n

/-- A write met a locked database and is tried again. -/
def writeRetry (m : Metrics) (operation : String) : Metrics :=
  m.count "replication_sqlite_retries_total" [("operation", operation)] 1

/-! ## Events and state -/

/-- An event arrived. -/
def realtimeEvent (m : Metrics) (collection : String) : Metrics :=
  m.count "replication_realtime_events_total" [("collection", collection)] 1

/-- An event session was lost. -/
def realtimeReconnect (m : Metrics) (scope : String) : Metrics :=
  m.count "replication_realtime_reconnects_total" [("scope", scope)] 1

/-- The place of a word in a list, or minus one. -/
def placeOf (word : String) (words : List String) : Int :=
  match words.idxOf? word with
  | some n => n
  | none => -1

/-- The state of a listener, by name. -/
def listenerState (m : Metrics) (scope state : String) : Metrics :=
  m.gauge "replication_listener_state" [("scope", scope)]
    (placeOf state ["disconnected", "connecting", "connected"])

/-- The state of a collection, by name. -/
def replicationState (m : Metrics) (collection state : String) : Metrics :=
  m.gauge "replication_state" [("collection", collection)]
    (placeOf state ["stopped", "syncing", "idle", "error"])

/-- How often writes were tried again. -/
def writeRetries (m : Metrics) : Nat :=
  m.counters.foldl
    (fun n e => if e.1.name == "replication_sqlite_retries_total" then n + e.2 else n) 0

/-- A caller's token was renewed, or was not. -/
def sessionRefresh (m : Metrics) (success : Bool) : Metrics :=
  m.count "replication_session_refreshes_total"
    [("status", if success then "success" else "failure")] 1

end Metrics

end Replication
