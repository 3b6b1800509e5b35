import Replication.Json.Record
import Replication.Retry
import Replication.Time.SpanText

/-!
# Settings

The settings of the engine, how they are read, and what they mean. Every setting has a default;
a span that cannot be read means its default too.
-/

namespace Replication

open Json (Tree Field Record.fields? Record.orElse)

/-- Where the remote authority is. -/
structure Endpoint where
  baseUrl : String := "http://localhost:8080"
  requestTimeout : String := "30s"
  deriving DecidableEq, Repr

/-- How changes are pulled. -/
structure PullSettings where
  batchSize : Nat := 100
  limited : Bool := false
  limitPerSecond : Nat := 5
  limitBurst : Nat := 10
  deriving DecidableEq, Repr

/-- How mutations are pushed. -/
structure PushSettings where
  batchSize : Nat := 100
  maxRetries : Nat := 5
  deriving DecidableEq, Repr

/-- When passes run. -/
structure Schedule where
  fallbackInterval : String := "30s"
  backoffBase : Nat := 1000
  backoffMax : Nat := 300000
  drainTimeout : String := "10s"
  deriving DecidableEq, Repr

/-- How the event session is kept. -/
structure RealtimeSettings where
  enabled : Bool := true
  initialDelay : Nat := 1000
  maxDelay : Nat := 60000
  factor : Binary64 := .ofNat 2
  connectTimeout : String := "10s"
  deriving DecidableEq, Repr

/-- Where the tables are kept. -/
structure StorageSettings where
  path : String := "replica_sync.db"
  writeAhead : Bool := true
  deriving DecidableEq, Repr

/-- All settings. -/
structure Settings where
  remote : Endpoint := {}
  pull : PullSettings := {}
  push : PushSettings := {}
  schedule : Schedule := {}
  realtime : RealtimeSettings := {}
  storage : StorageSettings := {}
  deriving DecidableEq, Repr

/-! ## Meaning -/

/-- The span of a text, or a default. -/
def spanOr (default : Span) (text : String) : Span := (Span.ofText? text).getD default

namespace Endpoint

def timeout (e : Endpoint) : Span := spanOr (.ofSeconds 30) e.requestTimeout

end Endpoint

namespace PullSettings

/-- The largest page that the server hands out. -/
def maxBatch : Nat := 1000

/-- The changes to ask for at once. -/
def effectiveBatch (s : PullSettings) : Nat := min (max s.batchSize 1) maxBatch

/-- The bound on pulls that events trigger. -/
def rateLimit (s : PullSettings) : Option RateLimit :=
  if s.limited then some ⟨s.limitBurst, s.limitPerSecond⟩ else none

end PullSettings

namespace Schedule

def fallback (s : Schedule) : Span := spanOr (.ofSeconds 30) s.fallbackInterval

def drain (s : Schedule) : Span := spanOr (.ofSeconds 10) s.drainTimeout

/-- A power of two, but no more than 64 bits hold. -/
def boundedPower (n : Nat) : Nat := if n < 64 then Word.size n else Word.greatest 64

/-- The milliseconds to wait after a number of failed passes in a row: the base, doubled for every
failure after the first, up to the greatest wait. No step exceeds 64 bits. -/
def backoffMillis (s : Schedule) (failures : Nat) : Nat :=
  min (min (s.backoffBase * boundedPower (failures - 1)) (Word.greatest 64)) s.backoffMax

def backoff (s : Schedule) (failures : Nat) : Span := .ofMillis (s.backoffMillis failures)

end Schedule

namespace RealtimeSettings

/-- Reconnecting never gives up. -/
def retryPolicy (s : RealtimeSettings) : RetryPolicy where
  maxAttempts := none
  initialDelay := .ofMillis s.initialDelay
  maxDelay := .ofMillis s.maxDelay
  factor := s.factor
  connectTimeout := spanOr (.ofSeconds 10) s.connectTimeout

end RealtimeSettings

namespace StorageSettings

/-- The path of a database that is gone when it is closed. -/
def memoryPath : String := ":memory:"

def inMemory : StorageSettings := ⟨memoryPath, false⟩

def atPath (path : String) : StorageSettings := ⟨path, true⟩

def isInMemory (s : StorageSettings) : Bool := s.path == memoryPath

end StorageSettings

namespace Settings

/-- Short waits and a database in memory. -/
def brisk : Settings where
  schedule := ⟨"1h", 20, 200, "2s"⟩
  realtime := ⟨true, 10, 100, .ofNat 2, "500ms"⟩
  storage := .inMemory

end Settings

/-! ## Reading -/

/-- A whole number of 64 bits without a sign. -/
def word64? : Tree → Option Nat := Tree.natBelow? (Word.size 64)

/-- A whole number of 32 bits without a sign. -/
def word32? : Tree → Option Nat := Tree.natBelow? (Word.size 32)

def Endpoint.ofTree? (t : Tree) : Option Endpoint := do
  match ← Record.fields? [.defaulted "base_url", .defaulted "request_timeout"] t with
  | [baseUrl, requestTimeout] =>
    let d : Endpoint := {}
    some
      { baseUrl := ← Record.orElse d.baseUrl Tree.string? baseUrl
        requestTimeout := ← Record.orElse d.requestTimeout Tree.string? requestTimeout }
  | _ => none

def PullSettings.ofTree? (t : Tree) : Option PullSettings := do
  let slots ← Record.fields?
    [.defaulted "batch_size", .defaulted "rate_limit_enabled", .defaulted "rate_limit_per_sec",
      .defaulted "rate_limit_burst"] t
  match slots with
  | [batchSize, limited, perSecond, burst] =>
    let d : PullSettings := {}
    some
      { batchSize := ← Record.orElse d.batchSize word64? batchSize
        limited := ← Record.orElse d.limited Tree.bool? limited
        limitPerSecond := ← Record.orElse d.limitPerSecond word32? perSecond
        limitBurst := ← Record.orElse d.limitBurst word32? burst }
  | _ => none

def PushSettings.ofTree? (t : Tree) : Option PushSettings := do
  match ← Record.fields? [.defaulted "batch_size", .defaulted "max_retries"] t with
  | [batchSize, maxRetries] =>
    let d : PushSettings := {}
    some
      { batchSize := ← Record.orElse d.batchSize word64? batchSize
        maxRetries := ← Record.orElse d.maxRetries word32? maxRetries }
  | _ => none

def Schedule.ofTree? (t : Tree) : Option Schedule := do
  let slots ← Record.fields?
    [.defaulted "fallback_interval", .defaulted "backoff_base_ms", .defaulted "backoff_max_ms",
      .defaulted "stop_drain_timeout"] t
  match slots with
  | [fallback, base, greatest, drain] =>
    let d : Schedule := {}
    some
      { fallbackInterval := ← Record.orElse d.fallbackInterval Tree.string? fallback
        backoffBase := ← Record.orElse d.backoffBase word64? base
        backoffMax := ← Record.orElse d.backoffMax word64? greatest
        drainTimeout := ← Record.orElse d.drainTimeout Tree.string? drain }
  | _ => none

def RealtimeSettings.ofTree? (t : Tree) : Option RealtimeSettings := do
  let slots ← Record.fields?
    [.defaulted "enabled", .defaulted "reconnect_initial_delay_ms",
      .defaulted "reconnect_max_delay_ms", .defaulted "reconnect_backoff_factor",
      .defaulted "connect_timeout"] t
  match slots with
  | [enabled, initial, greatest, factor, connectTimeout] =>
    let d : RealtimeSettings := {}
    some
      { enabled := ← Record.orElse d.enabled Tree.bool? enabled
        initialDelay := ← Record.orElse d.initialDelay word64? initial
        maxDelay := ← Record.orElse d.maxDelay word64? greatest
        factor := ← Record.orElse d.factor Tree.double? factor
        connectTimeout := ← Record.orElse d.connectTimeout Tree.string? connectTimeout }
  | _ => none

def StorageSettings.ofTree? (t : Tree) : Option StorageSettings := do
  match ← Record.fields? [.defaulted "sqlite_path", .defaulted "wal_mode"] t with
  | [path, writeAhead] =>
    let d : StorageSettings := {}
    some
      { path := ← Record.orElse d.path Tree.string? path
        writeAhead := ← Record.orElse d.writeAhead Tree.bool? writeAhead }
  | _ => none

/-- The tunables of pulling, pushing, scheduling and events, which stand in one record. -/
def Settings.tunables? (t : Tree) :
    Option (PullSettings × PushSettings × Schedule × RealtimeSettings) := do
  let slots ← Record.fields?
    [.defaulted "pull", .defaulted "push", .defaulted "schedule", .defaulted "realtime"] t
  match slots with
  | [pull, push, schedule, realtime] =>
    some
      (← Record.orElse {} PullSettings.ofTree? pull, ← Record.orElse {} PushSettings.ofTree? push,
        ← Record.orElse {} Schedule.ofTree? schedule,
        ← Record.orElse {} RealtimeSettings.ofTree? realtime)
  | _ => none

def Settings.ofTree? (t : Tree) : Option Settings := do
  match ← Record.fields? [.defaulted "remote", .defaulted "settings", .defaulted "storage"] t with
  | [remote, tunables, storage] =>
    let remote ← Record.orElse {} Endpoint.ofTree? remote
    let (pull, push, schedule, realtime) ←
      Record.orElse ({}, {}, {}, {}) Settings.tunables? tunables
    let storage ← Record.orElse {} StorageSettings.ofTree? storage
    some ⟨remote, pull, push, schedule, realtime, storage⟩
  | _ => none

/-- The settings that a JSON text stands for. -/
def Settings.parse? (text : String) : Option Settings :=
  (Tree.parse? text.toList).bind Settings.ofTree?

end Replication
