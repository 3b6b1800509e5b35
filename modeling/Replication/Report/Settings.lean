import Replication.Report.Basic
import Replication.Settings

/-!
# Settings as JSON

How settings are written together with what they mean.
-/

namespace Replication

namespace RetryPolicy

/-- A policy, and what it says about some attempts. A bound on the attempts that 64 bits do not
exceed is none. -/
def toJson (p : RetryPolicy) (attempts : List Nat) : Json :=
  .obj
    [("max_attempts", match p.maxAttempts.filter (· != Word.greatest 64) with
        | some n => .ofNat n
        | none => .str "unlimited"),
      ("initial_delay", .str p.initialDelay.text), ("max_delay", .str p.maxDelay.text),
      ("backoff_factor", .str p.factor.positional),
      ("connection_timeout", .str p.connectTimeout.text),
      ("attempts", .list (fun n => .obj
        [("attempt", .ofNat n), ("delay", .str (((p.delay? n).map Span.text).getD "panic")),
          ("allowed", .bool (p.allows n))]) attempts)]

end RetryPolicy

namespace RateLimit

def toJson (l : RateLimit) : Json :=
  .obj [("burst_size", .ofNat l.burst), ("refill_rate", .ofNat l.refill)]

end RateLimit

namespace Schedule

/-- A schedule, and its waits after some numbers of failures. -/
def toJson (s : Schedule) (failures : List Nat) : Json :=
  .obj
    [("fallback_interval", .str s.fallbackInterval), ("backoff_base_ms", .ofNat s.backoffBase),
      ("backoff_max_ms", .ofNat s.backoffMax), ("stop_drain_timeout", .str s.drainTimeout),
      ("fallback_interval_duration", .str s.fallback.text),
      ("stop_drain_timeout_duration", .str s.drain.text),
      ("backoff", .list (fun n => .str (s.backoff n).text) failures)]

end Schedule

namespace Settings

/-- All settings, and what they mean for some numbers of failures and of attempts. -/
def toJson (s : Settings) (failures attempts : List Nat) : Json :=
  .obj
    [("remote", .obj
        [("base_url", .str s.remote.baseUrl), ("request_timeout", .str s.remote.requestTimeout),
          ("request_timeout_duration", .str s.remote.timeout.text)]),
      ("pull", .obj
        [("batch_size", .ofNat s.pull.batchSize),
          ("effective_batch_size", .ofNat s.pull.effectiveBatch),
          ("rate_limit_enabled", .bool s.pull.limited),
          ("rate_limit_per_sec", .ofNat s.pull.limitPerSecond),
          ("rate_limit_burst", .ofNat s.pull.limitBurst),
          ("rate_limit", .orNull RateLimit.toJson s.pull.rateLimit)]),
      ("push", .obj
        [("batch_size", .ofNat s.push.batchSize), ("max_retries", .ofNat s.push.maxRetries)]),
      ("schedule", s.schedule.toJson failures),
      ("realtime", .obj
        [("enabled", .bool s.realtime.enabled),
          ("reconnect_initial_delay_ms", .ofNat s.realtime.initialDelay),
          ("reconnect_max_delay_ms", .ofNat s.realtime.maxDelay),
          ("connect_timeout", .str s.realtime.connectTimeout),
          ("retry", s.realtime.retryPolicy.toJson attempts)]),
      ("storage", .obj
        [("sqlite_path", .str s.storage.path), ("wal_mode", .bool s.storage.writeAhead),
          ("in_memory", .bool s.storage.isInMemory)]),
      ("roundtrip", .bool true)]

end Settings

end Replication
