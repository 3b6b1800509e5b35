import Replication.Number.Shortest
import Replication.Number.Word
import Replication.Time.Span

/-!
# Retrying

How long to wait before another attempt at a long-lived session, and how often to try at all; and
a bucket of tokens that bounds a burst of events.
-/

namespace Replication

/-- When to try again. Without a bound on the attempts it is tried for ever. -/
structure RetryPolicy where
  maxAttempts : Option Nat
  initialDelay : Span
  maxDelay : Span
  factor : Binary64
  connectTimeout : Span
  deriving DecidableEq, Repr

namespace RetryPolicy

/-- Ten attempts, from a tenth of a second to half a minute. -/
def standard : RetryPolicy :=
  ⟨some 10, .ofMillis 100, .ofSeconds 30, .ofNat 2, .ofSeconds 5⟩

/-- For ever, from a second to a minute. -/
def patient : RetryPolicy := ⟨none, .ofSeconds 1, .ofSeconds 60, .ofNat 2, .ofSeconds 10⟩

/-- For ever, from ten milliseconds to a tenth of a second. -/
def brisk : RetryPolicy := ⟨none, .ofMillis 10, .ofMillis 100, .ofNat 2, .ofMillis 500⟩

/-- A span in seconds, rounded once for the seconds, once for the rest and once for their sum. -/
def seconds (s : Span) : Binary64 :=
  (Binary64.ofNat (s.nanos / Span.perSecond)).addMagnitudes
    ((Binary64.ofNat (s.nanos % Span.perSecond)).div (.ofNat Span.perSecond))

/-- The delay before an attempt: the initial one times a power of the factor, in doubles, up to
the greatest delay. There is none where the product is negative. Attempt zero waits for the
initial delay whatever the greatest one is. -/
def delay? (p : RetryPolicy) (attempt : Nat) : Option Span :=
  if attempt = 0 then some p.initialDelay
  else
    let product := (seconds p.initialDelay).mul (p.factor.pow (min (attempt - 1) 64))
    if !product.isFinite || (!product.isNegative && product.geMagnitudes (seconds p.maxDelay))
        || (product.isZero && (seconds p.maxDelay).isZero) then
      some p.maxDelay
    else (product.toParts? Span.perSecond).map fun n => ⟨min n p.maxDelay.nanos⟩

/-- Whether another attempt follows so many failures in a row. An unbounded number of attempts is
the greatest count of 64 bits. -/
def allows (p : RetryPolicy) (attempt : Nat) : Bool :=
  attempt < p.maxAttempts.getD (Word.greatest 64)

end RetryPolicy

/-- The size of a bucket of tokens and the tokens that flow into it in a second. -/
structure RateLimit where
  burst : Nat
  refill : Nat
  deriving DecidableEq, Repr

namespace RateLimit

/-- Ten at once, five in a second. -/
def standard : RateLimit := ⟨10, 5⟩

/-- The tokens of a full bucket. No bucket is smaller than one token. -/
def full (l : RateLimit) : Nat := max l.burst 1

/-- Takes a token if there is one. -/
def take (tokens : Nat) : Bool × Nat := (decide (0 < tokens), tokens - 1)

/-- Takes a number of tokens one after the other, and says which there were. -/
def takeMany : Nat → Nat → List Bool
  | 0, _ => []
  | n + 1, tokens => (take tokens).1 :: takeMany n (take tokens).2

end RateLimit

end Replication
