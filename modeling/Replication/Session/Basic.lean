import Replication.Error
import Replication.Metrics
import Replication.Tables.KeyMap

/-!
# The session

The bearer token that requests carry, and how it is renewed. Many callers may find at the same time
that the token has expired; those that ask while a renewal is under way share it.

A caller takes these steps, and anything may happen between two of them:

1. it joins the renewal in the slot, or starts one and puts it there;
2. it waits until that renewal is over;
3. it empties the slot if the renewal in it is over;
4. it stores the new token, if there is one, and has its result.
-/

namespace Replication

/-- Where a caller of a renewal stands. Renewals are numbered in the order of their starts. -/
inductive RenewalCaller where
  | waiting (renewal : Nat)
  | clearing (outcome : Except String String)
  | storing (outcome : Except String String)
  | done (result : Except SyncError String)

/-- The session: the token, whether it can be renewed, the renewals so far with the outcomes of
those that are over, the one in the slot, and the callers. -/
structure Session where
  token : Option String := none
  renewable : Bool := false
  renewals : List (Option (Except String String)) := []
  slot : Option Nat := none
  callers : KeyMap Nat RenewalCaller := []
  metrics : Metrics := {}

namespace Session

/-- A session without credentials. -/
def anonymous : Session := {}

/-- A session with a token for good. -/
def withToken (token : String) : Session := { token := some token }

/-- A session that can renew its token. -/
def withRefresher (token : Option String) : Session := { token, renewable := true }

/-- Replaces the token. -/
def setToken (s : Session) (token : String) : Session := { s with token := some token }

/-- Drops the token. -/
def clear (s : Session) : Session := { s with token := none }

/-! ## Renewals -/

/-- The outcome of a renewal that is over. -/
def outcome? (s : Session) (renewal : Nat) : Option (Except String String) :=
  (s.renewals[renewal]?).join

/-- Whether a renewal is under way. -/
def isRunning (s : Session) (renewal : Nat) : Bool :=
  match s.renewals[renewal]? with
  | some none => true
  | _ => false

/-- The renewal is over. -/
def settle (s : Session) (renewal : Nat) (outcome : Except String String) : Session :=
  if s.isRunning renewal then { s with renewals := s.renewals.set renewal (some outcome) } else s

/-! ## Callers -/

/-- The session with a caller at another place. -/
def place (s : Session) (caller : Nat) (at_ : RenewalCaller) : Session :=
  { s with callers := s.callers.set caller at_ }

/-- A caller asks for a new token. -/
def call (s : Session) (caller : Nat) : Session :=
  if !s.renewable then
    s.place caller (.done (.error (.session "no token refresher configured")))
  else match s.slot with
    | some renewal => s.place caller (.waiting renewal)
    | none =>
      let renewal := s.renewals.length
      { s.place caller (.waiting renewal) with
        renewals := s.renewals ++ [none], slot := some renewal }

/-- Empties the slot if the renewal in it is over. -/
def clearSlot (s : Session) : Session :=
  match s.slot with
  | some renewal => if (s.outcome? renewal).isSome then { s with slot := none } else s
  | none => s

/-- What an outcome does to the token, and the result of the caller that brings it. -/
def store (s : Session) : Except String String → Except SyncError String × Session
  | .ok token => (.ok token, { s with token := some token, metrics := s.metrics.sessionRefresh true })
  | .error message =>
    (.error (.session message), { s with metrics := s.metrics.sessionRefresh false })

/-- A caller takes its next step, if it can. -/
def advance (s : Session) (caller : Nat) : Session :=
  match s.callers.get? caller with
  | some (.waiting renewal) =>
    match s.outcome? renewal with
    | some outcome => s.place caller (.clearing outcome)
    | none => s
  | some (.clearing outcome) => s.clearSlot.place caller (.storing outcome)
  | some (.storing outcome) =>
    let (result, s) := s.store outcome
    s.place caller (.done result)
  | _ => s

/-- A caller goes away. -/
def cancel (s : Session) (caller : Nat) : Session :=
  { s with callers := s.callers.erase caller }

/-- What a caller got. -/
def result? (s : Session) (caller : Nat) : Option (Except SyncError String) :=
  match s.callers.get? caller with
  | some (.done result) => some result
  | _ => none

/-! ## Runs -/

/-- What may happen to a session. -/
inductive Event where
  | call (caller : Nat)
  | settle (renewal : Nat) (outcome : Except String String)
  | advance (caller : Nat)
  | cancel (caller : Nat)
  | setToken (token : String)
  | clear

/-- The session after an event. -/
def step (s : Session) : Event → Session
  | .call caller => s.call caller
  | .settle renewal outcome => s.settle renewal outcome
  | .advance caller => s.advance caller
  | .cancel caller => s.cancel caller
  | .setToken token => s.setToken token
  | .clear => s.clear

/-- The session after events. -/
def run (s : Session) (events : List Event) : Session := events.foldl step s

end Session

end Replication
