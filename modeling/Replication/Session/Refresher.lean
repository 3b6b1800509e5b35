import Replication.Session.Basic

/-!
# Renewing in turns

A refresher reads its outcomes from a list. It works only while a caller looks after it: a renewal
is over once its callers looked after it six times altogether. Callers that ask at the same time
take turns, in a fixed order, until each has its result.
-/

namespace Replication

/-- A scripted refresher: the outcomes to come, how often it was called, and how often each renewal
was looked after. -/
structure Refresher where
  outcomes : List (Except SyncError String) := []
  calls : Nat := 0
  looks : KeyMap Nat Nat := []

namespace Refresher

/-- The looks that a renewal needs. -/
def looksNeeded : Nat := 6

/-- The next outcome; a failure when the list has come to its end. -/
def nextOutcome (f : Refresher) : Except SyncError String :=
  f.outcomes.headD (.error (.session "script exhausted"))

/-- A look after a renewal: its outcome if it is over now. -/
def look (f : Refresher) (renewal : Nat) : Option (Except SyncError String) × Refresher :=
  let n := (f.looks.get? renewal).getD 0 + 1
  let f := { f with looks := f.looks.set renewal n }
  if n < looksNeeded then (none, f)
  else (some f.nextOutcome, { f with outcomes := f.outcomes.tail })

end Refresher

namespace Session

/-- The outcome of a renewal as its callers get it: a failure as its text. -/
def shared : Except SyncError String → Except String String
  | .ok token => .ok token
  | .error e => .error e.text

/-- A turn of a caller: it asks if it has not yet, looks after its renewal, and goes on to its
result if that is over. -/
def turn (s : Session) (f : Refresher) (caller : Nat) : Session × Refresher :=
  let (s, f) := match s.callers.get? caller with
    | none =>
      let s' := s.call caller
      (s', { f with calls := f.calls + (s'.renewals.length - s.renewals.length) })
    | some _ => (s, f)
  let (s, f) := match s.callers.get? caller with
    | some (.waiting renewal) =>
      if s.isRunning renewal then
        match f.look renewal with
        | (some outcome, f) => (s.settle renewal (shared outcome), f)
        | (none, f) => (s, f)
      else (s, f)
    | _ => (s, f)
  ((s.advance caller).advance caller |>.advance caller, f)

/-- A turn of each caller. -/
def round (callers : List Nat) (s : Session) (f : Refresher) : Session × Refresher :=
  callers.foldl (fun (s, f) caller => s.turn f caller) (s, f)

/-- A number of rounds. -/
def rounds (callers : List Nat) : Nat → Session → Refresher → Session × Refresher
  | 0, s, f => (s, f)
  | n + 1, s, f =>
    let (s, f) := round callers s f
    rounds callers n s f

/-- A number of callers ask at the same time; their results in order. Every round looks after each
renewal that a caller waits for, so no more rounds are needed than looks. -/
def refresh (s : Session) (f : Refresher) (n : Nat) :
    List (Except SyncError String) × Session × Refresher :=
  let callers := List.range n
  let (s, f) := rounds callers (Refresher.looksNeeded + 1) { s with callers := [] } f
  (callers.filterMap s.result?, s, f)

end Session

end Replication
