import Replication.Listener.Basic

/-!
# Listening

A listener with its source and a clock: everything runs until it waits, and a stop lets the clock
go on until the task is over or the patience is at its end.
-/

namespace Replication

/-- A listener at work: its source, the time, and everything that it did, oldest first. -/
structure Listening where
  listener : Listener
  source : EventSource
  clock : Nat := 0
  effects : List ListenerEffect := []

namespace Listening

/-- The counters of everything that the listener did. -/
def metrics (w : Listening) : Metrics :=
  w.effects.foldl (ListenerEffect.measure w.listener.scope) {}

/-- What the listener told its owner. -/
def notices (effects : List ListenerEffect) : List Notice :=
  effects.filterMap fun
    | .told n => some n
    | _ => none

/-- The calls on the source. -/
def calls (effects : List ListenerEffect) : List SourceCall :=
  effects.filterMap fun
    | .called c => some c
    | _ => none

/-- The listener after some of its doings. -/
def record (w : Listening) : Listener × List ListenerEffect → Listening
  | (listener, effects) => { w with listener, effects := w.effects ++ effects }

/-- Takes steps until the task waits, up to a number of them. -/
def settle : Nat → Listening → Listening
  | 0, w => w
  | fuel + 1, w =>
    match w.listener.step? w.clock w.source with
    | none => w
    | some (doings, source) => settle fuel ({ w with source }.record doings)

/-- Starts the listener. -/
def connect (fuel : Nat) (w : Listening) : Listening := (w.record w.listener.connect).settle fuel

/-- Lets time pass. -/
def wait (fuel : Nat) (s : Span) (w : Listening) : Listening :=
  { w with clock := w.clock + s.nanos }.settle fuel

/-- Lets seconds pass while the task is not over; gives their number. -/
def waitOut (fuel : Nat) : Nat → Listening → Nat × Listening
  | 0, w => (0, w)
  | n + 1, w =>
    if w.listener.isOver then (0, w)
    else
      let (waited, w) := waitOut fuel n (w.wait fuel (.ofSeconds 1))
      (waited + 1, w)

/-- Stops the listener; gives the seconds that it took. -/
def disconnect (fuel : Nat) (w : Listening) : Nat × Listening :=
  let w := { w with listener := w.listener.stop }.settle fuel
  let (waited, w) := waitOut fuel (Listener.patience.nanos / Span.perSecond) w
  (waited, w.record w.listener.release)

end Listening

end Replication
