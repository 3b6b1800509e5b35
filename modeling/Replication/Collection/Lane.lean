import Replication.Collection.Pass

/-!
# Lanes

A lane runs the passes of one direction, one after the other.

1. The push lane waits until the first pull pass was reported, or the pull lane is over. The first
   pass then begins at once.
2. A pass begins and ends under the epoch of its lane. If either report is refused the lane is over.
3. Between two passes the lane waits for a trigger or a timer: the fallback interval after a clean
   pass, and longer with every failure in a row. A trigger that comes earlier is kept, once.
4. A request to stop is heard at every wait, before anything else.
-/

namespace Replication

/-- Where a lane stands. -/
inductive LanePhase where
  /-- The first pull pass is not over yet. -/
  | gated
  /-- The first pass is to begin. -/
  | starting
  /-- Something woke the lane: a pass is to begin. -/
  | woken
  /-- In a pass, and the reply to its request once it has asked. -/
  | passing (pass : Pass) (reply : Option (Scripted Reply))
  /-- A pass is over: the lane is to wait. -/
  | turning
  /-- Waits for a trigger, which may have come, or until a time. -/
  | waiting (due : Nat) (notified : Bool)
  | ended

/-- A lane: its direction and epoch, where it stands, whether a trigger is kept for its next wait,
its failures in a row, and whether it reported a pass. -/
structure LaneTask where
  lane : Lane
  epoch : Nat
  phase : LanePhase
  permit : Bool := false
  failures : Nat := 0
  reported : Bool := false

/-- What a lane works with: its collection, the settings, whether it is asked to stop, whether its
gate is open, and the time. -/
structure LaneContext where
  collection : String
  settings : Settings
  stopping : Bool
  gateOpen : Bool
  now : Nat

/-- What a lane works on. -/
structure LaneWork where
  progress : Progress
  replica : Replica
  script : Script

namespace LaneWork

/-- A report that was taken: the published state is counted. -/
def reported (w : LaneWork) (collection : String) (p : Progress) : LaneWork :=
  { w with
    progress := p
    replica := { w.replica with
      metrics := w.replica.metrics.replicationState collection p.published.name } }

/-- Counts something. -/
def measure (w : LaneWork) (f : Metrics → Metrics) : LaneWork :=
  { w with replica := { w.replica with metrics := f w.replica.metrics } }

end LaneWork

namespace LaneTask

/-- The pull lane of an epoch, and the push lane behind its gate. -/
def start (l : Lane) (epoch : Nat) : LaneTask :=
  { lane := l, epoch, phase := match l with
      | .pull => .starting
      | .push => .gated }

/-- The lane at another place. -/
def go (t : LaneTask) (phase : LanePhase) : LaneTask := { t with phase }

/-- Whether the lane is over. -/
def isOver (t : LaneTask) : Bool :=
  match t.phase with
  | .ended => true
  | _ => false

/-- Whether the lane lets the other one begin. -/
def opensGate (t : LaneTask) : Bool := t.reported || t.isOver

/-- A trigger: it wakes the lane from its wait, or is kept for the next one. -/
def notify (t : LaneTask) : LaneTask :=
  match t.phase with
  | .waiting due false => t.go (.waiting due true)
  | _ => { t with permit := true }

/-- The failures in a row after a pass. -/
def recordPass (failures : Nat) (clean : Bool) : Nat :=
  if clean then 0 else min (failures + 1) (Word.greatest 32)

/-- How long to wait after so many failures in a row. -/
def delay (s : Schedule) (failures : Nat) : Span :=
  if failures = 0 then s.fallback else s.backoff failures

/-- Begins a pass. -/
def beginPass (x : LaneContext) (t : LaneTask) (w : LaneWork) : LaneTask × LaneWork :=
  match w.progress.beginPass? t.epoch t.lane with
  | none => (t.go .ended, w)
  | some p =>
    (t.go (.passing (.begin x.settings t.lane x.collection w.replica) none),
      w.reported x.collection p)

/-- Ends a pass. A failure is counted, whether or not the report is taken. -/
def endPass (x : LaneContext) (t : LaneTask) (result : Except SyncError Bool) (w : LaneWork) :
    LaneTask × LaneWork :=
  let (clean, w) := match result with
    | .ok clean => (clean, w)
    | .error e => (false, w.measure (·.passFailure x.collection t.lane.name e.kind))
  match w.progress.finishPass? t.epoch t.lane clean with
  | none => (t.go .ended, w)
  | some p =>
    ({ t with phase := .turning, failures := recordPass t.failures clean, reported := true },
      w.reported x.collection p)

/-- A step inside a pass; none while its request is unanswered. -/
def stepPass? (x : LaneContext) (t : LaneTask) (pass : Pass) (reply : Option (Scripted Reply))
    (w : LaneWork) : Option (LaneTask × LaneWork) :=
  match pass.result? with
  | some result => some (t.endPass x result w)
  | none =>
    if pass.asks then
      match reply with
      | none =>
        let (reply, script) := pass.ask w.script
        some (t.go (.passing pass (some reply)), { w with script })
      | some ⟨true, _⟩ => none
      | some ⟨false, reply⟩ =>
        let (pass, replica) := pass.answered reply w.replica
        some (t.go (.passing pass none), { w with replica })
    else
      let (pass, replica) := pass.proceed w.replica
      some (t.go (.passing pass none), { w with replica })

/-- The next step of the lane; none while it waits. -/
def step? (x : LaneContext) (t : LaneTask) (w : LaneWork) : Option (LaneTask × LaneWork) :=
  match t.phase with
  | .gated =>
    if x.stopping then some (t.go .ended, w)
    else if x.gateOpen then some (t.go .starting, w)
    else none
  | .starting => some (t.go (if x.stopping then .ended else .woken), w)
  | .woken => some (t.beginPass x w)
  | .passing pass reply => t.stepPass? x pass reply w
  | .turning =>
    if x.stopping then some (t.go .ended, w)
    else if t.permit then some ({ t with phase := .woken, permit := false }, w)
    else
      some (t.go (.waiting (x.now + (delay x.settings.schedule t.failures).nanos) false), w)
  | .waiting due notified =>
    if x.stopping then some (t.go .ended, w)
    else if notified then some (t.go .woken, w)
    else if due ≤ x.now then
      some (t.go .woken, w.measure (·.trigger x.collection t.lane.name "timer"))
    else none
  | .ended => none

/-- Lets the held back reply to the lane's request come; none if there is none. -/
def release? (t : LaneTask) : Option LaneTask :=
  match t.phase with
  | .passing pass (some ⟨true, reply⟩) => some (t.go (.passing pass (some ⟨false, reply⟩)))
  | _ => none

/-- The pass that the lane is in. -/
def pass? (t : LaneTask) : Option Pass :=
  match t.phase with
  | .passing pass _ => some pass
  | _ => none

/-- Whether the next step of the lane reads or writes the tables. -/
def usesTables (t : LaneTask) : Bool :=
  match t.phase with
  | .passing pass reply => pass.usesTables && (!pass.asks || reply.isSome)
  | _ => false

end LaneTask

end Replication
