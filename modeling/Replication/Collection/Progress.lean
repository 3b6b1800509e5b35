/-!
# Progress of a collection

What a collection publishes about its work. Every start opens an epoch; the passes of the two lanes
report under the epoch in which they began, and a report from an epoch that is over, or after the
collection was halted, is refused. A refused report changes nothing.

The published state is a function of the status, taken at every report and at the end of a stop.
-/

namespace Replication

/-- The two directions in which a collection works. -/
inductive Lane where
  | pull
  | push
  deriving DecidableEq, Repr

namespace Lane

def name : Lane → String
  | .pull => "pull"
  | .push => "push"

end Lane

/-- The published state of a collection. -/
inductive SyncState where
  | stopped
  | syncing
  | idle
  | error
  deriving DecidableEq, Repr

namespace SyncState

def name : SyncState → String
  | .stopped => "stopped"
  | .syncing => "syncing"
  | .idle => "idle"
  | .error => "error"

/-- The state with a name. -/
def ofName? : String → Option SyncState
  | "stopped" => some .stopped
  | "syncing" => some .syncing
  | "idle" => some .idle
  | "error" => some .error
  | _ => none

@[simp] theorem ofName?_name (s : SyncState) : ofName? s.name = some s := by cases s <;> rfl

/-- Whether the collection was started and not stopped. -/
def isRunning (s : SyncState) : Bool := s != .stopped

end SyncState

/-- Whether a lane is in a pass, and whether its last one failed. -/
structure LaneStatus where
  running : Bool := false
  failed : Bool := false
  deriving DecidableEq, Repr

/-- The status of a collection: its epoch, whether it is halted, whether no push pass of the epoch
is over yet, and its lanes. -/
structure Status where
  epoch : Nat := 0
  stopped : Bool := true
  initial : Bool := false
  pull : LaneStatus := {}
  push : LaneStatus := {}
  deriving DecidableEq, Repr

namespace Status

def lane (s : Status) : Lane → LaneStatus
  | .pull => s.pull
  | .push => s.push

/-- The status with another one of a lane. -/
def setLane (s : Status) (l : Lane) (x : LaneStatus) : Status :=
  match l with
  | .pull => { s with pull := x }
  | .push => { s with push := x }

/-- The state that a status amounts to. -/
def aggregate (s : Status) : SyncState :=
  if s.stopped then .stopped
  else if s.initial || s.pull.running || s.push.running then .syncing
  else if s.pull.failed || s.push.failed then .error
  else .idle

/-- Whether reports of an epoch are taken. -/
def admits (s : Status) (epoch : Nat) : Bool := !s.stopped && s.epoch == epoch

end Status

/-- The status of a collection, the state that it published last, and how often that state
changed. -/
structure Progress where
  status : Status := {}
  published : SyncState := .stopped
  publications : Nat := 0
  deriving DecidableEq, Repr

namespace Progress

/-- Publishes the state that the status amounts to; watchers are told if it is another one. -/
def publish (p : Progress) : Progress :=
  if p.published = p.status.aggregate then p
  else { p with published := p.status.aggregate, publications := p.publications + 1 }

@[simp] theorem status_publish (p : Progress) : p.publish.status = p.status := by
  unfold publish; split <;> rfl

@[simp] theorem published_publish (p : Progress) : p.publish.published = p.status.aggregate := by
  unfold publish
  split
  · next h => exact h
  · rfl

/-- Opens an epoch. -/
def begin (p : Progress) : Progress :=
  publish { p with status := { epoch := p.status.epoch + 1, stopped := false, initial := true } }

/-- A pass of a lane begins; refused unless its epoch goes on. -/
def beginPass? (p : Progress) (epoch : Nat) (l : Lane) : Option Progress :=
  if p.status.admits epoch then
    some (publish { p with
      status := p.status.setLane l { p.status.lane l with running := true } })
  else none

/-- A pass of a lane is over, cleanly or not; refused unless its epoch goes on. -/
def finishPass? (p : Progress) (epoch : Nat) (l : Lane) (clean : Bool) : Option Progress :=
  if p.status.admits epoch then
    let status := p.status.setLane l ⟨false, !clean⟩
    some (publish { p with
      status := { status with initial := status.initial && l == .pull } })
  else none

/-- Ends the epoch. The state is published when the stop is complete. -/
def halt (p : Progress) : Progress := { p with status := { p.status with stopped := true } }

/-- Publishes the end of the epoch. -/
def markStopped (p : Progress) : Progress := p.publish

end Progress

end Replication
