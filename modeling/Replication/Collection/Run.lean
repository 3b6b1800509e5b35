import Replication.Collection.Forward

/-!
# Running collections

A started collection has up to five tasks: the reader of queued mutations, its two lanes, its
listener, and the reader of the listener's notices. Each takes one step at a time, in any order; a
step works on the collection and on what all collections share.

Stopping a collection halts its progress, asks every task to stop, waits for the listener, and then
for the other tasks one after the other. What is not over in time is let go of; it takes no further
step.
-/

namespace Replication

/-- What all collections share: the settings, whether there is a source of events, the time, the
tokens left for triggers from events, the replica, and the calls on the source of events. -/
structure Surroundings where
  settings : Settings := {}
  listens : Bool := false
  clock : Nat := 0
  tokens : Option Nat := none
  replica : Replica := {}
  sourceCalls : List (String × SourceCall) := []

namespace Surroundings

/-- Counts something. -/
def measure (s : Surroundings) (f : Metrics → Metrics) : Surroundings :=
  { s with replica := { s.replica with metrics := f s.replica.metrics } }

/-- What a listener's doings leave behind. -/
def observe (s : Surroundings) (scope : String) (effects : List ListenerEffect) : Surroundings :=
  let calls := effects.filterMap fun
    | .called c => some (scope, c)
    | _ => none
  let s := s.measure fun m => effects.foldl (ListenerEffect.measure scope) m
  { s with sourceCalls := s.sourceCalls ++ calls }

end Surroundings

/-- The tasks of a started collection. -/
inductive RunTask where
  | enqueues
  | lane (l : Lane)
  | listener
  | notices
  deriving DecidableEq, Repr

namespace RunTask

/-- The tasks in the order of their starts. -/
def all : List RunTask := [.enqueues, .lane .pull, .lane .push, .listener, .notices]

end RunTask

/-- A started collection: whether it is asked to stop, and its tasks. -/
structure Run where
  stopping : Bool := false
  pull : LaneTask
  push : LaneTask
  enqueues : EnqueueReader
  notices : NoticeReader
  listener : Option Listener

namespace Run

def lane (r : Run) : Lane → LaneTask
  | .pull => r.pull
  | .push => r.push

def setLane (r : Run) (l : Lane) (t : LaneTask) : Run :=
  match l with
  | .pull => { r with pull := t }
  | .push => { r with push := t }

/-- A trigger for a lane. -/
def notify (r : Run) (l : Lane) : Run := r.setLane l (r.lane l).notify

/-- Whether a task is over. -/
def isOver (r : Run) : RunTask → Bool
  | .enqueues => r.enqueues.ended
  | .lane l => (r.lane l).isOver
  | .listener => r.listener.all Listener.isOver
  | .notices => r.notices.ended

/-- The run without a task that others wait for no longer. -/
def abort (r : Run) : RunTask → Run
  | .enqueues => { r with enqueues := { r.enqueues with ended := true } }
  | .lane l => r.setLane l ((r.lane l).go .ended)
  | .listener => r
  | .notices => { r with notices := { r.notices with ended := true } }

/-- What a lane of the run works with. -/
def context (r : Run) (collection : String) (s : Surroundings) : LaneContext where
  collection := collection
  settings := s.settings
  stopping := r.stopping
  gateOpen := r.pull.opensGate
  now := s.clock

end Run

/-- How far a stop is: it waits for the listener, or for the first of some tasks, until a time. -/
inductive StopStage where
  | disconnecting (due : Nat)
  | draining (tasks : List RunTask) (due : Nat)
  deriving DecidableEq, Repr

/-- A collection: its progress, its run while it has one, how far a stop of the run is, the answers
that the server has for it, and the event sessions that the source has for it. -/
structure Collection where
  path : String
  progress : Progress := {}
  run : Option Run := none
  stop : Option StopStage := none
  script : Script := {}
  source : EventSource := []

namespace Collection

/-- Whether the collection was ever started. -/
def wasStarted (c : Collection) : Bool := c.progress.status.epoch != 0

/-- The run that calls reach: one that no stop has taken. -/
def session? (c : Collection) : Option Run := if c.stop.isNone then c.run else none

/-- Counts the published state. -/
def publish (c : Collection) (s : Surroundings) : Surroundings :=
  s.measure (·.replicationState c.path c.progress.published.name)

/-! ## Starting -/

/-- The run of an epoch. It hears of every mutation that is queued from now on. -/
def newRun (c : Collection) (s : Surroundings) : Run × List ListenerEffect :=
  let epoch := c.progress.status.epoch
  let (listener, effects) :=
    if s.listens && s.settings.realtime.enabled then
      let l : Listener := { scope := c.path, policy := s.settings.realtime.retryPolicy }
      let (l, effects) := l.connect
      (some l, effects)
    else (none, [])
  ({ pull := .start .pull epoch
     push := .start .push epoch
     enqueues := ⟨s.replica.enqueued.latest, false⟩
     notices := { ended := listener.isNone }
     listener }, effects)

/-- Starts the collection, unless it has a run. -/
def start (c : Collection) (s : Surroundings) :
    Except SyncError Unit × Collection × Surroundings :=
  if c.run.isSome then (.error (.invalidState "stopped" c.progress.published.name), c, s)
  else
    let c := { c with progress := c.progress.begin }
    let s := c.publish s
    let (run, effects) := c.newRun s
    (.ok (), { c with run := some run }, s.observe c.path effects)

/-- Triggers both lanes; says whether there is a run to trigger. -/
def syncNow (c : Collection) (s : Surroundings) : Bool × Collection × Surroundings :=
  match c.session? with
  | none => (false, c, s)
  | some run =>
    let s := s.measure fun m =>
      (m.trigger c.path "pull" "manual").trigger c.path "push" "manual"
    (true, { c with run := some ((run.notify .pull).notify .push) }, s)

/-! ## Steps of the tasks -/

/-- A step of the reader of queued mutations. -/
def stepEnqueues? (c : Collection) (run : Run) (s : Surroundings) :
    Option (Collection × Surroundings) :=
  if run.enqueues.ended then none
  else if run.stopping then some ({ c with run := some (run.abort .enqueues) }, s)
  else
    (run.enqueues.read? c.path s.replica.enqueued).map fun (news, enqueues) =>
      let run := { run with enqueues }
      match news with
      | .foreign => ({ c with run := some run }, s)
      | .missed => ({ c with run := some (run.notify .push) }, s)
      | .own =>
        ({ c with run := some (run.notify .push) }, s.measure (·.trigger c.path "push" "outbox"))

/-- A step of a lane. -/
def stepLane? (c : Collection) (run : Run) (l : Lane) (s : Surroundings) :
    Option (Collection × Surroundings) :=
  let work : LaneWork := ⟨c.progress, s.replica, c.script⟩
  ((run.lane l).step? (run.context c.path s) work).map fun (t, w) =>
    ({ c with progress := w.progress, script := w.script, run := some (run.setLane l t) },
      { s with replica := w.replica })

/-- A step of the listener. What it tells waits for the reader of notices, while that listens. -/
def stepListener? (c : Collection) (run : Run) (s : Surroundings) :
    Option (Collection × Surroundings) :=
  run.listener.bind fun l =>
    let l := { l with heard := !run.notices.ended }
    (l.step? s.clock c.source).map fun ((l, effects), source) =>
      let told := effects.filterMap fun
        | .told n => some n
        | _ => none
      let notices := { run.notices with queue := run.notices.queue ++ told }
      ({ c with source, run := some { run with listener := some l, notices } },
        s.observe c.path effects)

/-- A step of the reader of notices. -/
def stepNotices? (c : Collection) (run : Run) (s : Surroundings) :
    Option (Collection × Surroundings) :=
  if run.notices.ended then none
  else if run.stopping then some ({ c with run := some (run.abort .notices) }, s)
  else
    (run.notices.read? c.path s.tokens).map fun (action, notices, tokens) =>
      let run := { run with notices }
      let s := { s with tokens }
      match action with
      | .skip => ({ c with run := some run }, s)
      | .trigger source =>
        ({ c with run := some (run.notify .pull) },
          s.measure (·.trigger c.path "pull" source))

/-- The next step of a task of the collection; none while it waits. -/
def step? (c : Collection) (t : RunTask) (s : Surroundings) : Option (Collection × Surroundings) :=
  c.run.bind fun run =>
    match t with
    | .enqueues => c.stepEnqueues? run s
    | .lane l => c.stepLane? run l s
    | .listener => c.stepListener? run s
    | .notices => c.stepNotices? run s

/-! ## Stopping -/

/-- The tasks that a stop waits for after the listener. -/
def drained (run : Run) : List RunTask :=
  [.enqueues, .lane .pull, .lane .push] ++ if run.listener.isSome then [.notices] else []

/-- Waiting for tasks, from now on. -/
def drainFrom (tasks : List RunTask) (s : Surroundings) : StopStage :=
  .draining tasks (s.clock + s.settings.schedule.drain.nanos)

/-- Begins to stop the collection: from here on no report of its run is taken. Nothing happens
without a run, or while it is being stopped. -/
def beginStop (c : Collection) (s : Surroundings) : Collection :=
  match c.session? with
  | none => c
  | some run =>
    let run := { run with stopping := true, listener := run.listener.map Listener.stop }
    let stage := match run.listener with
      | some _ => .disconnecting (s.clock + Listener.patience.nanos)
      | none => drainFrom (drained run) s
    { c with progress := c.progress.halt, run := some run, stop := some stage }

/-- Completes a stop. -/
def endStop (c : Collection) (s : Surroundings) : Collection × Surroundings :=
  let c := { c with progress := c.progress.markStopped, run := none, stop := none }
  (c, c.publish s)

/-- The listener's task is let go of. -/
def releaseListener (c : Collection) (run : Run) (s : Surroundings) : Run × Surroundings :=
  match run.listener with
  | none => (run, s)
  | some l =>
    let (l, effects) := l.release
    ({ run with listener := some l }, s.observe c.path effects)

/-- The next step of a stop; none while it waits. -/
def stepStop? (c : Collection) (s : Surroundings) : Option (Collection × Surroundings) :=
  match c.run, c.stop with
  | some run, some (.disconnecting due) =>
    if run.isOver .listener || due ≤ s.clock then
      let (run, s) := c.releaseListener run s
      some ({ c with run := some run, stop := some (drainFrom (drained run) s) }, s)
    else none
  | some _, some (.draining [] _) => some (c.endStop s)
  | some run, some (.draining (t :: rest) due) =>
    if run.isOver t then some ({ c with stop := some (drainFrom rest s) }, s)
    else if due ≤ s.clock then
      some ({ c with run := some (run.abort t), stop := some (drainFrom rest s) }, s)
    else none
  | _, _ => none

/-! ## The world outside -/

/-- Lets the held back reply to a lane's request come; says whether there was one. -/
def release (c : Collection) (l : Lane) : Bool × Collection :=
  match c.run.bind fun run => ((run.lane l).release?).map (run.setLane l) with
  | some run => (true, { c with run := some run })
  | none => (false, c)

/-- The open event session brings more; says whether there is one. -/
def feed (c : Collection) (more : List Incoming) : Bool × Collection :=
  match c.run with
  | none => (false, c)
  | some run => match run.listener with
    | none => (false, c)
    | some l =>
      let (fed, l) := l.feed more
      (fed, { c with run := some { run with listener := some l } })

/-- The state of the listener, while the collection has one. -/
def listenerState? (c : Collection) : Option ListenerState :=
  c.session?.bind fun run => run.listener.map Listener.state

end Collection

end Replication
