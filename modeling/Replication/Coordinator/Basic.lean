import Replication.Collection.Health
import Replication.Collection.Run
import Replication.Replica.Outbox

/-!
# The coordinator

All collections of a client and what they share. Calls that start and stop collections may have to
wait: two of them never work on one collection at the same time, and a stop waits for the tasks of
the run that it ends. Such a call is a value in a list, known by its place, and takes its steps
between those of the tasks.
-/

namespace Replication

/-- A call that starts or stops collections. -/
inductive LifecycleCall where
  | starting (collection : String)
  /-- Stops collections one after the other and then closes the database, if it is the end of
  everything. The call is at work on the first one, or waits until it can be. -/
  | stopping (collections : List String) (atWork : Bool) (closes : Bool)
  | finished (result : Except SyncError Unit)

/-- The coordinator: what all collections share, the collections, and the calls so far. -/
structure Coordinator where
  shared : Surroundings := {}
  collections : KeyMap String Collection := []
  calls : List LifecycleCall := []

namespace Coordinator

/-- The collection at a path. -/
def collection (k : Coordinator) (path : String) : Collection :=
  (k.collections.get? path).getD { path }

/-- The coordinator with another state of a collection. -/
def setCollection (k : Coordinator) (c : Collection) : Coordinator :=
  { k with collections := k.collections.set c.path c }

/-- The coordinator with another state of a collection and of what is shared. -/
def put (k : Coordinator) (c : Collection) (s : Surroundings) : Coordinator :=
  { k.setCollection c with shared := s }

/-- The published state of a collection; one that was never started is stopped. -/
def state (k : Coordinator) (path : String) : SyncState := (k.collection path).progress.published

/-- The paths of the collections that were ever started. -/
def started (k : Coordinator) : List String :=
  (k.collections.filter fun e => e.2.wasStarted).map Prod.fst

/-- The collections that run, in ascending order. -/
def running (k : Coordinator) : List String :=
  (k.started.filter fun path => (k.state path).isRunning).mergeSort fun a b => !decide (b < a)

/-! ## Calls that start and stop -/

/-- Starts a collection. Its path must not be empty. -/
def start (k : Coordinator) (path : String) : Except SyncError Unit × Coordinator :=
  if path.isEmpty then (.error (.config "collection path must not be empty"), k)
  else
    let (result, c, s) := (k.collection path).start k.shared
    (result, k.put c s)

/-- Closes the database. -/
def close (k : Coordinator) : Coordinator :=
  { k with shared := { k.shared with replica := k.shared.replica.close } }

/-- A step of a call; none while it waits, or when it is over. -/
def advance? (k : Coordinator) : LifecycleCall → Option (LifecycleCall × Coordinator)
  | .starting path =>
    if (k.collection path).stop.isSome then none
    else
      let (result, k) := k.start path
      some (.finished result, k)
  | .stopping [] _ closes => some (.finished (.ok ()), if closes then k.close else k)
  | .stopping (path :: rest) false closes =>
    let c := k.collection path
    if c.stop.isSome then none
    else if c.run.isNone then some (.stopping rest false closes, k)
    else some (.stopping (path :: rest) true closes, k.setCollection (c.beginStop k.shared))
  | .stopping (path :: rest) true closes =>
    ((k.collection path).stepStop? k.shared).map fun (c, s) =>
      let call : LifecycleCall :=
        if c.stop.isNone then .stopping rest false closes
        else .stopping (path :: rest) true closes
      (call, k.put c s)
  | .finished _ => none

/-- A step of the call at a place. -/
def stepCall? (k : Coordinator) (ticket : Nat) : Option Coordinator :=
  k.calls[ticket]?.bind fun call =>
    (k.advance? call).map fun (call, k) => { k with calls := k.calls.set ticket call }

/-- The result of the call at a place, once it is over. -/
def result? (k : Coordinator) (ticket : Nat) : Option (Except SyncError Unit) :=
  match k.calls[ticket]? with
  | some (.finished result) => some result
  | _ => none

/-- The call that stops a collection. -/
def stopCall (path : String) : LifecycleCall := .stopping [path] false false

/-- The call that stops all collections and closes the database. -/
def shutdownCall (k : Coordinator) : LifecycleCall := .stopping k.started false true

/-! ## Steps of the tasks -/

/-- Whatever may take a step by itself. -/
inductive Task where
  | run (path : String) (t : RunTask)
  | call (ticket : Nat)
  deriving DecidableEq, Repr

/-- The next step of a task; none while it waits. -/
def step? (k : Coordinator) : Task → Option Coordinator
  | .run path t => ((k.collection path).step? t k.shared).map fun (c, s) => k.put c s
  | .call ticket => k.stepCall? ticket

/-! ## Other calls -/

/-- Performs an action on the replica. -/
def act {α : Type} (k : Coordinator) (a : Action α) : Except SyncError α × Coordinator :=
  let (x, replica) := a.exec k.shared.replica
  (x, { k with shared := { k.shared with replica } })

/-- Triggers both lanes of a collection; says whether it has a run to trigger. -/
def syncNow (k : Coordinator) (path : String) : Bool × Coordinator :=
  let (there, c, s) := (k.collection path).syncNow k.shared
  (there, k.put c s)

/-- Lets time pass. -/
def wait (k : Coordinator) (span : Span) : Coordinator :=
  { k with shared := { k.shared with clock := k.shared.clock + span.nanos } }

/-- Lets the held back reply to a lane's request come; says whether there was one. -/
def release (k : Coordinator) (path : String) (l : Lane) : Bool × Coordinator :=
  let (there, c) := (k.collection path).release l
  (there, k.setCollection c)

/-- The open event session of a collection brings more; says whether there is one. -/
def feed (k : Coordinator) (path : String) (more : List Incoming) : Bool × Coordinator :=
  let (fed, c) := (k.collection path).feed more
  (fed, k.setCollection c)

/-- Changes what the server has in store for a collection. -/
def alterScript (k : Coordinator) (path : String) (f : Script → Script) : Coordinator :=
  let c := k.collection path
  k.setCollection { c with script := f c.script }

/-- Changes what the source of events has in store for a collection. -/
def setSource (k : Coordinator) (path : String) (source : EventSource) : Coordinator :=
  k.setCollection { k.collection path with source }

/-- The health of a collection. -/
def health (k : Coordinator) (path : String) : Except SyncError Health := do
  let r := k.shared.replica
  let pending ← ((Replica.pendingCount path).exec r).1
  let failed ← ((Replica.failedCount path).exec r).1
  return {
    collection := path, state := k.state path, pending, failed
    checkpoint := r.checkpoint? path
    listener := (k.collection path).listenerState? }

/-- A full bucket of tokens, if pulls that events trigger are bounded. -/
def fullBucket (s : Settings) : Option Nat := s.pull.rateLimit.map RateLimit.full

/-- A coordinator on empty tables, with a source of events or without one. -/
def fresh (settings : Settings) (listens : Bool) : Coordinator where
  shared := { settings, listens, tokens := fullBucket settings }

/-- A coordinator on its tables, as a new process finds them: nothing runs. What the server and the
source of events have in store is theirs. -/
def reopened (k : Coordinator) (tables : Tables) : Coordinator where
  shared :=
    { k.shared with
      tokens := fullBucket k.shared.settings
      replica := k.shared.replica.opened tables }
  collections := k.collections.map fun (path, c) =>
    (path, { path := c.path, script := c.script, source := c.source })

end Coordinator

end Replication
