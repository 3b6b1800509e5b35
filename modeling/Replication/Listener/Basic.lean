import Replication.Change
import Replication.Error
import Replication.Metrics
import Replication.Retry

/-!
# The listener

A listener keeps one event session open for a scope and tells its owner what happens. Its task goes
through attempts:

1. It opens a session and subscribes to the scope. An attempt that fails, or takes too long, counts
   as a drop.
2. Once subscribed it tells that it is connected, and then every event as it comes. The count of
   drops starts again.
3. When the session ends or breaks, it closes it and tells that it was dropped.
4. After a drop it waits, longer after each one, and starts over, unless that was one too many.

A request to stop is heard at every wait, except while a session is being closed.
-/

namespace Replication

/-- The published state of a listener. -/
inductive ListenerState where
  | disconnected
  | connecting
  | connected
  deriving DecidableEq, Repr

namespace ListenerState

def name : ListenerState → String
  | .disconnected => "disconnected"
  | .connecting => "connecting"
  | .connected => "connected"

end ListenerState

/-- What a listener tells its owner. -/
inductive Notice where
  /-- The session is established; it is resumed if the task had one before. -/
  | connected (resumed : Bool)
  | dropped (reason : String)
  | event (e : ChangeEvent)
  deriving DecidableEq, Repr

/-! ## Event sessions -/

/-- What an established session brings next. -/
inductive Incoming where
  | event (e : ChangeEvent)
  | failure (e : SyncError)
  | finish
  deriving DecidableEq, Repr

/-- How an attempt to open a session ends. -/
inductive Opening where
  | succeeds
  | fails (e : SyncError)
  | hangs
  deriving DecidableEq, Repr

/-- A session as a script: how it opens, the failure of its subscription, what it brings before it
falls silent, and whether closing it ends. -/
structure EventSession where
  opening : Opening := .succeeds
  refusal : Option SyncError := none
  incoming : List Incoming := []
  closes : Bool := true
  deriving DecidableEq, Repr

/-- The sessions that a source opens for a scope, one an attempt. -/
abbrev EventSource := List EventSession

namespace EventSource

/-- The session of the next attempt; a silent one when the script has come to its end. -/
def next (s : EventSource) : EventSession × EventSource := (s.headD {}, s.tail)

end EventSource

/-- A call on the source or on a session of it. -/
inductive SourceCall where
  | open
  | subscribe
  | close
  deriving DecidableEq, Repr

/-! ## The task -/

/-- What a listener does that others can see. -/
inductive ListenerEffect where
  | called (c : SourceCall)
  | entered (s : ListenerState)
  | counted (collection : String)
  | reconnecting
  | told (n : Notice)
  deriving DecidableEq, Repr

/-- Where a listener's task stands. -/
inductive ListenerPhase where
  | starting
  | opening (session : EventSession) (due : Nat)
  /-- The subscription failed and the session is being closed. -/
  | refusing (session : EventSession) (due : Nat) (reason : String)
  | receiving (session : EventSession)
  /-- A session is being closed, because it was dropped or because the task stops. -/
  | closing (session : EventSession) (reason : Option String)
  | backingOff (due : Nat)
  | ended
  deriving DecidableEq, Repr

/-- A listener's task: where it stands, the drops since it was last connected, whether it was ever
connected, and whether it was asked to stop. -/
structure ListenerTask where
  phase : ListenerPhase := .starting
  attempt : Nat := 0
  hasConnected : Bool := false
  stopping : Bool := false
  deriving DecidableEq, Repr

/-- What does not change while a task runs: its policy, and whether its owner still listens. -/
structure ListenerContext where
  policy : RetryPolicy
  heard : Bool

namespace ListenerTask

/-- The task, at another place. -/
def go (t : ListenerTask) (phase : ListenerPhase) : ListenerTask := { t with phase }

/-- The end of the task. -/
def finish (t : ListenerTask) : ListenerTask × List ListenerEffect :=
  (t.go .ended, [.entered .disconnected])

/-- Tells the owner something, if it listens. -/
def tell (x : ListenerContext) (n : Notice) : List ListenerEffect := if x.heard then [.told n] else []

/-- A drop: the task waits before it starts over, or gives up. -/
def drop (x : ListenerContext) (now : Nat) (t : ListenerTask) (reason : String) :
    ListenerTask × List ListenerEffect :=
  let t := { t with attempt := t.attempt + 1 }
  let effects := [.entered .disconnected, .reconnecting] ++ tell x (.dropped reason)
  match x.policy.allows t.attempt, x.policy.delay? t.attempt with
  | true, some delay => (t.go (.backingOff (now + delay.nanos)), effects)
  | _, _ =>
    let (t, last) := t.finish
    (t, effects ++ last)

/-- Why an attempt was dropped that took too long. -/
def timeoutReason (p : RetryPolicy) : String :=
  "connect timed out after " ++ toString p.connectTimeout.millis ++ "ms"

/-- Begins to close a session. -/
def close (t : ListenerTask) (session : EventSession) (reason : Option String) :
    ListenerTask × List ListenerEffect :=
  (t.go (.closing session reason), [.called .close])

/-- A session that opened: it is subscribed to. -/
def subscribe (x : ListenerContext) (t : ListenerTask) (session : EventSession) (due : Nat) :
    ListenerTask × List ListenerEffect :=
  match session.refusal with
  | some e => (t.go (.refusing session due e.text), [.called .subscribe, .called .close])
  | none =>
    ({ t with phase := .receiving session, attempt := 0, hasConnected := true },
      [.called .subscribe, .entered .connected] ++ tell x (.connected t.hasConnected))

/-- What an established session brings. -/
def receive (x : ListenerContext) (t : ListenerTask) (session : EventSession) :
    Incoming → ListenerTask × List ListenerEffect
  | .event e =>
    if x.heard then (t.go (.receiving session), [.counted e.collection, .told (.event e)])
    else
      let (t, effects) := t.close session none
      (t, .counted e.collection :: effects)
  | .failure e => t.close session (some e.text)
  | .finish => t.close session (some "stream ended")

/-- The next step of the task on a source at a time; none while it waits. -/
def step? (x : ListenerContext) (now : Nat) (t : ListenerTask) (source : EventSource) :
    Option ((ListenerTask × List ListenerEffect) × EventSource) :=
  match t.phase with
  | .starting =>
    if t.stopping then some (t.finish, source)
    else
      let (session, source) := source.next
      let due := now + x.policy.connectTimeout.nanos
      some ((t.go (.opening session due), [.entered .connecting, .called .open]), source)
  | .opening session due =>
    if t.stopping then some (t.finish, source)
    else match session.opening with
      | .succeeds => some (t.subscribe x session due, source)
      | .fails e => some (t.drop x now e.text, source)
      | .hangs =>
        if due ≤ now then some (t.drop x now (timeoutReason x.policy), source) else none
  | .refusing session due reason =>
    if t.stopping then some (t.finish, source)
    else if session.closes then some (t.drop x now reason, source)
    else if due ≤ now then some (t.drop x now (timeoutReason x.policy), source)
    else none
  | .receiving session =>
    if t.stopping then some (t.close session none, source)
    else match session.incoming with
      | [] => none
      | i :: rest => some (t.receive x { session with incoming := rest } i, source)
  | .closing session reason =>
    if !session.closes then none
    else match reason with
      | none => some (t.finish, source)
      | some reason => some (t.drop x now reason, source)
  | .backingOff due =>
    if t.stopping then some (t.finish, source)
    else if due ≤ now then some ((t.go .starting, []), source)
    else none
  | .ended => none

/-- Whether the task is over. -/
def isOver (t : ListenerTask) : Bool := t.phase == .ended

/-- The session that the task holds open. -/
def session? (t : ListenerTask) : Option EventSession :=
  match t.phase with
  | .refusing session .. | .receiving session | .closing session _ => some session
  | _ => none

/-- The open session brings more; says whether there is one. -/
def feed (t : ListenerTask) (more : List Incoming) : Bool × ListenerTask :=
  match t.phase with
  | .receiving session =>
    (true, t.go (.receiving { session with incoming := session.incoming ++ more }))
  | _ => (t.session?.isSome, t)

end ListenerTask

/-! ## The listener -/

/-- A listener: its scope, its policy, the state that it published last, whether its owner still
listens, and its task. -/
structure Listener where
  scope : String
  policy : RetryPolicy
  state : ListenerState := .disconnected
  heard : Bool := true
  task : Option ListenerTask := none
  deriving DecidableEq, Repr

namespace ListenerEffect

/-- The state after an effect. -/
def state (before : ListenerState) : ListenerEffect → ListenerState
  | .entered s => s
  | _ => before

/-- The counters after an effect. -/
def measure (scope : String) (m : Metrics) : ListenerEffect → Metrics
  | .entered s => m.listenerState scope s.name
  | .counted collection => m.realtimeEvent collection
  | .reconnecting => m.realtimeReconnect scope
  | _ => m

end ListenerEffect

namespace Listener

/-- The state of a listener after effects. -/
def after (l : Listener) (effects : List ListenerEffect) : Listener :=
  { l with state := effects.foldl ListenerEffect.state l.state }

/-- Whether the listener has no task that goes on. -/
def isOver (l : Listener) : Bool := l.task.all ListenerTask.isOver

/-- Starts a task, unless one goes on. -/
def connect (l : Listener) : Listener × List ListenerEffect :=
  if l.isOver then
    let effects := [.entered .connecting]
    ({ l with task := some {} }.after effects, effects)
  else (l, [])

/-- The next step of the listener's task; none while it waits. -/
def step? (now : Nat) (l : Listener) (source : EventSource) :
    Option ((Listener × List ListenerEffect) × EventSource) :=
  l.task.bind fun t =>
    (t.step? ⟨l.policy, l.heard⟩ now source).map fun ((t, effects), source) =>
      (({ l with task := some t }.after effects, effects), source)

/-- Asks the task to stop. -/
def stop (l : Listener) : Listener :=
  { l with task := l.task.map fun t => { t with stopping := true } }

/-- Lets go of the task, whether it is over or not. -/
def release (l : Listener) : Listener × List ListenerEffect :=
  let effects := [.entered .disconnected]
  ({ l with task := none }.after effects, effects)

/-- How long a stop waits for the task before it lets go of it. -/
def patience : Span := .ofSeconds 5

/-- The open session brings more; says whether there is one. -/
def feed (l : Listener) (more : List Incoming) : Bool × Listener :=
  match l.task with
  | none => (false, l)
  | some t =>
    let (fed, t) := t.feed more
    (fed, { l with task := some t })

end Listener

end Replication
