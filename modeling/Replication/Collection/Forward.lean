import Replication.Collection.Lane
import Replication.Listener.Basic

/-!
# From news to triggers

Two tasks of a running collection turn news into triggers. One reads the channel of queued
mutations and triggers the push lane for those of its collection, and also if it missed any. The
other reads the notices of the listener and triggers the pull lane for events of its collection
and for a session that was resumed, since events may have been missed before it; each such trigger
costs a token if tokens are limited.
-/

namespace Replication

/-- What a message on the channel of queued mutations says to a collection: nothing for it, that
one of its own came, or that messages were missed. -/
inductive EnqueueNews where
  | foreign
  | own
  | missed
  deriving DecidableEq, Repr

/-- The reader of the channel of queued mutations: its place. -/
structure EnqueueReader where
  place : Nat
  ended : Bool := false
  deriving DecidableEq, Repr

namespace EnqueueReader

/-- The next message, if there is one. -/
def read? (e : EnqueueReader) (collection : String) (c : Channel String) :
    Option (EnqueueNews × EnqueueReader) :=
  match c.receive e.place with
  | (.message m, place) => some (if m = collection then .own else .foreign, { e with place })
  | (.lagged _, place) => some (.missed, { e with place })
  | (.nothing, _) => none

end EnqueueReader

/-- The source of a pull trigger that a notice gives to a collection. -/
def Notice.source? (collection : String) : Notice → Option String
  | .event e => if e.collection = collection then some "realtime" else none
  | .connected true => some "reconnect"
  | .connected false | .dropped _ => none

/-- The reader of a listener's notices: those to read, and the source of a trigger that waits for a
token. -/
structure NoticeReader where
  queue : List Notice := []
  held : Option String := none
  ended : Bool := false
  deriving DecidableEq, Repr

namespace NoticeReader

/-- What the reader does next: read a notice that gives no trigger, or give a trigger. -/
inductive Action where
  | skip
  | trigger (source : String)
  deriving DecidableEq, Repr

/-- The next thing that the reader does, and the tokens left; none while there is nothing to read,
or no token. -/
def read? (n : NoticeReader) (collection : String) (tokens : Option Nat) :
    Option (Action × NoticeReader × Option Nat) :=
  match n.held with
  | some source =>
    match tokens with
    | none => some (.trigger source, { n with held := none }, none)
    | some 0 => none
    | some (k + 1) => some (.trigger source, { n with held := none }, some k)
  | none =>
    match n.queue with
    | [] => none
    | notice :: queue =>
      some (.skip, { n with queue, held := notice.source? collection }, tokens)

end NoticeReader

end Replication
