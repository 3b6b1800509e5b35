import Replication.Realtime.Frame
import Replication.Realtime.Records

/-!
# Event streams

The body of an open event session as a source of change notices. The body comes in chunks and
ends, or breaks. Notices of other collections than the subscribed one, messages that are no
notice and records that cannot be read are passed over.
-/

namespace Replication

/-- What the body still brings: its chunks, and whether it breaks after them. -/
structure StreamBody where
  chunks : List (List UInt8)
  broken : Bool
  deriving DecidableEq, Repr

/-- An open session: the rest of its body, the decoder, the records that wait, and the collection
that it is subscribed to. -/
structure EventStream where
  body : StreamBody
  decoder : RecordDecoder := {}
  pending : List (List Char) := []
  scope : Option String := none
  deriving DecidableEq, Repr

namespace EventStream

/-- The notice that a record brings to a scope. -/
def noticeOf? (scope : Option String) (record : List Char) : Option ChangeEvent :=
  match Frame.decode (String.ofList record) with
  | .ok (.event e) =>
    match scope with
    | none => some e
    | some s => if e.collection = s then some e else none
  | _ => none

/-- The first notice among records, and the records after it. -/
def firstNotice (scope : Option String) :
    List (List Char) → Option ChangeEvent × List (List Char)
  | [] => (none, [])
  | r :: rest =>
    match noticeOf? scope r with
    | some e => (some e, rest)
    | none => firstNotice scope rest

/-- Reads chunks until a record brings a notice. -/
def pump (scope : Option String) (broken : Bool) (decoder : RecordDecoder) :
    List (List UInt8) → EventStream × Except SyncError (Option ChangeEvent)
  | [] =>
    (⟨⟨[], false⟩, decoder, [], scope⟩,
      if broken then .error (.connection "realtime") else .ok none)
  | chunk :: rest =>
    let (decoder, records) := decoder.feed chunk
    match firstNotice scope records with
    | (some e, pending) => (⟨⟨rest, broken⟩, decoder, pending, scope⟩, .ok (some e))
    | (none, _) => pump scope broken decoder rest

/-- The next notice; none at the end of the body, and a failure where it breaks. -/
def next (s : EventStream) : EventStream × Except SyncError (Option ChangeEvent) :=
  match firstNotice s.scope s.pending with
  | (some e, pending) => ({ s with pending }, .ok (some e))
  | (none, _) => pump s.scope s.body.broken s.decoder s.body.chunks

/-- The stream with a scope: only its notices are given from now on. -/
def subscribe (s : EventStream) (scope : String) : EventStream := { s with scope := some scope }

/-- The stream without the rest of its body and without the records that wait. -/
def close (s : EventStream) : EventStream := { s with body := ⟨[], false⟩, pending := [] }

end EventStream

end Replication
