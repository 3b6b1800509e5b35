import Replication.Change
import Replication.Tables.KeyMap

/-!
# Local documents

The application's own copy of the documents, by collection and identifier. Every write may be
refused, and may be refused differently each time.
-/

namespace Replication

/-- The local documents. A refusal depends on the number of the write, the collection and the
document, and says why. -/
structure Documents where
  bodies : KeyMap (String × String) Object := []
  writes : Nat := 0
  refusal : Nat → String → String → Option String := fun _ _ _ => none

namespace Documents

/-- The body of a document. -/
def get? (d : Documents) (collection document : String) : Option Object :=
  d.bodies.get? (collection, document)

/-- Writes a document; gives the reason if the write is refused. -/
def upsert (d : Documents) (collection document : String) (body : Object) :
    Option String × Documents :=
  let after := { d with writes := d.writes + 1 }
  match d.refusal d.writes collection document with
  | some reason => (some reason, after)
  | none => (none, { after with bodies := d.bodies.set (collection, document) body })

/-- Removes a document, which need not be there; gives the reason if this is refused. -/
def remove (d : Documents) (collection document : String) : Option String × Documents :=
  let after := { d with writes := d.writes + 1 }
  match d.refusal d.writes collection document with
  | some reason => (some reason, after)
  | none => (none, { after with bodies := d.bodies.erase (collection, document) })

/-- The documents, where every write to some documents is refused for a reason. -/
def refusing (d : Documents) (reasons : KeyMap String String) : Documents :=
  { d with refusal := fun _ _ document => reasons.get? document }

/-- Brings a change into a collection: a tombstone removes its document, any other change writes
it. -/
def apply (d : Documents) (collection : String) (c : Change) : Option String × Documents :=
  if c.deleted then d.remove collection c.document else d.upsert collection c.document c.fields

/-- The documents of a collection. -/
def collection (d : Documents) (collection : String) : List (String × Object) :=
  d.bodies.filterMap fun e => if e.1.1 = collection then some (e.1.2, e.2) else none

end Documents

end Replication
