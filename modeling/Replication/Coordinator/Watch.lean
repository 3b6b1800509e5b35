import Replication.Coordinator.Basic

/-!
# Watching a collection

A watch sees the published state of a collection across its restarts. A watch of a collection that
was never started stays at stopped, and nobody will ever publish to it.
-/

namespace Replication

/-- A watch of a collection: the publications that it saw; none if the collection was never
started. -/
structure Watch where
  path : String
  seen : Option Nat
  deriving DecidableEq, Repr

namespace Watch

/-- What a look shows: whether anything was published since the last one, which is unknown if
nobody publishes, and the state. -/
structure Look where
  changed : Option Bool
  state : SyncState
  deriving DecidableEq, Repr

/-- A watch that saw everything so far. -/
def open_ (k : Coordinator) (path : String) : Watch :=
  let c := k.collection path
  ⟨path, if c.wasStarted then some c.progress.publications else none⟩

/-- A look, and the watch after it. -/
def look (w : Watch) (k : Coordinator) : Look × Watch :=
  match w.seen with
  | none => (⟨none, .stopped⟩, w)
  | some seen =>
    let p := (k.collection w.path).progress
    (⟨some (p.publications != seen), p.published⟩, { w with seen := some p.publications })

end Watch

end Replication
