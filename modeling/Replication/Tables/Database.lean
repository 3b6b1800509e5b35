import Replication.Tables.KeyMap
import Replication.Tables.Outbox

/-!
# The database

The two durable tables, and what can go wrong with them: the database is closed, a table is gone,
or another party holds the lock. A write that meets the lock is attempted five times.
-/

namespace Replication

/-- The tables; one that is missing was dropped. -/
structure Tables where
  outbox : Option Rows := some []
  checkpoints : Option (KeyMap String Checkpoint) := some []

/-- The database: its tables, whether it is closed, the number of attempts to write so far, and
which attempts meet a lock. -/
structure Database where
  tables : Tables := {}
  closed : Bool := false
  attempts : Nat := 0
  locked : Nat → Bool := fun _ => false

namespace Database

/-- The attempts that a write makes. -/
def maxAttempts : Nat := 5

/-- A write that has so many attempts left, the next one being the attempt with a number: whether
it gets through, and how often it is tried again. -/
def acquire (locked : Nat → Bool) : Nat → Nat → Bool × Nat
  | 0, _ => (false, 0)
  | left + 1, attempt =>
    if !locked attempt then (true, 0)
    else if left = 0 then (false, 0)
    else
      let (through, retries) := acquire locked left (attempt + 1)
      (through, retries + 1)

/-- The tables as a new handle finds them: those that are missing are created empty. -/
def restored (t : Tables) : Tables :=
  ⟨some (t.outbox.getD []), some (t.checkpoints.getD [])⟩

end Database

end Replication
