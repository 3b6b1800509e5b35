import Replication.Replica.Outbox

/-!
# Other hands on the database

What happens to the tables from outside: another party holds the lock for a while, drops a table,
inserts a row of its own, or opens the same database.
-/

namespace Replication.Replica

/-- Replaces the tables of an open database. -/
def setTables (r : Replica) (tables : Tables) : Replica :=
  { r with database := { r.database with tables } }

/-- The next attempts to write find the database locked, and later ones do not. -/
def locked (r : Replica) (attempts : Nat) : Replica :=
  let d := r.database
  { r with database := { d with locked := fun attempt => attempt < d.attempts + attempts } }

/-- Drops the outbox; says whether it was there. -/
def dropOutbox (r : Replica) : Bool × Replica :=
  let t := r.database.tables
  if r.database.closed then (false, r)
  else (t.outbox.isSome, r.setTables { t with outbox := none })

/-- Drops the checkpoints; says whether they were there. -/
def dropCheckpoints (r : Replica) : Bool × Replica :=
  let t := r.database.tables
  if r.database.closed then (false, r)
  else (t.checkpoints.isSome, r.setTables { t with checkpoints := none })

/-- Inserts a row into the outbox; says whether it went in. -/
def insertRow (r : Replica) (row : Row) : Bool × Replica :=
  match r.database.closed, r.database.tables.outbox with
  | false, some rows =>
    let (inserted, rows) := rows.insert row
    (inserted, r.setTables { r.database.tables with outbox := some rows })
  | _, _ => (false, r)

/-- The checkpoints that another handle on the same tables finds. A missing table is created. -/
def secondHandle (r : Replica) : KeyMap String Checkpoint × Replica :=
  let t := r.database.tables
  let found := t.checkpoints.getD []
  (found, r.setTables { t with checkpoints := some found })

end Replication.Replica
