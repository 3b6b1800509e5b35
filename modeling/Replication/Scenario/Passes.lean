import Replication.Pull.Pass
import Replication.Push.Pass

/-!
# Whole passes against a script

A pass from its beginning to its end, against a server that works from a script and holds nothing
back. A pull asks at most once for every scripted page and once more; a push that goes on has
removed a row.
-/

namespace Replication

namespace Script

/-- A whole pull pass from a position. -/
def pull (collection : String) (limit : Nat) (position : Option Checkpoint) (r : Replica)
    (s : Script) : Except SyncError PullReport × Replica × Script :=
  let (p, r, s) :=
    PullPass.run remote (s.pages.length + 2) (.begin collection limit position) r s
  (p.result?.getD (.ok p.report), r, s)

/-- A whole push pass. -/
def push (collection : String) (limit maxRetries : Nat) (r : Replica) (s : Script) :
    Except SyncError PushReport × Replica × Script :=
  let (p, r) := (PushPass.begin collection limit maxRetries).settle r
  let rows := (r.database.tables.outbox.getD []).length
  let (p, r, s) := PushPass.run remote (rows + 1) p r s
  (p.result?.getD (.ok p.report), r, s)

end Script

end Replication
