import Replication.Change
import Replication.Error

/-!
# Pages

What the client asks of a page of changes before it applies any of it: every change belongs to the
collection and is newer than the position that was asked for, positions never decrease, and the
position to ask from next is not behind the last change.
-/

namespace Replication.Page

/-- What is wrong with a page. -/
inductive Fault where
  /-- A change of another collection. -/
  | foreign (collection document other : String)
  /-- A change that is not newer than the position asked for. -/
  | stale (document : String) (checkpoint position : Checkpoint)
  /-- A change that is older than the one before it. -/
  | unordered (checkpoint previous : Checkpoint)
  /-- A next position that is older than the last change. -/
  | behind (next last : Checkpoint)
  deriving DecidableEq, Repr

/-- The text of a fault. -/
def Fault.text : Fault → String
  | .foreign collection document other =>
    "Pull for '" ++ collection ++ "' returned document '" ++ document ++ "' of collection '"
      ++ other ++ "'"
  | .stale document checkpoint position =>
    "Change '" ++ document ++ "' at checkpoint " ++ checkpoint.value ++ " is not newer than "
      ++ position.value
  | .unordered checkpoint previous =>
    "Changes out of order: " ++ checkpoint.value ++ " after " ++ previous.value
  | .behind next last =>
    "Batch cursor " ++ next.value ++ " is behind its last change " ++ last.value

/-- The fault of a change that follows another one. -/
def changeFault? (collection : String) (position previous : Option Checkpoint) (c : Change) :
    Option Fault :=
  if c.collection ≠ collection then some (.foreign collection c.document c.collection)
  else
    let stale := position.bind fun p =>
      if c.checkpoint.isAfter p then none else some (.stale c.document c.checkpoint p)
    stale.or <| previous.bind fun p =>
      if p.isAfter c.checkpoint then some (.unordered c.checkpoint p) else none

/-- The first fault of a list of changes, and of the position after them. -/
def faultFrom? (collection : String) (position next previous : Option Checkpoint) :
    List Change → Option Fault
  | [] =>
    next.bind fun n => previous.bind fun p => if p.isAfter n then some (.behind n p) else none
  | c :: rest =>
    (changeFault? collection position previous c).or
      (faultFrom? collection position next (some c.checkpoint) rest)

/-- The first fault of a page that was asked for from a position. -/
def fault? (p : Page) (collection : String) (position : Option Checkpoint) : Option Fault :=
  faultFrom? collection position p.next none p.changes

/-- The newest position that a page covers: that of its last change, or the next one. -/
def trailing? (p : Page) : Option Checkpoint :=
  match p.next, p.changes.getLast?.map Change.checkpoint with
  | some next, some last => some (next.newer last)
  | some next, none => some next
  | none, last => last

end Replication.Page
