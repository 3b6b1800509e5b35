import Replication.Coordinator.Basic

/-!
# One order of steps

The tasks may take their steps in any order. Here is one: every task in turn goes on until it
waits, and turns are taken until all wait. A step that uses the tables is slower than any other, so
it is taken only when nothing else can move, and one at a time.
-/

namespace Replication.Coordinator

/-- All tasks: those of the collections in the order in which they were first named, then the
calls. -/
def tasks (k : Coordinator) : List Task :=
  (k.collections.flatMap fun (path, c) =>
      if c.run.isSome then RunTask.all.map (.run path) else [])
    ++ (List.range k.calls.length).map .call

/-- Whether the next step of a task uses the tables. -/
def usesTables (k : Coordinator) : Task → Bool
  | .run path (.lane l) => ((k.collection path).run.map fun r => (r.lane l).usesTables).getD false
  | _ => false

/-- The next step of a task, unless it uses the tables. -/
def quickStep? (k : Coordinator) (t : Task) : Option Coordinator :=
  if k.usesTables t then none else k.step? t

/-- A task goes on until it waits, up to a number of steps; says whether it took one. -/
def goOn (t : Task) : Nat → Coordinator → Bool × Coordinator
  | 0, k => (false, k)
  | fuel + 1, k =>
    match k.quickStep? t with
    | none => (false, k)
    | some k => (true, (goOn t fuel k).2)

/-- A turn of each task; says whether any took a step. -/
def takeTurns (fuel : Nat) : List Task → Coordinator → Bool × Coordinator
  | [], k => (false, k)
  | t :: rest, k =>
    let (moved, k) := goOn t fuel k
    let (others, k) := takeTurns fuel rest k
    (moved || others, k)

/-- The first step that uses the tables. -/
def slowStep? (k : Coordinator) : Option Coordinator :=
  (k.tasks.filter k.usesTables).findSome? k.step?

/-- Takes turns until all tasks wait, up to a number of rounds. -/
def settle : Nat → Coordinator → Coordinator
  | 0, k => k
  | fuel + 1, k =>
    let (moved, k) := takeTurns fuel k.tasks k
    if moved then settle fuel k
    else match k.slowStep? with
      | some k => settle fuel k
      | none => k

/-- Makes a call, which goes on until it waits; gives its place. -/
def call (fuel : Nat) (k : Coordinator) (c : LifecycleCall) : Nat × Coordinator :=
  let ticket := k.calls.length
  (ticket, (goOn (.call ticket) fuel { k with calls := k.calls ++ [c] }).2)

end Replication.Coordinator
