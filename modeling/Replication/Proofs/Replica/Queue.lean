import Mathlib.Data.Finset.Card
import Mathlib.Data.Finset.Dedup
import Mathlib.Data.List.Induction
import Replication.Proofs.Push.Ledger
import Replication.Proofs.Replica.ReadBack

/-!
# The outbox as a queue

Whatever calls are made on an outbox, it serves as a queue of unique mutations. The mutations that
came into it are kept in a log, to which new ones are added at the end and from which none is ever
removed: what becomes of one is written to its item. So an item keeps its place.

1. A statement does to the rows what it does to the log (`Log.rows_apply`), and the rows stay unique
   (`Statement.unique_onRows`).
2. A call makes its statements one after the other; one that does not return made the first of them
   (`Call.perform_rows`). So after any events some log accounts for all that happened and has the
   rows of the outbox (`exists_log`).
3. What the outbox answers is read off the log (`Keeps.serves`). Its reads give the mutations of the
   items in their order if and only if each of them is legible (`first_in_first_out_iff`).
-/

namespace Replication

namespace Queue

/-! ## The log -/

/-- A mutation that came into the outbox: what became of it, its failed deliveries, and the reason
of the last one. -/
structure Item extends Entry where
  strikes : Nat := 0
  reason : Option String := none

namespace Item

/-- The row of an item. -/
def row (x : Item) : Row :=
  { Row.ofMutation x.mutation with
    retries := x.mutation.retries + x.strikes
    lastError := x.reason
    failed := x.fate == .givenUp }

/-- The row of an item that is still in the outbox. -/
def row? (x : Item) : Option Row :=
  if x.fate = .waiting ∨ x.fate = .givenUp then some x.row else none

/-- The mutation of an item as it is read: with the payload that its text gives, and its count. -/
def read (x : Item) : Mutation :=
  { x.mutation with
    payload := x.mutation.payload.bind fun o => Row.payloadOf? (Json.obj o).render
    retries := Row.reported (x.mutation.retries + x.strikes) }

/-- An item that was given up, as it is read. -/
def readFailed (x : Item) : FailedMutation := ⟨x.read, x.reason.getD ""⟩

/-- The payload of an item, if it has one, can be read back. -/
def Parsed (x : Item) : Prop :=
  ∀ o, x.mutation.payload = some o → (Row.payloadOf? (Json.obj o).render).isSome = true

/-- The payload of an item and its count can be read back. -/
structure Legible (x : Item) : Prop where
  parsed : x.Parsed
  counted : Row.countable (x.mutation.retries + x.strikes) = true

end Item

/-- The mutations that came into an outbox, oldest first. -/
abbrev Log := List Item

namespace Log

/-- The rows of the outbox. -/
def rows (log : Log) : Rows := log.filterMap Item.row?

/-- The items of a collection that wait to be delivered. -/
def waiting (log : Log) (collection : String) : Log :=
  log.filter fun x => x.mutation.collection == collection && x.fate == .waiting

/-- The items of a collection that were given up. -/
def givenUp (log : Log) (collection : String) : Log :=
  log.filter fun x => x.mutation.collection == collection && x.fate == .givenUp

/-- Whether a mutation with an identifier is in the outbox, to be delivered or given up. -/
def Holds (log : Log) (id : String) : Prop :=
  ∃ x ∈ log, (x.fate = .waiting ∨ x.fate = .givenUp) ∧ x.mutation.id = id

instance (log : Log) (id : String) : Decidable (log.Holds id) :=
  inferInstanceAs (Decidable (∃ x ∈ log, _ ∧ x.mutation.id = id))

/-- Whether the mutation with an identifier waits to be delivered. -/
def Waits (log : Log) (id : String) : Prop := ∃ x ∈ log, x.fate = .waiting ∧ x.mutation.id = id

instance (log : Log) (id : String) : Decidable (log.Waits id) :=
  inferInstanceAs (Decidable (∃ x ∈ log, x.fate = .waiting ∧ x.mutation.id = id))

end Log

/-! ## Statements -/

/-- A statement on the outbox. -/
inductive Statement where
  /-- A mutation comes into the outbox, unless its identifier is there. -/
  | insert (m : Mutation)
  /-- The server took mutations. -/
  | take (ids : List String)
  /-- A delivery failed. -/
  | strike (id reason : String)
  /-- A mutation is given up. -/
  | giveUp (id reason : String)
  /-- A mutation that was given up is dropped. -/
  | drop (id : String)

namespace Statement

/-- The rows after a statement. -/
def onRows : Statement → Rows → Rows
  | .insert m, rows => (rows.insert (Row.ofMutation m)).2
  | .take ids, rows => (rows.acknowledge ids).2
  | .strike id reason, rows => (rows.requeue id reason).2
  | .giveUp id reason, rows => (rows.markFailed id reason).2
  | .drop id, rows => (rows.discard id).2

/-- An item after a statement. -/
def onItem : Statement → Item → Item
  | .insert _, x => x
  | .take ids, x =>
    if x.fate = .waiting ∧ x.mutation.id ∈ ids then { x with fate := .taken } else x
  | .strike id reason, x =>
    if x.fate = .waiting ∧ x.mutation.id = id then
      { x with strikes := x.strikes + 1, reason := some reason }
    else x
  | .giveUp id reason, x =>
    if x.fate = .waiting ∧ x.mutation.id = id then
      { x with fate := .givenUp, reason := some reason }
    else x
  | .drop id, x =>
    if x.fate = .givenUp ∧ x.mutation.id = id then { x with fate := .dropped } else x

theorem unique_onRows (s : Statement) {rows : Rows} (h : rows.Unique) : (s.onRows rows).Unique := by
  cases s with
  | insert m => exact h.insert _
  | take ids => exact (List.filter_sublist.map Row.id).nodup h
  | strike id reason => exact (rows.struck_requeue id reason).unique h
  | giveUp id reason => exact (rows.turned_markFailed id reason).unique h
  | drop id => exact (List.filter_sublist.map Row.id).nodup h

end Statement

/-- The log after a statement. -/
def Log.apply (log : Log) : Statement → Log
  | .insert m =>
    if log.Holds m.id then log else log ++ [{ mutation := m, fate := .waiting }]
  | s => log.map s.onItem

/-- What a statement that is not an insertion makes of a row. -/
def Statement.onRow : Statement → Row → Option Row
  | .insert _, r => some r
  | .take ids, r => if r.failed = false ∧ r.id ∈ ids then none else some r
  | .strike id reason, r =>
    some (if r.failed = false ∧ r.id = id then Rows.recordFailure reason r else r)
  | .giveUp id reason, r =>
    some (if r.failed = false ∧ r.id = id then Rows.giveUp reason r else r)
  | .drop id, r => if r.failed = true ∧ r.id = id then none else some r

theorem Statement.row?_onItem (s : Statement) (x : Item) :
    (s.onItem x).row? = x.row?.bind s.onRow := by
  obtain ⟨⟨m, fate⟩, strikes, reason⟩ := x
  cases s with
  | insert m' => exact (Option.bind_fun_some _).symm
  | take ids =>
    by_cases h : m.id ∈ ids <;> cases fate <;>
      simp [onItem, onRow, Item.row?, Item.row, Row.ofMutation, h]
  | strike id reason' =>
    by_cases h : m.id = id <;> cases fate <;>
      simp [onItem, onRow, Item.row?, Item.row, Row.ofMutation, Rows.recordFailure, h,
        Int.add_assoc]
  | giveUp id reason' =>
    by_cases h : m.id = id <;> cases fate <;>
      simp [onItem, onRow, Item.row?, Item.row, Row.ofMutation, Rows.giveUp, h]
  | drop id =>
    by_cases h : m.id = id <;> cases fate <;>
      simp [onItem, onRow, Item.row?, Item.row, Row.ofMutation, h]

/-- A statement that is not an insertion goes row by row. -/
theorem Statement.onRows_eq {s : Statement} (hs : ∀ m, s ≠ .insert m) (rows : Rows) :
    s.onRows rows = rows.filterMap s.onRow := by
  cases s with
  | insert m => exact absurd rfl (hs m)
  | take ids =>
    rw [onRows, Rows.acknowledge]
    rw [← List.filterMap_eq_filter]
    refine List.filterMap_congr fun r _ => ?_
    cases hf : r.failed <;> by_cases h : r.id ∈ ids <;>
      simp [onRow, Option.guard, Row.pending, hf, h]
  | strike id reason =>
    rw [onRows, Rows.requeue, Rows.alterPending_eq, ← List.filterMap_eq_map']
    rfl
  | giveUp id reason =>
    rw [onRows, Rows.markFailed, Rows.alterPending_eq, ← List.filterMap_eq_map']
    rfl
  | drop id =>
    rw [onRows, Rows.discard]
    rw [← List.filterMap_eq_filter]
    refine List.filterMap_congr fun r _ => ?_
    cases hf : r.failed <;> by_cases h : r.id = id <;> simp [onRow, Option.guard, hf, h]

namespace Log

variable {log : Log} {id : String}

theorem mem_rows {row : Row} :
    row ∈ log.rows ↔ ∃ x ∈ log, (x.fate = .waiting ∨ x.fate = .givenUp) ∧ x.row = row := by
  unfold rows Item.row?
  simp [List.mem_filterMap]

theorem mem_ids_rows : id ∈ log.rows.map Row.id ↔ log.Holds id := by
  simp only [List.mem_map, mem_rows]
  constructor
  · rintro ⟨_, ⟨x, hx, hf, rfl⟩, rfl⟩
    exact ⟨x, hx, hf, rfl⟩
  · rintro ⟨x, hx, hf, rfl⟩
    exact ⟨x.row, ⟨x, hx, hf, rfl⟩, rfl⟩

/-- A statement does to the rows what it does to the log. -/
theorem rows_apply (log : Log) (s : Statement) : (log.apply s).rows = s.onRows log.rows := by
  have hmap : rows (log.map s.onItem) = log.rows.filterMap s.onRow := by
    rw [rows, rows, List.filterMap_map, List.filterMap_filterMap]
    exact List.filterMap_congr fun x _ => s.row?_onItem x
  cases s with
  | insert m =>
    show rows (if log.Holds m.id then log else log ++ [_]) =
      (log.rows.insert (Row.ofMutation m)).2
    by_cases hm : log.Holds m.id
    · rw [if_pos hm, Rows.insert_of_mem _ (mem_ids_rows.2 hm)]
    · rw [if_neg hm, Rows.insert_of_not_mem _ (mt mem_ids_rows.1 hm), rows, List.filterMap_append]
      simp [Item.row?, Item.row, Row.ofMutation, rows]
  | take ids => exact hmap.trans (Statement.onRows_eq (by simp) _).symm
  | strike id reason => exact hmap.trans (Statement.onRows_eq (by simp) _).symm
  | giveUp id reason => exact hmap.trans (Statement.onRows_eq (by simp) _).symm
  | drop id => exact hmap.trans (Statement.onRows_eq (by simp) _).symm

theorem rows_foldl_apply (log : Log) (done : List Statement) :
    (done.foldl apply log).rows = done.foldl (fun rows s => s.onRows rows) log.rows := by
  induction done generalizing log with
  | nil => rfl
  | cons s done ih => rw [List.foldl_cons, List.foldl_cons, ih, rows_apply]

end Log

/-! ## Calls -/

/-- A call on the outbox that changes it. -/
inductive Call where
  | enqueue (m : Mutation)
  | acknowledge (ids : List String)
  | requeue (id reason : String)
  | markFailed (id reason : String)
  | discard (ids : List String)

namespace Call

/-- Whether a call returns, and the replica after it. -/
def perform (r : Replica) : Call → Bool × Replica
  | .enqueue m => ended ((Replica.enqueue m).exec r)
  | .acknowledge ids => ended ((Replica.acknowledge ids).exec r)
  | .requeue id reason => ended ((Replica.requeue id reason).exec r)
  | .markFailed id reason => ended ((Replica.markFailed id reason).exec r)
  | .discard ids => ended ((Replica.discard ids).exec r)
where
  ended {α : Type} (out : Except SyncError α × Replica) : Bool × Replica := (out.1.isOk, out.2)

/-- What a call comes to. -/
def statements : Call → List Statement
  | .enqueue m => [.insert m]
  | .acknowledge ids => [.take ids]
  | .requeue id reason => [.strike id reason]
  | .markFailed id reason => [.giveUp id reason]
  | .discard ids => ids.map .drop

/-- What a call got done: its statements, or the first of them if it did not return. -/
structure Done (c : Call) (returned : Bool) (done : List Statement) : Prop where
  first : done <+: c.statements
  all : returned = true → done = c.statements

theorem foldl_drop (ids : List String) (rows : Rows) :
    (ids.map Statement.drop).foldl (fun rows s => s.onRows rows) rows = rows.without ids := by
  induction ids generalizing rows with
  | nil => exact rows.without_nil.symm
  | cons id ids ih =>
    rw [List.map_cons, List.foldl_cons, ih, Statement.onRows, Rows.without_discard]

/-- A call of one statement made it, or it made none and did not return. -/
theorem exists_done {c : Call} (s : Statement) (hc : c.statements = [s]) {α : Type}
    {out : Except SyncError α} {r r' : Replica} {rows : Rows}
    (he : c.perform r = perform.ended (out, r')) (hr' : r.Alike r')
    (h : r'.rows? = some rows ∧ (∃ e, out = .error e) ∨ r'.rows? = some (s.onRows rows)) :
    ∃ done, c.Done (c.perform r).1 done ∧ r.Alike (c.perform r).2 ∧
      (c.perform r).2.rows? = some (done.foldl (fun rows s => s.onRows rows) rows) := by
  rw [he]
  obtain ⟨hrows, e, rfl⟩ | hrows := h
  · exact ⟨[], ⟨List.nil_prefix, nofun⟩, hr', hrows⟩
  · exact ⟨[s], ⟨hc ▸ List.prefix_rfl, fun _ => hc.symm⟩, hr', hrows⟩

/-- A call makes its statements on the rows, as far as it gets. -/
theorem perform_rows (c : Call) {r : Replica} {rows : Rows} (h : r.rows? = some rows) :
    ∃ done, c.Done (c.perform r).1 done ∧ r.Alike (c.perform r).2 ∧
      (c.perform r).2.rows? = some (done.foldl (fun rows s => s.onRows rows) rows) := by
  cases c with
  | enqueue m =>
    obtain ⟨r', hr', ⟨he, hrows⟩ | ⟨he, hrows⟩⟩ := Replica.exec_enqueue m h
    · exact exists_done (.insert m) rfl (congrArg perform.ended he) hr' (.inl ⟨hrows, _, rfl⟩)
    · exact exists_done (.insert m) rfl (congrArg perform.ended he) hr' (.inr hrows)
  | acknowledge ids =>
    obtain ⟨r', hr', ⟨he, hrows⟩ | ⟨he, hrows⟩⟩ := Replica.exec_acknowledge ids h
    · exact exists_done (.take ids) rfl (congrArg perform.ended he) hr' (.inl ⟨hrows, _, rfl⟩)
    · exact exists_done (.take ids) rfl (congrArg perform.ended he) hr' (.inr hrows)
  | requeue id reason =>
    obtain ⟨out, r', hr', he, hrows⟩ := Replica.exec_requeue id reason h
    exact exists_done (.strike id reason) rfl (congrArg perform.ended he) hr'
      (hrows.imp_right And.left)
  | markFailed id reason =>
    obtain ⟨out, r', hr', he, hrows⟩ := Replica.exec_markFailed id reason h
    exact exists_done (.giveUp id reason) rfl (congrArg perform.ended he) hr' hrows
  | discard ids =>
    obtain ⟨out, r', dropped, hr', he, hd, hall, hrows⟩ := Replica.exec_discard ids h
    rw [perform, he]
    refine ⟨dropped.map .drop, ⟨hd.map _, fun hok => ?_⟩, hr', ?_⟩
    · cases out with
      | ok n => rw [hall n rfl, statements]
      | error e => cases hok
    · rw [foldl_drop]
      exact hrows

end Call

/-! ## Courses of events -/

/-- What happens to an outbox: a call, a restart of the client, or the attempts to write that meet a
lock become others. -/
inductive Event where
  | call (c : Call)
  | restart
  | lock (locked : Nat → Bool)

def step (r : Replica) : Event → Replica
  | .call c => (c.perform r).2
  | .restart => r.opened r.database.tables
  | .lock locked => { r with database := { r.database with locked } }

/-- A client whose outbox is empty. -/
def start : Replica := ({} : Replica).opened {}

/-- The client after events. -/
def run (es : List Event) : Replica := es.foldl step start

theorem run_concat (es : List Event) (e : Event) : run (es ++ [e]) = step (run es) e :=
  List.foldl_concat _ _ _ _

namespace Event

/-- Whether an event is no call, or a call that returns. -/
def returns (r : Replica) : Event → Bool
  | .call c => (c.perform r).1
  | _ => true

def statements : Event → List Statement
  | .call c => c.statements
  | _ => []

end Event

/-- Whether every call among events returns. -/
def allReturn (r : Replica) : List Event → Bool
  | [] => true
  | e :: es => e.returns r && allReturn (step r e) es

theorem allReturn_concat (r : Replica) (es : List Event) (e : Event) :
    allReturn r (es ++ [e]) = (allReturn r es && e.returns (es.foldl step r)) := by
  induction es generalizing r with
  | nil => simp [allReturn]
  | cons e' es ih => simp [allReturn, ih, Bool.and_assoc]

/-- The log of events whose calls return. -/
def logOf (es : List Event) : Log := (es.flatMap Event.statements).foldl Log.apply []

/-- A log accounts for all that happened: each call made its statements, or the first of them if it
did not return, and nothing else touched the log. -/
inductive Accounts : List Event → Log → Prop where
  | nil : Accounts [] []
  | call {es : List Event} {log : Log} (c : Call) (done : List Statement) : Accounts es log →
      c.Done (c.perform (run es)).1 done → Accounts (es ++ [.call c]) (done.foldl Log.apply log)
  | restart {es : List Event} {log : Log} : Accounts es log → Accounts (es ++ [.restart]) log
  | lock {es : List Event} {log : Log} (locked : Nat → Bool) : Accounts es log →
      Accounts (es ++ [.lock locked]) log

/-- If every call returns there is one log only. -/
theorem Accounts.eq_logOf {es : List Event} {log : Log} (h : Accounts es log)
    (hall : allReturn start es = true) : log = logOf es := by
  induction h with
  | nil => rfl
  | @call es log c done _ hdone ih =>
    rw [allReturn_concat, Bool.and_eq_true] at hall
    rw [ih hall.1, hdone.all hall.2, logOf, logOf, List.flatMap_append, List.foldl_append]
    simp [Event.statements]
  | restart _ ih | lock _ _ ih =>
    rw [allReturn_concat, Bool.and_eq_true] at hall
    rw [ih hall.1, logOf, logOf, List.flatMap_append, List.foldl_append]
    rfl

/-- An open outbox has the rows of a log, and no two of them are of one mutation. -/
structure Keeps (r : Replica) (log : Log) : Prop where
  opened : r.database.closed = false
  rows : r.rows? = some log.rows
  unique : log.rows.Unique

theorem Keeps.perform {r : Replica} {log : Log} (h : Keeps r log) (c : Call) :
    ∃ done, c.Done (c.perform r).1 done ∧ Keeps (c.perform r).2 (done.foldl Log.apply log) := by
  obtain ⟨done, hdone, halike, hrows⟩ := c.perform_rows h.rows
  refine ⟨done, hdone, halike.closed.trans h.opened, ?_, ?_⟩
  · rw [hrows, log.rows_foldl_apply]
  · rw [log.rows_foldl_apply]
    clear hdone hrows
    induction done using List.reverseRecOn with
    | nil => exact h.unique
    | append_singleton done s ih =>
      rw [List.foldl_concat]
      exact s.unique_onRows ih

/-- After any events there is a log that accounts for them and has the rows of the outbox. -/
theorem exists_log (es : List Event) : ∃ log, Accounts es log ∧ Keeps (run es) log := by
  induction es using List.reverseRecOn with
  | nil => exact ⟨[], .nil, rfl, rfl, List.nodup_nil⟩
  | append_singleton es e ih =>
    obtain ⟨log, hlog, hkeeps⟩ := ih
    rw [run_concat]
    cases e with
    | call c =>
      obtain ⟨done, hdone, hkeeps'⟩ := hkeeps.perform c
      exact ⟨_, hlog.call c done hdone, hkeeps'⟩
    | restart =>
      refine ⟨log, hlog.restart, rfl, ?_, hkeeps.unique⟩
      have hrows : (run es).database.tables.outbox = some log.rows := hkeeps.rows
      simp [step, Replica.opened, Replica.rows?, Database.restored, hrows]
    | lock locked => exact ⟨log, hlog.lock locked, hkeeps.opened, hkeeps.rows, hkeeps.unique⟩

/-! ## What is read -/

namespace Item

/-- The mutation of an item is read from its row if and only if its payload is. -/
theorem mutation_row {x : Item} {m : Mutation} :
    x.row.mutation = .ok m ↔ x.Parsed ∧ m = x.read := by
  have hread (hp : x.Parsed) : x.row.mutation = .ok x.read := by
    obtain ⟨⟨⟨id, collection, operation, document, payload, enqueuedAt, retries⟩, fate⟩, n, e⟩ := x
    unfold Row.mutation row read Row.ofMutation
    dsimp only
    rw [Operation.ofName?_name]
    cases payload with
    | none => rfl
    | some o =>
      obtain ⟨o', ho'⟩ := Option.isSome_iff_exists.1 (hp o rfl)
      dsimp only [Option.map_some, Option.bind_some]
      rw [ho']
      rfl
  constructor
  · intro hm
    have hp : x.Parsed := by
      intro o ho
      rw [Option.isSome_iff_ne_none]
      intro hnone
      have htext : x.row.payload = some (Json.obj o).render := by simp [row, Row.ofMutation, ho]
      exact Row.not_readable_of_payload htext hnone ⟨m, hm⟩
    exact ⟨hp, Except.ok.inj (hm.symm.trans (hread hp))⟩
  · rintro ⟨hp, rfl⟩
    exact hread hp

theorem failure_row {x : Item} {f : FailedMutation} :
    x.row.failure = .ok f ↔ x.Parsed ∧ f = x.readFailed := by
  cases hm : x.row.mutation with
  | error e =>
    have hp : ¬x.Parsed := fun hp => by
      rw [mutation_row.2 ⟨hp, rfl⟩] at hm
      cases hm
    simp [Row.failure, hm, bind, Except.bind, hp]
  | ok m =>
    obtain ⟨hp, rfl⟩ := mutation_row.1 hm
    rw [Row.failure_of_mutation hm, Except.ok.injEq]
    exact ⟨fun h => ⟨hp, h.symm⟩, fun h => h.2.symm⟩

/-- A payload that is written without loss is read back just if it does not nest too deep. -/
theorem parsed_iff {x : Item} (h : x.mutation.Proper) :
    x.Parsed ↔ ∀ o, x.mutation.payload = some o → (Json.obj o).depth ≤ Json.maxDepth := by
  refine forall₂_congr fun o ho => ?_
  rw [Row.payloadOf?_render_obj (h.payload o ho)]
  split <;> simp_all

/-- A mutation that is written without loss is read as it was queued, with its failed deliveries. -/
theorem read_eq {x : Item} (h : x.mutation.Proper) (hx : x.Parsed) :
    x.read = { x.mutation with retries := Row.reported (x.mutation.retries + x.strikes) } := by
  have hpayload : (x.mutation.payload.bind fun o => Row.payloadOf? (Json.obj o).render) =
      x.mutation.payload := by
    cases hp : x.mutation.payload with
    | none => rfl
    | some o =>
      rw [Option.bind_some, Row.payloadOf?_render_obj (h.payload o hp),
        if_pos ((parsed_iff h).1 hx o hp)]
  rw [read, hpayload]

end Item

/-- The rows of items are read if and only if each of them can be. -/
theorem decode_map_row {α : Type} {read : Row → Except SyncError α} {f : Item → α}
    (hread : ∀ x y, read x.row = .ok y ↔ x.Parsed ∧ y = f x) {log : Log} {ys : List α} :
    Replica.decode read (log.map Item.row) = .ok ys ↔
      (∀ x ∈ log, x.Legible) ∧ ys = log.map f := by
  have hcount : (∀ r ∈ log.map Item.row, Row.countable r.retries = true) ↔
      ∀ x ∈ log, Row.countable (x.mutation.retries + x.strikes) = true := List.forall_mem_map
  have heq : List.Forall₂ (fun x y => y = f x) log ys ↔ ys = log.map f := by
    rw [eq_comm, ← List.forall₂_eq_eq_eq, List.forall₂_map_left_iff]
    simp only [eq_comm]
  rw [Replica.decode_eq_ok, List.forall₂_map_left_iff, hcount]
  simp only [hread, List.forall₂_and_left, heq]
  constructor
  · rintro ⟨hc, hp, he⟩
    exact ⟨fun x hx => ⟨hp x hx, hc x hx⟩, he⟩
  · rintro ⟨hl, he⟩
    exact ⟨fun x hx => (hl x hx).counted, fun x hx => (hl x hx).parsed, he⟩

namespace Log

variable {log : Log}

theorem filter_rows {p : Row → Bool} {q : Item → Bool}
    (h : ∀ x : Item, x.row?.filter p = if q x then some x.row else none) :
    log.rows.filter p = (log.filter q).map Item.row := by
  rw [rows, List.filter_filterMap, ← List.filterMap_eq_map', List.filterMap_filter]
  exact List.filterMap_congr fun x _ => h x

theorem pending_rows (collection : String) :
    log.rows.pending collection = (log.waiting collection).map Item.row := by
  refine filter_rows fun x => ?_
  obtain ⟨⟨m, fate⟩, n, e⟩ := x
  cases fate <;> simp [Item.row?, Item.row, Row.ofMutation, Row.pending, Option.filter]

theorem failed_rows (collection : String) :
    log.rows.failed collection = (log.givenUp collection).map Item.row := by
  refine filter_rows fun x => ?_
  obtain ⟨⟨m, fate⟩, n, e⟩ := x
  cases fate <;> simp [Item.row?, Item.row, Row.ofMutation, Option.filter]

theorem waits_rows {id : String} : log.rows.Waits id ↔ log.Waits id := by
  unfold Rows.Waits
  simp only [mem_rows]
  constructor
  · rintro ⟨_, ⟨x, hx, hf, rfl⟩, hp, rfl⟩
    rcases hf with hf | hf
    · exact ⟨x, hx, hf, rfl⟩
    · simp [Item.row, hf] at hp
  · rintro ⟨x, hx, hf, rfl⟩
    exact ⟨x.row, ⟨x, hx, .inl hf, rfl⟩, by simp [Item.row, hf], rfl⟩

end Log

/-! ## What is acknowledged -/

/-- As many mutations are taken as there are identifiers of such that wait. -/
theorem acknowledge_rows {log : Log} (hu : log.rows.Unique) (ids : List String) :
    (log.rows.acknowledge ids).1 = (ids.toFinset.filter log.Waits).card := by
  have hids : ((log.rows.filter fun r => r.pending && ids.contains r.id).map Row.id).Nodup :=
    (List.filter_sublist.map Row.id).nodup hu
  have hset : ((log.rows.filter fun r => r.pending && ids.contains r.id).map Row.id).toFinset =
      ids.toFinset.filter log.Waits := by
    ext id
    rw [Finset.mem_filter, List.mem_toFinset, List.mem_toFinset, ← Log.waits_rows]
    simp only [List.mem_map, List.mem_filter, Row.pending, Rows.Waits, Bool.and_eq_true,
      Bool.not_eq_true', List.contains_iff_mem]
    constructor
    · rintro ⟨r, ⟨hr, hf, hid⟩, rfl⟩
      exact ⟨hid, r, hr, hf, rfl⟩
    · rintro ⟨hid, r, hr, hf, rfl⟩
      exact ⟨r, ⟨hr, hf, hid⟩, rfl⟩
  rw [Rows.acknowledge, ← hset, List.toFinset_card_of_nodup hids, List.length_map]
  exact List.countP_eq_length_filter

/-- What was taken once is not there any more. -/
theorem acknowledge_again (rows : Rows) (ids : List String) :
    Rows.acknowledge (rows.acknowledge ids).2 ids = (0, (rows.acknowledge ids).2) := by
  unfold Rows.acknowledge
  simp only [List.countP_filter, List.filter_filter, Bool.and_self, Bool.and_not_self]
  rw [List.countP_false, Function.const_apply]

/-- Only the set of the identifiers matters. -/
theorem acknowledge_congr {ids ids' : List String} (h : ∀ id, id ∈ ids ↔ id ∈ ids') :
    Replica.acknowledge ids = Replica.acknowledge ids' := by
  have hempty : ids.isEmpty = ids'.isEmpty := by
    rw [Bool.eq_iff_iff, List.isEmpty_iff, List.isEmpty_iff, List.eq_nil_iff_forall_not_mem,
      List.eq_nil_iff_forall_not_mem]
    exact forall_congr' fun id => not_congr (h id)
  have hrows : (fun rows : Rows => rows.acknowledge ids) = fun rows => rows.acknowledge ids' := by
    funext rows
    have hgone : ∀ id, ids.contains id = ids'.contains id := fun id => by
      rw [Bool.eq_iff_iff, List.contains_iff_mem, List.contains_iff_mem, h id]
    simp only [Rows.acknowledge, hgone]
  rw [Replica.acknowledge_eq, Replica.acknowledge_eq, hempty, hrows]

/-- Taking mutations returns if the write gets through, and it is done just if it returns. -/
theorem exec_acknowledge (ids : List String) {r : Replica} {rows : Rows}
    (h : r.rows? = some rows) :
    ∃ out r', (Replica.acknowledge ids).exec r = (out, r') ∧ r.Alike r' ∧
      (r.Admits → out.isOk = true) ∧
      (out = .error .persistence ∧ r'.rows? = some rows ∨
        out = .ok (rows.acknowledge ids).1 ∧ r'.rows? = some (rows.acknowledge ids).2) := by
  have hadmits (hr : r.Admits) : ((Replica.acknowledge ids).exec r).1.isOk = true := by
    obtain ⟨r', -, he, -⟩ := Replica.exec_acknowledge_admitted ids hr h
    rw [he]
    rfl
  obtain ⟨r', hr', ⟨he, hrows⟩ | ⟨he, hrows⟩⟩ := Replica.exec_acknowledge ids h
  · rw [he] at hadmits ⊢
    exact ⟨_, r', rfl, hr', hadmits, .inl ⟨rfl, hrows⟩⟩
  · rw [he] at hadmits ⊢
    exact ⟨_, r', rfl, hr', hadmits, .inr ⟨rfl, hrows⟩⟩

/-! ## The queue -/

/-- What an outbox answers is what its log says. -/
structure Serves (r : Replica) (log : Log) : Prop where
  /-- No two mutations in the outbox, waiting or given up, have one identifier. -/
  unique : ∃ rows, r.rows? = some rows ∧ (rows.map Row.id).Nodup
  /-- A read of what waits gives the first items that wait, if each of them is legible. -/
  pending (collection : String) (limit : Nat) :
    ∃ out, (Replica.pending collection limit).exec r = (out, r) ∧
      ∀ ms, out = .ok ms ↔ (∀ x ∈ (log.waiting collection).take limit, x.Legible) ∧
        ms = ((log.waiting collection).take limit).map Item.read
  /-- A read of what was given up gives all of that, if each is legible. -/
  failed (collection : String) :
    ∃ out, (Replica.failedMutations collection).exec r = (out, r) ∧
      ∀ fs, out = .ok fs ↔ (∀ x ∈ log.givenUp collection, x.Legible) ∧
        fs = (log.givenUp collection).map Item.readFailed
  /-- The counts are those of all that waits and of all that was given up. -/
  counts (collection : String) :
    (Replica.pendingCount collection).exec r = (.ok (log.waiting collection).length, r) ∧
      (Replica.failedCount collection).exec r = (.ok (log.givenUp collection).length, r)
  /-- No mutation waits and was given up. -/
  disjoint : ∀ x ∈ log, ∀ y ∈ log, x.fate = .waiting → y.fate = .givenUp →
    x.mutation.id ≠ y.mutation.id
  /-- The order of identifiers and their repetitions make no difference. -/
  as_set (ids ids' : List String) : (∀ id, id ∈ ids ↔ id ∈ ids') →
    (Replica.acknowledge ids).exec r = (Replica.acknowledge ids').exec r
  /-- Taking mutations returns if the write gets through, with the number of those identifiers that
  wait. Doing it once more takes none and changes no table. -/
  taken (ids : List String) :
    ∃ out r', (Replica.acknowledge ids).exec r = (out, r') ∧ (r.Admits → out.isOk = true) ∧
      ∀ n, out = .ok n → n = (ids.toFinset.filter log.Waits).card ∧
        ∃ out' r'', (Replica.acknowledge ids).exec r' = (out', r'') ∧
          (r'.Admits → out'.isOk = true) ∧ (∀ n', out' = .ok n' → n' = 0) ∧
          r'.Alike r'' ∧ r''.rows? = r'.rows?

theorem Keeps.serves {r : Replica} {log : Log} (h : Keeps r log) : Serves r log where
  unique := ⟨_, h.rows, h.unique⟩
  pending collection limit := by
    refine ⟨_, Replica.exec_pending h.opened h.rows collection limit, fun ms => ?_⟩
    rw [Log.pending_rows, ← List.map_take]
    exact decode_map_row fun _ _ => Item.mutation_row
  failed collection := by
    refine ⟨_, Replica.exec_failedMutations h.opened h.rows collection, fun fs => ?_⟩
    rw [Log.failed_rows]
    exact decode_map_row fun _ _ => Item.failure_row
  counts collection := by
    have hrows : r.database.tables.outbox = some log.rows := h.rows
    constructor
    · refine Action.exec_query_ok h.opened ?_
      rw [hrows, Option.map_some, Log.pending_rows, List.length_map]
    · refine Action.exec_query_ok h.opened ?_
      rw [hrows, Option.map_some, Log.failed_rows, List.length_map]
  disjoint x hx y hy hwaits hfailed hid := by
    have hrow : x.row = y.row := h.unique.eq (Log.mem_rows.2 ⟨x, hx, .inl hwaits, rfl⟩)
      (Log.mem_rows.2 ⟨y, hy, .inr hfailed, rfl⟩) hid
    have hf : x.row.failed = y.row.failed := by rw [hrow]
    simp [Item.row, hwaits, hfailed] at hf
  as_set ids ids' hids := by rw [acknowledge_congr hids]
  taken ids := by
    obtain ⟨out, r', he, -, hadmits, hrows⟩ := exec_acknowledge ids h.rows
    refine ⟨out, r', he, hadmits, fun n hn => ?_⟩
    obtain ⟨rfl, -⟩ | ⟨rfl, hrows⟩ := hrows
    · cases hn
    · obtain rfl := Except.ok.inj hn
      obtain ⟨out', r'', he', halike, hadmits', hrows'⟩ := exec_acknowledge ids hrows
      rw [acknowledge_again] at hrows'
      refine ⟨acknowledge_rows h.unique ids, out', r'', he', hadmits', ?_, halike, ?_⟩
      · obtain ⟨rfl, -⟩ | ⟨rfl, -⟩ := hrows'
        · exact nofun
        · exact fun n' hn' => (Except.ok.inj hn').symm
      · rw [hrows]
        exact hrows'.elim And.right And.right

/-- The outbox is a queue of unique mutations, whatever calls are made on it, however often the
client restarts and whichever writes fail. There is a log that accounts for all that happened, in
which no item ever changes its place, and all that the outbox answers is what the log says. If every
call returns, that is the log of all their statements. A read gives the first items that wait, in
the order in which they came, if and only if each of them is legible; one that is not makes the
whole read fail. A mutation that is written without loss is legible unless its payload nests too
deep or its count does not fit, and then it is read as it was queued, with its failed
deliveries. -/
theorem first_in_first_out_iff (es : List Event) :
    ∃ log, Accounts es log ∧ (allReturn start es = true → log = logOf es) ∧ Serves (run es) log ∧
      ∀ x ∈ log, x.mutation.Proper →
        (x.Legible ↔ (∀ o, x.mutation.payload = some o → (Json.obj o).depth ≤ Json.maxDepth) ∧
          Row.countable (x.mutation.retries + x.strikes) = true) ∧
        (x.Legible → x.read =
          { x.mutation with retries := Row.reported (x.mutation.retries + x.strikes) }) := by
  obtain ⟨log, hlog, hkeeps⟩ := exists_log es
  refine ⟨log, hlog, hlog.eq_logOf, hkeeps.serves,
    fun x _ hx => ⟨?_, fun hl => Item.read_eq hx hl.parsed⟩⟩
  rw [← Item.parsed_iff hx]
  exact ⟨fun hl => ⟨hl.parsed, hl.counted⟩, fun h => ⟨h.1, h.2⟩⟩

/-- The first of three mutations failed once, the second one was taken, and the first was queued
again: the first and the third wait in that order. -/
theorem first_keeps_its_place :
    let m (id : String) : Mutation := ⟨id, "notes", .delete, "a", none, 0, 0⟩
    let es : List Event := [.call (.enqueue (m "m1")), .call (.enqueue (m "m2")),
      .call (.enqueue (m "m3")), .call (.requeue "m1" "offline"),
      .call (.acknowledge ["m2", "m2", "m9"]), .call (.enqueue (m "m1")), .restart]
    (Replica.pending "notes" 10).exec (run es) =
      (.ok [{ m "m1" with retries := 1 }, m "m3"], run es) := by
  intro m es
  obtain ⟨log, -, hlog, hserves, -⟩ := first_in_first_out_iff es
  obtain rfl := hlog (by decide +kernel)
  have hwaiting : ((logOf es).waiting "notes").take 10 =
      [{ mutation := m "m1", fate := .waiting, strikes := 1, reason := some "offline" },
        { mutation := m "m3", fate := .waiting }] := rfl
  have hnone : Row.reported 0 = 0 := by decide
  have hone : Row.reported 1 = 1 := by decide
  obtain ⟨out, he, hout⟩ := hserves.pending "notes" 10
  rw [hwaiting] at hout
  rw [he, (hout _).2 ⟨?_, ?_⟩]
  · rw [List.forall_mem_cons, List.forall_mem_singleton]
    exact ⟨⟨nofun, by decide +kernel⟩, nofun, by decide +kernel⟩
  · simp [Item.read, m, hnone, hone]

/-- A mutation whose payload has 127 lists in an object is queued behind another one. Both wait, and
yet no read that takes it in gives either of them. -/
theorem deep_hides_first :
    let first : Mutation := ⟨"m1", "notes", .delete, "a", none, 0, 0⟩
    let lists : Json := Nat.iterate (fun v => .arr [v]) 127 .null
    let deep : Mutation := ⟨"m2", "notes", .create, "b", some [("outline", lists)], 0, 0⟩
    let es : List Event := [.call (.enqueue first), .call (.enqueue deep), .restart]
    (Replica.pendingCount "notes").exec (run es) = (.ok 2, run es) ∧
      (Replica.pending "notes" 1).exec (run es) = (.ok [first], run es) ∧
      ∀ ms, (Replica.pending "notes" 2).exec (run es) ≠ (.ok ms, run es) := by
  intro first lists deep es
  have hunreadable : ¬(Row.ofMutation deep).Readable := by
    refine Row.not_readable_of_payload rfl ?_
    rw [Row.payloadOf?_render]
    exact Option.isNone_iff_eq_none.1 (by decide +kernel)
  -- What is left does not depend on how deep the lists are.
  clear_value lists
  have hopen : (run es).database.closed = false := rfl
  have hrows : (run es).rows? = some [Row.ofMutation first, Row.ofMutation deep] := rfl
  refine ⟨Action.exec_query_ok hopen rfl, ?_, fun ms hms => ?_⟩
  · have hproper : ∀ m ∈ [first], m.Proper :=
      List.forall_mem_singleton.2 ⟨nofun, by decide⟩
    have hread : Replica.decode Row.mutation [Row.ofMutation first] = .ok [first] := by
      simpa [first, Mutation.deep] using Replica.decode_ofMutation hproper
    have htake : (Rows.pending [Row.ofMutation first, Row.ofMutation deep] "notes").take 1 =
        [Row.ofMutation first] := rfl
    rw [Replica.exec_pending hopen hrows, htake, hread]
  · rw [Replica.exec_pending hopen hrows] at hms
    obtain ⟨-, hread⟩ := Replica.decode_eq_ok.1 (Prod.mk.inj hms).1
    obtain _ | ⟨-, _ | ⟨hdeep, -⟩⟩ := hread
    exact hunreadable ⟨_, hdeep⟩

end Queue

end Replication
