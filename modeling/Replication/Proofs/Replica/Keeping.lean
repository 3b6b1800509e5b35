import Replication.Proofs.Replica.Checkpoints

/-!
# The life of the checkpoints

A client moves, forgets and hands out the checkpoints of its collections. Attempts to write meet a
lock or a closed database, and the client may end at any time, also between the write of a call and
the change of its memory, and is opened again on the same table.

1. A call makes one of three things of the checkpoints (`Became`), the same in table and memory.
2. So what is handed out is always what is kept, checkpoints only move forward until they are
   forgotten, and those of other collections stay (`handed_out_as_kept`).
-/

namespace Replication.Keeping

/-- A call on the checkpoints of a client. -/
inductive Call where
  | move (collection : String) (next : Checkpoint)
  | forget (collection : String)
  | look (collection : String)
  | list

/-- What a call hands out. -/
inductive Answer where
  | nothing
  | one (checkpoint : Option Checkpoint)
  | all (checkpoints : KeyMap String Checkpoint)

/-- What a call does. -/
def Call.action : Call → Action Answer
  | .move collection next => do
    Replica.setCheckpoint collection next
    return .nothing
  | .forget collection => do
    Replica.deleteCheckpoint collection
    return .nothing
  | .look collection => return .one ((← get).checkpoint? collection)
  | .list => return .all (← get).checkpoints

/-- The replica when a call has written to the table and has not yet changed the memory. -/
def Call.written (r : Replica) : Call → Replica
  | .move collection next =>
    match Replica.settled (r.checkpoint? collection) next with
    | .ok false => ((Action.write "checkpoint_set" (Replica.keep collection next)).exec r).2
    | _ => r
  | .forget collection =>
    ((Action.write "checkpoint_delete" (Replica.forget collection)).exec r).2
  | .look _ | .list => r

/-- What happens to a client. -/
inductive Event where
  | call (c : Call)
  /-- The client ends after the write of a call, before its memory changes, and is opened again. -/
  | cut (c : Call)
  /-- The client ends and is opened again. -/
  | restart
  /-- The database is closed. -/
  | close
  /-- The attempts to write that meet a lock become others. -/
  | disturb (locked : Nat → Bool)

/-- The client opened again on its table. -/
def reopened (r : Replica) : Replica := r.opened r.database.tables

/-- The client after an event. -/
def step (r : Replica) : Event → Replica
  | .call c => (c.action.exec r).2
  | .cut c => reopened (c.written r)
  | .restart => reopened r
  | .close => r.close
  | .disturb locked => { r with database := { r.database with locked } }

/-- The client after events. -/
def run (r : Replica) (es : List Event) : Replica := es.foldl step r

/-- Whether an event is a call, finished or cut, to forget the checkpoint of a collection. -/
def Event.Forgets (collection : String) (e : Event) : Prop :=
  e = .call (.forget collection) ∨ e = .cut (.forget collection)

/-- Whether an event is a call, finished or cut, to move or forget the checkpoint of a
collection. -/
def Event.Concerns (collection : String) (e : Event) : Prop :=
  e.Forgets collection ∨ ∃ next, e = .call (.move collection next) ∨ e = .cut (.move collection next)

/-- The table is there, and what is handed out is what it keeps. -/
def Whole (r : Replica) : Prop := r.database.tables.checkpoints = some r.checkpoints

theorem whole_opened (r : Replica) (t : Tables) : Whole (r.opened t) := rfl

/-! ## One event -/

/-- What a call may make of the checkpoints. -/
inductive Became (m : KeyMap String Checkpoint) : Call → KeyMap String Checkpoint → Prop where
  | same (c : Call) : Became m c m
  | moved {collection : String} {next : Checkpoint} :
      (∀ q, m.get? collection = some q → q < next) →
      Became m (.move collection next) (m.set collection next)
  | forgotten (collection : String) : Became m (.forget collection) (m.erase collection)

/-- A call that is no step forward leaves everything as it is. -/
theorem exec_move_of_le {r : Replica} {collection : String} {current next : Checkpoint}
    (hc : r.checkpoint? collection = some current) (h : next ≤ current) :
    (Call.move collection next).action.exec r =
      (if next = current then .ok .nothing
        else .error (.invalidState ("checkpoint >= " ++ current.value) next.value), r) := by
  unfold Call.action
  rw [Action.exec_bind, Replica.exec_setCheckpoint_of_le collection hc h]
  split_ifs <;> rfl

/-- A call to move forward does so in table and memory, or cannot write and does nothing. -/
theorem exec_move_of_lt {r : Replica} (hr : Whole r) {collection : String} {next : Checkpoint}
    (h : ∀ q, r.checkpoint? collection = some q → q < next) :
    ∃ n m, (Call.move collection next).action.exec r =
        (.error .persistence, r.written r.database.tables n m) ∨
      (Call.move collection next).action.exec r =
        (.ok .nothing, r.advanced collection next r.checkpoints n m) := by
  unfold Call.action
  rw [Action.exec_bind]
  rcases Replica.exec_setCheckpoint_of_lt collection h with ⟨n, m, he⟩ | ⟨t, n, m, ht, he⟩
  · refine ⟨n, m, .inl ?_⟩
    rw [he]
  · obtain rfl : t = r.checkpoints := Option.some.inj (ht.symm.trans hr)
    refine ⟨n, m, .inr ?_⟩
    rw [he]
    rfl

/-- A call to forget does so in table and memory, or cannot write and does nothing. -/
theorem exec_forget {r : Replica} (hr : Whole r) (collection : String) :
    ∃ e n m, (Call.forget collection).action.exec r =
        (.error e, r.written r.database.tables n m) ∨
      (Call.forget collection).action.exec r =
        (.ok .nothing, r.forgotten collection r.checkpoints n m) := by
  unfold Call.action
  rw [Action.exec_bind]
  rcases Replica.exec_deleteCheckpoint collection r with ⟨e, n, m, he⟩ | ⟨t, n, m, ht, he⟩
  · refine ⟨e, n, m, .inl ?_⟩
    rw [he]
  · obtain rfl : t = r.checkpoints := Option.some.inj (ht.symm.trans hr)
    refine ⟨.persistence, n, m, .inr ?_⟩
    rw [he]
    rfl

/-- A call does the same to the table and to the memory, or it fails and does nothing to either. -/
theorem Whole.call {r : Replica} (h : Whole r) (c : Call) :
    ∃ out r', c.action.exec r = (out, r') ∧ Whole r' ∧ Became r.checkpoints c r'.checkpoints ∧
      ∀ e, out = .error e →
        r'.database.tables = r.database.tables ∧ r'.checkpoints = r.checkpoints := by
  cases c with
  | move collection next =>
    by_cases hlt : ∀ q, r.checkpoint? collection = some q → q < next
    · obtain ⟨n, m, he | he⟩ := exec_move_of_lt h hlt
      · exact ⟨_, _, he, h, .same _, fun _ _ => ⟨rfl, rfl⟩⟩
      · exact ⟨_, _, he, rfl, .moved hlt, fun _ hout => by cases hout⟩
    · push Not at hlt
      obtain ⟨current, hc, hle⟩ := hlt
      exact ⟨_, _, exec_move_of_le hc hle, h, .same _, fun _ _ => ⟨rfl, rfl⟩⟩
  | forget collection =>
    obtain ⟨e, n, m, he | he⟩ := exec_forget h collection
    · exact ⟨_, _, he, h, .same _, fun _ _ => ⟨rfl, rfl⟩⟩
    · exact ⟨_, _, he, rfl, .forgotten collection, fun _ hout => by cases hout⟩
  | look collection => exact ⟨_, _, rfl, h, .same _, fun _ _ => ⟨rfl, rfl⟩⟩
  | list => exact ⟨_, _, rfl, h, .same _, fun _ _ => ⟨rfl, rfl⟩⟩

/-- The client that ends after the write of a call leaves the table that the whole call leaves. -/
theorem tables_written (r : Replica) (c : Call) :
    (c.written r).database.tables = (c.action.exec r).2.database.tables := by
  cases c with
  | move collection next =>
    unfold Call.written Call.action
    rw [Action.exec_bind, Replica.exec_setCheckpoint_eq]
    dsimp only
    rcases Replica.settled (r.checkpoint? collection) next with e | _ | _
    · rfl
    · dsimp only
      rcases (Action.write "checkpoint_set" (Replica.keep collection next)).exec r with ⟨_ | _, _⟩
        <;> rfl
    · rfl
  | forget collection =>
    unfold Call.written Call.action
    rw [Action.exec_bind, Replica.exec_deleteCheckpoint_eq]
    dsimp only
    rcases (Action.write "checkpoint_delete" (Replica.forget collection)).exec r with ⟨_ | _, _⟩
      <;> rfl
  | look collection => rfl
  | list => rfl

theorem Whole.checkpoints_reopened {r : Replica} (h : Whole r) :
    (reopened r).checkpoints = r.checkpoints := by
  show (r.database.tables.checkpoints.getD []) = r.checkpoints
  rw [h]
  rfl

/-- Whatever happens, table and memory stay the same, and only calls change them. -/
theorem Whole.event {r : Replica} (h : Whole r) (e : Event) :
    Whole (step r e) ∧ ((step r e).checkpoints = r.checkpoints ∨
      ∃ c, (e = .call c ∨ e = .cut c) ∧ Became r.checkpoints c (step r e).checkpoints) := by
  cases e with
  | call c =>
    obtain ⟨out, r', he, hr', hb, -⟩ := h.call c
    unfold step
    dsimp only
    rw [he]
    exact ⟨hr', .inr ⟨c, .inl rfl, hb⟩⟩
  | cut c =>
    obtain ⟨out, r', he, hr', hb, -⟩ := h.call c
    have ht : (c.written r).database.tables = r'.database.tables := by
      rw [tables_written, he]
    have hcut : (reopened (c.written r)).checkpoints = r'.checkpoints := by
      show (c.written r).database.tables.checkpoints.getD [] = r'.checkpoints
      rw [ht, hr']
      rfl
    refine ⟨rfl, .inr ⟨c, .inr rfl, ?_⟩⟩
    show Became r.checkpoints c (reopened (c.written r)).checkpoints
    rw [hcut]
    exact hb
  | restart => exact ⟨rfl, .inl h.checkpoints_reopened⟩
  | close => exact ⟨h, .inl rfl⟩
  | disturb locked => exact ⟨h, .inl rfl⟩

theorem Whole.events {r : Replica} (h : Whole r) (es : List Event) : Whole (run r es) := by
  induction es generalizing r with
  | nil => exact h
  | cons e es ih => exact ih (h.event e).1

/-- An event moves a checkpoint forward or leaves it, unless it forgets it. -/
theorem Whole.forward_event {r : Replica} (h : Whole r) {e : Event} {collection : String}
    (he : ¬e.Forgets collection) {q : Checkpoint} (hq : r.checkpoint? collection = some q) :
    ∃ q', (step r e).checkpoint? collection = some q' ∧ q ≤ q' := by
  unfold Replica.checkpoint? at hq ⊢
  obtain ⟨-, hs | ⟨c, hc, hb⟩⟩ := h.event e
  · rw [hs]
    exact ⟨q, hq, le_refl q⟩
  · generalize (step r e).checkpoints = m' at hb
    cases hb with
    | same => exact ⟨q, hq, le_refl q⟩
    | @moved c' next hlt =>
      rw [KeyMap.get?_set]
      split_ifs with heq
      · subst heq
        exact ⟨next, rfl, le_of_lt (hlt q hq)⟩
      · exact ⟨q, hq, le_refl q⟩
    | forgotten c' =>
      rw [KeyMap.get?_erase]
      split_ifs with heq
      · subst heq
        exact absurd hc he
      · exact ⟨q, hq, le_refl q⟩

theorem Whole.forward {r : Replica} (h : Whole r) {es : List Event} {collection : String}
    (he : ∀ e ∈ es, ¬e.Forgets collection) {q : Checkpoint}
    (hq : r.checkpoint? collection = some q) :
    ∃ q', (run r es).checkpoint? collection = some q' ∧ q ≤ q' := by
  induction es generalizing r q with
  | nil => exact ⟨q, hq, le_refl q⟩
  | cons e es ih =>
    obtain ⟨he, hes⟩ := List.forall_mem_cons.1 he
    obtain ⟨q₁, hq₁, hle⟩ := h.forward_event he hq
    obtain ⟨q', hq', hle'⟩ := ih (h.event e).1 hes hq₁
    exact ⟨q', hq', hle.trans hle'⟩

/-- An event that does not concern a collection leaves its checkpoint. -/
theorem Whole.elsewhere {r : Replica} (h : Whole r) {e : Event} {collection : String}
    (he : ¬e.Concerns collection) :
    (step r e).checkpoint? collection = r.checkpoint? collection := by
  unfold Replica.checkpoint?
  obtain ⟨-, hs | ⟨c, hc, hb⟩⟩ := h.event e
  · rw [hs]
  · generalize (step r e).checkpoints = m' at hb
    cases hb with
    | same => rfl
    | @moved c' next _ =>
      rw [KeyMap.get?_set, if_neg]
      rintro rfl
      exact he (.inr ⟨next, hc⟩)
    | forgotten c' =>
      rw [KeyMap.get?_erase, if_neg]
      rintro rfl
      exact he (.inl hc)

/-! ## The whole life -/

theorem exec_move_free {r : Replica} (hr : Whole r) (hf : r.Free) {collection : String}
    {next : Checkpoint} (h : ∀ q, r.checkpoint? collection = some q → q < next) :
    ((Call.move collection next).action.exec r).1 = .ok .nothing := by
  obtain ⟨n, m, he⟩ := Replica.exec_setCheckpoint_admitted collection hf.writable.admits hr h
  unfold Call.action
  rw [Action.exec_bind, he]
  rfl

theorem exec_forget_free {r : Replica} (hr : Whole r) (hf : r.Free) (collection : String) :
    ((Call.forget collection).action.exec r).1 = .ok .nothing := by
  have hk : Replica.forget collection r.database.tables = some ((),
      { r.database.tables with checkpoints := some (r.checkpoints.erase collection) }) := by
    unfold Replica.forget
    rw [hr]
    rfl
  obtain ⟨n, m, hw⟩ := Action.exec_write_admitted "checkpoint_delete" hf.writable.admits hk
  unfold Call.action
  rw [Action.exec_bind, Replica.exec_deleteCheckpoint_eq, hw]
  rfl

/-- What a client can rely on, in one of its states. -/
structure Reliable (r : Replica) : Prop where
  /-- What is handed out is what the table keeps. -/
  same : r.database.tables.checkpoints = some r.checkpoints
  look : ∀ collection, (Call.look collection).action.exec r =
    (.ok (.one (r.persisted? collection)), r)
  list : Call.list.action.exec r = (.ok (.all r.checkpoints), r)
  /-- A call that fails changes neither. -/
  failed : ∀ (c : Call) (e : SyncError), (c.action.exec r).1 = .error e →
    (c.action.exec r).2.database.tables = r.database.tables ∧
      (c.action.exec r).2.checkpoints = r.checkpoints
  /-- A call that does not fail has done its work in the table. -/
  moved : ∀ collection next, ((Call.move collection next).action.exec r).1 = .ok .nothing →
    ((Call.move collection next).action.exec r).2.persisted? collection = some next
  forgotten : ∀ collection, ((Call.forget collection).action.exec r).1 = .ok .nothing →
    ((Call.forget collection).action.exec r).2.persisted? collection = none
  /-- An older checkpoint is refused. -/
  older : ∀ collection current next, r.checkpoint? collection = some current → next < current →
    (Call.move collection next).action.exec r =
      (.error (.invalidState ("checkpoint >= " ++ current.value) next.value), r)
  /-- The same checkpoint is no change, and no attempt to write. -/
  again : ∀ collection current, r.checkpoint? collection = some current →
    (Call.move collection current).action.exec r = (.ok .nothing, r)
  /-- A call that nothing stops does not fail. -/
  free : r.Free → ∀ collection, ((Call.forget collection).action.exec r).1 = .ok .nothing ∧
    ∀ next, (∀ q, r.checkpoint? collection = some q → q < next) →
      ((Call.move collection next).action.exec r).1 = .ok .nothing
  /-- Until it is forgotten, the checkpoint of a collection only moves forward. -/
  forward : ∀ es collection, (∀ e ∈ es, ¬Event.Forgets collection e) →
    ∀ q, r.checkpoint? collection = some q →
      ∃ q', (run r es).checkpoint? collection = some q' ∧ q ≤ q'
  /-- What concerns other collections leaves it. -/
  elsewhere : ∀ e collection, ¬Event.Concerns collection e →
    (step r e).checkpoint? collection = r.checkpoint? collection

theorem Whole.persisted? {r : Replica} (h : Whole r) (collection : String) :
    r.persisted? collection = r.checkpoint? collection := by
  unfold Replica.persisted? Replica.checkpoint?
  rw [h, Option.bind_some]

theorem Whole.moved {r : Replica} (h : Whole r) {collection : String} {next : Checkpoint}
    (ho : ((Call.move collection next).action.exec r).1 = .ok .nothing) :
    ((Call.move collection next).action.exec r).2.persisted? collection = some next := by
  by_cases hlt : ∀ q, r.checkpoint? collection = some q → q < next
  · obtain ⟨n, m, he | he⟩ := exec_move_of_lt h hlt
    · rw [he] at ho
      cases ho
    · rw [he, Replica.persisted?_advanced, if_pos rfl]
  · push Not at hlt
    obtain ⟨current, hc, hle⟩ := hlt
    rw [exec_move_of_le hc hle] at ho ⊢
    split_ifs at ho with heq
    rw [h.persisted?, hc, heq]

theorem Whole.forgotten {r : Replica} (h : Whole r) {collection : String}
    (ho : ((Call.forget collection).action.exec r).1 = .ok .nothing) :
    ((Call.forget collection).action.exec r).2.persisted? collection = none := by
  obtain ⟨e, n, m, he | he⟩ := exec_forget h collection
  · rw [he] at ho
    cases ho
  · rw [he, Replica.persisted?_forgotten, if_pos rfl]

/-- Whatever happens to a client once it was opened, its checkpoints are reliable. -/
theorem handed_out_as_kept (r : Replica) (t : Tables) (es : List Event) :
    Reliable (run (r.opened t) es) := by
  have h : Whole (run (r.opened t) es) := (whole_opened r t).events es
  constructor
  case same => exact h
  case look =>
    intro collection
    rw [h.persisted?]
    rfl
  case list => rfl
  case failed =>
    intro c e hout
    obtain ⟨out, r', he, -, -, hfail⟩ := h.call c
    rw [he] at hout ⊢
    exact hfail e hout
  case moved => exact fun _ _ => h.moved
  case forgotten => exact fun _ => h.forgotten
  case older =>
    intro collection current next hc hlt
    rw [exec_move_of_le hc hlt.le, if_neg hlt.ne]
  case again =>
    intro collection current hc
    rw [exec_move_of_le hc le_rfl, if_pos rfl]
  case free =>
    intro hf collection
    exact ⟨exec_forget_free h hf collection, fun next hnext => exec_move_free h hf hnext⟩
  case forward => exact fun es collection he q hq => h.forward he hq
  case elsewhere => exact fun e collection he => h.elsewhere he

/-- A checkpoint was kept, the client ended in the midst of moving it on, and was opened again: it
has the later one, and the one before that is refused. -/
theorem kept_through_cut :
    let r := run (({} : Replica).opened {})
      [.call (.move "notes" ⟨"9"⟩), .cut (.move "notes" ⟨"10"⟩)]
    r.checkpoint? "notes" = some ⟨"10"⟩ ∧
      (Call.move "notes" ⟨"9"⟩).action.exec r =
        (.error (.invalidState "checkpoint >= 10" "9"), r) := by
  intro r
  have hc : r.checkpoint? "notes" = some ⟨"10"⟩ := rfl
  have hlt : (⟨"9"⟩ : Checkpoint) < ⟨"10"⟩ := by decide
  exact ⟨hc, (handed_out_as_kept {} {} _).older "notes" ⟨"10"⟩ ⟨"9"⟩ hc hlt⟩

end Replication.Keeping
