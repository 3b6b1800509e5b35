import Replication.Proofs.Checkpoint.Order
import Replication.Proofs.Replica.Action
import Replication.Replica.Checkpoints

/-!
# Checkpoints handed out and checkpoints kept

A replica hands out checkpoints from memory and keeps them in a table. The two agree in a replica
that was just opened, and every operation on checkpoints keeps it so (`Synced`).
-/

namespace Replication.Replica

/-- The checkpoint of a collection as the table has it. -/
def persisted? (r : Replica) (collection : String) : Option Checkpoint :=
  r.database.tables.checkpoints.bind fun t => t.get? collection

/-- The checkpoints that are handed out are those of the table. -/
def Synced (r : Replica) : Prop :=
  ∀ collection, r.checkpoint? collection = r.persisted? collection

theorem synced_opened (r : Replica) (t : Tables) : (r.opened t).Synced := fun _ => rfl

theorem persisted?_written_of_eq {r : Replica} {t : Tables}
    (h : t.checkpoints = r.database.tables.checkpoints) (n : Nat) (m : Metrics)
    (collection : String) : (r.written t n m).persisted? collection = r.persisted? collection := by
  unfold persisted?
  rw [written_tables, h]

theorem Synced.written {r : Replica} (h : r.Synced) {t : Tables}
    (ht : t.checkpoints = r.database.tables.checkpoints) (n : Nat) (m : Metrics) :
    (r.written t n m).Synced := by
  intro collection
  rw [persisted?_written_of_eq ht]
  exact h collection

/-- Replicas that differ at most in the checkpoint of one collection, in their documents and in
their counters. -/
structure Beside (collection : String) (r r' : Replica) : Prop where
  outbox : r'.database.tables.outbox = r.database.tables.outbox
  closed : r'.database.closed = r.database.closed
  locked : r'.database.locked = r.database.locked
  there : r'.database.tables.checkpoints.isSome = r.database.tables.checkpoints.isSome
  others : ∀ other, other ≠ collection → r'.persisted? other = r.persisted? other

theorem beside_refl (collection : String) (r : Replica) : r.Beside collection r :=
  ⟨rfl, rfl, rfl, rfl, fun _ _ => rfl⟩

theorem Beside.trans {collection : String} {r r' r'' : Replica} (h : r.Beside collection r')
    (h' : r'.Beside collection r'') : r.Beside collection r'' where
  outbox := h'.outbox.trans h.outbox
  closed := h'.closed.trans h.closed
  locked := h'.locked.trans h.locked
  there := h'.there.trans h.there
  others other hne := (h'.others other hne).trans (h.others other hne)

theorem beside_metrics (collection : String) (r : Replica) (m : Metrics) :
    r.Beside collection { r with metrics := m } :=
  ⟨rfl, rfl, rfl, rfl, fun _ _ => rfl⟩

theorem beside_written (collection : String) (r : Replica) (n : Nat) (m : Metrics) :
    r.Beside collection (r.written r.database.tables n m) :=
  ⟨rfl, rfl, rfl, rfl, fun other _ => persisted?_written_of_eq rfl n m other⟩

/-! ## Moving a checkpoint -/

/-- The replica with the checkpoint of a collection moved, in the table and in memory. -/
def advanced (r : Replica) (collection : String) (next : Checkpoint)
    (t : KeyMap String Checkpoint) (n : Nat) (m : Metrics) : Replica :=
  { r.written { r.database.tables with checkpoints := some (t.set collection next) } n m with
    checkpoints := r.checkpoints.set collection next }

section advanced

variable (r : Replica) (collection : String) (next : Checkpoint) (t : KeyMap String Checkpoint)
  (n : Nat) (m : Metrics)

@[simp] theorem advanced_documents :
    (r.advanced collection next t n m).documents = r.documents := rfl

@[simp] theorem advanced_outbox :
    (r.advanced collection next t n m).database.tables.outbox = r.database.tables.outbox := rfl

@[simp] theorem advanced_kept : (r.advanced collection next t n m).database.tables.checkpoints =
    some (t.set collection next) := rfl

@[simp] theorem advanced_closed :
    (r.advanced collection next t n m).database.closed = r.database.closed := rfl

@[simp] theorem advanced_locked :
    (r.advanced collection next t n m).database.locked = r.database.locked := rfl

@[simp] theorem checkpoint?_advanced (other : String) :
    (r.advanced collection next t n m).checkpoint? other =
      if collection = other then some next else r.checkpoint? other :=
  KeyMap.get?_set _ _ _ _

@[simp] theorem persisted?_advanced (other : String) :
    (r.advanced collection next t n m).persisted? other =
      if collection = other then some next else t.get? other :=
  KeyMap.get?_set _ _ _ _

end advanced

theorem Synced.advanced {r : Replica} (h : r.Synced) {t : KeyMap String Checkpoint}
    (ht : r.database.tables.checkpoints = some t) (collection : String) (next : Checkpoint)
    (n : Nat) (m : Metrics) : (r.advanced collection next t n m).Synced := by
  intro other
  rw [checkpoint?_advanced, persisted?_advanced, h other, persisted?, ht, Option.bind_some]

theorem beside_advanced {r : Replica} {t : KeyMap String Checkpoint}
    (ht : r.database.tables.checkpoints = some t) (collection : String) (next : Checkpoint)
    (n : Nat) (m : Metrics) : r.Beside collection (r.advanced collection next t n m) where
  outbox := rfl
  closed := rfl
  locked := rfl
  there := by rw [advanced_kept, ht]; rfl
  others other hne := by
    rw [persisted?_advanced, if_neg hne.symm, persisted?, ht, Option.bind_some]

theorem settled_true_iff {current : Option Checkpoint} {next : Checkpoint} :
    settled current next = .ok true ↔ current = some next := by
  cases current with
  | none => simp [settled]
  | some c =>
    have he : next.cmp c = .eq ↔ some c = some next := by
      rw [Option.some.injEq, @Std.LawfulEqCmp.compare_eq_iff_eq _ Checkpoint.cmp, eq_comm]
    rw [← he]
    dsimp only [settled]
    cases next.cmp c <;> simp

theorem settled_of_lt {current : Option Checkpoint} {next : Checkpoint}
    (h : ∀ c, current = some c → c < next) : settled current next = .ok false := by
  cases current with
  | none => rfl
  | some c =>
    dsimp only [settled]
    rw [Std.OrientedCmp.gt_iff_lt.2 (h c rfl)]

/-- A position that is no step forward from the current one is refused, or is there already. -/
theorem settled_of_le {current next : Checkpoint} (h : next ≤ current) :
    settled (some current) next =
      if next = current then .ok true
      else .error (.invalidState ("checkpoint >= " ++ current.value) next.value) := by
  split_ifs with he
  · exact settled_true_iff.2 (congrArg some he.symm)
  · have hlt : next.cmp current = .lt := lt_of_le_of_ne h he
    unfold settled
    simp only [hlt]

/-- The write that moves a checkpoint in the table. -/
def keep (collection : String) (next : Checkpoint) (t : Tables) : Option (Unit × Tables) :=
  t.checkpoints.map fun m => ((), { t with checkpoints := some (m.set collection next) })

theorem keep_eq_some {collection : String} {next : Checkpoint} {t t' : Tables} {u : Unit}
    (h : keep collection next t = some (u, t')) :
    ∃ m, t.checkpoints = some m ∧ t' = { t with checkpoints := some (m.set collection next) } := by
  obtain ⟨m, hm, he⟩ := Option.map_eq_some_iff.1 h
  exact ⟨m, hm, (Prod.mk.inj he).2.symm⟩

theorem keep_of_some (collection : String) (next : Checkpoint) {t : Tables}
    {m : KeyMap String Checkpoint} (h : t.checkpoints = some m) :
    keep collection next t = some ((), { t with checkpoints := some (m.set collection next) }) := by
  unfold keep
  rw [h]
  rfl

theorem exec_setCheckpoint_eq (collection : String) (next : Checkpoint) (r : Replica) :
    (setCheckpoint collection next).exec r =
      match settled (r.checkpoint? collection) next with
      | .error e => (.error e, r)
      | .ok true => (.ok (), r)
      | .ok false =>
        match (Action.write "checkpoint_set" (keep collection next)).exec r with
        | (.ok (), r) => (.ok (),
          { r with
            checkpoints := r.checkpoints.set collection next
            metrics := r.metrics.checkpointPersist collection true })
        | (.error e, r) =>
          (.error e, { r with metrics := r.metrics.checkpointPersist collection false }) := by
  unfold setCheckpoint
  rw [Action.exec_bind, Action.exec_get]
  cases hs : settled (r.checkpoint? collection) next with
  | error e => simp only [hs, Action.exec_throw]
  | ok there =>
    cases there with
    | true => simp only [hs, Action.exec_pure]
    | false =>
      have hk : (fun t : Tables => t.checkpoints.map fun m =>
          ((), { t with checkpoints := some (m.set collection next) })) =
          keep collection next := rfl
      simp only [hs, hk, Action.exec_bind, Action.exec_attempt]
      rcases (Action.write "checkpoint_set" (keep collection next)).exec r with ⟨_ | _, _⟩ <;> rfl

/-- An older checkpoint than the current one is refused, and the same one needs no write. -/
theorem exec_setCheckpoint_of_le (collection : String) {current next : Checkpoint} {r : Replica}
    (hc : r.checkpoint? collection = some current) (h : next ≤ current) :
    (setCheckpoint collection next).exec r =
      (if next = current then .ok ()
        else .error (.invalidState ("checkpoint >= " ++ current.value) next.value), r) := by
  rw [exec_setCheckpoint_eq, hc, settled_of_le h]
  split_ifs <;> rfl

/-- A newer checkpoint is written, or cannot be and nothing changes. -/
theorem exec_setCheckpoint_of_lt (collection : String) {next : Checkpoint} {r : Replica}
    (h : ∀ c, r.checkpoint? collection = some c → c < next) :
    (∃ n m, (setCheckpoint collection next).exec r =
      (.error .persistence, r.written r.database.tables n m)) ∨
    ∃ t n m, r.database.tables.checkpoints = some t ∧
      (setCheckpoint collection next).exec r = (.ok (), r.advanced collection next t n m) := by
  rw [exec_setCheckpoint_eq, settled_of_lt h]
  dsimp only
  rcases Action.exec_write "checkpoint_set" (keep collection next) r with
    ⟨n, m, hw⟩ | ⟨_, _, n, m, hf, hw⟩
  · rw [hw]
    exact .inl ⟨n, m.checkpointPersist collection false, rfl⟩
  · obtain ⟨t, ht, rfl⟩ := keep_eq_some hf
    rw [hw]
    exact .inr ⟨t, n, m.checkpointPersist collection true, ht, rfl⟩

/-- Moving a checkpoint fails and changes no checkpoint, or finds it there, or moves it. -/
theorem exec_setCheckpoint (collection : String) (next : Checkpoint) (r : Replica) :
    (∃ e n m, (setCheckpoint collection next).exec r =
      (.error e, r.written r.database.tables n m)) ∨
    (r.checkpoint? collection = some next ∧ (setCheckpoint collection next).exec r = (.ok (), r)) ∨
    ∃ t n m, r.database.tables.checkpoints = some t ∧
      (setCheckpoint collection next).exec r = (.ok (), r.advanced collection next t n m) := by
  by_cases hlt : ∀ c, r.checkpoint? collection = some c → c < next
  · rcases exec_setCheckpoint_of_lt collection hlt with ⟨n, m, he⟩ | ⟨t, n, m, ht, he⟩
    · exact .inl ⟨_, n, m, he⟩
    · exact .inr (.inr ⟨t, n, m, ht, he⟩)
  · push Not at hlt
    obtain ⟨current, hc, hle⟩ := hlt
    have he := exec_setCheckpoint_of_le collection hc hle
    split_ifs at he with heq
    · exact .inr (.inl ⟨hc.trans (congrArg some heq.symm), he⟩)
    · exact .inl ⟨_, r.database.attempts, r.metrics, he⟩

/-- A checkpoint that can be written moves forward. -/
theorem exec_setCheckpoint_admitted (collection : String) {next : Checkpoint} {r : Replica}
    {t : KeyMap String Checkpoint} (hr : r.Admits) (ht : r.database.tables.checkpoints = some t)
    (h : ∀ c, r.checkpoint? collection = some c → c < next) :
    ∃ n m, (setCheckpoint collection next).exec r = (.ok (), r.advanced collection next t n m) := by
  obtain ⟨n, m, hw⟩ := Action.exec_write_admitted "checkpoint_set" hr
    (keep_of_some collection next ht)
  refine ⟨n, m.checkpointPersist collection true, ?_⟩
  rw [exec_setCheckpoint_eq, settled_of_lt h]
  dsimp only
  rw [hw]
  rfl

/-! ## Forgetting a checkpoint -/

/-- The write that forgets a checkpoint in the table. -/
def forget (collection : String) (t : Tables) : Option (Unit × Tables) :=
  t.checkpoints.map fun m => ((), { t with checkpoints := some (m.erase collection) })

/-- The replica with the checkpoint of a collection forgotten, in the table and in memory. -/
def forgotten (r : Replica) (collection : String) (t : KeyMap String Checkpoint) (n : Nat)
    (m : Metrics) : Replica :=
  { r.written { r.database.tables with checkpoints := some (t.erase collection) } n m with
    checkpoints := r.checkpoints.erase collection }

theorem exec_deleteCheckpoint_eq (collection : String) (r : Replica) :
    (deleteCheckpoint collection).exec r =
      match (Action.write "checkpoint_delete" (forget collection)).exec r with
      | (.ok (), r) => (.ok (), { r with checkpoints := r.checkpoints.erase collection })
      | (.error e, r) => (.error e, r) := by
  have hf : (fun t : Tables => t.checkpoints.map fun m =>
      ((), { t with checkpoints := some (m.erase collection) })) = forget collection := rfl
  unfold deleteCheckpoint
  rw [Action.exec_bind, hf]
  rcases (Action.write "checkpoint_delete" (forget collection)).exec r with ⟨_ | _, _⟩ <;> rfl

/-- Forgetting a checkpoint fails and changes no checkpoint, or forgets it in both places. -/
theorem exec_deleteCheckpoint (collection : String) (r : Replica) :
    (∃ e n m, (deleteCheckpoint collection).exec r =
      (.error e, r.written r.database.tables n m)) ∨
    ∃ t n m, r.database.tables.checkpoints = some t ∧
      (deleteCheckpoint collection).exec r = (.ok (), r.forgotten collection t n m) := by
  rw [exec_deleteCheckpoint_eq]
  rcases Action.exec_write "checkpoint_delete" (forget collection) r with
    ⟨n, m, hw⟩ | ⟨_, _, n, m, hf, hw⟩
  · rw [hw]
    exact .inl ⟨.persistence, n, m, rfl⟩
  · obtain ⟨t, ht, he⟩ := Option.map_eq_some_iff.1 hf
    obtain rfl := (Prod.mk.inj he).2
    rw [hw]
    exact .inr ⟨t, n, m, ht, rfl⟩

section forgotten

variable (r : Replica) (collection : String) (t : KeyMap String Checkpoint) (n : Nat) (m : Metrics)

@[simp] theorem forgotten_documents : (r.forgotten collection t n m).documents = r.documents := rfl

@[simp] theorem forgotten_outbox :
    (r.forgotten collection t n m).database.tables.outbox = r.database.tables.outbox := rfl

@[simp] theorem forgotten_kept : (r.forgotten collection t n m).database.tables.checkpoints =
    some (t.erase collection) := rfl

@[simp] theorem forgotten_closed :
    (r.forgotten collection t n m).database.closed = r.database.closed := rfl

@[simp] theorem checkpoint?_forgotten (other : String) :
    (r.forgotten collection t n m).checkpoint? other =
      if collection = other then none else r.checkpoint? other :=
  KeyMap.get?_erase _ _ _

@[simp] theorem persisted?_forgotten (other : String) :
    (r.forgotten collection t n m).persisted? other =
      if collection = other then none else t.get? other :=
  KeyMap.get?_erase _ _ _

end forgotten

theorem Synced.forgotten {r : Replica} (h : r.Synced) {t : KeyMap String Checkpoint}
    (ht : r.database.tables.checkpoints = some t) (collection : String) (n : Nat) (m : Metrics) :
    (r.forgotten collection t n m).Synced := by
  intro other
  rw [checkpoint?_forgotten, persisted?_forgotten, h other, persisted?, ht, Option.bind_some]

end Replication.Replica
