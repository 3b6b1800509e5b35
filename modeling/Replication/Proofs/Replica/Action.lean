import Replication.Replica.Outbox

/-!
# How actions run

The equations of `Action.exec`, one for each way in which actions are built, and what a write to
the tables comes to: it is refused and leaves the tables as they are, or it is done as a whole
(`exec_write`). Whatever a write does, it counts attempts and retries and touches nothing else of
the replica but the tables.
-/

namespace Replication

namespace Replica

/-- The replica after an attempt to write: other tables, attempts and counters. -/
def written (r : Replica) (tables : Tables) (attempts : Nat) (metrics : Metrics) : Replica :=
  { r with metrics, database := { r.database with tables, attempts } }

section written

variable (r : Replica) (t : Tables) (n : Nat) (m : Metrics)

@[simp] theorem written_tables : (r.written t n m).database.tables = t := rfl
@[simp] theorem written_closed : (r.written t n m).database.closed = r.database.closed := rfl
@[simp] theorem written_locked : (r.written t n m).database.locked = r.database.locked := rfl
@[simp] theorem written_documents : (r.written t n m).documents = r.documents := rfl
@[simp] theorem written_checkpoints : (r.written t n m).checkpoints = r.checkpoints := rfl

end written

/-- Nothing stops a write: the database is open and nobody else holds its lock. -/
structure Free (r : Replica) : Prop where
  opened : r.database.closed = false
  unlocked : ∀ n, r.database.locked n = false

/-- The next write gets through, if need be after it was tried again. -/
structure Admits (r : Replica) : Prop where
  opened : r.database.closed = false
  granted :
    (Database.acquire r.database.locked Database.maxAttempts r.database.attempts).1 = true

/-- Every write gets through: the lock is never held for as long as a write tries. -/
structure Writable (r : Replica) : Prop where
  opened : r.database.closed = false
  granted : ∀ n, (Database.acquire r.database.locked Database.maxAttempts n).1 = true

theorem Writable.admits {r : Replica} (h : r.Writable) : r.Admits := ⟨h.opened, h.granted _⟩

theorem Free.writable {r : Replica} (h : r.Free) : r.Writable where
  opened := h.opened
  granted n := by simp [Database.acquire, Database.maxAttempts, h.unlocked]

end Replica

namespace Action

variable {α β : Type}

@[simp] theorem exec_pure (x : α) (r : Replica) : (pure x : Action α).exec r = (.ok x, r) := rfl

@[simp] theorem exec_throw (e : SyncError) (r : Replica) :
    (throw e : Action α).exec r = (.error e, r) := rfl

@[simp] theorem exec_bind (a : Action α) (f : α → Action β) (r : Replica) :
    (a >>= f).exec r = match a.exec r with
      | (.ok x, r) => (f x).exec r
      | (.error e, r) => (.error e, r) := by
  change StateT.run (ExceptT.run (a >>= f)) r = _
  unfold exec
  rw [ExceptT.run_bind, StateT.run_bind]
  rcases StateT.run (ExceptT.run a) r with ⟨_ | _, _⟩ <;> rfl

/-- An action made of two succeeds if both do. -/
theorem exec_bind_eq_ok {a : Action α} {f : α → Action β} {r r' : Replica} {y : β}
    (h : (a >>= f).exec r = (.ok y, r')) :
    ∃ x r₁, a.exec r = (.ok x, r₁) ∧ (f x).exec r₁ = (.ok y, r') := by
  rw [exec_bind] at h
  rcases ha : a.exec r with ⟨e | x, r₁⟩
  · rw [ha] at h
    cases h
  · rw [ha] at h
    exact ⟨x, r₁, rfl, h⟩

@[simp] theorem exec_get (r : Replica) : (get : Action Replica).exec r = (.ok r, r) := rfl

@[simp] theorem exec_set (s r : Replica) : (set s : Action PUnit).exec r = (.ok ⟨⟩, s) := rfl

@[simp] theorem exec_modify (f : Replica → Replica) (r : Replica) :
    (modify f : Action PUnit).exec r = (.ok ⟨⟩, f r) := rfl

@[simp] theorem exec_measure (f : Metrics → Metrics) (r : Replica) :
    (measure f).exec r = (.ok (), { r with metrics := f r.metrics }) := rfl

@[simp] theorem exec_attempt (a : Action α) (r : Replica) :
    (attempt a).exec r = (.ok (a.exec r).1, (a.exec r).2) := rfl

@[simp] theorem exec_ite (p : Prop) [Decidable p] (a b : Action α) (r : Replica) :
    (if p then a else b).exec r = if p then a.exec r else b.exec r := by
  split <;> rfl

/-! ## Access to the tables -/

theorem exec_query (f : Tables → Option α) (r : Replica) :
    (query f).exec r =
      (if r.database.closed then .error .persistence
        else match f r.database.tables with
          | some x => .ok x
          | none => .error .persistence, r) := by
  unfold query
  rw [exec_bind, exec_get]
  cases h : r.database.closed
  · cases hf : f r.database.tables <;> simp [h, hf]
  · simp [h]

theorem exec_query_ok {f : Tables → Option α} {r : Replica} {x : α}
    (hc : r.database.closed = false) (hf : f r.database.tables = some x) :
    (query f).exec r = (.ok x, r) := by
  simp [exec_query, hc, hf]

/-- A write is refused by a closed database or for want of its table; otherwise it makes attempts,
and is done if one of them gets through. -/
theorem exec_write_eq (operation : String) (f : Tables → Option (α × Tables)) (r : Replica) :
    ∃ m, (write operation f).exec r =
      if r.database.closed then (.error .persistence, r)
      else match f r.database.tables with
        | none => (.error .persistence, r)
        | some (x, t) =>
          let a := Database.acquire r.database.locked Database.maxAttempts r.database.attempts
          let n := r.database.attempts + a.2 + 1
          if a.1 then (.ok x, r.written t n m)
          else (.error .persistence, r.written r.database.tables n m) := by
  let a := Database.acquire r.database.locked Database.maxAttempts r.database.attempts
  refine ⟨(List.range a.2).foldl (fun m _ => m.writeRetry operation) r.metrics, ?_⟩
  unfold write
  rw [exec_bind, exec_get]
  cases hc : r.database.closed with
  | true => simp [hc]
  | false =>
    cases hf : f r.database.tables with
    | none => simp [hc, hf]
    | some xt =>
      simp only [Replica.written, hc, hf, Bool.false_eq_true, if_false, exec_bind, exec_pure,
        exec_ite, exec_set, exec_throw]
      rfl

/-- A write that is allowed goes through or not, as the lock has it. -/
theorem exec_write_some {f : Tables → Option (α × Tables)} {r : Replica} {x : α} {t : Tables}
    (operation : String) (hc : r.database.closed = false) (hf : f r.database.tables = some (x, t)) :
    ∃ n m, (write operation f).exec r =
      if (Database.acquire r.database.locked Database.maxAttempts r.database.attempts).1 then
        (.ok x, r.written t n m)
      else (.error .persistence, r.written r.database.tables n m) := by
  obtain ⟨m, he⟩ := exec_write_eq operation f r
  rw [hc, hf] at he
  exact ⟨_, m, he⟩

/-- A write is done as a whole, or it is refused and the tables stay as they are. -/
theorem exec_write (operation : String) (f : Tables → Option (α × Tables)) (r : Replica) :
    (∃ n m, (write operation f).exec r =
      (.error .persistence, r.written r.database.tables n m)) ∨
    ∃ x t n m, f r.database.tables = some (x, t) ∧
      (write operation f).exec r = (.ok x, r.written t n m) := by
  obtain ⟨m, he⟩ := exec_write_eq operation f r
  rw [he]
  split
  · exact .inl ⟨r.database.attempts, r.metrics, rfl⟩
  split
  · exact .inl ⟨r.database.attempts, r.metrics, rfl⟩
  · rename_i x t hf
    dsimp only
    split
    · exact .inr ⟨x, t, _, m, hf, rfl⟩
    · exact .inl ⟨_, m, rfl⟩

/-- Of all counters a write changes only that of its retries. -/
theorem metrics_write (operation : String) (f : Tables → Option (α × Tables)) (r : Replica) :
    ∃ n, ((write operation f).exec r).2.metrics =
      (List.range n).foldl (fun m _ => m.writeRetry operation) r.metrics := by
  unfold write
  rw [exec_bind, exec_get]
  cases hc : r.database.closed with
  | true =>
    refine ⟨0, ?_⟩
    simp [hc]
  | false =>
    cases hf : f r.database.tables with
    | none =>
      refine ⟨0, ?_⟩
      simp [hc, hf]
    | some xt =>
      refine ⟨(Database.acquire r.database.locked Database.maxAttempts r.database.attempts).2, ?_⟩
      simp only [hc, hf, Bool.false_eq_true, if_false, exec_bind, exec_pure, exec_ite, exec_set,
        exec_throw]
      split <;> rfl

/-- A write that gets through is done. -/
theorem exec_write_admitted {f : Tables → Option (α × Tables)} {r : Replica} {x : α} {t : Tables}
    (operation : String) (h : r.Admits) (hf : f r.database.tables = some (x, t)) :
    ∃ n m, (write operation f).exec r = (.ok x, r.written t n m) := by
  obtain ⟨n, m, he⟩ := exec_write_some operation h.opened hf
  exact ⟨n, m, by rw [he, if_pos h.granted]⟩

/-- A write to the tables that is not admitted, or whose table is missing, changes none. -/
theorem exec_write_refused (operation : String) {f : Tables → Option (α × Tables)} {r : Replica}
    (h : ¬(r.Admits ∧ (f r.database.tables).isSome = true)) :
    ∃ n m, (write operation f).exec r =
      (.error .persistence, r.written r.database.tables n m) := by
  obtain ⟨m, he⟩ := exec_write_eq operation f r
  rw [he]
  by_cases hc : r.database.closed = true
  · rw [if_pos hc]
    exact ⟨r.database.attempts, r.metrics, rfl⟩
  rw [if_neg hc]
  cases hf : f r.database.tables with
  | none => exact ⟨r.database.attempts, r.metrics, rfl⟩
  | some xt =>
    have hlock : ¬(Database.acquire r.database.locked Database.maxAttempts
        r.database.attempts).1 = true := by
      intro hthrough
      exact h ⟨⟨Bool.eq_false_iff.2 hc, hthrough⟩, by rw [hf]; rfl⟩
    dsimp only
    rw [if_neg hlock]
    exact ⟨_, m, rfl⟩

/-! ## Changes to the documents -/

theorem exec_applyChange (collection : String) (c : Change) (r : Replica) :
    ∃ m, (applyChange collection c).exec r =
      (.ok (r.documents.apply collection c).1,
        { r with documents := (r.documents.apply collection c).2, metrics := m }) := by
  unfold applyChange
  rw [exec_bind, exec_get]
  simp only [exec_bind, exec_set, exec_ite, exec_measure, exec_pure]
  split
  · exact ⟨_, rfl⟩
  · exact ⟨r.metrics, rfl⟩

end Action

end Replication
