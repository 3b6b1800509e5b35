import Replication.Metrics

/-!
# The counter of given up mutations

Counting changes one counter and no other. Of all that the engine counts, only the giving up of
mutations is counted as such.
-/

namespace Replication.Metrics

theorem lookup_alter {κ α : Type} [DecidableEq κ] (key k : κ) (f : Option α → α)
    (l : List (κ × α)) :
    (alter key f l).lookup k = if k = key then some (f (l.lookup key)) else l.lookup k := by
  induction l with
  | nil =>
    unfold alter
    by_cases hk : k = key
    · simp [hk]
    · simp [List.lookup_cons, beq_eq_false_iff_ne.2 hk, hk]
  | cons x l ih =>
    obtain ⟨k', v⟩ := x
    unfold alter
    by_cases hk' : k' = key
    · subst hk'
      by_cases hk : k = k'
      · simp [hk]
      · simp [List.lookup_cons, beq_eq_false_iff_ne.2 hk, hk]
    · have hkey : (key == k') = false := beq_eq_false_iff_ne.2 (Ne.symm hk')
      rw [if_neg hk', List.lookup_cons, List.lookup_cons, List.lookup_cons, hkey, ih]
      by_cases hk : k = k'
      · subst hk
        simp [hk']
      · simp [beq_eq_false_iff_ne.2 hk]

theorem counter_count (m : Metrics) (name : String) (labels : List (String × String)) (n : Nat)
    (i : Instrument) :
    (m.count name labels n).counter i =
      if i = ⟨name, labels⟩ then m.counter i + n else m.counter i := by
  unfold counter count
  rw [lookup_alter]
  by_cases h : i = ⟨name, labels⟩
  · rw [if_pos h, if_pos h, h]
    rfl
  · rw [if_neg h, if_neg h]

/-- How many mutations of a collection were counted as given up. -/
def deadLetters (m : Metrics) (collection : String) : Nat :=
  m.counter ⟨"replication_dead_lettered_total", [("collection", collection)]⟩

@[simp] theorem deadLetters_deadLettered (m : Metrics) (collection : String) (n : Nat)
    (c : String) :
    (m.deadLettered collection n).deadLetters c =
      if c = collection then m.deadLetters c + n else m.deadLetters c := by
  unfold deadLetters deadLettered
  rw [counter_count]
  simp

/-- Other counters do not count given up mutations. -/
theorem deadLetters_count (m : Metrics) {name : String} (labels : List (String × String)) (n : Nat)
    (h : name ≠ "replication_dead_lettered_total") :
    (m.count name labels n).deadLetters = m.deadLetters := by
  funext c
  unfold deadLetters
  rw [counter_count, if_neg]
  intro hi
  exact h (Instrument.mk.inj hi).1.symm

@[simp] theorem deadLetters_timing (m : Metrics) (name : String)
    (labels : List (String × String)) : (m.timing name labels).deadLetters = m.deadLetters := rfl

section others

variable (m : Metrics) (collection : String)

@[simp] theorem deadLetters_writeRetry (operation : String) :
    (m.writeRetry operation).deadLetters = m.deadLetters :=
  m.deadLetters_count _ _ (by decide)

@[simp] theorem deadLetters_checkpointPersist (success : Bool) :
    (m.checkpointPersist collection success).deadLetters = m.deadLetters :=
  m.deadLetters_count _ _ (by decide)

@[simp] theorem deadLetters_applyFailure :
    (m.applyFailure collection).deadLetters = m.deadLetters :=
  m.deadLetters_count _ _ (by decide)

@[simp] theorem deadLetters_outboxEnqueued :
    (m.outboxEnqueued collection).deadLetters = m.deadLetters :=
  m.deadLetters_count _ _ (by decide)

@[simp] theorem deadLetters_outboxDepth (depth : Nat) :
    (m.outboxDepth collection depth).deadLetters = m.deadLetters := rfl

@[simp] theorem deadLetters_pushPass (accepted rejected : Nat) :
    (m.pushPass collection accepted rejected).deadLetters = m.deadLetters := by
  unfold pushPass
  rw [deadLetters_timing]
  split
  · rw [deadLetters_count _ _ _ (by decide), deadLetters_count _ _ _ (by decide),
      deadLetters_count _ _ _ (by decide)]
  · rw [deadLetters_count _ _ _ (by decide), deadLetters_count _ _ _ (by decide)]

end others

end Replication.Metrics
