import Mathlib.Data.List.Perm.Basic
import Replication.Proofs.Push.Reconcile
import Replication.Proofs.Tables.Buried

/-!
# What an answer makes of each mutation

An answer to sent mutations takes some of them and misses the others (`PushAnswer.misses`). If every
write gets through and the answer names no mutation twice, each row of a missed mutation is struck
once (`Row.strike`), those of taken ones leave, and all others stay (`Rows.delivered`,
`Reconcile.exec_apply_writable`).

So each sent mutation is accounted for once (`Accounted`), just when no mutation is named twice and
the counts of the missed ones can be read back as they are (`Replica.pushBatch_accounted_iff`).
-/

namespace Replication

namespace PushAnswer

variable {a : PushAnswer} {sent : List Mutation}

/-- The sent mutations that an answer does not take, each with the reason. -/
def misses (a : PushAnswer) (sent : List Mutation) : List (String × String) :=
  (a.refused sent).map (fun r => (r.id, r.reason)) ++
    (a.unanswered sent).map fun id => (id, Reconcile.unansweredReason)

/-- The sent mutations that an answer names. -/
def named (a : PushAnswer) (sent : List Mutation) : List String :=
  a.taken sent ++ (a.refused sent).map Rejection.id

theorem map_fst_misses (a : PushAnswer) (sent : List Mutation) :
    (a.misses sent).map Prod.fst = (a.refused sent).map Rejection.id ++ a.unanswered sent := by
  unfold misses
  rw [List.map_append, List.map_map, List.map_map]
  simp [Function.comp_def]

theorem eraseDups_of_nodup {ids : List String} (h : ids.Nodup) : ids.eraseDups = ids := by
  induction ids with
  | nil => rfl
  | cons id ids ih =>
    rw [List.nodup_cons] at h
    have hfilter : ids.filter (fun x => !x == id) = ids := by
      refine List.filter_eq_self.2 fun x hx => ?_
      simpa using fun hxid : x = id => h.1 (hxid ▸ hx)
    rw [List.eraseDups_cons, hfilter, ih h.2]

theorem mem_unanswered {id : String} :
    id ∈ a.unanswered sent ↔ id ∈ sent.map Mutation.id ∧ id ∉ a.named sent := by
  unfold unanswered named
  simp [List.mem_mergeSort, List.mem_eraseDups, List.mem_filter]

theorem mem_sent_of_named {id : String} (h : id ∈ a.named sent) : id ∈ sent.map Mutation.id := by
  rcases List.mem_append.1 h with h | h
  · exact Reconcile.mem_sent_of_taken h
  · exact Reconcile.mem_sent_of_refused h

/-- What an answer names and what it is silent about are the sent mutations, each once if it names
none twice. -/
theorem perm_sent (hs : (sent.map Mutation.id).Nodup) (hn : (a.named sent).Nodup) :
    (a.named sent ++ a.unanswered sent).Perm (sent.map Mutation.id) := by
  have hu : (a.unanswered sent).Nodup := by
    unfold unanswered
    dsimp only
    rw [(List.mergeSort_perm _ _).nodup_iff, eraseDups_of_nodup hs]
    exact hs.filter _
  have hnodup : (a.named sent ++ a.unanswered sent).Nodup :=
    List.nodup_append.2 ⟨hn, hu, fun x hx y hy hxy => (mem_unanswered.1 hy).2 (hxy ▸ hx)⟩
  refine (List.perm_ext_iff_of_nodup hnodup hs).2 fun id => ?_
  rw [List.mem_append, mem_unanswered]
  constructor
  · exact fun hid => hid.elim mem_sent_of_named And.left
  · intro hid
    by_cases h : id ∈ a.named sent
    · exact .inl h
    · exact .inr ⟨hid, h⟩

/-- Of the sent mutations those that are not taken are missed, each once. -/
theorem nodup_misses (hs : (sent.map Mutation.id).Nodup) (hn : (a.named sent).Nodup) :
    ((a.misses sent).map Prod.fst).Nodup := by
  have h := (perm_sent hs hn).nodup_iff.2 hs
  rw [named, List.append_assoc, ← map_fst_misses] at h
  exact h.of_append_right

theorem mem_misses_iff (hs : (sent.map Mutation.id).Nodup) (hn : (a.named sent).Nodup)
    {id : String} :
    id ∈ (a.misses sent).map Prod.fst ↔ id ∈ sent.map Mutation.id ∧ id ∉ a.taken sent := by
  have hperm := perm_sent hs hn
  have hnodup := hperm.nodup_iff.2 hs
  rw [named, List.append_assoc, ← map_fst_misses] at hperm hnodup
  rw [← hperm.mem_iff, List.mem_append]
  constructor
  · intro h
    exact ⟨.inr h, fun ht => (List.nodup_append.1 hnodup).2.2 id ht id h rfl⟩
  · rintro ⟨h | h, ht⟩
    · exact absurd h ht
    · exact h

end PushAnswer

/-! ## Rows -/

namespace Row

/-- A pending row after a failed delivery: it is given up if that was one too many. -/
def strike (maxRetries : Nat) (reason : String) (r : Row) : Row :=
  { r with
    retries := r.retries + 1
    lastError := some reason
    failed := decide (maxRetries < reported (r.retries + 1)) }

/-- A row after failed deliveries of some mutations, each with its reason. -/
def struckBy (maxRetries : Nat) (misses : List (String × String)) (r : Row) : Row :=
  if r.failed then r
  else match misses.lookup r.id with
    | some reason => r.strike maxRetries reason
    | none => r

variable {maxRetries : Nat} {misses : List (String × String)} {r : Row}

@[simp] theorem strike_id (maxRetries : Nat) (reason : String) (r : Row) :
    (r.strike maxRetries reason).id = r.id := rfl

@[simp] theorem queued_struckBy (maxRetries : Nat) (misses : List (String × String)) (r : Row) :
    (r.struckBy maxRetries misses).queued = r.queued := by
  unfold struckBy
  split
  · rfl
  · split <;> rfl

@[simp] theorem id_struckBy (maxRetries : Nat) (misses : List (String × String)) (r : Row) :
    (r.struckBy maxRetries misses).id = r.id := id_of_queued (r.queued_struckBy maxRetries misses)

theorem struckBy_of_failed (h : r.failed = true) : r.struckBy maxRetries misses = r := by
  rw [struckBy, if_pos h]

theorem lookup_eq_none_of_not_mem {id : String} (h : id ∉ misses.map Prod.fst) :
    misses.lookup id = none := by
  refine List.lookup_eq_none_iff.2 fun p hp => ?_
  simpa using fun he : id = p.1 => h (he ▸ List.mem_map_of_mem hp)

theorem struckBy_of_none (h : misses.lookup r.id = none) : r.struckBy maxRetries misses = r := by
  rw [struckBy, h]
  split <;> rfl

theorem struckBy_of_not_mem (h : r.id ∉ misses.map Prod.fst) :
    r.struckBy maxRetries misses = r := struckBy_of_none (lookup_eq_none_of_not_mem h)

theorem struckBy_of_some {reason : String} (hf : r.failed = false)
    (h : misses.lookup r.id = some reason) :
    r.struckBy maxRetries misses = r.strike maxRetries reason := by
  rw [struckBy, h, if_neg (by simp [hf])]

/-- The failed deliveries of different mutations come one after the other. -/
theorem struckBy_cons {id reason : String} (h : id ∉ misses.map Prod.fst) :
    (if r.failed = false ∧ r.id = id then r.strike maxRetries reason else r).struckBy maxRetries
      misses = r.struckBy maxRetries ((id, reason) :: misses) := by
  cases hf : r.failed with
  | true => simp [struckBy, hf]
  | false =>
    by_cases hid : r.id = id
    · subst hid
      rw [if_pos ⟨rfl, rfl⟩, struckBy_of_not_mem (by simpa using h)]
      simp [struckBy, hf]
    · have hne : (r.id == id) = false := by simpa using hid
      simp [struckBy, hf, hid, hne, List.lookup_cons]

end Row

namespace Rows

variable {rows : Rows}

theorem pendingRow?_eq (hu : rows.Unique) {row : Row} (hrow : row ∈ rows)
    (hf : row.failed = false) : rows.pendingRow? row.id = some row := by
  have hw : (rows.pendingRow? row.id).isSome = true :=
    pendingRow?_isSome_iff.2 ⟨row, hrow, hf, rfl⟩
  obtain ⟨row', he⟩ := Option.isSome_iff_exists.1 hw
  have hp := List.find?_some he
  simp only [Bool.and_eq_true, beq_iff_eq] at hp
  rw [he, hu.eq (List.mem_of_find?_eq_some he) hrow hp.2]

/-- Rows after an answer to sent mutations. -/
def delivered (rows : Rows) (maxRetries : Nat) (sent : List Mutation) (a : PushAnswer) : Rows :=
  (rows.acknowledge (a.taken sent)).2.map (Row.struckBy maxRetries (a.misses sent))

/-- Each of these mutations waits in a row that can be read. -/
def Sendable (rows : Rows) (ids : List String) : Prop :=
  ∀ id ∈ ids, ∃ row ∈ rows, row.failed = false ∧ row.id = id ∧ row.Readable

/-- The counts of these mutations can be read back when they have grown. -/
def Countable (rows : Rows) (ids : List String) : Prop :=
  ∀ row ∈ rows, row.failed = false → row.id ∈ ids → Row.countable (row.retries + 1) = true

/-- What is changed for one mutation leaves the rows of others. -/
theorem mem_alterPending_of_ne {row : Row} {id : String} {f : Row → Row}
    (hf : ∀ row, (f row).id = row.id) (h : row.id ≠ id) :
    row ∈ rows.alterPending id f ↔ row ∈ rows := by
  rw [alterPending_eq, List.mem_map]
  constructor
  · rintro ⟨row', hrow', rfl⟩
    split_ifs at h ⊢ with hp
    · exact absurd ((hf row').trans hp.2) h
    · exact hrow'
  · exact fun hrow => ⟨row, hrow, if_neg fun hp => h hp.2⟩

section others

variable {id : String} {ids : List String} (hid : id ∉ ids) {f : Row → Row}
  (hf : ∀ row, (f row).id = row.id)

include hf

theorem Unique.alterPending (hu : rows.Unique) (id : String) :
    (rows.alterPending id f).Unique := by
  have hids : (rows.alterPending id f).map Row.id = rows.map Row.id := by
    rw [alterPending_eq, List.map_map]
    refine List.map_congr_left fun row _ => ?_
    dsimp only [Function.comp_apply]
    split_ifs
    · exact hf row
    · rfl
  rw [Unique, hids]
  exact hu

include hid

theorem Sendable.alterPending (h : rows.Sendable ids) : (rows.alterPending id f).Sendable ids := by
  intro id' hid'
  obtain ⟨row, hrow, hp, rfl, hread⟩ := h id' hid'
  have hne : row.id ≠ id := fun he => hid (by rwa [he] at hid')
  exact ⟨row, (mem_alterPending_of_ne hf hne).2 hrow, hp, rfl, hread⟩

theorem countable_alterPending_iff :
    (rows.alterPending id f).Countable ids ↔ rows.Countable ids := by
  have hmem (row : Row) (hrow : row.id ∈ ids) : row ∈ rows.alterPending id f ↔ row ∈ rows :=
    mem_alterPending_of_ne hf fun he => hid (by rwa [he] at hrow)
  exact ⟨fun h row hrow hp hid => h row ((hmem row hid).2 hrow) hp hid,
    fun h row hrow hp hid => h row ((hmem row hid).1 hrow) hp hid⟩

end others

/-- Two changes of the pending row of a mutation, of which the first leaves it pending. -/
theorem alterPending_alterPending (id : String) (f g : Row → Row)
    (hf : ∀ row, (f row).failed = row.failed) (hid : ∀ row, (f row).id = row.id) :
    alterPending (rows.alterPending id f) id g = rows.alterPending id (g ∘ f) := by
  rw [alterPending_eq, alterPending_eq, alterPending_eq, List.map_map]
  refine List.map_congr_left fun row _ => ?_
  by_cases h : row.failed = false ∧ row.id = id
  · simp [h, hf, hid]
  · simp [h]

/-- Changes that agree on the pending row of a mutation. -/
theorem alterPending_congr (hu : rows.Unique) {row : Row} (hrow : row ∈ rows) {f g : Row → Row}
    (h : f row = g row) : rows.alterPending row.id f = rows.alterPending row.id g := by
  rw [alterPending_eq, alterPending_eq]
  refine List.map_congr_left fun row' hrow' => ?_
  split_ifs with hp
  · rw [hu.eq hrow' hrow hp.2, h]
  · rfl

end Rows

/-! ## Reconciling where every write gets through -/

namespace Replica

variable {r : Replica} {rows : Rows} {row : Row}

/-- A failed delivery is counted, and the new count is given if it can be read back. -/
theorem exec_requeue_admitted {id : String} (reason : String) (hr : r.Admits)
    (h : r.rows? = some rows) (hp : rows.pendingRow? id = some row) :
    ∃ r', r.Alike r' ∧ r'.rows? = some (rows.alterPending id (Rows.recordFailure reason)) ∧
      (requeue id reason).exec r =
        (if Row.countable (row.retries + 1) then .ok (some (Row.reported (row.retries + 1)))
          else .error .persistence, r') := by
  obtain ⟨r', hr', hw, hrows⟩ :=
    exec_write_change_admitted "outbox_requeue" (·.requeue id reason) hr h
  refine ⟨r', hr', hrows, ?_⟩
  rw [requeue_eq, Action.exec_bind, hw]
  simp only [Rows.requeue, hp, Option.map_some, Action.exec_ite]
  split <;> simp_all [Rows.recordFailure]

/-- A mutation that can be read is given up. -/
theorem exec_markFailed_admitted {id : String} (reason : String) (hr : r.Admits)
    (h : r.rows? = some rows) (hp : rows.pendingRow? id = some row) (hread : row.Readable)
    (hn : Row.countable row.retries = true) :
    ∃ dead r', r.Alike r' ∧ r'.rows? = some (rows.alterPending id (Rows.giveUp reason)) ∧
      (markFailed id reason).exec r = (.ok dead, r') := by
  obtain ⟨r', hr', hw, hrows⟩ :=
    exec_write_change_admitted "outbox_mark_failed" (·.markFailed id reason) hr h
  obtain ⟨m, hm⟩ : (Rows.giveUp reason row).Readable := .of_queued rfl hread
  have hdecode : decode Row.failure [Rows.giveUp reason row] = .ok [⟨m, reason⟩] := by
    refine decode_eq_ok.2 ⟨by simpa [Rows.giveUp] using hn, .cons ?_ .nil⟩
    exact Row.failure_of_mutation hm
  refine ⟨some ⟨m, reason⟩, r', hr', hrows, ?_⟩
  rw [markFailed_eq, Action.exec_bind, hw]
  simp only [Rows.markFailed, hp, Option.map_some, Option.toList_some, Action.exec_bind, exec_lift,
    hdecode]
  rfl

end Replica

namespace Reconcile

variable {r : Replica} {rows : Rows} {row : Row}

/-- A failed delivery strikes the row of its mutation. -/
theorem exec_recordFailure_writable (maxRetries : Nat) (reason : String) (hr : r.Writable)
    (h : r.rows? = some rows) (hu : rows.Unique) (hrow : row ∈ rows) (hf : row.failed = false)
    (hread : row.Readable) (hn : Row.countable (row.retries + 1) = true) :
    ∃ dead r', r.Alike r' ∧
      r'.rows? = some (rows.alterPending row.id (Row.strike maxRetries reason)) ∧
      (recordFailure maxRetries row.id reason).exec r = (.ok dead, r') := by
  obtain ⟨r₁, hr₁, hrows₁, he₁⟩ :=
    Replica.exec_requeue_admitted reason hr.admits h (Rows.pendingRow?_eq hu hrow hf)
  rw [if_pos hn] at he₁
  unfold recordFailure
  simp only [Action.exec_bind, he₁, Action.exec_ite]
  by_cases hmax : maxRetries < Row.reported (row.retries + 1)
  · rw [if_pos hmax]
    have hu₁ : (rows.alterPending row.id (Rows.recordFailure reason)).Unique :=
      (Rows.struck_requeue rows row.id reason).unique hu
    have hrow₁ : Rows.recordFailure reason row ∈
        rows.alterPending row.id (Rows.recordFailure reason) := by
      rw [Rows.alterPending_eq]
      exact List.mem_map.2 ⟨row, hrow, if_pos ⟨hf, rfl⟩⟩
    have hp₁ : Rows.pendingRow? (rows.alterPending row.id (Rows.recordFailure reason)) row.id =
        some (Rows.recordFailure reason row) := Rows.pendingRow?_eq hu₁ hrow₁ hf
    obtain ⟨dead, r₂, hr₂, hrows₂, he₂⟩ :=
      Replica.exec_markFailed_admitted reason (hr₁.toSteady.writable hr).admits hrows₁ hp₁
        (Row.Readable.of_queued (by rfl) hread) hn
    refine ⟨dead, r₂, hr₁.trans hr₂, hrows₂.trans ?_, he₂⟩
    rw [Rows.alterPending_alterPending row.id (Rows.recordFailure reason) _ (fun _ => rfl)
      fun _ => rfl]
    refine congrArg some (Rows.alterPending_congr hu hrow ?_)
    simp [Row.strike, Rows.recordFailure, Rows.giveUp, hmax]
  · rw [if_neg hmax]
    refine ⟨none, r₁, hr₁, hrows₁.trans ?_, rfl⟩
    refine congrArg some (Rows.alterPending_congr hu hrow ?_)
    simp [Row.strike, Rows.recordFailure, hmax, hf]

/-- A failed delivery cannot be counted if the new count cannot be read back. -/
theorem countable_of_recordFailure_ok {maxRetries : Nat} {reason : String} {r' : Replica}
    {dead : Option FailedMutation} (hr : r.Writable) (h : r.rows? = some rows) (hu : rows.Unique)
    (hrow : row ∈ rows) (hf : row.failed = false)
    (he : (recordFailure maxRetries row.id reason).exec r = (.ok dead, r')) :
    Row.countable (row.retries + 1) = true := by
  obtain ⟨r₁, -, -, he₁⟩ :=
    Replica.exec_requeue_admitted reason hr.admits h (Rows.pendingRow?_eq hu hrow hf)
  by_contra hn
  rw [if_neg hn] at he₁
  unfold recordFailure at he
  rw [Action.exec_bind, he₁] at he
  cases he

/-- Failed deliveries of different mutations strike the row of each of them. -/
theorem exec_recordFailures_writable (maxRetries : Nat) {misses : List (String × String)}
    (hr : r.Writable) (h : r.rows? = some rows) (hu : rows.Unique)
    (hn : (misses.map Prod.fst).Nodup) (hs : rows.Sendable (misses.map Prod.fst))
    (hc : rows.Countable (misses.map Prod.fst)) :
    ∃ dead r', r.Alike r' ∧ r'.rows? = some (rows.map (Row.struckBy maxRetries misses)) ∧
      (recordFailures maxRetries misses).exec r = (.ok dead, r') := by
  induction misses generalizing r rows with
  | nil =>
    have hsame : rows.map (Row.struckBy maxRetries []) = rows :=
      (List.map_congr_left fun row _ => Row.struckBy_of_not_mem (by simp)).trans (List.map_id rows)
    exact ⟨[], r, r.alike_refl, by rw [hsame, h], rfl⟩
  | cons miss misses ih =>
    obtain ⟨id, reason⟩ := miss
    rw [List.map_cons, List.nodup_cons] at hn
    obtain ⟨row, hrow, hf, rfl, hread⟩ := hs _ List.mem_cons_self
    obtain ⟨dead, r₁, hr₁, hrows₁, he₁⟩ := exec_recordFailure_writable maxRetries reason hr h hu
      hrow hf hread (hc row hrow hf List.mem_cons_self)
    have hs₁ : rows.Sendable (misses.map Prod.fst) := fun id hid => hs id (.tail _ hid)
    have hc₁ : rows.Countable (misses.map Prod.fst) := fun row hrow hf hid =>
      hc row hrow hf (.tail _ hid)
    obtain ⟨rest, r₂, hr₂, hrows₂, he₂⟩ := ih (hr₁.toSteady.writable hr) hrows₁
      (hu.alterPending (Row.strike_id maxRetries reason) _) hn.2
      (hs₁.alterPending hn.1 (Row.strike_id maxRetries reason))
      ((Rows.countable_alterPending_iff hn.1 (Row.strike_id maxRetries reason)).2 hc₁)
    refine ⟨dead.toList ++ rest, r₂, hr₁.trans hr₂, hrows₂.trans (congrArg some ?_), ?_⟩
    · rw [Rows.alterPending_eq, List.map_map]
      exact List.map_congr_left fun row' _ => Row.struckBy_cons hn.1
    · simp only [recordFailures, Action.exec_bind, he₁, he₂]
      rfl

theorem countable_of_recordFailures_ok {maxRetries : Nat} {misses : List (String × String)}
    {dead : List FailedMutation} {r' : Replica} (hr : r.Writable) (h : r.rows? = some rows)
    (hu : rows.Unique) (hn : (misses.map Prod.fst).Nodup)
    (hs : rows.Sendable (misses.map Prod.fst))
    (he : (recordFailures maxRetries misses).exec r = (.ok dead, r')) :
    rows.Countable (misses.map Prod.fst) := by
  induction misses generalizing r r' rows dead with
  | nil => exact fun _ _ _ hid => by cases hid
  | cons miss misses ih =>
    obtain ⟨id, reason⟩ := miss
    rw [List.map_cons, List.nodup_cons] at hn
    obtain ⟨row, hrow, hf, rfl, hread⟩ := hs _ List.mem_cons_self
    obtain ⟨first, r₁, he₁, he⟩ := Action.exec_bind_eq_ok he
    obtain ⟨rest, r₂, he₂, -⟩ := Action.exec_bind_eq_ok he
    have hc := countable_of_recordFailure_ok hr h hu hrow hf he₁
    obtain ⟨_, r₁', hr₁, hrows₁, he₁'⟩ :=
      exec_recordFailure_writable maxRetries reason hr h hu hrow hf hread hc
    obtain rfl := (Prod.mk.inj (he₁.symm.trans he₁')).2
    have hs₁ : rows.Sendable (misses.map Prod.fst) := fun id hid => hs id (.tail _ hid)
    have hc₁ := ih (hr₁.toSteady.writable hr) hrows₁
      (hu.alterPending (Row.strike_id maxRetries reason) _) hn.2
      (hs₁.alterPending hn.1 (Row.strike_id maxRetries reason)) he₂
    rw [Rows.countable_alterPending_iff hn.1 (Row.strike_id maxRetries reason)] at hc₁
    intro row' hrow' hf' hid
    rcases List.mem_cons.1 hid with hid | hid
    · rwa [hu.eq hrow' hrow hid]
    · exact hc₁ row' hrow' hf' hid

theorem recordFailures_append (maxRetries : Nat) (misses misses' : List (String × String)) :
    recordFailures maxRetries (misses ++ misses') = (do
      let dead ← recordFailures maxRetries misses
      let dead' ← recordFailures maxRetries misses'
      return dead ++ dead') := by
  induction misses with
  | nil => simp [recordFailures]
  | cons miss misses ih =>
    simp only [List.cons_append, recordFailures, ih, bind_assoc, pure_bind, List.append_assoc]

/-- Reconciling an answer removes what it takes and counts what it misses. -/
theorem apply_eq (collection : String) (maxRetries : Nat) (sent : List Mutation) (a : PushAnswer) :
    apply collection maxRetries sent a = (do
      let _ ← Replica.acknowledge (a.taken sent)
      let dead ← recordFailures maxRetries (a.misses sent)
      let reconciled ← applyStates collection a.serverState
      announce collection dead
      return ⟨a.taken sent, a.refused sent, dead, reconciled, (a.unanswered sent).length⟩) := by
  simp [apply, PushAnswer.misses, recordFailures_append]

/-- What reconciling reports of an answer. -/
theorem report_of_apply_ok {collection : String} {maxRetries : Nat} {sent : List Mutation}
    {a : PushAnswer} {r' : Replica} {report : PushReport}
    (he : (apply collection maxRetries sent a).exec r = (.ok report, r')) :
    report.accepted = a.taken sent ∧ report.rejected = a.refused sent ∧
      report.unresolved = (a.unanswered sent).length := by
  obtain ⟨_, r₁, -, he⟩ := Action.exec_bind_eq_ok he
  obtain ⟨_, r₂, -, he⟩ := Action.exec_bind_eq_ok he
  obtain ⟨_, r₃, -, he⟩ := Action.exec_bind_eq_ok he
  obtain ⟨_, r₄, -, he⟩ := Action.exec_bind_eq_ok he
  obtain ⟨_, r₅, -, he⟩ := Action.exec_bind_eq_ok he
  obtain ⟨hreport, -⟩ := Prod.mk.inj he
  obtain rfl := Except.ok.inj hreport
  exact ⟨rfl, rfl, rfl⟩

section apply

variable {sent : List Mutation} {a : PushAnswer} (collection : String) (maxRetries : Nat)
  (hr : r.Writable) (h : r.rows? = some rows) (hu : rows.Unique)
  (hids : (sent.map Mutation.id).Nodup) (hn : (a.named sent).Nodup)
  (hs : rows.Sendable (sent.map Mutation.id))

theorem mem_acknowledge {taken : List String} {row : Row} (hf : row.failed = false) :
    row ∈ (rows.acknowledge taken).2 ↔ row ∈ rows ∧ row.id ∉ taken := by
  simp [Rows.acknowledge, Row.pending, hf]

include hids hn hs

/-- What is not taken still waits. -/
theorem sendable_acknowledge :
    Rows.Sendable (rows.acknowledge (a.taken sent)).2 ((a.misses sent).map Prod.fst) := by
  intro id hid
  obtain ⟨hsent, ht⟩ := (PushAnswer.mem_misses_iff hids hn).1 hid
  obtain ⟨row, hrow, hf, rfl, hread⟩ := hs id hsent
  exact ⟨row, (mem_acknowledge hf).2 ⟨hrow, ht⟩, hf, rfl, hread⟩

omit hs in
theorem countable_acknowledge_iff :
    Rows.Countable (rows.acknowledge (a.taken sent)).2 ((a.misses sent).map Prod.fst) ↔
      rows.Countable ((a.misses sent).map Prod.fst) := by
  constructor
  · intro hc row hrow hf hid
    exact hc row ((mem_acknowledge hf).2
      ⟨hrow, ((PushAnswer.mem_misses_iff hids hn).1 hid).2⟩) hf hid
  · intro hc row hrow hf hid
    exact hc row ((mem_acknowledge hf).1 hrow).1 hf hid

include hr h hu

/-- An answer that names no mutation twice strikes each row that it misses once, if the new counts
can be read back. -/
theorem exec_apply_writable (hc : rows.Countable ((a.misses sent).map Prod.fst)) :
    ∃ report r', r.Steady r' ∧ r'.rows? = some (rows.delivered maxRetries sent a) ∧
      (apply collection maxRetries sent a).exec r = (.ok report, r') := by
  obtain ⟨r₁, hr₁, he₁, hrows₁⟩ := Replica.exec_acknowledge_admitted (a.taken sent) hr.admits h
  have hu₁ : (rows.acknowledge (a.taken sent)).2.Unique :=
    (List.filter_sublist.map Row.id).nodup hu
  obtain ⟨dead, r₂, hr₂, hrows₂, he₂⟩ := exec_recordFailures_writable maxRetries
    (hr₁.toSteady.writable hr) hrows₁ hu₁ (PushAnswer.nodup_misses hids hn)
    (sendable_acknowledge hids hn hs) ((countable_acknowledge_iff hids hn).2 hc)
  obtain ⟨n, m, he₃⟩ := exec_applyStates collection a.serverState r₂
  obtain ⟨f, m', he₄⟩ := exec_announce collection dead
    { r₂ with documents := r₂.documents.applyAll collection a.serverState, metrics := m }
  have hr₁₂ := hr₁.trans hr₂
  rw [apply_eq]
  simp only [Action.exec_bind, he₁, he₂, he₃, he₄]
  refine ⟨_, _, ?_, ?_, rfl⟩
  · exact ⟨hr₁₂.kept, hr₁₂.closed, hr₁₂.locked, hr₁₂.handed⟩
  · exact hrows₂

theorem countable_of_apply_ok {report : PushReport} {r' : Replica}
    (he : (apply collection maxRetries sent a).exec r = (.ok report, r')) :
    rows.Countable ((a.misses sent).map Prod.fst) := by
  obtain ⟨r₁, hr₁, he₁, hrows₁⟩ := Replica.exec_acknowledge_admitted (a.taken sent) hr.admits h
  have hu₁ : (rows.acknowledge (a.taken sent)).2.Unique :=
    (List.filter_sublist.map Row.id).nodup hu
  rw [apply_eq] at he
  obtain ⟨_, r₁', he₁', he⟩ := Action.exec_bind_eq_ok he
  obtain rfl := (Prod.mk.inj (he₁.symm.trans he₁')).2
  obtain ⟨dead, r₂, he₂, -⟩ := Action.exec_bind_eq_ok he
  exact (countable_acknowledge_iff hids hn).1 (countable_of_recordFailures_ok
    (hr₁.toSteady.writable hr) hrows₁ hu₁ (PushAnswer.nodup_misses hids hn)
    (sendable_acknowledge hids hn hs) he₂)

end apply

end Reconcile

end Replication
