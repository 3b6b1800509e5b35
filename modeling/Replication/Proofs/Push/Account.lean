import Replication.Proofs.Push.Delivery

/-!
# Each sent mutation is accounted for once

After the answer to a request a sent mutation has left the outbox, or its delivery failed once more;
and the report names it once (`Accounted`). The loops that reconcile an answer count what it refuses
as often as it says so, and read counts back in 32 bits. So that holds just when the answer names no
sent mutation twice and the new counts are read back as they are (`Answers`,
`Replica.pushBatch_accounted_iff`).
-/

namespace Replication

/-- What becomes of sent mutations, in the rows of the outbox and in a report: each one is named
at most once, those that are not named are numbered, the accepted ones left, and the delivery of
all others failed once more, so that they are given up if that was one too many. -/
structure Accounted (maxRetries : Nat) (sent : List Mutation) (rows rows' : Rows)
    (report : PushReport) : Prop where
  once : (report.accepted ++ report.rejected.map Rejection.id).Nodup
  named : ∀ id ∈ report.accepted ++ report.rejected.map Rejection.id, id ∈ sent.map Mutation.id
  whole : report.accepted.length + report.rejected.length + report.unresolved = sent.length
  gone : ∀ id ∈ report.accepted, id ∉ rows'.map Row.id
  missed : ∀ row ∈ rows, row.id ∈ sent.map Mutation.id → row.id ∉ report.accepted →
    ∃ row' ∈ rows', row'.queued = row.queued ∧ row'.retries = row.retries + 1 ∧
      (row'.failed = true ↔ (maxRetries : Int) < row.retries + 1)

/-- An answer names no sent mutation twice, and the new count of each one that it misses can be read
back and exceeds the limit as it is read just when it does. -/
structure Answers (maxRetries : Nat) (sent : List Mutation) (rows : Rows) (a : PushAnswer) :
    Prop where
  once : (a.named sent).Nodup
  counted : ∀ row ∈ rows, row.id ∈ sent.map Mutation.id → row.id ∉ a.taken sent →
    Row.countable (row.retries + 1) = true ∧
      (maxRetries < Row.reported (row.retries + 1) ↔ (maxRetries : Int) < row.retries + 1)

/-- A count that is not negative is read back as it is, or as the greatest one. -/
theorem Row.lt_reported_iff {n : Int} (hn : 0 ≤ n) {maxRetries : Nat}
    (hm : maxRetries < Row.maxRetries) : maxRetries < reported n ↔ (maxRetries : Int) < n := by
  unfold reported
  split_ifs <;> omega

namespace Rows

variable {rows : Rows} {maxRetries : Nat} {sent : List Mutation} {a : PushAnswer} {row : Row}

theorem Unique.delivered (hu : rows.Unique) : (rows.delivered maxRetries sent a).Unique := by
  have hids : (rows.delivered maxRetries sent a).map Row.id =
      (rows.acknowledge (a.taken sent)).2.map Row.id := by
    rw [Rows.delivered, List.map_map]
    exact List.map_congr_left fun row _ => row.id_struckBy _ _
  rw [Unique, hids]
  exact (List.filter_sublist.map Row.id).nodup hu

theorem Sendable.pending (hs : rows.Sendable (sent.map Mutation.id)) (hu : rows.Unique)
    (hrow : row ∈ rows) (hid : row.id ∈ sent.map Mutation.id) : row.failed = false := by
  obtain ⟨row', hrow', hf, he, -⟩ := hs row.id hid
  rwa [← hu.eq hrow' hrow he]

/-- What is missed is struck. -/
theorem exists_strike_mem_delivered (maxRetries : Nat) (hids : (sent.map Mutation.id).Nodup)
    (hn : (a.named sent).Nodup) (hrow : row ∈ rows) (hf : row.failed = false)
    (hsent : row.id ∈ sent.map Mutation.id) (ht : row.id ∉ a.taken sent) :
    ∃ reason, (row.id, reason) ∈ a.misses sent ∧
      row.strike maxRetries reason ∈ rows.delivered maxRetries sent a := by
  obtain ⟨miss, hmiss, hid⟩ := List.mem_map.1 ((PushAnswer.mem_misses_iff hids hn).2 ⟨hsent, ht⟩)
  obtain ⟨reason, he⟩ : ∃ reason, (a.misses sent).lookup row.id = some reason := by
    refine Option.ne_none_iff_exists'.1 fun hnone => ?_
    simpa [hid] using List.lookup_eq_none_iff.1 hnone miss hmiss
  obtain ⟨l, l', hl, -⟩ := List.lookup_eq_some_iff.1 he
  refine ⟨reason, by rw [hl]; simp, List.mem_map.2 ⟨row, ?_, ?_⟩⟩
  · exact (Reconcile.mem_acknowledge hf).2 ⟨hrow, ht⟩
  · exact Row.struckBy_of_some hf he

/-- What is taken has left. -/
theorem not_mem_delivered_of_taken (hu : rows.Unique) (hs : rows.Sendable (sent.map Mutation.id))
    {id : String} (ht : id ∈ a.taken sent) :
    id ∉ (rows.delivered maxRetries sent a).map Row.id := by
  intro hid
  obtain ⟨row', hrow', rfl⟩ := List.mem_map.1 hid
  obtain ⟨row, hrow, rfl⟩ := List.mem_map.1 hrow'
  rw [Row.id_struckBy] at ht
  have hrows : row ∈ rows := (List.mem_filter.1 hrow).1
  have hf := hs.pending hu hrows (Reconcile.mem_sent_of_taken ht)
  exact ((Reconcile.mem_acknowledge hf).1 hrow).2 ht

/-- Rows after an answer account for each sent mutation, just if its count is read back as it is. -/
theorem accounted_delivered_iff (hu : rows.Unique) (hids : (sent.map Mutation.id).Nodup)
    (hs : rows.Sendable (sent.map Mutation.id)) (hn : (a.named sent).Nodup) {report : PushReport}
    (hacc : report.accepted = a.taken sent) (hrej : report.rejected = a.refused sent)
    (hun : report.unresolved = (a.unanswered sent).length) :
    Accounted maxRetries sent rows (rows.delivered maxRetries sent a) report ↔
      ∀ row ∈ rows, row.id ∈ sent.map Mutation.id → row.id ∉ a.taken sent →
        (maxRetries < Row.reported (row.retries + 1) ↔ (maxRetries : Int) < row.retries + 1) := by
  constructor
  · intro h row hrow hid ht
    obtain ⟨row', hrow', hq, -, hfailed⟩ := h.missed row hrow hid (hacc ▸ ht)
    obtain ⟨reason, -, hmem⟩ := exists_strike_mem_delivered maxRetries hids hn hrow
      (hs.pending hu hrow hid) hid ht
    obtain rfl := hu.delivered.eq hrow' hmem (Row.id_of_queued hq)
    simpa [Row.strike] using hfailed
  · intro h
    refine ⟨?_, ?_, ?_, ?_, ?_⟩
    · rw [hacc, hrej]
      exact hn
    · intro id hid
      rw [hacc, hrej] at hid
      exact (PushAnswer.perm_sent hids hn).subset (List.mem_append_left _ hid)
    · have hlen := (PushAnswer.perm_sent hids hn).length_eq
      simp only [PushAnswer.named, List.length_append, List.length_map] at hlen
      rw [hacc, hrej, hun, hlen]
    · intro id hid
      exact not_mem_delivered_of_taken hu hs (hacc ▸ hid)
    · intro row hrow hid ht
      rw [hacc] at ht
      obtain ⟨reason, -, hmem⟩ := exists_strike_mem_delivered maxRetries hids hn hrow
        (hs.pending hu hrow hid) hid ht
      refine ⟨_, hmem, rfl, rfl, ?_⟩
      simpa [Row.strike] using h row hrow hid ht

end Rows

namespace Reconcile

/-- Reconciling an answer accounts for each sent mutation just if it names none twice and the counts
of those that it misses are read back as they are. -/
theorem exec_apply_accounted_iff (collection : String) (maxRetries : Nat) {sent : List Mutation}
    {a : PushAnswer} {r : Replica} {rows : Rows} (hr : r.Writable) (h : r.rows? = some rows)
    (hu : rows.Unique) (hids : (sent.map Mutation.id).Nodup)
    (hs : rows.Sendable (sent.map Mutation.id)) :
    (∃ report r' rows', (apply collection maxRetries sent a).exec r = (.ok report, r') ∧
        r'.rows? = some rows' ∧ Accounted maxRetries sent rows rows' report) ↔
      Answers maxRetries sent rows a := by
  constructor
  · rintro ⟨report, r', rows', he, hrows', hacc⟩
    obtain ⟨haccepted, hrejected, hunresolved⟩ := report_of_apply_ok he
    have hn : (a.named sent).Nodup := by
      have honce := hacc.once
      rwa [haccepted, hrejected] at honce
    have hc := countable_of_apply_ok collection maxRetries hr h hu hids hn hs he
    obtain ⟨report', r'', -, hrows, he'⟩ :=
      exec_apply_writable collection maxRetries hr h hu hids hn hs hc
    obtain rfl := (Prod.mk.inj (he.symm.trans he')).2
    obtain rfl := Option.some.inj (hrows'.symm.trans hrows)
    have hcounted :=
      (Rows.accounted_delivered_iff hu hids hs hn haccepted hrejected hunresolved).1 hacc
    refine ⟨hn, fun row hrow hid ht => ⟨?_, hcounted row hrow hid ht⟩⟩
    exact hc row hrow (hs.pending hu hrow hid) ((PushAnswer.mem_misses_iff hids hn).2 ⟨hid, ht⟩)
  · rintro ⟨hn, hcounted⟩
    have hc : rows.Countable ((a.misses sent).map Prod.fst) := by
      intro row hrow _ hmiss
      obtain ⟨hid, ht⟩ := (PushAnswer.mem_misses_iff hids hn).1 hmiss
      exact (hcounted row hrow hid ht).1
    obtain ⟨report, r', -, hrows', he⟩ :=
      exec_apply_writable collection maxRetries hr h hu hids hn hs hc
    obtain ⟨haccepted, hrejected, hunresolved⟩ := report_of_apply_ok he
    refine ⟨report, r', _, he, hrows', ?_⟩
    exact (Rows.accounted_delivered_iff hu hids hs hn haccepted hrejected hunresolved).2
      fun row hrow hid ht => (hcounted row hrow hid ht).2

end Reconcile

namespace Replica

variable {σ : Type}

/-- Whatever an answer says, it is reconciled with the mutations that were sent; without any nothing
changes. -/
theorem pushBatch_eq {remote : Remote σ} {collection : String} {sent : List Mutation} {s s' : σ}
    {a : PushAnswer} (ha : remote.send collection sent s = (.ok a, s')) (maxRetries : Nat)
    (r : Replica) :
    pushBatch remote collection maxRetries sent r s =
      if sent.isEmpty then (.ok {}, r, s)
      else
        (((Reconcile.apply collection maxRetries sent a).exec r).1,
          ((Reconcile.apply collection maxRetries sent a).exec r).2, s') := by
  unfold pushBatch
  rw [ha]

/-- Nothing is sent and nothing is to be accounted for. -/
theorem accounted_nil (maxRetries : Nat) (rows : Rows) : Accounted maxRetries [] rows rows {} where
  once := List.nodup_nil
  named _ h := by cases h
  whole := rfl
  gone _ h := by cases h
  missed _ _ h := by cases h

theorem answers_nil (maxRetries : Nat) (rows : Rows) (a : PushAnswer) :
    Answers maxRetries [] rows a where
  once := by
    have hnone : a.named [] = [] := by
      refine List.eq_nil_iff_forall_not_mem.2 fun id hid => ?_
      cases PushAnswer.mem_sent_of_named hid
    rw [hnone]
    exact List.nodup_nil
  counted _ _ h := by cases h

/-- One request with mutations that wait, where every write gets through and whatever the server
answers: the call reports what it did, and the report and the rows account for each mutation that
was sent once, just when the answer names none of them twice, and the new counts of those that it
misses are read back as they are. -/
theorem pushBatch_accounted_iff (remote : Remote σ) (collection : String) (maxRetries : Nat)
    (sent : List Mutation) (r : Replica) (s s' : σ) (a : PushAnswer) (rows : Rows)
    (hr : r.Writable) (h : r.rows? = some rows) (hu : rows.Unique)
    (hids : (sent.map Mutation.id).Nodup)
    (hs : ∀ m ∈ sent, ∃ row ∈ rows, row.failed = false ∧ row.mutation = .ok m)
    (ha : remote.send collection sent s = (.ok a, s')) :
    (∃ report r' rows', (pushBatch remote collection maxRetries sent r s).1 = .ok report ∧
        (pushBatch remote collection maxRetries sent r s).2.1 = r' ∧ r'.rows? = some rows' ∧
        Accounted maxRetries sent rows rows' report) ↔
      Answers maxRetries sent rows a := by
  rw [pushBatch_eq ha]
  by_cases hsent : sent = []
  · subst hsent
    exact iff_of_true ⟨{}, r, rows, rfl, rfl, h, accounted_nil maxRetries rows⟩
      (answers_nil maxRetries rows a)
  have hsendable : rows.Sendable (sent.map Mutation.id) := by
    intro id hid
    obtain ⟨m, hm, rfl⟩ := List.mem_map.1 hid
    obtain ⟨row, hrow, hf, hread⟩ := hs m hm
    exact ⟨row, hrow, hf, (Row.mutation_eq_ok hread).1.symm, m, hread⟩
  rw [if_neg (by simpa using hsent),
    ← Reconcile.exec_apply_accounted_iff collection maxRetries hr h hu hids hsendable]
  constructor
  · rintro ⟨report, r', rows', hreport, hr', hrows'⟩
    exact ⟨report, r', rows', Prod.ext hreport hr', hrows'⟩
  · rintro ⟨report, r', rows', he, hrows'⟩
    exact ⟨report, r', rows', by rw [he], by rw [he], hrows'⟩

/-- Of three mutations the first is taken, the second is refused and the answer is silent about the
third, and it names a stranger: each is accounted for once. -/
theorem pushBatch_accounted :
    let m (id : String) : Mutation := ⟨id, "notes", .delete, id, none, 0, 0⟩
    let sent := [m "a", m "b", m "c"]
    let rows : Rows := sent.map Row.ofMutation
    let r : Replica := { database := { tables := { outbox := some rows } } }
    let a : PushAnswer := ⟨["a", "z"], [⟨"b", "no"⟩, ⟨"y", "no"⟩], []⟩
    let s : Script := { replies := [⟨false, .answer a⟩] }
    ∃ report r' rows', (pushBatch Script.remote "notes" 0 sent r s).1 = .ok report ∧
      (pushBatch Script.remote "notes" 0 sent r s).2.1 = r' ∧ r'.rows? = some rows' ∧
      Accounted 0 sent rows rows' report := by
  intro m sent rows r a s
  have hr : r.Writable := (⟨rfl, fun _ => rfl⟩ : r.Free).writable
  have hs : ∀ x ∈ sent, ∃ row ∈ rows, row.failed = false ∧ row.mutation = .ok x := by
    have hread : ∀ x ∈ sent, (Row.ofMutation x).mutation = .ok x := by
      simp only [sent, List.forall_mem_cons]
      exact ⟨rfl, rfl, rfl, fun _ h => by cases h⟩
    exact fun x hx => ⟨Row.ofMutation x, List.mem_map_of_mem hx, rfl, hread x hx⟩
  have hu : (rows.map Row.id).Nodup := by decide
  refine (pushBatch_accounted_iff Script.remote "notes" 0 sent r s { sent := [["a", "b", "c"]] } a
    rows hr rfl hu (by decide) hs rfl).2 ⟨by decide, fun row hrow _ _ => ?_⟩
  have hone : row.retries + 1 = 1 := by
    obtain ⟨x, hx, rfl⟩ := List.mem_map.1 hrow
    simp only [sent, List.mem_cons, List.not_mem_nil, or_false] at hx
    obtain rfl | rfl | rfl := hx <;> rfl
  rw [hone]
  decide

/-- The one mutation that was sent is refused twice: it is reported twice, and two failed deliveries
are counted for one request. -/
theorem pushBatch_counts_twice :
    let m : Mutation := ⟨"a", "notes", .delete, "x", none, 0, 0⟩
    let row := Row.ofMutation m
    let r : Replica := { database := { tables := { outbox := some [row] } } }
    let a : PushAnswer := ⟨[], [⟨"a", "no"⟩, ⟨"a", "no"⟩], []⟩
    let s : Script := { replies := [⟨false, .answer a⟩] }
    let result := pushBatch Script.remote "notes" 5 [m] r s
    r.Free ∧ result.2.1.rows? = some [{ row with retries := 2, lastError := some "no" }] ∧
      (result.1.toOption.map fun report =>
        report.accepted.length + report.rejected.length + report.unresolved) = some 2 := by
  intro m row r a s result
  exact ⟨⟨rfl, fun _ => rfl⟩, by decide +kernel, by decide +kernel⟩

end Replica

end Replication
