import Replication.Proofs.Push.Delivery
import Replication.Proofs.Sync.Apart
import Replication.Proofs.Sync.Calm

/-!
# Push passes that drain the outbox

A push pass goes on only after a batch that the server took as a whole, and that removes the rows of
the batch. So it makes at most as many requests as rows wait when it begins, and then it is over
(`PushPass.run_drained`). If nothing was refused and nothing left unanswered on the way, it went on
until no row of its collection waits, and the server took every mutation that waited
(`PushPass.drained_of_clean`). Nothing is asked of the server, of the rows or of the database: a
failure that they cause ends the pass with an error.
-/

namespace Replication

theorem Rows.pending_acknowledge (rows : Rows) (ids : List String) (collection : String) :
    Rows.pending (rows.acknowledge ids).2 collection =
      (rows.pending collection).filter fun row => !ids.contains row.id := by
  unfold Rows.pending Rows.acknowledge
  dsimp only
  rw [List.filter_filter, List.filter_filter]
  refine List.filter_congr fun row _ => ?_
  cases row.pending <;> simp [Bool.and_comm]

/-- The rows of a collection that wait; none if the outbox is missing. -/
def Replica.waiting (r : Replica) (collection : String) : List Row :=
  (r.rows?.getD []).pending collection

theorem Replica.waiting_of_rows {r : Replica} {rows : Rows} (h : r.rows? = some rows)
    (collection : String) : r.waiting collection = rows.pending collection := by
  rw [waiting, h]
  rfl

theorem PushReport.clean_iff {report : PushReport} :
    report.clean = true ↔ report.rejected = [] ∧ report.unresolved = 0 := by
  simp [clean]

theorem PushReport.clean_merge (report part : PushReport) :
    (report.merge part).clean = true ↔ report.clean = true ∧ part.clean = true := by
  simp only [clean_iff, merge, List.append_eq_nil_iff, Nat.add_eq_zero_iff]
  tauto

/-! ## Answers that leave nothing open -/

/-- An answer that refuses nothing and is silent about nothing takes all that was sent. -/
theorem PushAnswer.mem_taken_of_mem {a : PushAnswer} {sent : List Mutation}
    (hrefused : a.refused sent = []) (hsilent : a.unanswered sent = []) {m : Mutation}
    (hm : m ∈ sent) : m.id ∈ a.taken sent := by
  by_contra hno
  have hopen : m.id ∈ a.unanswered sent :=
    mem_unanswered.2 ⟨List.mem_map_of_mem hm, by simpa [named, hrefused] using hno⟩
  rw [hsilent] at hopen
  cases hopen

/-- An answer that leaves nothing open changes no row but those that it takes. -/
theorem Reconcile.apply_clean {collection : String} {maxRetries : Nat} {sent : List Mutation}
    {a : PushAnswer} {r r' : Replica} {rows : Rows} {part : PushReport} (h : r.rows? = some rows)
    (he : (apply collection maxRetries sent a).exec r = (.ok part, r')) (hc : part.clean = true) :
    (∀ m ∈ sent, m.id ∈ part.accepted) ∧ r'.rows? = some (rows.acknowledge part.accepted).2 := by
  obtain ⟨haccepted, hrejected, hunresolved⟩ := report_of_apply_ok he
  obtain ⟨hnone, hzero⟩ := PushReport.clean_iff.1 hc
  have hrefused : a.refused sent = [] := hrejected.symm.trans hnone
  have hsilent : a.unanswered sent = [] :=
    List.length_eq_zero_iff.1 (hunresolved.symm.trans hzero)
  have hmisses : a.misses sent = [] := by simp [PushAnswer.misses, hrefused, hsilent]
  rw [haccepted]
  refine ⟨fun m hm => PushAnswer.mem_taken_of_mem hrefused hsilent hm, ?_⟩
  rw [apply_eq, hmisses] at he
  obtain ⟨_, r₁, hack, he⟩ := Action.exec_bind_eq_ok he
  obtain ⟨dead, r₂, hfailures, he⟩ := Action.exec_bind_eq_ok he
  obtain ⟨_, r₃, hstates, he⟩ := Action.exec_bind_eq_ok he
  obtain ⟨_, r₄, hannounce, he⟩ := Action.exec_bind_eq_ok he
  have hrows₁ : r₁.rows? = some (rows.acknowledge (a.taken sent)).2 := by
    obtain ⟨r₁', -, ⟨hw, -⟩ | ⟨hw, hrows⟩⟩ := Replica.exec_acknowledge (a.taken sent) h
    · rw [hw] at hack
      cases hack
    · rw [hw] at hack
      exact (Prod.mk.inj hack).2 ▸ hrows
  -- What follows writes documents and counters only.
  obtain ⟨-, rfl⟩ := Prod.mk.inj hfailures
  obtain ⟨n, m, hs⟩ := exec_applyStates collection a.serverState r₁
  obtain rfl := (Prod.mk.inj (hs.symm.trans hstates)).2
  obtain ⟨f, m', ha⟩ := exec_announce collection dead
    { r₁ with documents := r₁.documents.applyAll collection a.serverState, metrics := m }
  obtain rfl := (Prod.mk.inj (ha.symm.trans hannounce)).2
  obtain ⟨-, rfl⟩ := Prod.mk.inj he
  exact hrows₁

namespace PushPass

/-! ## Between two requests -/

section

variable {p : PushPass} {r : Replica} {rows : Rows} {ms : List Mutation}

theorem exec_pending_snd (collection : String) (limit : Nat) (r : Replica) :
    ((Replica.pending collection limit).exec r).2 = r := by
  unfold Replica.pending
  rw [Action.exec_bind, Action.exec_query]
  split
  · rename_i heq
    obtain ⟨-, rfl⟩ := Prod.mk.inj heq
    rw [Replica.exec_lift]
  · rename_i heq
    exact (Prod.mk.inj heq).2.symm

/-- A pass that reads is over with an error, is over because nothing waits, or asks for what it
read. -/
theorem settle_of_reading (hp : p.phase = .reading) (hlimit : 1 ≤ p.limit) (r : Replica) :
    (∃ result m, p.settle r = ({ p with phase := .done result }, { r with metrics := m }) ∧
        ∀ report, result = .ok report → report = p.report ∧ r.waiting p.collection = []) ∨
      ∃ rows ms, r.rows? = some rows ∧ ms ≠ [] ∧
        List.Forall₂ (fun row m => row.mutation = .ok m) ((rows.pending p.collection).take p.limit)
          ms ∧
        p.settle r = ({ p with phase := .asking (deliverable ms) ms.length }, r) := by
  have hsame := exec_pending_snd p.collection p.limit r
  rcases he : (Replica.pending p.collection p.limit).exec r with ⟨e | ms, r₁⟩
  · rw [he] at hsame
    obtain rfl : r₁ = r := hsame
    obtain ⟨m, hs⟩ := settle_closing (p := { p with phase := .closing (some e) }) rfl r₁
    refine .inl ⟨.error e, m, Eq.trans ?_ hs, fun report hreport => by cases hreport⟩
    simp only [settle, proceed, hp, he]
  · obtain ⟨rfl, rows, hrows, hread⟩ := exec_pending_ok he
    cases ms with
    | nil =>
      obtain ⟨m, hs⟩ := settle_closing (p := { p with phase := .closing none }) rfl r₁
      refine .inl ⟨.ok p.report, m, Eq.trans ?_ hs,
        fun report hreport => ⟨(Except.ok.inj hreport).symm, ?_⟩⟩
      · simp only [settle, proceed, hp, he]
      · rw [List.forall₂_nil_right_iff, List.take_eq_nil_iff] at hread
        rw [Replica.waiting_of_rows hrows]
        exact hread.resolve_left (by omega)
    | cons m ms =>
      refine .inr ⟨rows, m :: ms, hrows, List.cons_ne_nil m ms, hread, ?_⟩
      simp only [settle, proceed, hp, he]

end

/-- If fewer mutations were read than may be, and none of them was left out, every row that waits is
that of a mutation of the batch. -/
theorem exists_of_read_all {limit : Nat} {rows : List Row} {ms : List Mutation}
    (hread : List.Forall₂ (fun row m => row.mutation = .ok m) (rows.take limit) ms)
    (hshort : ms.length < limit) (hall : ms.length = (deliverable ms).length) {row : Row}
    (hrow : row ∈ rows) : ∃ m ∈ deliverable ms, m.id = row.id := by
  have hlen := hread.length_eq
  rw [List.length_take] at hlen
  rw [List.take_of_length_le (by omega)] at hread
  rw [(deliverable_sublist ms).eq_of_length hall.symm]
  obtain ⟨i, hi, rfl⟩ := List.mem_iff_getElem.1 hrow
  have hi' : i < ms.length := hread.length_eq ▸ hi
  exact ⟨ms[i], List.getElem_mem hi',
    (Row.mutation_eq_ok ((List.forall₂_iff_get.1 hread).2 i hi hi')).1⟩

/-- A pass goes on after an answer just if it leaves nothing open and more may wait. -/
theorem continues_eq_true_iff {limit read batch : Nat} {part : PushReport} :
    continues limit read batch part = true ↔
      part.accepted ≠ [] ∧ part.clean = true ∧ ¬(read < limit ∧ read = batch) := by
  simp only [continues, Bool.and_eq_true, Bool.not_eq_true', Bool.and_eq_false_iff,
    List.isEmpty_eq_false_iff, and_assoc, not_and_or, decide_eq_false_iff_not, beq_eq_false_iff_ne,
    ne_eq]

section

variable {p : PushPass} {r : Replica} {rows : Rows} {ms : List Mutation}

/-- A pass is over; if it reports that nothing was left open, then no row waits, and it reports what
it did before and every row that waited as accepted. -/
def Drained (p : PushPass) (r : Replica) (p' : PushPass) (r' : Replica) : Prop :=
  ∃ result, p'.phase = .done result ∧
    ∀ report, result = .ok report → report.clean = true →
      r'.waiting p.collection = [] ∧ (∀ id ∈ p.report.accepted, id ∈ report.accepted) ∧
        ∀ row ∈ r.waiting p.collection, row.id ∈ report.accepted

/-- A pass that closes after an answer is drained if it failed, if something was left open, or if no
row waits. -/
theorem drained_of_closing {answer : Except SyncError PushAnswer} (error : Option SyncError)
    (report : PushReport) (r' : Replica)
    (ha : p.answered answer r = ({ p with report, phase := .closing error }, r'))
    (hclean : error = none → report.clean = true →
      r'.waiting p.collection = [] ∧ (∀ id ∈ p.report.accepted, id ∈ report.accepted) ∧
        ∀ row ∈ r.waiting p.collection, row.id ∈ report.accepted) :
    Drained p r (p.receive answer r).1 (p.receive answer r).2 := by
  obtain ⟨m, hs⟩ := settle_closing (p := { p with report, phase := .closing error }) rfl r'
  have hreceive : p.receive answer r =
      ({ p with report, phase := .done (error.elim (.ok report) .error) },
        { r' with metrics := m }) := by
    rw [receive, ha]
    exact hs
  rw [hreceive]
  refine ⟨_, rfl, fun report' hreport hc => ?_⟩
  cases error with
  | none =>
    obtain rfl := Except.ok.inj hreport
    exact hclean rfl hc
  | some e => cases hreport

/-- A pass that is drained after a batch that left nothing open is drained as a whole. -/
theorem Drained.of_part {p' : PushPass} {r₁ r' : Replica} {part : PushReport}
    (h : Drained { p with report := p.report.merge part, phase := .reading } r₁ p' r')
    (hw : r₁.waiting p.collection =
      (r.waiting p.collection).filter fun row => !part.accepted.contains row.id) :
    Drained p r p' r' := by
  obtain ⟨result, hdone, hclean⟩ := h
  refine ⟨result, hdone, fun report hreport hc => ?_⟩
  obtain ⟨hnone, hbefore, hrest⟩ := hclean report hreport hc
  refine ⟨hnone, fun id hid => hbefore id (List.mem_append_left _ hid), fun row hrow => ?_⟩
  by_cases hpart : row.id ∈ part.accepted
  · exact hbefore row.id (List.mem_append_right _ hpart)
  · refine hrest row ?_
    dsimp only
    rw [hw, List.mem_filter]
    exact ⟨hrow, by simpa using hpart⟩

/-- What an answer to a batch that was read leads to: the pass is over, or the rows of the batch are
gone and it reads again. -/
theorem receive_cases (hp : p.phase = .asking (deliverable ms) ms.length) (hne : ms ≠ [])
    (h : r.rows? = some rows)
    (hread : List.Forall₂ (fun row m => row.mutation = .ok m)
      ((rows.pending p.collection).take p.limit) ms)
    (answer : Except SyncError PushAnswer) :
    Drained p r (p.receive answer r).1 (p.receive answer r).2 ∨
      ∃ part r', p.receive answer r =
          settle { p with report := p.report.merge part, phase := .reading } r' ∧
        r'.waiting p.collection =
          (r.waiting p.collection).filter (fun row => !part.accepted.contains row.id) ∧
        ∀ m ∈ deliverable ms, m.id ∈ part.accepted := by
  cases answer with
  | error e =>
    refine .inl (drained_of_closing (some e) p.report r ?_
      fun hnone => by cases hnone)
    simp only [answered, hp]
  | ok a =>
    rcases he : (Reconcile.apply p.collection p.maxRetries (deliverable ms) a).exec r with
      ⟨e | part, r'⟩
    · refine .inl (drained_of_closing (some e) p.report r' ?_
        fun hnone => by cases hnone)
      simp only [answered, hp, he]
    by_cases hgo : continues p.limit ms.length (deliverable ms).length part = true
    · obtain ⟨-, hc, -⟩ := continues_eq_true_iff.1 hgo
      obtain ⟨htaken, hrows'⟩ := Reconcile.apply_clean h he hc
      refine .inr ⟨part, r', ?_, ?_, htaken⟩
      · simp only [receive, answered, hp, he, if_pos hgo]
      · rw [Replica.waiting_of_rows hrows', Replica.waiting_of_rows h, Rows.pending_acknowledge]
    · refine .inl (drained_of_closing none (p.report.merge part) r' ?_
        fun _ hclean => ?_)
      · simp only [answered, hp, he, if_neg hgo]
      -- The pass ends after a batch that leaves nothing open only if that was all that waited.
      have hc := ((PushReport.clean_merge p.report part).1 hclean).2
      obtain ⟨htaken, hrows'⟩ := Reconcile.apply_clean h he hc
      obtain ⟨m, hm⟩ := List.exists_mem_of_ne_nil _ (deliverable_ne_nil hne)
      have hall : ms.length < p.limit ∧ ms.length = (deliverable ms).length := by
        by_contra hall
        exact hgo (continues_eq_true_iff.2 ⟨List.ne_nil_of_mem (htaken m hm), hc, hall⟩)
      have hmem : ∀ row ∈ r.waiting p.collection, row.id ∈ part.accepted := by
        intro row hrow
        rw [Replica.waiting_of_rows h] at hrow
        obtain ⟨m, hm, hid⟩ := exists_of_read_all hread hall.1 hall.2 hrow
        exact hid ▸ htaken m hm
      refine ⟨?_, fun id hid => List.mem_append_left _ hid,
        fun row hrow => List.mem_append_right _ (hmem row hrow)⟩
      rw [Replica.waiting_of_rows hrows', Rows.pending_acknowledge, List.filter_eq_nil_iff]
      intro row hrow
      rw [← Replica.waiting_of_rows h] at hrow
      simpa using hmem row hrow

end

/-! ## Whole passes -/

section

variable {σ : Type} (remote : Remote σ)

/-- Fewer rows wait when those of a batch are gone. -/
theorem length_filter_lt {collection : String} {limit : Nat} {rows : Rows} {batch : List Mutation}
    {accepted : List String} (hne : batch ≠ []) (hread : Reads collection limit rows batch)
    (htaken : ∀ m ∈ batch, m.id ∈ accepted) :
    ((rows.pending collection).filter fun row => !accepted.contains row.id).length <
      (rows.pending collection).length := by
  obtain ⟨m, hm⟩ := List.exists_mem_of_ne_nil _ hne
  obtain ⟨row, hrow, hf, hc, hmutation⟩ := exists_row_of_reads hread hm
  refine List.length_filter_lt_length_iff_exists.2 ⟨row, ?_, ?_⟩
  · simp [Rows.pending, Row.pending, hrow, hf, hc]
  · simpa [← (Row.mutation_eq_ok hmutation).1] using htaken m hm

theorem requests_over (fuel : Nat) {p : PushPass} (h : p.request? = none) (r : Replica) (s : σ) :
    requests remote fuel p r s = [] := by
  cases fuel with
  | zero => rfl
  | succ fuel =>
    cases hp : p.phase with
    | asking batch read => simp [request?, hp] at h
    | _ => simp only [requests, hp]

theorem request?_of_done {p : PushPass} {result : Except SyncError PushReport}
    (h : p.phase = .done result) : p.request? = none := by
  rw [request?, h]

theorem requests_asking (fuel : Nat) {p : PushPass} {batch : List Mutation} {read : Nat}
    (hp : p.phase = .asking batch read) (r : Replica) (s : σ) :
    requests remote (fuel + 1) p r s =
      batch :: requests remote fuel (p.receive (remote.send p.collection batch s).1 r).1
        (p.receive (remote.send p.collection batch s).1 r).2
        (remote.send p.collection batch s).2 := by
  simp only [requests, hp]

theorem run_asking (fuel : Nat) {p : PushPass} {batch : List Mutation} {read : Nat}
    (hp : p.phase = .asking batch read) (r : Replica) (s : σ) :
    run remote (fuel + 1) p r s =
      run remote fuel (p.receive (remote.send p.collection batch s).1 r).1
        (p.receive (remote.send p.collection batch s).1 r).2
        (remote.send p.collection batch s).2 := by
  simp only [run, hp]

/-- A pass that begins to read makes at most as many requests as rows wait, and is drained if it may
make so many. -/
theorem run_drained (fuel : Nat) {p : PushPass} (hp : p.phase = .reading) (hlimit : 1 ≤ p.limit)
    (r : Replica) (s : σ) :
    let out := run remote fuel (p.settle r).1 (p.settle r).2 s
    (requests remote fuel (p.settle r).1 (p.settle r).2 s).length ≤
        (r.waiting p.collection).length ∧
      ((r.waiting p.collection).length ≤ fuel → Drained p r out.1 out.2.1) := by
  induction fuel generalizing p r s with
  | zero =>
    refine ⟨Nat.zero_le _, fun hnone => ?_⟩
    have hnone := List.length_eq_zero_iff.1 (Nat.le_zero.1 hnone)
    rcases settle_of_reading hp hlimit r with ⟨result, m, hs, hok⟩ | ⟨rows, ms, h, hne, hread, -⟩
    · dsimp only [run]
      rw [hs]
      refine ⟨result, rfl, fun report hreport _ => ?_⟩
      obtain ⟨rfl, -⟩ := hok report hreport
      exact ⟨hnone, fun id hid => hid, by simp [hnone]⟩
    · rw [Replica.waiting_of_rows h] at hnone
      rw [hnone, List.take_nil, List.forall₂_nil_left_iff] at hread
      exact absurd hread hne
  | succ fuel ih =>
    rcases settle_of_reading hp hlimit r with ⟨result, m, hs, hok⟩ | ⟨rows, ms, h, hne, hread, hs⟩
    · rw [hs]
      refine ⟨Nat.zero_le _, fun _ => ?_⟩
      refine ⟨result, rfl, fun report hreport _ => ?_⟩
      obtain ⟨rfl, hnone⟩ := hok report hreport
      exact ⟨hnone, fun id hid => hid, by simp [hnone]⟩
    let q : PushPass := { p with phase := .asking (deliverable ms) ms.length }
    let sent := remote.send p.collection (deliverable ms) s
    rw [hs, requests_asking remote fuel (p := q) rfl, run_asking remote fuel (p := q) rfl,
      List.length_cons]
    have hsent : 0 < (r.waiting p.collection).length := by
      rw [Replica.waiting_of_rows h]
      exact lt_of_lt_of_le (List.length_pos_of_ne_nil hne)
        (hread.length_eq ▸ (List.take_sublist p.limit _).length_le)
    rcases receive_cases (p := q) rfl hne h hread sent.1 with hdone | ⟨part, r', hr, hw, ht⟩
    · have hover := request?_of_done hdone.choose_spec.1
      rw [requests_over remote fuel hover, run_over remote fuel hover]
      exact ⟨hsent, fun _ => hdone⟩
    · rw [hr]
      obtain ⟨hle, hdrained⟩ := ih (p := { p with report := p.report.merge part, phase := .reading })
        rfl hlimit r' sent.2
      have hlt := length_filter_lt (deliverable_ne_nil hne) ⟨ms, hread, rfl⟩ ht
      rw [← Replica.waiting_of_rows h, ← hw] at hlt
      refine ⟨lt_of_le_of_lt hle hlt, fun hfuel => ?_⟩
      exact (hdrained (Nat.le_of_lt_succ (lt_of_lt_of_le hlt hfuel))).of_part hw

end

end PushPass

/-- A push pass, whatever the replica holds and whatever the server answers: it makes at most as many
requests as rows of its collection wait when it begins, and is over then. If it reports success, that
nothing was refused and that nothing was left unanswered, no row of the collection waits any more,
and every mutation that waited is reported as accepted. -/
theorem PushPass.drained_of_clean {σ : Type} (remote : Remote σ) (collection : String)
    (limit maxRetries fuel : Nat) (r : Replica) (s : σ) :
    let pass := (PushPass.begin collection limit maxRetries).settle r
    let p := (PushPass.run remote fuel pass.1 pass.2 s).1
    let r' := (PushPass.run remote fuel pass.1 pass.2 s).2.1
    (PushPass.requests remote fuel pass.1 pass.2 s).length ≤ (r.waiting collection).length ∧
      ((r.waiting collection).length ≤ fuel → ∃ result, p.result? = some result ∧
        ∀ report, result = .ok report → report.clean = true →
          r'.waiting collection = [] ∧ ∀ row ∈ r.waiting collection, row.id ∈ report.accepted) := by
  intro pass p r'
  obtain ⟨hle, hdrained⟩ := PushPass.run_drained remote fuel
    (p := .begin collection limit maxRetries) rfl (Nat.le_max_right limit 1) r s
  refine ⟨hle, fun hfuel => ?_⟩
  obtain ⟨result, hdone, hclean⟩ := hdrained hfuel
  refine ⟨result, by rw [PushPass.result?, hdone], fun report hreport hc => ?_⟩
  obtain ⟨hnone, -, haccepted⟩ := hclean report hreport hc
  exact ⟨hnone, haccepted⟩

/-- Two mutations of one document wait: the first one goes out, and since the other was left out the
pass goes on. -/
theorem PushPass.drained_in_two :
    let m (id : String) : Mutation := ⟨id, "notes", .delete, "x", none, 0, 0⟩
    let rows : Rows := [Row.ofMutation (m "a"), Row.ofMutation (m "b")]
    let r : Replica := { database := { tables := { outbox := some rows } } }
    let pass := (PushPass.begin "notes" 10 5).settle r
    let out := PushPass.run Script.remote 2 pass.1 pass.2 {}
    r.waiting "notes" = rows ∧
      (PushPass.requests Script.remote 2 pass.1 pass.2 {}).map (·.map Mutation.id) =
        [["a"], ["b"]] ∧
      ∃ report, out.1.result? = some (.ok report) ∧ report.clean = true ∧
        out.2.1.waiting "notes" = [] ∧ ∀ row ∈ rows, row.id ∈ report.accepted := by
  intro m rows r
  have hrows : r.waiting "notes" = rows := by decide +kernel
  obtain ⟨-, hover⟩ := PushPass.drained_of_clean Script.remote "notes" 10 5 2 r {}
  obtain ⟨result, hresult, hclean⟩ := hover (by decide +kernel)
  have hkind : (result.toOption).map PushReport.clean = some true := by
    have hclean : ((PushPass.run Script.remote 2 ((PushPass.begin "notes" 10 5).settle r).1
        ((PushPass.begin "notes" 10 5).settle r).2 {}).1.result?.bind Except.toOption).map
          PushReport.clean = some true := by decide +kernel
    rwa [hresult] at hclean
  cases result with
  | error e => cases hkind
  | ok report =>
    have hc : report.clean = true := Option.some.inj hkind
    have hdrained := hclean report rfl hc
    rw [hrows] at hdrained
    exact ⟨hrows, by decide +kernel, report, hresult, hc, hdrained⟩

end Replication
