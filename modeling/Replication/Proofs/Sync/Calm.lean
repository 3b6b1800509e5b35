import Replication.Proofs.Pull.Free
import Replication.Proofs.Sync.Pull
import Replication.Proofs.Sync.Push

/-!
# Passes that nothing disturbs

From some moment on nothing fails any more: requests are answered, the local documents accept every
write, and nobody else holds the lock of the database. A pull pass then covers every record of the
server (`World.Consistent.pull_calm`). A push pass empties the outbox, if every row of it can be
read (`World.Consistent.push_calm`). Both come to their end within a number of requests that is
known before they begin.
-/

namespace Replication

/-- Nothing fails from now on. -/
structure World.Calm (w : World) : Prop where
  free : w.replica.Free
  accepting : w.replica.documents.Accepting
  fetches : ∀ n, w.server.fetchFault n = none
  sends : ∀ n, w.server.sendFault n = none

namespace Authority

theorem above_eq_nil_iff {s : Authority} {position : Option Checkpoint} :
    s.above position = [] ↔ ∀ x ∈ s.records, ∃ q, position = some q ∧ x.position ≤ q := by
  rw [List.eq_nil_iff_forall_not_mem]
  constructor
  · intro h x hx
    by_contra hno
    exact h x (mem_above.2 ⟨hx, fun q hq => lt_of_not_ge fun hle => hno ⟨q, hq, hle⟩⟩)
  · intro h x hx
    obtain ⟨hx, hlt⟩ := mem_above.1 hx
    obtain ⟨q, hq, hle⟩ := h x hx
    exact absurd hle (not_le_of_gt (hlt q hq))

/-- Above one of the records above a position there are fewer of them. -/
theorem length_above_lt {s : Authority} {position : Option Checkpoint} {x : Revision}
    (hx : x ∈ s.above position) :
    (s.above (some x.position)).length < (s.above position).length := by
  have hlt := (mem_above.1 hx).2
  have hf : s.above (some x.position) =
      (s.above position).filter fun y => y.position.isAfter x.position := by
    unfold above
    rw [List.filter_filter]
    refine List.filter_congr fun y _ => ?_
    rw [Bool.eq_iff_iff]
    cases position with
    | none => simp
    | some q =>
      simp only [Option.all_some, Checkpoint.isAfter_iff, Bool.and_eq_true]
      exact ⟨fun h => ⟨h, lt_trans (hlt q rfl) h⟩, And.left⟩
  rw [hf, List.length_filter_lt_length_iff_exists]
  exact ⟨x, hx, by simp⟩

/-- Above the last of all records above a position there are none. -/
theorem WellKept.above_last {s : Authority} (hs : s.WellKept) {position : Option Checkpoint}
    {last : Revision} (hlast : (s.above position).getLast? = some last) :
    s.above (some last.position) = [] := by
  refine above_eq_nil_iff.2 fun x hx => ⟨_, rfl, ?_⟩
  by_cases habove : x ∈ s.above position
  · have hp := hs.pairwise_above position
    obtain ⟨xs, hxs⟩ := List.getLast?_eq_some_iff.1 hlast
    rw [hxs, List.map_append, List.pairwise_append] at hp
    rw [hxs, List.mem_append, List.mem_singleton] at habove
    rcases habove with hmem | rfl
    · exact Checkpoint.ofNat_le_ofNat.2
        (Nat.le_of_lt (hp.2.2 _ (List.mem_map_of_mem hmem) _ (by simp)))
    · exact le_refl _
  · by_contra hle
    have hlt := (mem_above.1 (List.mem_of_getLast? hlast)).2
    exact habove (mem_above.2 ⟨hx, fun q hq => lt_trans (hlt q hq) (not_le.1 hle)⟩)

end Authority

section

variable {collection : String} {before r : Replica} {log : List (Change × Option String)}
  {p : PullPass} {s : Authority}

/-- After a page that nothing disturbs the pass stands at the page's last record, and asks again
if the page was full. -/
theorem PullPass.receive_calm (hs : s.WellKept) (hp : Sound collection before log p r)
    (ha : p.phase = .asking) (hr : r.Free) (hd : r.documents.Accepting)
    {t : KeyMap String Checkpoint} (ht : r.database.tables.checkpoints = some t) {last : Revision}
    (hlast : ((s.above p.position).take p.limit).getLast? = some last) :
    ∃ report n m, p.receive (.ok (s.page p.collection p.position p.limit)) r =
      ({ p with
          position := some last.position
          report
          phase := if p.limit ≤ ((s.above p.position).take p.limit).length then .asking
            else .done (.ok report) },
        Replica.advanced
          { r with
            documents := r.documents.applyAll p.collection
              (s.page p.collection p.position p.limit).changes }
          p.collection last.position t n m) := by
  obtain ⟨hpos, -⟩ := hp.asking ha
  have hne : (s.page p.collection p.position p.limit).changes ≠ [] := by
    intro hnil
    rw [List.map_eq_nil_iff.1 hnil] at hlast
    cases hlast
  have hlen : (s.page p.collection p.position p.limit).changes.length =
      ((s.above p.position).take p.limit).length := List.length_map _
  have htrail : (s.page p.collection p.position p.limit).trailing? = some last.position := by
    unfold Page.trailing? Authority.page
    simp only [List.getLast?_map, hlast, Option.map_some, Checkpoint.newer_eq_max]
    exact congrArg some (max_self last.position)
  have hmem : p.position = r.checkpoint? p.collection := by
    rw [hpos, hp.own]
    exact (hp.synced collection).symm
  rw [← hlen]
  exact receive_free (hs.valid_page p.collection p.position p.limit) hne htrail hr hd ht hmem

/-- A pass that no record is above is complete with its next page. -/
theorem PullPass.receive_nothing (hs : s.WellKept) (hnil : s.above p.position = []) :
    ∃ report m, p.receive (.ok (s.page p.collection p.position p.limit)) r =
      ({ p with report, phase := .done (.ok report) }, { r with metrics := m }) := by
  have hempty : (s.page p.collection p.position p.limit).changes = [] := by
    simp [Authority.page, hnil]
  have hv := hs.valid_page p.collection p.position p.limit
  obtain ⟨report, m, -, he⟩ := receive_empty (Page.fault?_eq_none_iff.2 hv) hempty r
  exact ⟨report, m, he⟩

theorem PullPass.run_page (fuel : Nat) (ha : p.phase = .asking) (hf : ∀ n, s.fetchFault n = none) :
    PullPass.run Authority.remote (fuel + 1) p r s =
      PullPass.run Authority.remote fuel
        (p.receive (.ok (s.page p.collection p.position p.limit)) r).1
        (p.receive (.ok (s.page p.collection p.position p.limit)) r).2
        { s with fetches := s.fetches + 1 } := by
  have hanswer : Authority.remote.fetch p.collection p.position p.limit s =
      (.ok (s.page p.collection p.position p.limit), { s with fetches := s.fetches + 1 }) := by
    simp only [Authority.remote, Authority.fetched, hf]
  simp only [PullPass.run, ha, hanswer]

/-- A pass that nothing disturbs is complete after at most one request more than there are records
above its position, and covers all of them. -/
theorem PullPass.run_calm (fuel : Nat) (hs : s.WellKept) (hp : Sound collection before log p r)
    (ha : p.phase = .asking) (hr : r.Free) (hd : r.documents.Accepting)
    (ht : r.database.tables.checkpoints.isSome = true) (hf : ∀ n, s.fetchFault n = none)
    (hlimit : 1 ≤ p.limit) (hfuel : (s.above p.position).length < fuel) :
    (∃ report, (PullPass.run Authority.remote fuel p r s).1.phase = .done (.ok report)) ∧
      s.above ((PullPass.run Authority.remote fuel p r s).2.1.persisted? collection) = [] := by
  induction fuel generalizing log p r s with
  | zero => omega
  | succ fuel ih =>
    have hpos := (hp.asking ha).1
    rw [run_page fuel ha hf]
    cases hlast : ((s.above p.position).take p.limit).getLast? with
    | none =>
      have hnil : s.above p.position = [] := by
        rw [List.getLast?_eq_none_iff, List.take_eq_nil_iff] at hlast
        exact hlast.resolve_left (by omega)
      obtain ⟨report, m, he⟩ := receive_nothing (p := p) (r := r) hs hnil
      rw [he, run_over _ _ (p := { p with report, phase := .done (.ok report) })
        (not_asking_of_done rfl)]
      refine ⟨⟨report, rfl⟩, ?_⟩
      show s.above (r.persisted? collection) = []
      rw [← hpos]
      exact hnil
    | some last =>
      obtain ⟨t, ht⟩ := Option.isSome_iff_exists.1 ht
      obtain ⟨report, n, m, he⟩ := receive_calm hs hp ha hr hd ht hlast
      have hsound := hp.receive ha (.ok (s.page p.collection p.position p.limit))
      rw [he] at hsound ⊢
      by_cases hfull : p.limit ≤ ((s.above p.position).take p.limit).length
      · refine ih (s := { s with fetches := s.fetches + 1 }) ⟨hs.ordered, hs.bounded, hs.single⟩
          hsound (if_pos hfull) ⟨hr.opened, hr.unlocked⟩ (hd.applyAll _ _) rfl hf hlimit ?_
        have hmem := List.mem_of_mem_take (List.mem_of_getLast? hlast)
        exact Nat.lt_of_lt_of_le (Authority.length_above_lt hmem) (Nat.le_of_lt_succ hfuel)
      · simp only [if_neg hfull]
        rw [run_over _ _
          (p := { p with position := some last.position, report, phase := .done (.ok report) })
          (not_asking_of_done rfl)]
        refine ⟨⟨report, rfl⟩, ?_⟩
        -- The page was not full, so it held all that was above.
        have hall : (s.above p.position).take p.limit = s.above p.position := by
          rw [List.length_take] at hfull
          exact List.take_of_length_le (by omega)
        rw [hall] at hlast
        rw [Replica.persisted?_advanced, if_pos hp.own]
        exact hs.above_last hlast

end

/-! ## Pushes -/

/-- Rows that a push pass of a collection can send. -/
def Rows.Ready (rows : Rows) (collection : String) : Prop :=
  ∀ row ∈ rows, row.failed = false ∧ row.collection = collection ∧
    Row.countable row.retries = true ∧ row.Readable

section

variable {collection : String} {rows : Rows}

theorem Rows.Ready.mono (h : rows.Ready collection) {rows' : Rows}
    (hs : ∀ row ∈ rows', row ∈ rows) : rows'.Ready collection := fun row hrow => h row (hs row hrow)

theorem Rows.Ready.pending (h : rows.Ready collection) : rows.pending collection = rows := by
  refine List.filter_eq_self.2 fun row hrow => ?_
  obtain ⟨hf, hc, -⟩ := h row hrow
  simp [Row.pending, hf, hc]

theorem Rows.Ready.exists_mutations (h : rows.Ready collection) :
    ∃ ms, List.Forall₂ (fun row m => row.mutation = .ok m) rows ms := by
  induction rows with
  | nil => exact ⟨[], .nil⟩
  | cons row rows ih =>
    obtain ⟨m, hm⟩ := (h row (List.mem_cons_self ..)).2.2.2
    obtain ⟨ms, hms⟩ := ih (h.mono fun x hx => List.mem_cons_of_mem row hx)
    exact ⟨m :: ms, .cons hm hms⟩

/-- The mutations of the first rows are read if all can be. -/
theorem Rows.Ready.exists_decode (h : rows.Ready collection) (limit : Nat) :
    ∃ ms, Replica.decode Row.mutation ((rows.pending collection).take limit) = .ok ms ∧
      List.Forall₂ (fun row m => row.mutation = .ok m) (rows.take limit) ms := by
  have htake := h.mono fun row hrow => List.mem_of_mem_take (i := limit) hrow
  obtain ⟨ms, hms⟩ := htake.exists_mutations
  refine ⟨ms, ?_, hms⟩
  rw [h.pending]
  exact Replica.decode_eq_ok.2 ⟨fun row hrow => (htake row hrow).2.2.1, hms⟩

end

namespace PushPass

/-- A pass that is over stays as it is. -/
theorem run_over {σ : Type} (remote : Remote σ) (fuel : Nat) {p : PushPass}
    (h : p.request? = none) (r : Replica) (s : σ) : run remote fuel p r s = (p, r, s) := by
  cases fuel with
  | zero => rfl
  | succ fuel =>
    cases hp : p.phase with
    | asking batch read => simp [request?, hp] at h
    | _ => simp only [run, hp]

/-- A pass that closes is over, and reports what it did unless it failed. -/
theorem settle_closing {p : PushPass} {error : Option SyncError} (hp : p.phase = .closing error)
    (r : Replica) :
    ∃ m, p.settle r =
      ({ p with phase := .done (error.elim (.ok p.report) .error) }, { r with metrics := m }) := by
  obtain ⟨out, m, he⟩ := p.exec_count r
  refine ⟨m, ?_⟩
  cases error <;> simp only [settle, proceed, hp, he, Option.elim_none, Option.elim_some]

section

variable {p : PushPass} {r : Replica} {rows : Rows}

/-- A pass that reads ends if no rows are left, and otherwise asks for the first of them. -/
theorem settle_reading (hp : p.phase = .reading) (hc : r.database.closed = false)
    (h : r.rows? = some rows) (hready : rows.Ready p.collection) (hlimit : 1 ≤ p.limit) :
    (rows = [] ∧ ∃ m, p.settle r =
        ({ p with phase := .done (.ok p.report) }, { r with metrics := m })) ∨
      ∃ ms, ms ≠ [] ∧ List.Forall₂ (fun row m => row.mutation = .ok m) (rows.take p.limit) ms ∧
        p.settle r = ({ p with phase := .asking (deliverable ms) ms.length }, r) := by
  obtain ⟨ms, hd, hms⟩ := hready.exists_decode p.limit
  cases ms with
  | nil =>
    have hrows : rows = [] := by
      rw [List.forall₂_nil_right_iff, List.take_eq_nil_iff] at hms
      exact hms.resolve_left (by omega)
    have hproceed : p.proceed r = ({ p with phase := .closing none }, r) := by
      simp only [proceed, hp, Replica.exec_pending hc h, hd]
    obtain ⟨out, m, he⟩ := exec_count { p with phase := .closing none } r
    refine .inl ⟨hrows, m, ?_⟩
    rw [settle, hproceed]
    simp only [proceed, he]
  | cons m ms =>
    refine .inr ⟨m :: ms, List.cons_ne_nil m ms, hms, ?_⟩
    simp only [settle, proceed, hp, Replica.exec_pending hc h, hd]

/-- After a batch that was taken as a whole the pass goes on, unless it was all that waited. -/
theorem answered_all {ms : List Mutation} (hp : p.phase = .asking (deliverable ms) ms.length)
    (hne : ms ≠ []) (hr : r.Free) (h : r.rows? = some rows) :
    ∃ report r', r.Alike r' ∧
      r'.rows? = some (rows.acknowledge ((deliverable ms).map Mutation.id)).2 ∧
      p.answered (.ok (.all (deliverable ms))) r =
        ({ p with
            report
            phase := if ms.length < p.limit ∧ ms.length = (deliverable ms).length
              then .closing none else .reading }, r') := by
  obtain ⟨r', hr', hrows', he⟩ :=
    Reconcile.exec_apply_all p.collection p.maxRetries (deliverable ms) hr h
  generalize hpart : ({ accepted := (deliverable ms).map Mutation.id } : PushReport) = part at he
  have hgoes : continues p.limit ms.length (deliverable ms).length part = true ↔
      ¬ (ms.length < p.limit ∧ ms.length = (deliverable ms).length) := by
    have hids : part.accepted.isEmpty = false := by
      simpa [← hpart] using deliverable_ne_nil hne
    have hclean : part.clean = true := by
      rw [← hpart]
      rfl
    rw [not_and_or]
    simp [continues, hids, hclean]
  refine ⟨p.report.merge part, r', hr', hrows', ?_⟩
  simp only [answered, hp, he]
  by_cases hall : ms.length < p.limit ∧ ms.length = (deliverable ms).length
  · rw [if_pos hall, if_neg (mt hgoes.1 (not_not.2 hall))]
  · rw [if_neg hall, if_pos (hgoes.2 hall)]

/-- A batch that was taken leaves fewer rows. -/
theorem length_acknowledge_lt {ms : List Mutation} (hne : ms ≠ [])
    (hms : List.Forall₂ (fun row m => row.mutation = .ok m) (rows.take p.limit) ms)
    (hready : rows.Ready p.collection) :
    (rows.acknowledge ((deliverable ms).map Mutation.id)).2.length < rows.length := by
  obtain ⟨m, hm⟩ := List.exists_mem_of_ne_nil _ (deliverable_ne_nil hne)
  have hreads : Reads p.collection p.limit rows (deliverable ms) :=
    ⟨ms, by rw [hready.pending]; exact hms, rfl⟩
  obtain ⟨row, hrow, hf, -, hread⟩ := exists_row_of_reads hreads hm
  refine List.length_filter_lt_length_iff_exists.2 ⟨row, hrow, ?_⟩
  have hid : row.id ∈ (deliverable ms).map Mutation.id :=
    (Row.mutation_eq_ok hread).1 ▸ List.mem_map_of_mem hm
  simpa [Row.pending, hf] using hid

/-- No row is left of a batch that was all that waited. -/
theorem acknowledge_eq_nil {ms : List Mutation}
    (hms : List.Forall₂ (fun row m => row.mutation = .ok m) (rows.take p.limit) ms)
    (hready : rows.Ready p.collection) (hshort : ms.length < p.limit)
    (hall : ms.length = (deliverable ms).length) :
    (rows.acknowledge ((deliverable ms).map Mutation.id)).2 = [] := by
  have hbatch : deliverable ms = ms := (deliverable_sublist ms).eq_of_length hall.symm
  have hlen := hms.length_eq
  rw [List.length_take] at hlen
  rw [List.take_of_length_le (by omega)] at hms
  rw [hbatch]
  refine List.filter_eq_nil_iff.2 fun row hrow => ?_
  obtain ⟨i, hi, rfl⟩ := List.mem_iff_getElem.1 hrow
  have hread := (List.forall₂_iff_get.1 hms).2 i hi (hms.length_eq ▸ hi)
  have hid : (rows[i]).id ∈ ms.map Mutation.id :=
    (Row.mutation_eq_ok hread).1 ▸ List.mem_map_of_mem (List.get_mem _ _)
  simpa [Row.pending, (hready _ hrow).1] using hid

end

/-- A pass that nothing disturbs sends every row, in at most as many requests as there are rows. -/
theorem run_calm (fuel : Nat) {p : PushPass} {r : Replica} {s : Authority} {rows : Rows}
    (hp : p.phase = .reading) (hr : r.Free) (h : r.rows? = some rows)
    (hready : rows.Ready p.collection) (hlimit : 1 ≤ p.limit) (hs : ∀ n, s.sendFault n = none)
    (hfuel : rows.length ≤ fuel) :
    (∃ report, (run Authority.remote fuel (p.settle r).1 (p.settle r).2 s).1.phase =
        .done (.ok report)) ∧
      (run Authority.remote fuel (p.settle r).1 (p.settle r).2 s).2.1.rows? = some [] := by
  induction fuel generalizing p r s rows with
  | zero =>
    obtain rfl := List.length_eq_zero_iff.1 (Nat.le_zero.1 hfuel)
    rcases settle_reading hp hr.opened h hready hlimit with ⟨-, m, he⟩ | ⟨ms, hne, hms, -⟩
    · rw [he]
      exact ⟨⟨_, rfl⟩, h⟩
    · simp at hms
      exact absurd hms hne
  | succ fuel ih =>
    rcases settle_reading hp hr.opened h hready hlimit with ⟨hrows, m, he⟩ | ⟨ms, hne, hms, he⟩
    · rw [he]
      exact ⟨⟨_, rfl⟩, hrows ▸ h⟩
    · have hanswer : Authority.remote.send p.collection (deliverable ms) s =
          (.ok (.all (deliverable ms)),
            Authority.takeAll { s with sends := s.sends + 1 } (deliverable ms)) := by
        simp only [Authority.remote, Authority.pushed, hs]
      have hs' : ∀ n, (Authority.takeAll { s with sends := s.sends + 1 }
          (deliverable ms)).sendFault n = none := by
        intro n
        rw [(Authority.faults_takeAll _ _).2]
        exact hs n
      obtain ⟨report, r', hr', hrows', ha⟩ := answered_all
        (p := { p with phase := .asking (deliverable ms) ms.length }) rfl hne hr h
      simp only [he, run, hanswer, receive, ha]
      by_cases hall : ms.length < p.limit ∧ ms.length = (deliverable ms).length
      · simp only [if_pos hall]
        obtain ⟨m, hm⟩ := settle_closing (p := { p with report, phase := .closing none }) rfl r'
        rw [Option.elim_none] at hm
        rw [hm, run_over _ _ (p := { p with report, phase := .done (.ok report) }) rfl]
        refine ⟨⟨report, rfl⟩, ?_⟩
        rw [acknowledge_eq_nil hms hready hall.1 hall.2] at hrows'
        exact hrows'
      · simp only [if_neg hall]
        have hlt := length_acknowledge_lt hne hms hready
        exact ih rfl (hr'.free hr) hrows'
          (hready.mono fun row hrow => (List.mem_filter.1 hrow).1) hlimit hs' (by omega)

end PushPass

/-! ## Worlds -/

namespace World.Consistent

variable {collection : String} {w : World}

/-- A pull pass that nothing disturbs leaves nothing above the checkpoint. -/
theorem pull_calm (h : w.Consistent collection) (hc : w.Calm) (limit : Nat) {fuel : Nat}
    (hfuel : w.server.records.length < fuel) :
    (∃ report, (w.pull collection limit fuel).1.result? = some (.ok report)) ∧
      (w.pull collection limit fuel).2.server.above
        ((w.pull collection limit fuel).2.replica.persisted? collection) = [] := by
  have hle : (w.server.above (w.replica.checkpoint? collection)).length ≤
      w.server.records.length := List.length_filter_le _ _
  obtain ⟨⟨report, hdone⟩, hnil⟩ := PullPass.run_calm fuel h.server
    (PullPass.Sound.begin h.synced collection limit) rfl hc.free hc.accepting h.table hc.fetches
    (Nat.le_max_right _ _) (Nat.lt_of_le_of_lt hle hfuel)
  obtain ⟨n, hn⟩ :=
    PullPass.run_server fuel (w.replica.beginPull collection limit) w.replica w.server
  refine ⟨⟨report, ?_⟩, ?_⟩
  · rw [World.pull, PullPass.result?, hdone]
  · show (PullPass.run Authority.remote fuel (w.replica.beginPull collection limit) w.replica
      w.server).2.2.above _ = []
    rw [hn]
    exact hnil

/-- A push pass that nothing disturbs leaves no row, if each can be read. -/
theorem push_calm (h : w.Consistent collection) (hc : w.Calm)
    (hread : ∀ row ∈ w.rows, row.Readable) (limit maxRetries : Nat) {fuel : Nat}
    (hfuel : w.rows.length ≤ fuel) :
    (∃ report, (w.push collection limit maxRetries fuel).1.result? = some (.ok report)) ∧
      (w.push collection limit maxRetries fuel).2.rows = [] := by
  have hready : w.rows.Ready collection := by
    intro row hrow
    obtain ⟨hf, hcol, hn⟩ := h.pending row hrow
    exact ⟨hf, hcol, hn, hread row hrow⟩
  obtain ⟨⟨report, hdone⟩, hrows⟩ := PushPass.run_calm fuel
    (p := .begin collection limit maxRetries) rfl hc.free h.outbox hready (Nat.le_max_right _ _)
    hc.sends hfuel
  refine ⟨⟨report, ?_⟩, rows_of_eq hrows _ _⟩
  rw [World.push, PushPass.result?, hdone]

end World.Consistent

/-- Nothing fails after a push pass either. -/
theorem World.Calm.push {collection : String} {w : World} (hc : w.Calm)
    (h : w.Consistent collection) (limit maxRetries fuel : Nat) :
    (w.push collection limit maxRetries fuel).2.Calm := by
  have hs := h.sends limit maxRetries fuel
  refine ⟨hs.alike.free hc.free, ?_, fun n => ?_, fun n => ?_⟩
  · rw [hs.alike.documents]
    exact hc.accepting
  · rw [hs.fetches]
    exact hc.fetches n
  · rw [hs.sends]
    exact hc.sends n

end Replication
