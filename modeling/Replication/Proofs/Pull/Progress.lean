import Replication.Proofs.Pull.Outcome
import Replication.Proofs.Replica.Checkpoints
import Replication.Pull.Pass

/-!
# A checkpoint never passes a change that was not written

A pull pass moves the checkpoint of its collection, and it may end at any request and with any
error. `PullPass.log` is everything that it wrote to the local documents, change by change. Between
two of its requests a pass stands where its checkpoint is kept, and all that it wrote so far was
written without a refusal (`PullPass.Sound`); one answer keeps it so (`PullPass.Sound.receive`),
and so does a run (`PullPass.Sound.run`).
-/

namespace Replication

namespace PullPass

/-- The changes that an answer brings, each with what becomes of it. A page with a fault brings
none. -/
def brought (p : PullPass) (answer : Except SyncError Page) (r : Replica) :
    List (Change × Option String) :=
  match answer with
  | .error _ => []
  | .ok page =>
    match page.fault? p.collection p.position with
    | some _ => []
    | none => r.documents.outcomes p.collection page.changes

/-- The changes that a run brings, each with what becomes of it. -/
def log {σ : Type} (remote : Remote σ) :
    Nat → PullPass → Replica → σ → List (Change × Option String)
  | 0, _, _, _ => []
  | fuel + 1, p, r, s =>
    match p.phase with
    | .asking =>
      let (answer, s) := remote.fetch p.collection p.position p.limit s
      p.brought answer r ++ log remote fuel (p.receive answer r).1 (p.receive answer r).2 s
    | _ => []

/-! ## One answer -/

theorem receive_error (p : PullPass) (e : SyncError) (r : Replica) :
    p.receive (.error e) r = (p.failed e, r) := rfl

theorem receive_fault {p : PullPass} {page : Page} {fault : Page.Fault}
    (h : page.fault? p.collection p.position = some fault) (r : Replica) :
    ∃ report, p.receive (.ok page) r =
      ({ p with report, phase := .done (.error (.protocol fault.text)) }, r) := by
  refine ⟨{ p.report with batches := p.report.batches + 1 }, ?_⟩
  simp only [receive, answered, h]
  rfl

theorem receive_empty {p : PullPass} {page : Page}
    (h : page.fault? p.collection p.position = none) (he : page.changes = []) (r : Replica) :
    ∃ report m, report.checkpoint = p.position ∧ p.receive (.ok page) r =
      ({ p with report, phase := .done (.ok report) }, { r with metrics := m }) := by
  let report : PullReport :=
    { p.report with batches := p.report.batches + 1, checkpoint := p.position }
  refine ⟨report, r.metrics.pullPass p.collection report.applied report.failures.length, rfl, ?_⟩
  simp only [receive, answered, h, he]
  rfl

theorem proceed_applying {p : PullPass} {page : Page} (hp : p.phase = .applying page)
    (r : Replica) :
    ∃ report m, p.proceed r =
      ({ p with
          report
          phase := .saving page (.of (r.documents.outcomes p.collection page.changes)) },
        { r with documents := r.documents.applyAll p.collection page.changes, metrics := m }) := by
  obtain ⟨m, hm⟩ := applyAll_eq p.collection page.changes {} r
  simp only [proceed, hp, hm]
  exact ⟨_, m, rfl⟩

/-- A page with changes is applied before the checkpoint is moved. -/
theorem receive_page {p : PullPass} {page : Page}
    (h : page.fault? p.collection p.position = none) (hne : page.changes ≠ []) (r : Replica) :
    ∃ report m, p.receive (.ok page) r =
      PullPass.proceed
        { p with
          report
          phase := .saving page (.of (r.documents.outcomes p.collection page.changes)) }
        { r with documents := r.documents.applyAll p.collection page.changes, metrics := m } := by
  have he : page.changes.isEmpty = false := by simpa using hne
  obtain ⟨report, m, hm⟩ := proceed_applying
    (p := { p with
      report := { p.report with batches := p.report.batches + 1 }
      phase := .applying page }) rfl r
  refine ⟨report, m, ?_⟩
  simp only [receive, answered, h, he, Bool.false_eq_true, if_false]
  rw [hm]

/-- A pass fails to save, has nothing to save, or moves to a newer position, which becomes the
checkpoint if it is not that already. -/
theorem saveTo_ends (p : PullPass) (next : Option Checkpoint) (r : Replica) :
    (∃ e n m, p.saveTo next r = (.error e, r.written r.database.tables n m)) ∨
    p.saveTo next r = (.ok p, r) ∨
    ∃ q r', next = some q ∧ (∀ c, p.position = some c → c < q) ∧
      p.saveTo next r = (.ok { p with position := some q }, r') ∧
      (r.checkpoint? p.collection = some q ∧ r' = r ∨
        ∃ t n m, r.database.tables.checkpoints = some t ∧
          r' = r.advanced p.collection q t n m) := by
  cases next with
  | none => exact .inr (.inl rfl)
  | some q =>
    dsimp only [saveTo]
    by_cases hp : p.position.all q.isAfter = true
    · rw [if_pos hp]
      have hlt : ∀ c, p.position = some c → c < q := by
        intro c hc
        simpa [hc] using hp
      rcases Replica.exec_setCheckpoint p.collection q r with
        ⟨e, n, m, hs⟩ | ⟨hkept, hs⟩ | ⟨t, n, m, ht, hs⟩
      · exact .inl ⟨e, n, m, by rw [hs]⟩
      · exact .inr (.inr ⟨q, r, rfl, hlt, by rw [hs], .inl ⟨hkept, rfl⟩⟩)
      · exact .inr (.inr ⟨q, _, rfl, hlt, by rw [hs], .inr ⟨t, n, m, ht, rfl⟩⟩)
    · rw [if_neg hp]
      exact .inr (.inl rfl)

/-- A pass that stands where its checkpoint is kept fails to save, has nothing to save, or moves
both forward. -/
theorem saveTo_cases {p : PullPass} {r : Replica} (h : p.position = r.checkpoint? p.collection)
    (next : Option Checkpoint) :
    (∃ e n m, p.saveTo next r = (.error e, r.written r.database.tables n m)) ∨
    p.saveTo next r = (.ok p, r) ∨
    ∃ q t n m, next = some q ∧ (∀ c, p.position = some c → c < q) ∧
      r.database.tables.checkpoints = some t ∧
      p.saveTo next r = (.ok { p with position := some q }, r.advanced p.collection q t n m) := by
  refine (p.saveTo_ends next r).imp_right (Or.imp_right ?_)
  rintro ⟨q, r', hq, hlt, hs, ⟨hkept, -⟩ | ⟨t, n, m, ht, rfl⟩⟩
  · exact absurd (hlt q (h.trans hkept)) (lt_irrefl q)
  · exact ⟨q, t, n, m, hq, hlt, ht, hs⟩

theorem all_isAfter {position : Option Checkpoint} {q : Checkpoint}
    (h : ∀ c, position = some c → c < q) : position.all q.isAfter = true := by
  cases position with
  | none => rfl
  | some c => simpa using h c rfl

/-- A pass that can write moves its checkpoint to a newer position. -/
theorem saveTo_admitted {p : PullPass} {r : Replica} {q : Checkpoint}
    {t : KeyMap String Checkpoint} (hr : r.Admits) (ht : r.database.tables.checkpoints = some t)
    (hpos : p.position = r.checkpoint? p.collection) (hlt : ∀ c, p.position = some c → c < q) :
    ∃ n m, p.saveTo (some q) r =
      (.ok { p with position := some q }, r.advanced p.collection q t n m) := by
  obtain ⟨n, m, hs⟩ := Replica.exec_setCheckpoint_admitted p.collection hr ht
    fun c hc => hlt c (hpos.trans hc)
  refine ⟨n, m, ?_⟩
  dsimp only [saveTo]
  rw [if_pos (all_isAfter hlt), hs]

/-- Once the checkpoint is where it belongs, the pass asks again, after a full page of which nothing
was refused, or is complete. -/
theorem proceed_saved {p p' : PullPass} {page : Page} {o : PageOutcome} {r r' : Replica}
    (hp : p.phase = .saving page o) (hs : p.saveTo (o.reaches? page) r = (.ok p', r')) :
    (o.failures = [] ∧ p'.limit ≤ page.changes.length ∧
      ∃ report, p.proceed r = ({ p' with report, phase := .asking }, r')) ∨
    ∃ report m, report.checkpoint = p'.position ∧
      p.proceed r =
        ({ p' with report, phase := .done (.ok report) }, { r' with metrics := m }) := by
  simp only [proceed, hp, hs]
  by_cases hc : (o.failures.isEmpty && decide (p'.limit ≤ page.changes.length)) = true
  · rw [if_pos hc]
    rw [Bool.and_eq_true, List.isEmpty_iff, decide_eq_true_eq] at hc
    exact .inl ⟨hc.1, hc.2, _, rfl⟩
  · rw [if_neg hc]
    exact .inr ⟨_, _, rfl, rfl⟩

theorem proceed_unsaved {p : PullPass} {page : Page} {o : PageOutcome} {r r' : Replica}
    {e : SyncError} (hp : p.phase = .saving page o)
    (hs : p.saveTo (o.reaches? page) r = (.error e, r')) : p.proceed r = (p.failed e, r') := by
  simp only [proceed, hp, hs]

/-- A page of which nothing was refused leads on to a newer position, if nothing stops the pass. -/
theorem proceed_free {p : PullPass} {page : Page} {o : PageOutcome} {r : Replica} {q : Checkpoint}
    {t : KeyMap String Checkpoint} (hp : p.phase = .saving page o) (ho : o.failures = [])
    (hq : o.reaches? page = some q) (hr : r.Free) (ht : r.database.tables.checkpoints = some t)
    (hpos : p.position = r.checkpoint? p.collection) (hlt : ∀ c, p.position = some c → c < q) :
    ∃ report n m, p.proceed r =
      ({ p with
          position := some q
          report
          phase := if p.limit ≤ page.changes.length then .asking else .done (.ok report) },
        r.advanced p.collection q t n m) := by
  obtain ⟨n, m, hs⟩ := saveTo_admitted hr.writable.admits ht hpos hlt
  simp only [proceed, hp, hq, hs, ho, List.isEmpty_nil, Bool.true_and, decide_eq_true_eq]
  by_cases hfull : p.limit ≤ page.changes.length
  · rw [if_pos hfull]
    exact ⟨_, n, m, by rw [if_pos hfull]⟩
  · let report : PullReport :=
      { p.report with failures := p.report.failures ++ [], checkpoint := some q }
    rw [if_neg hfull]
    refine ⟨report, n, m.pullPass p.collection report.applied report.failures.length, ?_⟩
    rw [if_neg hfull]
    rfl

theorem persisted_proceed {p : PullPass} {page : Page} {o : PageOutcome} {r : Replica}
    (hp : p.phase = .saving page o) (hpos : p.position = r.checkpoint? p.collection) :
    (p.proceed r).2.persisted? p.collection = r.persisted? p.collection ∨
      ∃ q, o.reaches? page = some q ∧ (p.proceed r).2.persisted? p.collection = some q := by
  have hsaved : ∀ {p' r'}, p.saveTo (o.reaches? page) r = (.ok p', r') →
      (p.proceed r).2.persisted? p.collection = r'.persisted? p.collection := by
    intro p' r' hs
    rcases proceed_saved hp hs with ⟨-, -, report, h⟩ | ⟨report, m, -, h⟩
    · rw [h]
    · rw [h]
      rfl
  rcases saveTo_cases hpos (o.reaches? page) with
    ⟨e, n, m, hs⟩ | hs | ⟨q, t, n, m, hq, -, -, hs⟩
  · rw [proceed_unsaved hp hs]
    exact .inl (Replica.persisted?_written_of_eq rfl n m _)
  · exact .inl (hsaved hs)
  · exact .inr ⟨q, hq, (hsaved hs).trans (by simp)⟩

/-- An answer leaves the checkpoint where it was, or moves it to where a page leads. -/
theorem persisted_receive {p : PullPass} {r : Replica}
    (hpos : p.position = r.checkpoint? p.collection) (answer : Except SyncError Page) :
    (p.receive answer r).2.persisted? p.collection = r.persisted? p.collection ∨
      ∃ page q, answer = .ok page ∧
        (PageOutcome.of (r.documents.outcomes p.collection page.changes)).reaches? page = some q ∧
        (p.receive answer r).2.persisted? p.collection = some q := by
  cases answer with
  | error e => exact .inl rfl
  | ok page =>
    cases hf : page.fault? p.collection p.position with
    | some fault =>
      obtain ⟨report, hr⟩ := receive_fault hf r
      rw [hr]
      exact .inl rfl
    | none =>
      by_cases hne : page.changes = []
      · obtain ⟨report, m, -, hr⟩ := receive_empty hf hne r
        rw [hr]
        exact .inl rfl
      · obtain ⟨report, m, hr⟩ := receive_page hf hne r
        rw [hr]
        rcases persisted_proceed (p := { p with
            report
            phase := .saving page (.of (r.documents.outcomes p.collection page.changes)) })
          (r := { r with
            documents := r.documents.applyAll p.collection page.changes, metrics := m })
          rfl hpos with h | ⟨q, hq, h⟩
        · exact .inl h
        · exact .inr ⟨page, q, rfl, hq, h⟩

/-! ## The invariant of a pass -/

/-- What holds of a replica, compared to before, after a pass brought some changes. -/
structure Kept (collection : String) (before : Replica) (log : List (Change × Option String))
    (r : Replica) : Prop where
  beside : before.Beside collection r
  logged : before.documents.Logged collection log
  written : r.documents = before.documents.applyAll collection (log.map Prod.fst)
  synced : r.Synced
  forward : ∀ q, before.persisted? collection = some q →
    ∃ q', r.persisted? collection = some q' ∧ q ≤ q'
  covered : ∀ e ∈ log, ∀ q, r.persisted? collection = some q → e.1.checkpoint ≤ q → e.2 = none

/-- What holds of the pass itself between two of its requests. -/
structure Sound (collection : String) (before : Replica) (log : List (Change × Option String))
    (p : PullPass) (r : Replica) : Prop extends Kept collection before log r where
  own : p.collection = collection
  asking : p.phase = .asking → p.position = r.persisted? collection ∧ Clean log
  reported : ∀ report, p.phase = .done (.ok report) → report.checkpoint = r.persisted? collection

theorem Sound.begin {r : Replica} (h : r.Synced) (collection : String) (limit : Nat) :
    Sound collection r [] (r.beginPull collection limit) r where
  beside := r.beside_refl collection
  logged := rfl
  written := rfl
  synced := h
  forward q hq := ⟨q, hq, le_refl q⟩
  covered := by simp
  own := rfl
  asking _ := ⟨h collection, clean_nil⟩
  reported _ hp := by cases hp

section steps

variable {collection : String} {before : Replica} {log l : List (Change × Option String)}
  {p p' : PullPass} {page : Page} {r r' : Replica}

theorem Kept.of_eq (h : Kept collection before log r) (hb : r.Beside collection r')
    (hs : r'.Synced) (hk : r'.persisted? collection = r.persisted? collection)
    (hd : r'.documents = r.documents) : Kept collection before log r' where
  beside := h.beside.trans hb
  logged := h.logged
  written := hd.trans h.written
  synced := hs
  forward q hq := hk ▸ h.forward q hq
  covered e he q hq := h.covered e he q (hk ▸ hq)

/-- A page that is newer than the checkpoint may be applied, whatever is refused. -/
theorem Kept.applied (h : Kept collection before log r)
    (hv : page.Valid collection (r.persisted? collection)) (m : Metrics) :
    Kept collection before (log ++ r.documents.outcomes collection page.changes)
      { r with documents := r.documents.applyAll collection page.changes, metrics := m } where
  beside := h.beside.trans ⟨rfl, rfl, rfl, rfl, fun _ _ => rfl⟩
  logged := h.logged.append (h.written ▸ Documents.logged_outcomes _ _ _)
  written := by
    rw [List.map_append, Documents.applyAll_append, ← h.written, Documents.map_fst_outcomes]
  synced := h.synced
  forward := h.forward
  covered e he q hq hle := by
    rcases List.mem_append.1 he with he | he
    · exact h.covered e he q hq hle
    · exact absurd hle (not_le_of_gt (hv.newer e.1 (Documents.fst_mem_of_mem_outcomes he) q hq))

/-- The checkpoint may be moved over an applied page to where the page leads. -/
theorem Kept.advanced (h : Kept collection before (log ++ l) r) (hlog : Clean log)
    (hl : (l.map fun e => e.1.checkpoint).Pairwise (· ≤ ·)) {q : Checkpoint}
    (hq : (PageOutcome.of l).reaches? page = some q)
    (hlt : ∀ q₀, r.persisted? collection = some q₀ → q₀ < q) {t : KeyMap String Checkpoint}
    (ht : r.database.tables.checkpoints = some t) (n : Nat) (m : Metrics) :
    Kept collection before (log ++ l) (r.advanced collection q t n m) where
  beside := h.beside.trans (r.beside_advanced ht collection q n m)
  logged := h.logged
  written := h.written
  synced := h.synced.advanced ht collection q n m
  forward q₀ hq₀ := by
    obtain ⟨q₁, hq₁, hle⟩ := h.forward q₀ hq₀
    exact ⟨q, by simp, le_trans hle (le_of_lt (hlt q₁ hq₁))⟩
  covered e he q' hq' hle := by
    obtain rfl : q = q' := by simpa using hq'
    rcases List.mem_append.1 he with he | he
    · exact hlog e he
    · exact PageOutcome.clean_of_le_reaches hl hq he hle

theorem Kept.failed (h : Kept collection before log r) (hown : p.collection = collection)
    {e : SyncError} (hp : p.phase = .done (.error e)) : Sound collection before log p r where
  toKept := h
  own := hown
  asking ha := by simp [hp] at ha
  reported report ha := by simp [hp] at ha

theorem Kept.complete (h : Kept collection before log r) (hown : p.collection = collection)
    {report : PullReport} (hp : p.phase = .done (.ok report))
    (hreport : report.checkpoint = r.persisted? collection) :
    Sound collection before log p r where
  toKept := h
  own := hown
  asking ha := by simp [hp] at ha
  reported report' ha := by
    obtain rfl : report = report' := by simpa [hp] using ha
    exact hreport

/-- A pass that saved is where its checkpoint is kept, and asks again only if nothing was
refused. -/
theorem Kept.saved (h : Kept collection before (log ++ l) r')
    (hp : p.phase = .saving page (.of l))
    (hs : p.saveTo ((PageOutcome.of l).reaches? page) r = (.ok p', r'))
    (hown : p'.collection = collection) (hpos : p'.position = r'.persisted? collection)
    (hlog : Clean log) : Sound collection before (log ++ l) (p.proceed r).1 (p.proceed r).2 := by
  rcases proceed_saved hp hs with ⟨hclean, -, report, hpr⟩ | ⟨report, m, hreport, hpr⟩
  · rw [hpr]
    refine ⟨h, hown, fun _ => ⟨hpos, ?_⟩, fun _ ha => by cases ha⟩
    exact clean_append.2 ⟨hlog, PageOutcome.failures_of_eq_nil_iff.1 hclean⟩
  · rw [hpr]
    exact Kept.complete (p := { p' with report, phase := .done (.ok report) })
      (h.of_eq (r'.beside_metrics _ m) h.synced rfl rfl) hown rfl (hreport.trans hpos)

/-- Moving the checkpoint over an applied page ends the pass or leads to its next request. -/
theorem Kept.proceed (h : Kept collection before (log ++ l) r)
    (hp : p.phase = .saving page (.of l)) (hown : p.collection = collection)
    (hpos : p.position = r.persisted? collection) (hlog : Clean log)
    (hl : (l.map fun e => e.1.checkpoint).Pairwise (· ≤ ·)) :
    Sound collection before (log ++ l) (p.proceed r).1 (p.proceed r).2 := by
  subst hown
  rcases saveTo_cases (hpos.trans (h.synced p.collection).symm) ((PageOutcome.of l).reaches? page)
    with ⟨e, n, m, hs⟩ | hs | ⟨q, t, n, m, hq, hlt, ht, hs⟩
  · rw [proceed_unsaved hp hs]
    exact (h.of_eq (r.beside_written _ n m) (h.synced.written rfl n m)
      (Replica.persisted?_written_of_eq rfl n m _) rfl).failed rfl rfl
  · exact h.saved hp hs rfl hpos hlog
  · rw [hpos] at hlt
    exact (h.advanced hlog hl hq hlt ht n m).saved hp hs rfl (by simp) hlog

/-- One answer keeps a pass sound. -/
theorem Sound.receive (h : Sound collection before log p r) (hp : p.phase = .asking)
    (answer : Except SyncError Page) :
    Sound collection before (log ++ p.brought answer r) (p.receive answer r).1
      (p.receive answer r).2 := by
  obtain ⟨hpos, hlog⟩ := h.asking hp
  obtain rfl := h.own
  cases answer with
  | error e =>
    rw [receive_error, brought, List.append_nil]
    exact h.toKept.failed rfl rfl
  | ok page =>
    dsimp only [brought]
    cases hf : page.fault? p.collection p.position with
    | some fault =>
      obtain ⟨report, hr⟩ := receive_fault hf r
      rw [hr, List.append_nil]
      exact h.toKept.failed rfl rfl
    | none =>
      have hv := Page.fault?_eq_none_iff.1 hf
      by_cases hne : page.changes = []
      · obtain ⟨report, m, hreport, hr⟩ := receive_empty hf hne r
        rw [hr, hne, Documents.outcomes, List.append_nil]
        exact Kept.complete (p := { p with report, phase := .done (.ok report) })
          (h.toKept.of_eq (r.beside_metrics _ m) h.synced rfl rfl) rfl rfl (hreport.trans hpos)
      · obtain ⟨report, m, hr⟩ := receive_page hf hne r
        rw [hr]
        refine (h.toKept.applied (hpos ▸ hv) m).proceed rfl rfl hpos hlog ?_
        have := hv.ordered
        rwa [← r.documents.map_fst_outcomes p.collection page.changes, List.map_map] at this

/-- A run keeps a pass sound. -/
theorem Sound.run {σ : Type} (remote : Remote σ) (fuel : Nat) (s : σ)
    (h : Sound collection before log p r) :
    Sound collection before (log ++ PullPass.log remote fuel p r s)
      (PullPass.run remote fuel p r s).1 (PullPass.run remote fuel p r s).2.1 := by
  induction fuel generalizing log p r s with
  | zero => simpa [PullPass.log, PullPass.run] using h
  | succ fuel ih =>
    cases hp : p.phase with
    | asking =>
      simp only [PullPass.log, PullPass.run, hp]
      rw [← List.append_assoc]
      exact ih _ (h.receive hp _)
    | _ => simpa [PullPass.log, PullPass.run, hp] using h

end steps

theorem Sound.run_begin {σ : Type} {r : Replica} (h : r.Synced) (remote : Remote σ)
    (collection : String) (limit fuel : Nat) (s : σ) :
    Sound collection r
      (PullPass.log remote fuel (r.beginPull collection limit) r s)
      (PullPass.run remote fuel (r.beginPull collection limit) r s).1
      (PullPass.run remote fuel (r.beginPull collection limit) r s).2.1 :=
  (Sound.begin h collection limit).run remote fuel s

/-! ## What a pass leaves behind -/

/-- Whatever the server answers, whatever is refused and whatever cannot be written: after any
number of requests, the log is what was written to the documents, the checkpoint is kept and is not
older than before, the changes up to it were all written, those that were refused are ahead of it,
and a report names it. -/
theorem checkpoint_covers_written {σ : Type} (remote : Remote σ) (collection : String)
    (limit fuel : Nat) (r : Replica) (s : σ) (h : r.Synced) :
    let pass := r.beginPull collection limit
    let log := PullPass.log remote fuel pass r s
    let p := (PullPass.run remote fuel pass r s).1
    let r' := (PullPass.run remote fuel pass r s).2.1
    r'.Synced ∧
    log = r.documents.outcomes collection (log.map Prod.fst) ∧
    r'.documents = r.documents.applyAll collection (log.map Prod.fst) ∧
    (∀ q, r.persisted? collection = some q →
      ∃ q', r'.persisted? collection = some q' ∧ q ≤ q') ∧
    (∀ e ∈ log, ∀ q, r'.persisted? collection = some q → e.1.checkpoint ≤ q → e.2 = none) ∧
    (∀ e ∈ log, ∀ q, r'.persisted? collection = some q → e.2 ≠ none → q < e.1.checkpoint) ∧
    ∀ report, p.result? = some (.ok report) → report.checkpoint = r'.persisted? collection := by
  have hs := Sound.run_begin h remote collection limit fuel s
  refine ⟨hs.synced, hs.logged, hs.written, hs.forward, hs.covered, ?_, ?_⟩
  · intro e he q hq hne
    exact lt_of_not_ge fun hle => hne (hs.covered e he q hq hle)
  · intro report hreport
    refine hs.reported report ?_
    unfold result? at hreport
    split at hreport
    · rename_i hp
      rw [hp, Option.some.inj hreport]
    · cases hreport

/-- The second of two changes is refused: the checkpoint stops at the first one. -/
theorem checkpoint_stops_at_refused :
    let r := ({} : Replica).refusing [("b", "full")]
    let page : Page :=
      ⟨[⟨"a", "notes", [], false, ⟨"1"⟩⟩, ⟨"b", "notes", [], false, ⟨"2"⟩⟩], some ⟨"2"⟩⟩
    let s : Script := { pages := [⟨false, .ok page⟩] }
    let log := PullPass.log Script.remote 2 (r.beginPull "notes" 10) r s
    let r' := (PullPass.run Script.remote 2 (r.beginPull "notes" 10) r s).2.1
    r.Synced ∧ log.map (fun e => (e.1.document, e.2)) = [("a", none), ("b", some "full")] ∧
      r'.persisted? "notes" = some ⟨"1"⟩ ∧ r'.Synced ∧
      ∀ e ∈ log, ∀ q, r'.persisted? "notes" = some q → e.2 ≠ none → q < e.1.checkpoint := by
  intro r page s log r'
  have hr : r.Synced := fun _ => rfl
  obtain ⟨hr', -, -, -, -, hahead, -⟩ := checkpoint_covers_written Script.remote "notes" 10 2 r s hr
  exact ⟨hr, rfl, rfl, hr', hahead⟩

end PullPass

end Replication
