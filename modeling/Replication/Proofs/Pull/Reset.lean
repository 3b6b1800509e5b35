import Mathlib.Logic.Function.Iterate
import Replication.Proofs.Pull.Exchanges

/-!
# A reset while a pull pass runs

A pull pass knows its position and does not read the checkpoint of its collection again, and nothing
keeps the checkpoint from being deleted between two of its steps. Once it is deleted it stays away
as long as the pass stands where it stood; as soon as the pass moves on, it writes its new position
as the checkpoint of the collection (`PullPass.Reset`). So the next pull starts from scratch just
when the pass moves no more after the reset (`PullPass.from_scratch_iff`).

Between two requests a pass makes three steps: it takes the answer, applies the page and saves the
checkpoint; a run is a number of these (`PullPass.run_eq_iterate`). Applying a page is one step,
since no change of a page reads or writes checkpoints.
-/

namespace Replication

namespace PullPass

/-- One step of a pass: its request is answered, or it goes on by itself. A pass that is over stays
as it is. -/
def step {σ : Type} (remote : Remote σ) : PullPass × Replica × σ → PullPass × Replica × σ
  | (p, r, s) =>
    match p.phase with
    | .asking =>
      let (answer, s) := remote.fetch p.collection p.position p.limit s
      let (p, r) := p.answered answer r
      (p, r, s)
    | _ =>
      let (p, r) := p.proceed r
      (p, r, s)

section step

variable {σ : Type} (remote : Remote σ)

theorem step_asking {p : PullPass} {answer : Except SyncError Page} {s s' : σ}
    (hp : p.phase = .asking) (hsent : remote.fetch p.collection p.position p.limit s = (answer, s'))
    (r : Replica) :
    step remote (p, r, s) = ((p.answered answer r).1, (p.answered answer r).2, s') := by
  simp only [step, hp, hsent]

theorem step_of_not_asking {p : PullPass} (hp : p.phase ≠ .asking) (r : Replica) (s : σ) :
    step remote (p, r, s) = ((p.proceed r).1, (p.proceed r).2, s) := by
  cases h : p.phase with
  | asking => exact absurd h hp
  | _ => simp only [step, h]

/-- Between an answer and the next request a pass has a page to apply and then to save, or it is
over. -/
theorem answered_not_asking (p : PullPass) (answer : Except SyncError Page) (r : Replica) :
    let x := p.answered answer r
    x.1.phase ≠ .asking ∧ (x.1.proceed x.2).1.phase ≠ .asking := by
  cases answer with
  | error e => exact ⟨nofun, nofun⟩
  | ok page =>
    unfold answered
    dsimp only
    split
    · exact ⟨nofun, nofun⟩
    split
    · exact ⟨nofun, nofun⟩
    · refine ⟨nofun, ?_⟩
      obtain ⟨report, m, h⟩ := @proceed_applying { p with
        report := { p.report with batches := p.report.batches + 1 }
        phase := .applying page } page rfl r
      rw [h]
      exact nofun

/-- What follows from a request, up to the next one, is three steps: the answer, applying the page
and saving the checkpoint. -/
theorem step_three {p : PullPass} {answer : Except SyncError Page} {s s' : σ}
    (hp : p.phase = .asking) (hsent : remote.fetch p.collection p.position p.limit s = (answer, s'))
    (r : Replica) :
    (step remote)^[3] (p, r, s) = ((p.receive answer r).1, (p.receive answer r).2, s') := by
  obtain ⟨happlying, hsaving⟩ := answered_not_asking p answer r
  rw [Function.iterate_succ_apply, Function.iterate_succ_apply, Function.iterate_one,
    step_asking remote hp hsent, step_of_not_asking remote happlying,
    step_of_not_asking remote hsaving]
  rfl

/-- A run is a number of steps. -/
theorem run_eq_iterate (fuel : ℕ) (p : PullPass) (r : Replica) (s : σ) :
    ∃ n, run remote fuel p r s = (step remote)^[n] (p, r, s) := by
  induction fuel generalizing p r s with
  | zero => exact ⟨0, rfl⟩
  | succ fuel ih =>
    by_cases hp : p.phase = .asking
    · rcases hsent : remote.fetch p.collection p.position p.limit s with ⟨answer, s'⟩
      obtain ⟨n, hn⟩ := ih (p.receive answer r).1 (p.receive answer r).2 s'
      refine ⟨n + 3, ?_⟩
      rw [Function.iterate_add_apply, step_three remote hp hsent, ← hn]
      simp only [run, hp, hsent]
    · exact ⟨0, run_over remote _ hp r s⟩

end step

/-! ## The checkpoint from step to step -/

/-- What a pass that completes reports is where it stands. -/
def Reports (p : PullPass) : Prop :=
  ∀ report, p.phase = .done (.ok report) → report.checkpoint = p.position

/-- What a step of a pass makes of its position and of the checkpoint of its collection: nothing, or
the pass moves on and the checkpoint with it. -/
structure Moves (p : PullPass) (r : Replica) (p' : PullPass) (r' : Replica) : Prop where
  collection : p'.collection = p.collection
  reports : p.Reports → p'.Reports
  position : p'.position = p.position ∧ r'.checkpoints = r.checkpoints ∨
    ∃ q, (∀ c, p.position = some c → c < q) ∧ p'.position = some q ∧
      r'.checkpoint? p.collection = some q

section steps

variable {p p' : PullPass} {r r' : Replica}

theorem moves_of_stays (hc : p'.collection = p.collection) (hr : p.Reports → p'.Reports)
    (hp : p'.position = p.position) (h : r'.checkpoints = r.checkpoints) : Moves p r p' r' :=
  ⟨hc, hr, .inl ⟨hp, h⟩⟩

theorem moves_failed (p : PullPass) (e : SyncError) (h : r'.checkpoints = r.checkpoints) :
    Moves p r (p.failed e) r' :=
  moves_of_stays rfl (fun _ _ he => by cases he) rfl h

theorem moves_answered (p : PullPass) (answer : Except SyncError Page) (r : Replica) :
    Moves p r (p.answered answer r).1 (p.answered answer r).2 := by
  cases answer with
  | error e => exact moves_failed p e rfl
  | ok page =>
    unfold answered
    dsimp only
    split
    · exact moves_of_stays rfl (fun _ _ he => by cases he) rfl rfl
    split
    · refine moves_of_stays rfl (fun _ report he => ?_) rfl rfl
      obtain rfl := Except.ok.inj (PullPhase.done.inj he)
      rfl
    · exact moves_of_stays rfl (fun _ _ he => by cases he) rfl rfl

/-- Saving fails, has nothing to do, or moves the pass and the checkpoint on. -/
theorem moves_saveTo {page : Page} {o : PageOutcome} (hp : p.phase = .saving page o)
    (next : Option Checkpoint) (r : Replica) :
    (∃ e r', p.saveTo next r = (.error e, r') ∧ r'.checkpoints = r.checkpoints) ∨
      ∃ p' r', p.saveTo next r = (.ok p', r') ∧ Moves p r p' r' := by
  have hreports {p' : PullPass} (hp' : p'.phase = p.phase) : p'.Reports := by
    intro report he
    rw [hp', hp] at he
    cases he
  rcases p.saveTo_ends next r with ⟨e, n, m, hs⟩ | hs | ⟨q, r', -, hlt, hs, hr'⟩
  · exact .inl ⟨e, _, hs, rfl⟩
  · exact .inr ⟨p, r, hs, moves_of_stays rfl id rfl rfl⟩
  · refine .inr ⟨_, r', hs, rfl, fun _ => hreports rfl, .inr ⟨q, hlt, rfl, ?_⟩⟩
    rcases hr' with ⟨hkept, rfl⟩ | ⟨t, n, m, -, rfl⟩
    · exact hkept
    · simp

theorem moves_proceed (p : PullPass) (r : Replica) :
    Moves p r (p.proceed r).1 (p.proceed r).2 := by
  cases hp : p.phase with
  | applying page =>
    obtain ⟨report, m, he⟩ := proceed_applying hp r
    rw [he]
    exact moves_of_stays rfl (fun _ _ he => by cases he) rfl rfl
  | saving page o =>
    rcases moves_saveTo hp (o.reaches? page) r with ⟨e, r', hs, hr'⟩ | ⟨p', r', hs, hm⟩
    · rw [proceed_unsaved hp hs]
      exact moves_failed p e hr'
    · rcases proceed_saved hp hs with ⟨-, -, report, h⟩ | ⟨report, m, hr, h⟩
      · rw [h]
        exact ⟨hm.collection, (fun _ _ he => by cases he), hm.position⟩
      · rw [h]
        refine ⟨hm.collection, fun _ report' he => ?_, hm.position⟩
        obtain rfl := Except.ok.inj (PullPhase.done.inj he)
        exact hr
  | _ =>
    simp only [proceed, hp]
    exact moves_of_stays rfl id rfl rfl

theorem moves_step {σ : Type} (remote : Remote σ) (x : PullPass × Replica × σ) :
    Moves x.1 x.2.1 (step remote x).1 (step remote x).2.1 := by
  obtain ⟨p, r, s⟩ := x
  cases hp : p.phase with
  | asking =>
    simp only [step, hp]
    exact moves_answered p _ r
  | _ =>
    simp only [step, hp]
    exact moves_proceed p r

/-- What such moves keep, any number of steps keeps. -/
theorem holds_iterate {σ : Type} (remote : Remote σ) (holds : PullPass → Replica → Prop)
    (hmoves : ∀ {p p' r r'}, holds p r → Moves p r p' r' → holds p' r')
    {x : PullPass × Replica × σ} (h : holds x.1 x.2.1) (n : ℕ) :
    holds ((step remote)^[n] x).1 ((step remote)^[n] x).2.1 := by
  induction n generalizing x with
  | zero => exact h
  | succ n ih => exact ih (hmoves h (moves_step remote x))

end steps

/-! ## A whole pass -/

theorem phase_of_result? {p : PullPass} {result : Except SyncError PullReport}
    (h : p.result? = some result) : p.phase = .done result := by
  unfold result? at h
  split at h
  · rename_i hp
    rw [hp, Option.some.inj h]
  · cases h

/-- What holds of a pass from its beginning to its end. -/
structure Standing (collection : String) (p : PullPass) : Prop where
  own : p.collection = collection
  reports : p.Reports

theorem Standing.moves {collection : String} {p p' : PullPass} {r r' : Replica}
    (h : p.Standing collection) (hm : Moves p r p' r') : p'.Standing collection :=
  ⟨hm.collection.trans h.own, hm.reports h.reports⟩

theorem standing_begin (r : Replica) (collection : String) (limit : ℕ) :
    (r.beginPull collection limit).Standing collection :=
  ⟨rfl, fun _ he => by cases he⟩

/-- A pass whose checkpoint was deleted when it stood at a position: it stands there still and there
is no checkpoint, or it has moved on and there is one. -/
structure Reset (collection : String) (start : Option Checkpoint) (p : PullPass)
    (r : Replica) : Prop extends Standing collection p where
  handed : p.position = start ∧ r.checkpoint? collection = none ∨
    ∃ q, (∀ c, start = some c → c < q) ∧ p.position = some q ∧
      r.checkpoint? collection = some q

theorem Standing.reset {collection : String} {p : PullPass} (h : p.Standing collection)
    {r r' : Replica} (hd : (Replica.deleteCheckpoint collection).exec r = (.ok (), r')) :
    Reset collection p.position p r' := by
  refine ⟨h, .inl ⟨rfl, ?_⟩⟩
  rcases Replica.exec_deleteCheckpoint collection r with ⟨e, n, m, he⟩ | ⟨t, n, m, -, he⟩
  · rw [he] at hd
    cases hd
  · rw [he] at hd
    obtain rfl := (Prod.mk.inj hd).2
    simp

theorem Reset.moves {collection : String} {start : Option Checkpoint} {p p' : PullPass}
    {r r' : Replica} (h : Reset collection start p r) (hm : Moves p r p' r') :
    Reset collection start p' r' where
  own := hm.collection.trans h.own
  reports := hm.reports h.reports
  handed := by
    rcases hm.position with ⟨hp, hr⟩ | ⟨q, hlt, hp, hr⟩
    · rw [hp, Replica.checkpoint?, hr]
      exact h.handed
    · rw [h.own] at hr
      refine .inr ⟨q, fun c hc => ?_, hp, hr⟩
      rcases h.handed with ⟨hstart, -⟩ | ⟨q', hlt', hq', -⟩
      · exact hlt c (hstart.trans hc)
      · exact lt_trans (hlt' c hc) (hlt q' hq')

/-- A pull pass makes some steps, the checkpoint of its collection is deleted, and the pass goes on
and completes. The next pull asks for everything just when the pass stands where it stood when the
checkpoint was deleted. Otherwise it asks for what is newer than the position that the pass moved on
to. -/
theorem from_scratch_iff {σ : Type} (remote : Remote σ) (collection : String) (limit : ℕ)
    (r : Replica) (s : σ) (k n : ℕ) (report : PullReport) :
    let before := (step remote)^[k] (r.beginPull collection limit, r, s)
    let deleted := (Replica.deleteCheckpoint collection).exec before.2.1
    let after := (step remote)^[n] (before.1, deleted.2, before.2.2)
    deleted.1 = .ok () → after.1.result? = some (.ok report) →
    ∀ limit' fuel : ℕ,
      let next := after.2.1.beginPull collection limit'
      let asked := (exchanges remote (fuel + 1) next after.2.1 after.2.2).head?.map Prod.fst
      (asked = some none ↔ report.checkpoint = before.1.position) ∧
      (report.checkpoint ≠ before.1.position → asked = some report.checkpoint ∧
        ∃ q, report.checkpoint = some q ∧ ∀ c, before.1.position = some c → c < q) := by
  intro before deleted after hd hresult limit' fuel next asked
  have hbefore : before.1.Standing collection :=
    holds_iterate remote (fun p _ => p.Standing collection) Standing.moves
      (standing_begin r collection limit) k
  have hdeleted : Reset collection before.1.position before.1 deleted.2 :=
    hbefore.reset (Prod.ext hd rfl)
  have hreset : Reset collection before.1.position after.1 after.2.1 :=
    holds_iterate remote (Reset collection before.1.position) Reset.moves hdeleted n
  have hphase : after.1.phase = .done (.ok report) := phase_of_result? hresult
  have hreport := hreset.reports report hphase
  have hasked : asked = some (after.2.1.checkpoint? collection) := rfl
  rw [hasked, hreport]
  rcases hreset.handed with ⟨hp, hc⟩ | ⟨q, hlt, hp, hc⟩
  · rw [hp, hc]
    exact ⟨by simp, fun hne => absurd rfl hne⟩
  · rw [hp, hc]
    have hne : some q ≠ before.1.position := fun he => lt_irrefl q (hlt q he.symm)
    exact ⟨by simp [hne], fun _ => ⟨rfl, q, rfl, hlt⟩⟩

/-- The checkpoint is deleted while a pull waits for an answer that brings nothing: the next pull
asks for everything. -/
theorem from_scratch_after_empty :
    let r := ((Replica.setCheckpoint "notes" ⟨"1"⟩).exec (({} : Replica).opened {})).2
    let deleted := (Replica.deleteCheckpoint "notes").exec r
    let after := (step Script.remote)^[1] (r.beginPull "notes" 10, deleted.2, {})
    let next := after.2.1.beginPull "notes" 10
    deleted.1 = .ok () ∧ (∃ report, after.1.result? = some (.ok report)) ∧
      (exchanges Script.remote 1 next after.2.1 after.2.2).head?.map Prod.fst = some none := by
  intro r deleted after next
  have hd : deleted.1 = .ok () := rfl
  let report : PullReport := { batches := 1, checkpoint := some ⟨"1"⟩ }
  have hresult : after.1.result? = some (.ok report) := rfl
  obtain ⟨hiff, -⟩ := from_scratch_iff Script.remote "notes" 10 r {} 0 1 report hd hresult 10 0
  exact ⟨hd, ⟨report, hresult⟩, hiff.2 rfl⟩

/-- The checkpoint is deleted while a pull waits for an answer that brings a change at position 2.
Deleting succeeds and so does the pull, and the next one asks for what is newer than 2. -/
theorem from_scratch_lost :
    let page : Page := ⟨[⟨"b", "notes", [], false, ⟨"2"⟩⟩], some ⟨"2"⟩⟩
    let s : Script := { pages := [⟨false, .ok page⟩] }
    let r := ((Replica.setCheckpoint "notes" ⟨"1"⟩).exec (({} : Replica).opened {})).2
    let deleted := (Replica.deleteCheckpoint "notes").exec r
    let after := (step Script.remote)^[3] (r.beginPull "notes" 10, deleted.2, s)
    let next := after.2.1.beginPull "notes" 10
    deleted.1.isOk = true ∧ (deleted.2.checkpoint? "notes").isNone = true ∧
      (after.1.result?.any fun result => result.isOk) = true ∧
      (exchanges Script.remote 1 next after.2.1 after.2.2).head?.map Prod.fst =
        some (some ⟨"2"⟩) := by
  decide +kernel

end PullPass

end Replication
