import Mathlib.Data.List.DropRight
import Mathlib.Data.List.Induction
import Replication.Proofs.Collection.History
import Replication.Proofs.Collection.Progress

/-!
# Epochs as the calls tell them

The progress of a collection is five flags and a published state. What they stand for is said here
of the calls alone: which epoch is open, what each lane reported of it, and which state that is.

1. The status stands for the calls so far (`StandsFor`): a begin starts anew, a report that is taken
   sets the flags of its lane, and nothing else touches them.
2. The published state is the one that the status amounts to, unless the collection was halted and
   the end of its epoch is not published yet. Each call keeps both (`Sound.perform`).
3. So a report is taken exactly while its epoch is open, a refused one changes nothing, and the
   published state is the one that the calls describe (`Course.fenced`).
-/

namespace Replication

theorem Lane.exists_iff {p : Lane → Prop} : (∃ l, p l) ↔ p .pull ∨ p .push := by
  constructor
  · rintro ⟨_ | _, hl⟩
    · exact .inl hl
    · exact .inr hl
  · rintro (hl | hl) <;> exact ⟨_, hl⟩

namespace Progress

/-- What a lane reports of a pass: that it began, or that it is over, cleanly or not. -/
inductive Report where
  | began
  | ended (clean : Bool)
  deriving DecidableEq, Repr

/-- A call on the progress of a collection. A report names the epoch of its pass, whichever. -/
inductive Call where
  | begin
  | report (epoch : Nat) (l : Lane) (r : Report)
  | halt
  | markStopped
  deriving DecidableEq, Repr

/-- A call that was made, and its answer. -/
inductive Deed where
  | began (epoch : Nat)
  | taken (l : Lane) (r : Report)
  | refused (epoch : Nat) (l : Lane) (r : Report)
  | halted
  | stopped
  deriving DecidableEq, Repr

/-- The progress after a report, if that is taken. -/
def report? (p : Progress) (epoch : Nat) (l : Lane) : Report → Option Progress
  | .began => p.beginPass? epoch l
  | .ended clean => p.finishPass? epoch l clean

/-- What a call does, and the progress after it. -/
def perform (p : Progress) : Call → Deed × Progress
  | .begin => (.began p.begin.status.epoch, p.begin)
  | .report epoch l r =>
    match p.report? epoch l r with
    | some p' => (.taken l r, p')
    | none => (.refused epoch l r, p)
  | .halt => (.halted, p.halt)
  | .markStopped => (.stopped, p.markStopped)

/-- A collection, and what was done to it, oldest first. -/
structure Course where
  progress : Progress := {}
  history : List Deed := []
  deriving DecidableEq, Repr

namespace Course

def perform (s : Course) (call : Call) : Course :=
  ⟨(s.progress.perform call).2, s.history ++ [(s.progress.perform call).1]⟩

/-- The course of calls on a new collection. -/
def run (calls : List Call) : Course := calls.foldl perform {}

theorem run_concat (calls : List Call) (call : Call) :
    run (calls ++ [call]) = (run calls).perform call := List.foldl_concat _ _ _ _

end Course

/-! ## What the calls tell -/

namespace Report

def outcome? : Report → Option Bool
  | .began => none
  | .ended clean => some clean

end Report

namespace Deed

/-- The epoch that a begin returned. -/
def epoch? : Deed → Option Nat
  | .began epoch => some epoch
  | _ => none

def begins (d : Deed) : Bool := d.epoch?.isSome

@[simp] theorem begins_began (epoch : Nat) : (began epoch).begins = true := rfl
@[simp] theorem begins_taken (l : Lane) (r : Report) : (taken l r).begins = false := rfl
@[simp] theorem begins_refused (epoch : Nat) (l : Lane) (r : Report) :
    (refused epoch l r).begins = false := rfl
@[simp] theorem begins_halted : halted.begins = false := rfl
@[simp] theorem begins_stopped : stopped.begins = false := rfl

/-- The report of a lane that was taken. -/
def reportOf? (l : Lane) : Deed → Option Report
  | .taken l' r => if l' = l then some r else none
  | _ => none

end Deed

/-- The epoch that the last begin returned. -/
def lastEpoch? (h : List Deed) : Option Nat := (h.filterMap Deed.epoch?).getLast?

/-- There was a begin and no halt since the last one: not every begin was followed by a halt. -/
def Open (h : List Deed) : Prop := ¬ Followed (·.begins) (· = .halted) h

/-- There was no begin since the last end of an epoch, or ever: every begin was followed by one. -/
def Stopped (h : List Deed) : Prop := Followed (·.begins) (· = .stopped) h

/-- Every halt was followed by the end of its epoch. -/
def NoHaltWaits (h : List Deed) : Prop := Followed (· = .halted) (· = .stopped) h

/-- The end of an epoch comes after a halt: between a begin and a later end lies one. -/
def Orderly (h : List Deed) : Prop := Parted (·.begins) (· = .stopped) (· = .halted) h

/-- What a lane reported since the last begin, as far as it was taken, oldest first. -/
def reports (l : Lane) (h : List Deed) : List Report :=
  (h.rtakeWhile (!·.begins)).filterMap (·.reportOf? l)

/-- The last report of the lane is that a pass began. -/
def InPass (l : Lane) (h : List Deed) : Prop := (reports l h).getLast? = some .began

/-- The last pass of the lane that is over was a failure. -/
def Failed (l : Lane) (h : List Deed) : Prop :=
  ((reports l h).filterMap Report.outcome?).getLast? = some false

/-- A push pass is over. -/
def Pushed (h : List Deed) : Prop := ∃ clean, .ended clean ∈ reports .push h

/-- A state is the one that the calls describe. -/
structure Describes (h : List Deed) (s : SyncState) : Prop where
  stopped : s = .stopped ↔ Stopped h
  syncing : ¬ Stopped h → (s = .syncing ↔ ¬ Pushed h ∨ ∃ l, InPass l h)
  error : ¬ Stopped h → Pushed h → (∀ l, ¬ InPass l h) → (s = .error ↔ ∃ l, Failed l h)
  idle : ¬ Stopped h → Pushed h → (∀ l, ¬ InPass l h) → (∀ l, ¬ Failed l h) → s = .idle

/-! ## One more deed -/

section

variable {h : List Deed} {d : Deed} {l : Lane}

theorem open_concat : Open (h ++ [d]) ↔ d.begins = true ∨ (d ≠ .halted ∧ Open h) := by
  rw [Open, followed_concat, Open]
  tauto

theorem noHaltWaits_concat :
    NoHaltWaits (h ++ [d]) ↔ d ≠ .halted ∧ (d = .stopped ∨ NoHaltWaits h) := followed_concat

theorem lastEpoch?_concat :
    lastEpoch? (h ++ [d]) = if d.begins then d.epoch? else lastEpoch? h := by
  unfold lastEpoch? Deed.begins
  cases he : d.epoch? <;> simp [List.filterMap_append, he]

theorem reports_concat : reports l (h ++ [d]) =
    if d.begins then [] else reports l h ++ (d.reportOf? l).toList := by
  unfold reports
  rw [List.rtakeWhile_concat]
  cases d.begins <;> cases hr : d.reportOf? l <;> simp [hr]

/-- A deed that says nothing of a lane. -/
theorem reports_concat_of_none (hb : d.begins = false) (hr : d.reportOf? l = none) :
    reports l (h ++ [d]) = reports l h := by
  rw [reports_concat, if_neg (by simp [hb]), hr, Option.toList_none, List.append_nil]

/-- A report that is taken. -/
theorem reports_concat_taken {l' : Lane} {r : Report} :
    reports l (h ++ [.taken l' r]) = if l' = l then reports l h ++ [r] else reports l h := by
  rw [reports_concat, if_neg nofun]
  by_cases hl : l' = l <;> simp [Deed.reportOf?, hl]

end

end Progress

/-! ## One report -/

/-- A lane after a report. -/
def LaneStatus.after (x : LaneStatus) : Progress.Report → LaneStatus
  | .began => { x with running := true }
  | .ended clean => ⟨false, !clean⟩

/-- The status after a report that is taken. -/
def Status.after (s : Status) (l : Lane) (r : Progress.Report) : Status :=
  { s.setLane l ((s.lane l).after r) with
    initial := s.initial && (l == .pull || r.outcome?.isNone) }

namespace Status

variable (s : Status) (l l' : Lane) (r : Progress.Report)

@[simp] theorem stopped_after : (s.after l r).stopped = s.stopped := by cases l <;> rfl

@[simp] theorem epoch_after : (s.after l r).epoch = s.epoch := by cases l <;> rfl

theorem lane_after : (s.after l r).lane l' = if l = l' then (s.lane l).after r else s.lane l' := by
  cases l <;> cases l' <;> rfl

theorem initial_after :
    (s.after l r).initial = (s.initial && (l == .pull || r.outcome?.isNone)) := rfl

theorem lane_stopped (stopped : Bool) : ({ s with stopped } : Status).lane l = s.lane l := by
  cases l <;> rfl

end Status

namespace Progress

/-- Beginning and ending a pass are one thing: the report of a lane, taken while its epoch goes on
and refused else. -/
theorem perform_report (p : Progress) (epoch : Nat) (l : Lane) (r : Report) :
    p.perform (.report epoch l r) =
      if p.status.admits epoch then
        (.taken l r, publish { p with status := p.status.after l r })
      else (.refused epoch l r, p) := by
  have hreport : p.report? epoch l r = if p.status.admits epoch then
      some (publish { p with status := p.status.after l r }) else none := by
    cases r <;> cases l <;> simp [report?, beginPass?, finishPass?, Status.after, Status.setLane,
      LaneStatus.after, Report.outcome?]
  simp only [perform, hreport]
  by_cases ha : p.status.admits epoch
  · simp only [if_pos ha]
  · simp only [if_neg ha]

/-! ## The status stands for the calls -/

/-- A status is what the calls so far amount to. -/
structure StandsFor (h : List Deed) (s : Status) : Prop where
  opened : s.stopped = false ↔ Open h
  epoch : Open h → lastEpoch? h = some s.epoch
  initial : Open h → (s.initial = true ↔ ¬ Pushed h)
  running (l : Lane) : (s.lane l).running = true ↔ InPass l h
  failed (l : Lane) : (s.lane l).failed = true ↔ Failed l h

namespace StandsFor

variable {h : List Deed} {s : Status} {d : Deed}

theorem new : StandsFor [] {} where
  opened := by simp [Open, followed_nil]
  epoch ho := absurd followed_nil ho
  initial ho := absurd followed_nil ho
  running l := by cases l <;> simp [Status.lane, InPass, reports]
  failed l := by cases l <;> simp [Status.lane, Failed, reports]

/-- A begin starts anew. -/
theorem began (epoch : Nat) :
    StandsFor (h ++ [.began epoch]) { epoch := epoch, stopped := false, initial := true } where
  opened := by simp [open_concat]
  epoch _ := by simp [lastEpoch?_concat, Deed.epoch?]
  initial _ := by simp [Pushed, reports_concat]
  running l := by
    cases l <;> simp [Status.lane, InPass, reports_concat]
  failed l := by
    cases l <;> simp [Status.lane, Failed, reports_concat]

/-- A deed that says nothing of a lane leaves the flags of the lanes as they are. -/
theorem concat_of_none (hs : StandsFor h s) {stopped : Bool} (hb : d.begins = false)
    (hr : ∀ l, d.reportOf? l = none) (ho : stopped = false ↔ Open (h ++ [d])) :
    StandsFor (h ++ [d]) { s with stopped } where
  opened := ho
  epoch hopen := by
    have hbefore := ((open_concat.1 hopen).resolve_left (by simp [hb])).2
    rw [lastEpoch?_concat, if_neg (by simp [hb])]
    exact hs.epoch hbefore
  initial hopen := by
    have hbefore := ((open_concat.1 hopen).resolve_left (by simp [hb])).2
    rw [Pushed, reports_concat_of_none hb (hr _)]
    exact hs.initial hbefore
  running l := by
    rw [Status.lane_stopped, InPass, reports_concat_of_none hb (hr l)]
    exact hs.running l
  failed l := by
    rw [Status.lane_stopped, Failed, reports_concat_of_none hb (hr l)]
    exact hs.failed l

/-- A report that is taken sets the flags of its lane. -/
theorem taken (hs : StandsFor h s) (l : Lane) (r : Report) :
    StandsFor (h ++ [.taken l r]) (s.after l r) where
  opened := by
    rw [Status.stopped_after, open_concat]
    simpa using hs.opened
  epoch hopen := by
    have hbefore := ((open_concat.1 hopen).resolve_left nofun).2
    rw [lastEpoch?_concat, if_neg nofun, Status.epoch_after]
    exact hs.epoch hbefore
  initial hopen := by
    have hbefore := ((open_concat.1 hopen).resolve_left nofun).2
    have hi := hs.initial hbefore
    rw [Status.initial_after, Pushed, reports_concat_taken]
    cases l <;> cases r <;> simp_all [Pushed, Report.outcome?]
  running l' := by
    rw [Status.lane_after, InPass, reports_concat_taken]
    by_cases hl : l = l'
    · subst hl
      cases r <;> simp [LaneStatus.after]
    · rw [if_neg hl, if_neg hl]
      exact hs.running l'
  failed l' := by
    rw [Status.lane_after, Failed, reports_concat_taken]
    by_cases hl : l = l'
    · subst hl
      rw [if_pos rfl, if_pos rfl, List.filterMap_append]
      cases r with
      | began => simpa [LaneStatus.after, Report.outcome?, Failed] using hs.failed l
      | ended clean => simp [LaneStatus.after, Report.outcome?]
    · rw [if_neg hl, if_neg hl]
      exact hs.failed l'

end StandsFor

/-- A status shows the state that the calls describe, once no halt waits for its end. -/
theorem StandsFor.describes {h : List Deed} {s : Status} (hs : StandsFor h s) (ho : Orderly h)
    (hw : NoHaltWaits h) : Describes h s.aggregate := by
  have hopen : Open h ↔ ¬ Stopped h := by
    rw [Open, not_iff_not]
    exact ⟨fun hb => hb.trans hw, fun hb => hb.of_parted ho⟩
  have hstopped : s.stopped = true ↔ Stopped h := by
    rw [← not_iff_not, Bool.not_eq_true, hs.opened, hopen]
  have hsyncing (hst : ¬ Stopped h) : (s.initial || s.pull.running || s.push.running) = true ↔
      ¬ Pushed h ∨ ∃ l, InPass l h := by
    rw [Bool.or_eq_true, Bool.or_eq_true, or_assoc, hs.initial (hopen.2 hst), Lane.exists_iff]
    exact or_congr Iff.rfl (or_congr (hs.running .pull) (hs.running .push))
  have herror : (s.pull.failed || s.push.failed) = true ↔ ∃ l, Failed l h := by
    rw [Bool.or_eq_true, Lane.exists_iff]
    exact or_congr (hs.failed .pull) (hs.failed .push)
  unfold Status.aggregate
  by_cases hst : Stopped h
  · rw [if_pos (hstopped.2 hst)]
    exact ⟨iff_of_true rfl hst, absurd hst, absurd hst, absurd hst⟩
  rw [if_neg (mt hstopped.1 hst)]
  by_cases hsync : ¬ Pushed h ∨ ∃ l, InPass l h
  · rw [if_pos ((hsyncing hst).2 hsync)]
    have hnot (hp : Pushed h) (hin : ∀ l, ¬ InPass l h) : False :=
      hsync.elim (absurd hp) (fun ⟨l, hl⟩ => hin l hl)
    exact ⟨iff_of_false nofun hst, fun _ => iff_of_true rfl hsync,
      fun _ hp hin => (hnot hp hin).elim, fun _ hp hin _ => (hnot hp hin).elim⟩
  rw [if_neg (mt (hsyncing hst).1 hsync)]
  by_cases hfail : ∃ l, Failed l h
  · rw [if_pos (herror.2 hfail)]
    exact ⟨iff_of_false nofun hst, fun _ => iff_of_false nofun hsync,
      fun _ _ _ => iff_of_true rfl hfail, fun _ _ _ hnone => (not_exists.2 hnone hfail).elim⟩
  · rw [if_neg (mt herror.1 hfail)]
    exact ⟨iff_of_false nofun hst, fun _ => iff_of_false nofun hsync,
      fun _ _ _ => iff_of_false nofun hfail, fun _ _ _ _ => rfl⟩

/-- The status stands for the calls, and it is published unless a halt waits for its end. -/
structure Sound (h : List Deed) (p : Progress) : Prop where
  stands : StandsFor h p.status
  published : NoHaltWaits h → p.published = p.status.aggregate

namespace Sound

variable {h : List Deed} {p : Progress}

theorem publish (hs : StandsFor h p.status) : Sound h p.publish :=
  ⟨by rwa [status_publish], fun _ => by rw [published_publish, status_publish]⟩

/-- Each call keeps the status and the published state to the calls. -/
theorem perform (hs : Sound h p) (call : Call) :
    Sound (h ++ [(p.perform call).1]) (p.perform call).2 := by
  obtain ⟨hstands, hpub⟩ := hs
  cases call with
  | begin =>
    have hbegin : p.begin.status =
        { epoch := p.status.epoch + 1, stopped := false, initial := true } := status_publish _
    show Sound (h ++ [.began p.begin.status.epoch]) p.begin
    rw [hbegin]
    exact publish (StandsFor.began _)
  | markStopped =>
    refine publish (hstands.concat_of_none rfl (fun _ => rfl) ?_)
    rw [hstands.opened, open_concat]
    simp [Progress.perform]
  | halt =>
    refine ⟨hstands.concat_of_none rfl (fun _ => rfl) ?_, fun hw => ?_⟩
    · rw [open_concat]
      simp [Progress.perform]
    · exact absurd rfl (noHaltWaits_concat.1 hw).1
  | report epoch l r =>
    rw [perform_report]
    split
    · exact publish (hstands.taken l r)
    · refine ⟨hstands.concat_of_none rfl (fun _ => rfl) ?_, fun hw => ?_⟩
      · rw [hstands.opened, open_concat]
        simp
      · exact hpub ((noHaltWaits_concat.1 hw).2.resolve_left nofun)

end Sound

/-! ## Courses -/

namespace Course

theorem sound_run (calls : List Call) : Sound (run calls).history (run calls).progress := by
  induction calls using List.reverseRecOn with
  | nil => exact ⟨.new, fun _ => rfl⟩
  | append_singleton calls call ih =>
    rw [run_concat]
    exact ih.perform call

/-- For every list of calls, in any order and with any epochs: a report is taken exactly if there
was a begin, no halt came since the last one, and the epoch is the one that it returned; a report
that is refused leaves the status and the published state as they are; and if the end of an epoch
is only published after a halt, then, whenever no halt waits for it, the published state is the one
that the calls describe. -/
theorem fenced (calls : List Call) :
    let s := run calls
    (∀ epoch l, (s.progress.beginPass? epoch l).isSome ↔
      Open s.history ∧ lastEpoch? s.history = some epoch) ∧
    (∀ epoch l clean, (s.progress.finishPass? epoch l clean).isSome ↔
      Open s.history ∧ lastEpoch? s.history = some epoch) ∧
    (∀ call epoch l r, (s.progress.perform call).1 = .refused epoch l r →
      (s.perform call).progress = s.progress) ∧
    (Orderly s.history → NoHaltWaits s.history → Describes s.history s.progress.published) := by
  intro s
  have hs : Sound s.history s.progress := sound_run calls
  have hadmits (epoch : Nat) : s.progress.status.admits epoch = true ↔
      Open s.history ∧ lastEpoch? s.history = some epoch := by
    rw [Status.admits_iff, hs.stands.opened]
    exact and_congr_right fun ho => by rw [hs.stands.epoch ho, Option.some_inj]
  refine ⟨fun epoch l => ?_, fun epoch l clean => ?_, fun call epoch l r h => ?_, fun ho hw => ?_⟩
  · rw [← hadmits, Option.isSome_iff_ne_none, ne_eq, beginPass?_eq_none_iff, Bool.not_eq_false]
  · rw [← hadmits, Option.isSome_iff_ne_none, ne_eq, finishPass?_eq_none_iff, Bool.not_eq_false]
  · cases call with
    | report epoch l r =>
      rw [perform_report] at h
      unfold Course.perform
      rw [perform_report]
      split at h
      · cases h
      · rename_i hrefused
        rw [if_neg hrefused]
    | _ => cases h
  · rw [hs.published hw]
    exact hs.stands.describes ho hw

/-- The second epoch ends its first push pass with a failure while a pull pass of the first one
reports again: that report is refused, and the state is the one of an error. -/
theorem stale_report_refused :
    let calls : List Call := [.begin, .halt, .markStopped, .begin, .report 2 .push (.ended false),
      .report 1 .pull .began]
    ((run calls).progress.beginPass? 1 .pull).isSome = false ∧
      Describes (run calls).history .error := by
  intro calls
  obtain ⟨hbegin, -, -, hstate⟩ := fenced calls
  have hhistory : (run calls).history = [] ++ [.began 1] ++ [.halted] ++ [.stopped] ++ [.began 2] ++
      [.taken .push (.ended false)] ++ [.refused 1 .pull .began] := rfl
  have hlast : lastEpoch? (run calls).history = some 2 := rfl
  have horderly : Orderly (run calls).history := by
    rw [hhistory]
    simp only [Orderly, parted_concat, followed_concat, parted_nil]
    simp
  have hwaits : NoHaltWaits (run calls).history := by
    rw [hhistory]
    simp only [noHaltWaits_concat]
    simp
  constructor
  · rw [← Bool.not_eq_true, hbegin, hlast]
    exact fun h => nomatch h.2
  · exact hstate horderly hwaits

end Course

end Progress

end Replication
