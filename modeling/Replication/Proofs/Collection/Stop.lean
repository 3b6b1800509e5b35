import Replication.Proofs.Collection.Site

/-!
# Stops are final and passes exclude each other

1. `Collection.Fit` relates the run of a collection to its progress: the lanes of a run are of the
   present epoch and end only when that is halted, the push lane is past its gate only after a
   report of the pull lane, and a stop is complete only when both lanes are over.
2. `Site.Told` relates the collection to its history: by what was done, a guard says what may be
   done next.
3. Both are kept by every event, so they hold after any events (`Site.Sound.run`), and the rules of
   stops and passes follow (`Site.stop_is_final`).
-/

namespace Replication

namespace Run

/-- How a run relates to the status of its collection. -/
structure Fit (run : Run) (status : Status) : Prop where
  asked : run.stopping = true → status.stopped = true
  own : ∀ l, (run.lane l).lane = l ∧ (run.lane l).epoch = status.epoch
  ended : ∀ l, (run.lane l).isOver = true → status.stopped = true
  gate : run.push.phase ≠ .gated → run.pull.reported = true ∨ status.stopped = true

theorem Fit.kin {run run' : Run} {status : Status} (h : run.Fit status) (hk : run.Kin run') :
    run'.Fit status where
  asked hs := h.asked (hk.stopping ▸ hs)
  own l := ⟨(hk.lane l).lane.trans (h.own l).1, (hk.lane l).epoch.trans (h.own l).2⟩
  ended l ho := h.ended l ((hk.lane l).ended ▸ ho)
  gate hp := by
    rcases h.gate ((hk.lane .push).gated hp) with hr | hs
    · exact .inl ((hk.lane .pull).reported.trans hr)
    · exact .inr hs

/-- After a halt only the lanes' own marks matter. -/
theorem Fit.halted {run run' : Run} {status status' : Status} (h : run.Fit status)
    (hs : status'.stopped = true) (he : status'.epoch = status.epoch)
    (hl : ∀ l, (run'.lane l).lane = (run.lane l).lane ∧
      (run'.lane l).epoch = (run.lane l).epoch) : run'.Fit status' where
  asked _ := hs
  own l := ⟨(hl l).1.trans (h.own l).1, (hl l).2.trans ((h.own l).2.trans he.symm)⟩
  ended _ _ := hs
  gate _ := .inr hs

section

variable {run : Run} {l : Lane}

/-- A lane that moved is as fit as before. -/
theorem Fit.move {x : LaneContext} {w w' : LaneWork} {d : LaneDeed} {t' : LaneTask}
    (h : run.Fit w.progress.status) (hs : x.stopping = run.stopping)
    (hg : x.gateOpen = run.pull.opensGate) (hm : (run.lane l).Move x w d t' w') :
    (run.setLane l t').Fit w'.progress.status := by
  obtain ⟨hstopped, hepoch⟩ := hm.status
  refine ⟨fun hask => ?_, fun l' => ?_, fun l' hover => ?_, fun hp => ?_⟩
  · rw [hstopped]
    exact h.asked (by simpa using hask)
  · by_cases hl : l' = l
    · subst hl
      rw [lane_setLane, hm.lane_eq, hm.epoch_eq, hepoch]
      exact h.own l'
    · rw [lane_setLane_of_ne run hl, hepoch]
      exact h.own l'
  · rw [hstopped]
    by_cases hl : l' = l
    · subst hl
      rw [lane_setLane] at hover
      rcases hm.ended hover with hask | hno
      · exact h.asked (hs ▸ hask)
      · rw [(h.own l').2, Bool.eq_false_iff, ne_eq, Status.admits_iff] at hno
        simpa using hno
    · rw [lane_setLane_of_ne run hl] at hover
      exact h.ended l' hover
  · rw [hstopped]
    cases l with
    | pull =>
      rcases h.gate hp with hr | hstop
      · exact .inl (hm.reported_iff.2 (.inl hr))
      · exact .inr hstop
    | push =>
      rcases hm.gate hp with hp' | hopen | hask
      · exact h.gate hp'
      · rw [hg, LaneTask.opensGate, Bool.or_eq_true] at hopen
        exact hopen.imp_right (h.ended .pull)
      · exact .inr (h.asked (hs ▸ hask))

/-- What the reader of queued mutations gets is of no concern. -/
theorem abides_heard (run : Run) (news : EnqueueNews) (enqueues : EnqueueReader) (l : Lane) :
    (run.lane l).Abides ((run.heard news enqueues).lane l) := by
  have hnotify := (kin_notify { run with enqueues } .push).lane l
  cases news with
  | foreign => cases l <;> exact LaneTask.abides_refl _
  | own => cases l <;> exact hnotify
  | missed => cases l <;> exact hnotify

theorem fit_start {status : Status} (hs : run.stopping = false)
    (hl : ∀ l, run.lane l = .start l status.epoch) : run.Fit status where
  asked h := by simp [hs] at h
  own l := by
    rw [hl]
    exact ⟨rfl, rfl⟩
  ended l h := by
    rw [hl] at h
    cases l <;> cases h
  gate h := by
    have hpush : run.push = .start .push status.epoch := hl .push
    rw [hpush] at h
    exact absurd rfl h

end

end Run

namespace Collection

section

variable {c c' : Collection} {run run' : Run}

/-- How the parts of a collection relate to each other. -/
structure Fit (c : Collection) : Prop where
  idle : c.run = none →
    c.stop = none ∧ c.progress.status.stopped = true ∧ c.progress.published = .stopped
  halted : c.stop.isSome = true → c.progress.status.stopped = true
  running : ∀ run, c.run = some run → run.Fit c.progress.status
  drained : ∀ run tasks due, c.run = some run → c.stop = some (.draining tasks due) →
    ∀ l, RunTask.lane l ∉ tasks → (run.lane l).isOver = true

theorem Fit.kin (h : c.Fit) (hk : c.Kin c') : c'.Fit where
  idle hnone := by
    rw [hk.progress, hk.stop]
    exact h.idle (hk.idle hnone)
  halted hs := by
    rw [hk.progress]
    exact h.halted (hk.stop ▸ hs)
  running run' hr' := by
    obtain ⟨run, hr, hrun⟩ := hk.running run' hr'
    rw [hk.progress]
    exact (h.running run hr).kin hrun
  drained run' tasks due hr' hs l hl := by
    obtain ⟨run, hr, hrun⟩ := hk.running run' hr'
    rw [(hrun.lane l).ended]
    exact h.drained run tasks due hr (hk.stop ▸ hs) l hl

section

variable {s s' : Surroundings}

theorem Fit.start (h : c.Fit) (hr : c.run = none) (hs : run.stopping = false)
    (hl : ∀ l, run.lane l = .start l c.progress.begin.status.epoch) :
    Fit { c with progress := c.progress.begin, run := some run } where
  idle hnone := by cases hnone
  halted hstop := by simp [(h.idle hr).1] at hstop
  running run' hr' := by
    cases hr'
    exact Run.fit_start hs hl
  drained run' tasks due _ hstop := by
    rw [(h.idle hr).1] at hstop
    cases hstop

theorem Fit.halt (h : c.Fit) : Fit { c with progress := c.progress.halt } where
  idle hr := ⟨(h.idle hr).1, rfl, (h.idle hr).2.2⟩
  halted _ := rfl
  running run hr := (h.running run hr).halted rfl rfl fun _ => ⟨rfl, rfl⟩
  drained := h.drained

theorem Fit.move (h : c.Fit) (hr : c.run = some run) {l : Lane} {d : LaneDeed} {t' : LaneTask}
    {w' : LaneWork}
    (hm : (run.lane l).Move (run.context c.path s) ⟨c.progress, s.replica, c.script⟩ d t' w') :
    Fit { c with
      progress := w'.progress, script := w'.script, run := some (run.setLane l t') } where
  idle hnone := by cases hnone
  halted hstop := by
    rw [hm.status.1]
    exact h.halted hstop
  running run' hr' := by
    cases hr'
    exact (h.running run hr).move rfl rfl hm
  drained run' tasks due hr' hstop l' hl' := by
    cases hr'
    have hover := h.drained run tasks due hr hstop l' hl'
    by_cases hl : l' = l
    · subst hl
      simp [hm.isOver_eq_false] at hover
    · rw [Run.lane_setLane_of_ne run hl]
      exact hover

/-- The two lanes are among the tasks that a stop waits for. -/
theorem lane_mem_drained (run : Run) (l : Lane) : RunTask.lane l ∈ drained run := by
  cases l <;> simp [drained]

theorem Fit.heard (h : c.Fit) (hr : c.run = some run) (news : EnqueueNews)
    (enqueues : EnqueueReader) : Fit { c with run := some (run.heard news enqueues) } where
  idle hnone := by cases hnone
  halted := h.halted
  running run' hr' := by
    cases hr'
    have hfit : Run.Fit { run with enqueues } c.progress.status := by
      obtain ⟨hask, hown, hover, hgate⟩ := h.running run hr
      refine ⟨hask, fun l => ?_, fun l => ?_, hgate⟩
      · cases l with
        | pull => exact hown .pull
        | push => exact hown .push
      · cases l with
        | pull => exact hover .pull
        | push => exact hover .push
    cases news with
    | foreign => exact hfit
    | own => exact hfit.kin (Run.kin_notify _ .push)
    | missed => exact hfit.kin (Run.kin_notify _ .push)
  drained run' tasks due hr' hstop l hl := by
    cases hr'
    rw [(run.abides_heard news enqueues l).ended]
    exact h.drained run tasks due hr hstop l hl

theorem Fit.beginStop (h : c.Fit) (hr : c.run = some run) (hstop : c.stop = none) :
    (c.beginStop s).Fit := by
  have hsession : c.session? = some run := by simp [session?, hstop, hr]
  unfold Collection.beginStop
  rw [hsession]
  refine ⟨nofun, fun _ => rfl, fun run' hr' => ?_, fun run' tasks due hr' hs l hl => ?_⟩
  · cases hr'
    exact (h.running run hr).halted rfl rfl fun l => by cases l <;> exact ⟨rfl, rfl⟩
  · cases hr'
    dsimp only at hs
    split at hs
    · cases hs
    · cases hs
      exact absurd (lane_mem_drained _ l) hl

/-- A stop that is complete leaves a collection that is stopped. -/
theorem Fit.endStop (h : c.Fit) (hstop : c.stop.isSome = true) :
    Fit { c with progress := c.progress.markStopped, run := none, stop := none } where
  idle _ := by
    have hs := h.halted hstop
    refine ⟨rfl, ?_, ?_⟩
    · simpa [Progress.markStopped] using hs
    · simp [Progress.markStopped, Status.aggregate, hs]
  halted hnone := by cases hnone
  running run hr := by cases hr
  drained run tasks due hr := by cases hr

/-- A stop that goes on waits for the tasks that are left; the two lanes are over by then, or among
them. -/
theorem Fit.drainFrom (h : c.Fit) (hr : c.run = some run) {stage : StopStage}
    (hstop : c.stop = some stage) (hl : ∀ l, (run'.lane l).lane = (run.lane l).lane ∧
      (run'.lane l).epoch = (run.lane l).epoch) {tasks : List RunTask}
    (hdrained : ∀ l, RunTask.lane l ∉ tasks → (run'.lane l).isOver = true) :
    Fit { c with run := some run', stop := some (Collection.drainFrom tasks s) } := by
  have hs := h.halted (by simp [hstop])
  refine ⟨nofun, fun _ => hs, fun run'' hr'' => ?_, fun run'' tasks' due hr'' hs' => ?_⟩
  · cases hr''
    exact (h.running run hr).halted hs rfl hl
  · cases hr''
    cases hs'
    exact hdrained

end

end

/-- Collections that agree in whether they are halted, with lanes that differ at most in their
triggers and in replies that came. -/
structure Near (c c' : Collection) : Prop where
  stopped : c'.progress.status.stopped = c.progress.status.stopped
  idle : c'.run = none → c.run = none
  running : ∀ run', c'.run = some run' →
    ∃ run, c.run = some run ∧ ∀ l, (run.lane l).Abides (run'.lane l)

theorem Kin.near {c c' : Collection} (hk : c.Kin c') : c.Near c' where
  stopped := by rw [hk.progress]
  idle := hk.idle
  running run' hr' := by
    obtain ⟨run, hr, hrun⟩ := hk.running run' hr'
    exact ⟨run, hr, hrun.lane⟩

theorem near_of_run {c : Collection} {run run' : Run} (hr : c.run = some run)
    (hl : ∀ l, (run.lane l).Abides (run'.lane l)) {stage : Option StopStage} :
    c.Near { c with run := some run', stop := stage } where
  stopped := rfl
  idle h := by cases h
  running run'' h := ⟨run, hr, Option.some.inj h ▸ hl⟩

theorem near_beginStop {c : Collection} {run : Run} {s : Surroundings} (hr : c.run = some run)
    (hnone : c.stop = none) (hs : c.progress.status.stopped = true) : c.Near (c.beginStop s) := by
  have hsession : c.session? = some run := by simp [session?, hnone, hr]
  unfold beginStop
  rw [hsession]
  refine ⟨hs.symm, nofun, fun run' hr' => ⟨run, hr, fun l => ?_⟩⟩
  cases hr'
  exact LaneTask.abides_refl (run.lane l)

theorem Near.run_of_run {c c' : Collection} (hn : c.Near c') {run : Run} (hr : c.run = some run) :
    ∃ run', c'.run = some run' ∧ ∀ l, (run.lane l).Abides (run'.lane l) := by
  cases hr' : c'.run with
  | none => simp [hn.idle hr'] at hr
  | some run' =>
    obtain ⟨run₀, hr₀, hrun⟩ := hn.running run' hr'
    rw [hr] at hr₀
    cases hr₀
    exact ⟨run', rfl, hrun⟩

end Collection

/-! ## The history -/

/-- Deeds that end the pass of a lane. -/
def Deed.EndsPass (l : Lane) (d : Deed) : Prop :=
  (∃ taken, d = .lane l (.ended taken)) ∨ d = .abandoned l

namespace Site

/-- What the present state says of the history, and so allows. -/
structure Told (c : Collection) (h : List Deed) : Prop where
  exclusive : ∀ l, Guarded (· = .lane l .began) (· = .lane l .began) (Deed.EndsPass l)
    (∀ run, c.run = some run → (run.lane l).pass? = none) h
  fenced : ∀ l, Guarded (· = .fenced) (· = .lane l .began) (· = .started)
    (c.progress.status.stopped = false) h
  silent : ∀ l, Guarded (· = .stopped) (· = .lane l .asked) (· = .started)
    (c.run.isSome = true) h
  pulled : Guarded (· = .started) (· = .lane .push .began) (· = .lane .pull (.ended true))
    (∃ run, c.run = some run ∧ run.pull.reported = true) h

section

variable {c c' : Collection} {h : List Deed} {run : Run} {l : Lane}

theorem told_fresh (c : Collection) : Told c [] :=
  ⟨fun _ => guarded_nil, fun _ => guarded_nil, fun _ => guarded_nil, guarded_nil⟩

theorem Told.near (ht : Told c h) (hn : c.Near c') : Told c' h where
  exclusive l := by
    refine (ht.exclusive l).mono fun hcalm run hr => ?_
    obtain ⟨run', hr', hl⟩ := hn.run_of_run hr
    exact (hl l).pass (hcalm run' hr')
  fenced l := (ht.fenced l).mono fun hs => hn.stopped ▸ hs
  silent l := by
    refine (ht.silent l).mono fun hrun => ?_
    obtain ⟨run', hr'⟩ := Option.isSome_iff_exists.1 hrun
    obtain ⟨run, hr, -⟩ := hn.running run' hr'
    rw [hr]
    rfl
  pulled := by
    refine ht.pulled.mono ?_
    rintro ⟨run', hr', hreported⟩
    obtain ⟨run, hr, hl⟩ := hn.running run' hr'
    exact ⟨run, hr, (hl .pull).reported.symm.trans hreported⟩

/-- The two halves of queueing a mutation are of no concern. -/
theorem Told.queueing (ht : Told c h) {d : Deed}
    (hd : (∃ collection, d = .queued collection) ∨ ∃ place, d = .returned place) :
    Told c (h ++ [d]) := by
  rcases hd with ⟨collection, rfl⟩ | ⟨place, rfl⟩ <;>
    exact ⟨fun l => (ht.exclusive l).concat nofun fun hg => ⟨nofun, .inr hg⟩,
      fun l => (ht.fenced l).concat nofun fun hg => ⟨nofun, .inr hg⟩,
      fun l => (ht.silent l).concat nofun fun hg => ⟨nofun, .inr hg⟩,
      ht.pulled.concat nofun fun hg => ⟨nofun, .inr hg⟩⟩

theorem Told.start (ht : Told c h) (hr : c.run = none) {p : Progress}
    (hl : run.pull.reported = false) :
    Told { c with progress := p, run := some run } (h ++ [.started]) where
  exclusive l := by
    refine (ht.exclusive l).concat nofun fun _ => ⟨nofun, .inr fun run' hr' => ?_⟩
    simp [hr] at hr'
  fenced l := (ht.fenced l).concat nofun fun _ => ⟨nofun, .inl rfl⟩
  silent l := (ht.silent l).concat nofun fun _ => ⟨nofun, .inl rfl⟩
  pulled := by
    refine ht.pulled.concat nofun ?_
    rintro ⟨run', hr', hreported⟩
    cases hr'
    simp [hl] at hreported

theorem Told.halt (ht : Told c h) :
    Told { c with progress := c.progress.halt } (h ++ [.fenced]) where
  exclusive l := (ht.exclusive l).concat nofun fun hg => ⟨nofun, .inr hg⟩
  fenced l := (ht.fenced l).concat nofun nofun
  silent l := (ht.silent l).concat nofun fun hg => ⟨nofun, .inr hg⟩
  pulled := ht.pulled.concat nofun fun hg => ⟨nofun, .inr hg⟩

/-- A stop returns only when no pass is under way. -/
theorem Told.stopped (ht : Told c h) (hr' : c'.run = none)
    (hs : c'.progress.status.stopped = c.progress.status.stopped)
    (hcalm : ∀ run, c.run = some run → ∀ l, (run.lane l).pass? = none) :
    Told c' (h ++ [.stopped]) where
  exclusive l :=
    (ht.exclusive l).concat nofun fun _ => ⟨nofun, .inr fun run hr => hcalm run hr l⟩
  fenced l := (ht.fenced l).concat nofun fun hg => ⟨nofun, .inr (hs ▸ hg)⟩
  silent l := by
    refine (ht.silent l).concat nofun fun hrun => ?_
    simp [hr'] at hrun
  pulled := by
    refine ht.pulled.concat nofun ?_
    rintro ⟨run, hr, -⟩
    simp [hr'] at hr

/-- A lane that is let go of is in no pass any more. -/
theorem Told.abandon (ht : Told c h) (hr : c.run = some run) (t : RunTask)
    {stage : Option StopStage} :
    Told { c with run := some (run.abort t), stop := stage } (h ++ abandonment t) := by
  cases t with
  | lane l =>
    refine ⟨fun l' => ?_, fun l' => ?_, fun l' => ?_, ?_⟩
    · refine (ht.exclusive l').concat nofun fun hcalm => ⟨nofun, ?_⟩
      by_cases hl : l' = l
      · subst hl
        exact .inl (.inr rfl)
      · refine .inr fun run' hr' => ?_
        rw [hr] at hr'
        cases hr'
        have := hcalm _ rfl
        rwa [Run.lane_abort, if_neg fun heq => hl (RunTask.lane.inj heq).symm] at this
    · exact (ht.fenced l').concat nofun fun hg => ⟨nofun, .inr hg⟩
    · exact (ht.silent l').concat nofun fun _ => ⟨nofun, .inr (by simp [hr])⟩
    · refine ht.pulled.concat nofun ?_
      rintro ⟨run', hr', hreported⟩
      cases hr'
      refine ⟨nofun, .inr ⟨run, hr, ?_⟩⟩
      have habort := Run.lane_abort run (.lane l) .pull
      change (run.abort (.lane l)).pull = _ at habort
      rw [habort] at hreported
      split at hreported <;> exact hreported
  | _ =>
    simp only [abandonment, List.append_nil]
    refine ht.near (Collection.near_of_run hr fun l => ?_)
    rw [Run.lane_abort, if_neg nofun]
    exact LaneTask.abides_refl _

theorem Told.move (ht : Told c h) (hfit : c.Fit) (hr : c.run = some run) {s : Surroundings}
    {d : LaneDeed} {t' : LaneTask} {w' : LaneWork}
    (hm : (run.lane l).Move (run.context c.path s) ⟨c.progress, s.replica, c.script⟩ d t' w') :
    Told { c with progress := w'.progress, script := w'.script, run := some (run.setLane l t') }
      (h ++ [.lane l d]) where
  exclusive l' := by
    have hset : ∀ l', (∀ run', some (run.setLane l t') = some run' →
        (run'.lane l').pass? = none) ↔ ((run.setLane l t').lane l').pass? = none := by
      simp
    have hold : ∀ l', (∀ run', c.run = some run' → (run'.lane l').pass? = none) ↔
        (run.lane l').pass? = none := by
      simp [hr]
    by_cases hl : l' = l
    · subst hl
      rcases hm.pass with ⟨rfl, hp, hp'⟩ | ⟨⟨taken, rfl⟩, -⟩ | ⟨hd, hp⟩
      · refine (ht.exclusive l').concat (fun _ => (hold l').2 hp) fun hg => ?_
        rw [hset, Run.lane_setLane] at hg
        exact absurd hg hp'
      · exact (ht.exclusive l').concat nofun fun _ => ⟨nofun, .inl (.inl ⟨taken, rfl⟩)⟩
      · have hne : Deed.lane l' d ≠ .lane l' .began := fun heq => hd (Deed.lane.inj heq).2
        refine (ht.exclusive l').concat (fun heq => absurd heq hne) fun hg => ⟨hne, .inr ?_⟩
        rw [hset, Run.lane_setLane] at hg
        exact (hold l').2 (hp hg)
    · have hne : Deed.lane l d ≠ .lane l' .began := fun heq => hl (Deed.lane.inj heq).1.symm
      refine (ht.exclusive l').concat (fun heq => absurd heq hne) fun hg => ⟨hne, .inr ?_⟩
      rw [hset, Run.lane_setLane_of_ne run hl] at hg
      exact (hold l').2 hg
  fenced l' := by
    refine (ht.fenced l').concat (fun heq => ?_) fun hg => ⟨nofun, .inr (hm.status.1 ▸ hg)⟩
    obtain ⟨rfl, rfl⟩ := Deed.lane.inj heq
    exact (Status.admits_iff.1 hm.began.1).1
  silent l' := (ht.silent l').concat (fun _ => by simp [hr]) fun _ => ⟨nofun, .inr (by simp [hr])⟩
  pulled := by
    refine ht.pulled.concat (fun heq => ?_) ?_
    · obtain ⟨rfl, rfl⟩ := Deed.lane.inj heq
      obtain ⟨hadmits, hgate⟩ := hm.began
      have hgoes := (Status.admits_iff.1 hadmits).1
      rcases (hfit.running run hr).gate hgate with hreported | hstop
      · exact ⟨run, hr, hreported⟩
      · simp [hstop] at hgoes
    · rintro ⟨run', hr', hreported⟩
      cases hr'
      refine ⟨nofun, ?_⟩
      cases l with
      | push => exact .inr ⟨run, hr, hreported⟩
      | pull =>
        rcases hm.reported_iff.1 hreported with hbefore | rfl
        · exact .inr ⟨run, hr, hbefore⟩
        · exact .inl rfl

end

/-- A lane that is over is in no pass. -/
theorem pass?_of_isOver {t : LaneTask} (h : t.isOver = true) : t.pass? = none := by
  unfold LaneTask.isOver at h
  unfold LaneTask.pass?
  split at h
  · simp [*]
  · cases h

/-! ## Every event -/

/-- What holds of a site after any events. -/
structure Sound (s : Site) : Prop where
  fit : s.collection.Fit
  told : Told s.collection s.history

section

variable {s s' : Site}

theorem sound_fresh (path : String) (script : Script) (source : EventSource)
    (shared : Surroundings) : (fresh path script source shared).Sound where
  fit := by
    refine ⟨fun _ => ⟨rfl, rfl, rfl⟩, fun h => ?_, fun run h => ?_, fun run tasks due h => ?_⟩
    · cases h
    · cases h
    · cases h
  told := told_fresh _

theorem Sound.change (h : s.Sound) (hc : Change s s') : s'.Sound := by
  cases hc with
  | aside hk _ => exact ⟨h.fit.kin hk, h.told.near hk.near⟩
  | @heard run news enqueues shared hr _ _ =>
    exact ⟨h.fit.heard hr news enqueues,
      h.told.near (Collection.near_of_run hr (run.abides_heard news enqueues))⟩
  | moved hr hm => exact ⟨h.fit.move hr hm, h.told.move h.fit hr hm⟩
  | @started run shared hr hs hl _ _ =>
    refine ⟨h.fit.start hr hs hl, h.told.start hr ?_⟩
    have hpull : run.pull = .start .pull s.collection.progress.begin.status.epoch := hl .pull
    rw [hpull]
    rfl
  | idle hr => exact ⟨h.fit, h.told.stopped hr rfl fun run hr' => by simp [hr] at hr'⟩
  | fenced hr => exact ⟨h.fit.halt, h.told.halt⟩
  | asked hr hnone hs =>
    exact ⟨h.fit.beginStop hr hnone, h.told.near (Collection.near_beginStop hr hnone hs)⟩
  | @disconnected run run' due shared hr hstop hk hc =>
    refine ⟨h.fit.drainFrom hr hstop (fun l => ⟨(hk.lane l).lane, (hk.lane l).epoch⟩)
      fun l hl => ?_, h.told.near (Collection.near_of_run hr hk.lane)⟩
    exact absurd (Collection.lane_mem_drained run' l) hl
  | @awaited run t rest due hr hstop hover =>
    refine ⟨h.fit.drainFrom hr hstop (fun _ => ⟨rfl, rfl⟩) fun l hl => ?_,
      h.told.near (Collection.near_of_run hr fun l => LaneTask.abides_refl _)⟩
    by_cases ht : t = .lane l
    · subst ht
      exact hover
    · refine h.fit.drained run (t :: rest) due hr hstop l ?_
      rw [List.mem_cons, not_or]
      exact ⟨Ne.symm ht, hl⟩
  | @abandoned run t rest due hr hstop =>
    refine ⟨h.fit.drainFrom hr hstop (fun l => ?_) fun l hl => ?_, h.told.abandon hr t⟩
    · rw [Run.lane_abort]
      split <;> exact ⟨rfl, rfl⟩
    · rw [Run.lane_abort]
      split
      · rfl
      · rename_i ht
        refine h.fit.drained run (t :: rest) due hr hstop l ?_
        rw [List.mem_cons, not_or]
        exact ⟨Ne.symm ht, hl⟩
  | ended hr hstop =>
    refine ⟨h.fit.endStop (by simp [hstop]), h.told.stopped rfl ?_ fun run' hr' l => ?_⟩
    · simp [Collection.endStop, Progress.markStopped]
    · exact pass?_of_isOver (h.fit.drained run' [] _ hr' hstop l (by simp))
  | queued _ => exact ⟨h.fit, h.told.queueing (.inl ⟨_, rfl⟩)⟩
  | told _ _ _ => exact ⟨h.fit, h.told.queueing (.inr ⟨_, rfl⟩)⟩

theorem Sound.run (h : s.Sound) (es : List Event) : (s.run es).Sound := by
  induction es generalizing s with
  | nil => exact h
  | cons e es ih => exact ih (h.change (change_step s e))

/-- After a halt no task changes the progress. -/
theorem progress_task (hs : s.collection.progress.status.stopped = true)
    (t : RunTask) : (s.task t).collection.progress = s.collection.progress := by
  have hno : ∀ epoch, s.collection.progress.status.admits epoch ≠ true := by
    intro epoch hadmits
    simp [(Status.admits_iff.1 hadmits).1] at hs
  unfold task
  cases hstep : s.collection.step? t s.shared with
  | none => rfl
  | some cs =>
    obtain ⟨c, shared⟩ := cs
    obtain ⟨run, hr, hstep⟩ := Option.bind_eq_some_iff.1 hstep
    cases t with
    | lane l =>
      obtain ⟨t', w', hm, rfl, rfl⟩ := Collection.stepLane?_cases hstep
      rcases hm.progress with he | ⟨-, hb⟩ | ⟨-, clean, hf⟩
      · exact he
      · exact absurd (Progress.beginPass?_some hb).1 (hno _)
      · exact absurd (Progress.finishPass?_some hf).1 (hno _)
    | enqueues =>
      obtain ⟨run', rfl, -⟩ := Collection.stepEnqueues?_cases hstep
      rfl
    | listener => exact (Collection.kin_stepListener? hr hstep).1.progress
    | notices => exact (Collection.kin_stepNotices? hr hstep).1.progress

end

/-- Whatever happens to a collection, and in whatever order:

1. between two beginnings of a pass of a lane, the first pass ended or was let go of, also across
   starts and stops;
2. from a fence to the next start no pass begins, and no task changes the progress, so neither does
   the outcome of a pass that was under way;
3. from the return of a stop to the next start no request is sent, and the published state is
   stopped;
4. a start of a collection with a run is refused, and changes nothing;
5. between a start and the first push pass after it a pull pass ended and reported. -/
theorem stop_is_final (path : String) (script : Script) (source : EventSource)
    (shared : Surroundings) (es : List Event) :
    let s := (fresh path script source shared).run es
    (∀ l, Parted (· = .lane l .began) (· = .lane l .began) (Deed.EndsPass l) s.history) ∧
      (∀ l, Parted (· = .fenced) (· = .lane l .began) (· = .started) s.history) ∧
      (¬ Followed (· = .fenced) (· = .started) s.history →
        ∀ t, (s.step (.task t)).collection.progress = s.collection.progress) ∧
      (∀ l, Parted (· = .stopped) (· = .lane l .asked) (· = .started) s.history) ∧
      (¬ Followed (· = .stopped) (· = .started) s.history →
        s.collection.progress.published = .stopped) ∧
      (s.collection.run.isSome = true →
        s.collection.start s.shared =
            (.error (.invalidState "stopped" s.collection.progress.published.name), s.collection,
              s.shared) ∧
          s.step .start = s) ∧
      Parted (· = .started) (· = .lane .push .began) (· = .lane .pull (.ended true)) s.history := by
  intro s
  have h : s.Sound := (sound_fresh path script source shared).run es
  refine ⟨fun l => (h.told.exclusive l).parted, fun l => (h.told.fenced l).parted, ?_,
    fun l => (h.told.silent l).parted, ?_, ?_, h.told.pulled.parted⟩
  · intro hfenced t
    have hs : s.collection.progress.status.stopped = true := by
      rw [← Bool.not_eq_false]
      exact fun hgoes => hfenced ((h.told.fenced .pull).followed hgoes)
    exact progress_task hs t
  · intro hstopped
    have hr : s.collection.run = none := by
      rw [← Option.not_isSome_iff_eq_none]
      exact fun hrun => hstopped ((h.told.silent .pull).followed hrun)
    exact (h.fit.idle hr).2.2
  · intro hrun
    obtain ⟨run, hr⟩ := Option.isSome_iff_exists.1 hrun
    have hstart := Collection.start_of_run hr s.shared
    refine ⟨hstart, ?_⟩
    show s.start = s
    unfold start
    rw [hstart]
    split
    · rfl
    · exact put_nil s _ _

/-- The reply to the first pull is held back for longer than the stop waits. -/
example :
    let script : Script := { pages := [⟨true, .ok .empty⟩] }
    let pull : Event := .task (.lane .pull)
    let s := (fresh "notes" script [] {}).run
      [.start, pull, pull, pull, .fence, .drain, .task .enqueues, .drain,
        .elsewhere { clock := ({} : Settings).schedule.drain.nanos }, .drain, .task (.lane .push),
        .drain, .drain, .start, pull, pull]
    s.history =
      [.started, .lane .pull (.woke .first), .lane .pull .began, .lane .pull .asked, .fenced,
        .abandoned .pull, .lane .push .left, .stopped, .started, .lane .pull (.woke .first),
        .lane .pull .began] := by
  decide +kernel

end Site

end Replication
