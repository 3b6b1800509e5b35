import Replication.Collection.Lane
import Replication.Proofs.Collection.History
import Replication.Proofs.Collection.Progress
import Replication.Proofs.Replica.Quiet

/-!
# The course of a lane

A lane takes one step at a time, each with whatever context and work it finds then, and triggers
come between any two of its steps.

1. `LaneTask.Move` says all that one step can do, and which deed it is.
2. A lane owes a pass as long as a trigger is kept or something woke it (`LaneTask.Owes`). It goes
   on owing one until a pass begins (`LaneTask.Move.owes`).
3. Over any course, passes do not overlap, the triggers that come during a pass lead to one more
   pass, and no trigger is lost (`LaneCourse.triggers_coalesce`).
-/

namespace Replication

/-- Why a lane wakes. -/
inductive WakeCause where
  /-- It did not run a pass yet. -/
  | first
  | trigger
  | timer
  deriving DecidableEq, Repr

/-- What a lane does, or what is done to it. -/
inductive LaneDeed where
  /-- A trigger came. -/
  | triggered
  | woke (cause : WakeCause)
  /-- A pass began. -/
  | began
  /-- The pass sent a request. -/
  | asked
  /-- The pass is over, and its report was taken or not. -/
  | ended (taken : Bool)
  /-- The lane is over, outside of a pass. -/
  | left
  | wentOn
  deriving DecidableEq, Repr

/-- The deed that leads from one place of a lane to another. -/
def LanePhase.deed : LanePhase → LanePhase → LaneDeed
  | .starting, .woken => .woke .first
  | .turning, .woken => .woke .trigger
  | .waiting _ true, .woken => .woke .trigger
  | .waiting _ false, .woken => .woke .timer
  | .woken, .passing _ _ => .began
  | .passing _ none, .passing _ (some _) => .asked
  | .passing _ _, .turning => .ended true
  | .passing _ _, .ended => .ended false
  | _, .ended => .left
  | _, _ => .wentOn

/-- Whether a pass with a result was clean; one that failed was not. -/
def Pass.wasClean : Except SyncError Bool → Bool
  | .ok clean => clean
  | .error _ => false

namespace LaneTask

/-- Whether the lane hears a request to stop at its next step. -/
def hearsStop (t : LaneTask) : Bool :=
  match t.phase with
  | .gated | .starting | .turning | .waiting _ _ => true
  | _ => false

/-- A step of a lane: its deed, and the lane and its work afterwards. -/
inductive Move (x : LaneContext) (t : LaneTask) (w : LaneWork) :
    LaneDeed → LaneTask → LaneWork → Prop where
  | leave : t.hearsStop = true → x.stopping = true → Move x t w .left (t.go .ended) w
  | admitted : t.phase = .gated → x.gateOpen = true → Move x t w .wentOn (t.go .starting) w
  | first : t.phase = .starting → Move x t w (.woke .first) (t.go .woken) w
  | begin {p : Progress} : t.phase = .woken → w.progress.beginPass? t.epoch t.lane = some p →
      Move x t w .began
        (t.go (.passing (.begin x.settings t.lane x.collection w.replica) none))
        (w.reported x.collection p)
  | refuse : t.phase = .woken → w.progress.beginPass? t.epoch t.lane = none →
      Move x t w .left (t.go .ended) w
  | ask {pass : Pass} : t.phase = .passing pass none →
      Move x t w .asked (t.go (.passing pass (some (pass.ask w.script).1)))
        { w with script := (pass.ask w.script).2 }
  | answer {pass : Pass} {reply : Reply} : t.phase = .passing pass (some ⟨false, reply⟩) →
      Move x t w .wentOn (t.go (.passing (pass.answered reply w.replica).1 none))
        { w with replica := (pass.answered reply w.replica).2 }
  | proceed {pass : Pass} {reply : Option (Scripted Reply)} : t.phase = .passing pass reply →
      Move x t w .wentOn (t.go (.passing (pass.proceed w.replica).1 none))
        { w with replica := (pass.proceed w.replica).2 }
  | finish {pass : Pass} {reply : Option (Scripted Reply)} {clean : Bool} {p : Progress}
      {f : Metrics → Metrics} : t.phase = .passing pass reply →
      w.progress.finishPass? t.epoch t.lane clean = some p →
      Move x t w (.ended true)
        { t with phase := .turning, failures := recordPass t.failures clean, reported := true }
        ((w.measure f).reported x.collection p)
  | discard {pass : Pass} {reply : Option (Scripted Reply)} {clean : Bool}
      {f : Metrics → Metrics} : t.phase = .passing pass reply →
      w.progress.finishPass? t.epoch t.lane clean = none →
      Move x t w (.ended false) (t.go .ended) (w.measure f)
  | again : t.phase = .turning → t.permit = true →
      Move x t w (.woke .trigger) { t with phase := .woken, permit := false } w
  | wait (due : Nat) : t.phase = .turning → t.permit = false →
      Move x t w .wentOn (t.go (.waiting due false)) w
  | wake {due : Nat} : t.phase = .waiting due true → Move x t w (.woke .trigger) (t.go .woken) w
  | expire {due : Nat} {f : Metrics → Metrics} : t.phase = .waiting due false →
      Move x t w (.woke .timer) (t.go .woken) (w.measure f)

section

variable {x : LaneContext} {t t' : LaneTask} {w w' : LaneWork} {d : LaneDeed}

/-- At the end of a pass the report is refused, and the lane is over, or it is taken. -/
theorem endPass_cases (x : LaneContext) (t : LaneTask) (result : Except SyncError Bool)
    (w : LaneWork) :
    ∃ f : Metrics → Metrics,
      (w.progress.finishPass? t.epoch t.lane (Pass.wasClean result) = none ∧
        t.endPass x result w = (t.go .ended, w.measure f)) ∨
      ∃ p, w.progress.finishPass? t.epoch t.lane (Pass.wasClean result) = some p ∧
        t.endPass x result w =
          ({ t with
              phase := .turning
              failures := recordPass t.failures (Pass.wasClean result)
              reported := true },
            (w.measure f).reported x.collection p) := by
  cases result with
  | error e =>
    refine ⟨(·.passFailure x.collection t.lane.name e.kind), ?_⟩
    have hp : (w.measure (·.passFailure x.collection t.lane.name e.kind)).progress = w.progress :=
      rfl
    cases h : w.progress.finishPass? t.epoch t.lane false with
    | none => exact .inl ⟨h, by simp only [endPass, hp, h]⟩
    | some p => exact .inr ⟨p, h, by simp only [endPass, hp, h]; rfl⟩
  | ok clean =>
    refine ⟨id, ?_⟩
    cases h : w.progress.finishPass? t.epoch t.lane clean with
    | none => exact .inl ⟨h, by simp only [endPass, h]; rfl⟩
    | some p => exact .inr ⟨p, h, by simp only [endPass, h]; rfl⟩

theorem move_of_endPass {pass : Pass} {reply : Option (Scripted Reply)}
    (hp : t.phase = .passing pass reply) {result : Except SyncError Bool}
    (h : t.endPass x result w = (t', w')) : Move x t w (t.phase.deed t'.phase) t' w' := by
  obtain ⟨f, ⟨hnone, he⟩ | ⟨p, hsome, he⟩⟩ := endPass_cases x t result w
  · obtain ⟨rfl, rfl⟩ := Prod.mk.inj (he.symm.trans h)
    have hd : t.phase.deed (t.go .ended).phase = .ended false := by
      rw [hp]
      cases reply <;> rfl
    rw [hd]
    exact .discard hp hnone
  · obtain ⟨rfl, rfl⟩ := Prod.mk.inj (he.symm.trans h)
    have hd : t.phase.deed .turning = .ended true := by
      rw [hp]
      cases reply <;> rfl
    rw [hd]
    exact .finish hp hsome

/-- A step of a lane is one of its moves. -/
theorem move_of_step (h : t.step? x w = some (t', w')) :
    Move x t w (t.phase.deed t'.phase) t' w' := by
  unfold step? at h
  cases hp : t.phase with
  | gated =>
    simp only [hp] at h
    split at h
    · rename_i hs
      cases h
      exact .leave (by simp [hearsStop, hp]) hs
    · split at h
      · rename_i hg
        cases h
        exact .admitted hp hg
      · cases h
  | starting =>
    simp only [hp] at h
    cases hs : x.stopping with
    | true =>
      simp only [hs, if_true] at h
      cases h
      exact .leave (by simp [hearsStop, hp]) hs
    | false =>
      simp only [hs] at h
      cases h
      exact .first hp
  | woken =>
    simp only [hp, beginPass] at h
    split at h
    · rename_i hnone
      cases h
      exact .refuse hp hnone
    · rename_i p hsome
      cases h
      exact .begin hp hsome
  | passing pass reply =>
    simp only [hp, stepPass?] at h
    split at h
    · rw [← hp]
      exact move_of_endPass hp (Option.some.inj h)
    · split at h
      · split at h
        · cases h
          exact .ask hp
        · cases h
        · rename_i reply'
          cases h
          exact .answer hp
      · cases h
        have hd : (LanePhase.passing pass reply).deed
            (t.go (.passing (pass.proceed w.replica).1 none)).phase = .wentOn := by
          cases reply <;> rfl
        rw [hd]
        exact .proceed hp
  | turning =>
    simp only [hp] at h
    split at h
    · rename_i hs
      cases h
      exact .leave (by simp [hearsStop, hp]) hs
    · split at h
      · rename_i hk
        cases h
        exact .again hp hk
      · rename_i hk
        cases h
        exact .wait _ hp (by simpa using hk)
  | waiting due notified =>
    simp only [hp] at h
    split at h
    · rename_i hs
      have hh : t.hearsStop = true := by simp [hearsStop, hp]
      have hd : (LanePhase.waiting due notified).deed (t.go .ended).phase = .left := by
        cases notified <;> rfl
      cases h
      rw [hd]
      exact .leave hh hs
    · cases notified with
      | true =>
        simp only [if_true] at h
        cases h
        exact .wake hp
      | false =>
        simp only [Bool.false_eq_true, if_false] at h
        split at h
        · cases h
          exact .expire hp
        · cases h
  | ended =>
    simp only [hp] at h
    cases h

/-! ## What a move keeps -/

theorem Move.lane_eq (h : Move x t w d t' w') : t'.lane = t.lane := by cases h <;> rfl

theorem Move.epoch_eq (h : Move x t w d t' w') : t'.epoch = t.epoch := by cases h <;> rfl

theorem Move.ne_triggered (h : Move x t w d t' w') : d ≠ .triggered := by cases h <;> nofun

theorem Move.isOver_eq_false (h : Move x t w d t' w') : t.isOver = false := by
  unfold isOver
  cases h with
  | leave hh =>
    unfold hearsStop at hh
    split at hh <;> simp_all
  | _ => simp [*]

/-- A pass is under way from the deed that begins it to the one that ends it. -/
theorem Move.pass (h : Move x t w d t' w') :
    (d = .began ∧ t.pass? = none ∧ t'.pass? ≠ none) ∨
      ((∃ taken, d = .ended taken) ∧ t'.pass? = none) ∨
      (d ≠ .began ∧ (t'.pass? = none → t.pass? = none)) := by
  cases h with
  | begin hp => exact .inl ⟨rfl, by simp [pass?, hp], nofun⟩
  | finish => exact .inr (.inl ⟨⟨_, rfl⟩, rfl⟩)
  | discard => exact .inr (.inl ⟨⟨_, rfl⟩, rfl⟩)
  | ask hp => exact .inr (.inr ⟨nofun, by simp [pass?, go]⟩)
  | answer hp => exact .inr (.inr ⟨nofun, by simp [pass?, go]⟩)
  | proceed hp => exact .inr (.inr ⟨nofun, by simp [pass?, go]⟩)
  | leave hh =>
    refine .inr (.inr ⟨nofun, fun _ => ?_⟩)
    unfold hearsStop at hh
    unfold pass?
    split at hh <;> simp_all
  | _ => exact .inr (.inr ⟨nofun, fun _ => by simp [pass?, *]⟩)

/-- Whether the lane owes a pass: a trigger is kept, or it is on its way to a pass. -/
def owes (t : LaneTask) : Bool :=
  t.permit || match t.phase with
    | .gated | .starting | .woken | .waiting _ true => true
    | _ => false

/-- A trigger makes the lane owe a pass. -/
theorem owes_notify (t : LaneTask) : t.notify.owes = true := by
  unfold notify owes
  split <;> simp [go]

/-- A lane owes a pass until one begins, or it is over. -/
theorem Move.owes (h : Move x t w d t' w') (ho : t.owes = true) :
    d = .began ∨ t'.isOver = true ∨ t'.owes = true := by
  unfold LaneTask.owes at ho ⊢
  cases h with
  | begin => exact .inl rfl
  | leave => exact .inr (.inl rfl)
  | refuse => exact .inr (.inl rfl)
  | discard => exact .inr (.inl rfl)
  | _ => exact .inr (.inr (by simp_all [go]))

/-- A lane that waits for a trigger that did not come owes no pass. -/
theorem owes_waiting {due : Nat} (hp : t.phase = .waiting due false) : t.owes = t.permit := by
  simp [LaneTask.owes, hp]

/-! ## What a move does to its work -/

/-- Progress changes only by a report that is taken. -/
theorem Move.progress (h : Move x t w d t' w') :
    w'.progress = w.progress ∨
      (d = .began ∧ w.progress.beginPass? t.epoch t.lane = some w'.progress) ∨
      (d = .ended true ∧
        ∃ clean, w.progress.finishPass? t.epoch t.lane clean = some w'.progress) := by
  cases h with
  | begin _ hb => exact .inr (.inl ⟨rfl, hb⟩)
  | finish _ hf => exact .inr (.inr ⟨rfl, _, hf⟩)
  | _ => exact .inl rfl

/-- A lane neither halts the progress nor changes its epoch. -/
theorem Move.status (h : Move x t w d t' w') :
    w'.progress.status.stopped = w.progress.status.stopped ∧
      w'.progress.status.epoch = w.progress.status.epoch := by
  rcases h.progress with he | ⟨-, hb⟩ | ⟨-, clean, hf⟩
  · rw [he]
    exact ⟨rfl, rfl⟩
  · exact (Progress.beginPass?_some hb).2
  · exact (Progress.finishPass?_some hf).2

/-- A lane queues nothing. -/
theorem Move.enqueued (h : Move x t w d t' w') : w'.replica.enqueued = w.replica.enqueued := by
  cases h with
  | answer => exact Pass.enqueued_answered _ _ _
  | proceed => exact Pass.enqueued_proceed _ _
  | _ => rfl

/-- A lane ends only because it is asked to stop or its epoch is over. -/
theorem Move.ended (h : Move x t w d t' w') (hover : t'.isOver = true) :
    x.stopping = true ∨ w.progress.status.admits t.epoch = false := by
  cases h with
  | leave _ hs => exact .inl hs
  | refuse _ hb => exact .inr (Progress.beginPass?_eq_none_iff.1 hb)
  | discard _ hf => exact .inr (Progress.finishPass?_eq_none_iff.1 hf)
  | _ => simp [isOver, go] at hover

/-- A lane passes its gate only when that is open, unless it is asked to stop. -/
theorem Move.gate (h : Move x t w d t' w') (hp : t'.phase ≠ .gated) :
    t.phase ≠ .gated ∨ x.gateOpen = true ∨ x.stopping = true := by
  cases h with
  | admitted _ hg => exact .inr (.inl hg)
  | leave _ hs => exact .inr (.inr hs)
  | _ => exact .inl (by simp [*])

/-- A lane reports with the end of a pass. -/
theorem Move.reported_iff (h : Move x t w d t' w') :
    t'.reported = true ↔ t.reported = true ∨ d = .ended true := by
  cases h <;> simp [go]

/-- A pass begins in an epoch that goes on, and not at the gate. -/
theorem Move.began (h : Move x t w .began t' w') :
    w.progress.status.admits t.epoch = true ∧ t.phase ≠ .gated := by
  cases h with
  | begin hp hb => exact ⟨(Progress.beginPass?_some hb).1, by simp [hp]⟩

end

theorem notify_cases (t : LaneTask) :
    (∃ due, t.phase = .waiting due false ∧ t.notify = t.go (.waiting due true)) ∨
      (∀ due, t.phase ≠ .waiting due false) ∧ t.notify = { t with permit := true } := by
  unfold notify
  split
  · rename_i due hp
    exact .inl ⟨due, hp, rfl⟩
  · rename_i hno
    exact .inr ⟨hno, rfl⟩

theorem pass?_notify (t : LaneTask) : t.notify.pass? = t.pass? := by
  rcases t.notify_cases with ⟨due, hp, he⟩ | ⟨-, he⟩
  · simp [he, pass?, hp, go]
  · rw [he]
    rfl

theorem release?_cases {t t' : LaneTask} (h : t.release? = some t') :
    ∃ pass reply reply', t.phase = .passing pass (some reply) ∧
      t' = t.go (.passing pass (some reply')) := by
  unfold release? at h
  split at h
  · rename_i pass reply hp
    exact ⟨pass, _, _, hp, (Option.some.inj h).symm⟩
  · cases h

end LaneTask

/-! ## Courses -/

/-- A lane and what it did so far. -/
structure LaneCourse where
  task : LaneTask
  history : List LaneDeed := []

/-- What can happen to a lane. It finds other contexts and other work at every step. -/
inductive LaneEvent where
  | trigger
  /-- The reply that is held back comes. -/
  | release
  | step (x : LaneContext) (w : LaneWork)

namespace LaneCourse

open LaneTask (Move)

/-- A lane at its start. -/
def start (l : Lane) (epoch : Nat) : LaneCourse := ⟨.start l epoch, []⟩

/-- The course after an event. A step that the lane cannot take changes nothing. -/
def step (s : LaneCourse) : LaneEvent → LaneCourse
  | .trigger => ⟨s.task.notify, s.history ++ [.triggered]⟩
  | .release => match s.task.release? with
    | some t => { s with task := t }
    | none => s
  | .step x w => match s.task.step? x w with
    | some (t, _) => ⟨t, s.history ++ [s.task.phase.deed t.phase]⟩
    | none => s

/-- The course after events. -/
def run (s : LaneCourse) (es : List LaneEvent) : LaneCourse := es.foldl step s

/-- Where a lane stands after a pass during which a trigger came, when no other came since: it is
about to wake because of it, or it woke and is about to begin a pass, or it is over, or it began a
pass and did not wake because of a trigger again. -/
inductive Coalesced (t : LaneTask) : List LaneDeed → Prop where
  | due : t.phase = .turning → t.permit = true → Coalesced t []
  | woken : t.phase = .woken → t.permit = false → Coalesced t [.woke .trigger]
  | left {after : List LaneDeed} : t.phase = .ended →
      after = [.left] ∨ after = [.woke .trigger, .left] → Coalesced t after
  | begun {rest : List LaneDeed} : t.permit = false → (∀ due, t.phase ≠ .waiting due true) →
      LaneDeed.woke .trigger ∉ rest → Coalesced t (.woke .trigger :: .began :: rest)

/-- What holds of every course of a lane. -/
structure Sound (s : LaneCourse) : Prop where
  exclusive : Guarded (· = .began) (· = .began) (fun d => ∃ taken, d = .ended taken)
    (s.task.pass? = none) s.history
  owes : s.task.owes = true ∨ s.task.isOver = true ∨
    Followed (· = .triggered) (· = .began) s.history
  coalesced : ∀ before during after,
    s.history = before ++ .triggered :: (during ++ .ended true :: after) →
      LaneDeed.began ∉ during → LaneDeed.triggered ∉ after → Coalesced s.task after

section

variable {s : LaneCourse} {t t' : LaneTask} {x : LaneContext} {w w' : LaneWork} {d : LaneDeed}

theorem Coalesced.move {after : List LaneDeed} (h : Coalesced t after) (hm : Move x t w d t' w') :
    Coalesced t' (after ++ [d]) := by
  cases h with
  | due hp hk =>
    cases hm with
    | leave => exact .left rfl (.inl rfl)
    | again => exact .woken rfl rfl
    | wait due _ hk' => simp [hk] at hk'
    | _ => simp_all
  | woken hp hk =>
    cases hm with
    | begin => exact .begun hk (fun due hw => by cases hw) (by simp)
    | refuse => exact .left rfl (.inr rfl)
    | leave hh => simp [LaneTask.hearsStop, hp] at hh
    | _ => simp_all
  | left hp =>
    have := hm.isOver_eq_false
    simp [LaneTask.isOver, hp] at this
  | @begun rest hk hp hrest =>
    have hd : d ≠ .woke .trigger := by
      cases hm with
      | again _ hk' => simp [hk] at hk'
      | wake hw => exact absurd hw (hp _)
      | _ => nofun
    have hk' : t'.permit = false := by cases hm <;> first | exact hk | rfl
    have hp' : ∀ due, t'.phase ≠ .waiting due true := by
      intro due
      cases hm <;> nofun
    have hrest' : LaneDeed.woke .trigger ∉ rest ++ [d] := by
      rw [List.mem_append, List.mem_singleton, not_or]
      exact ⟨hrest, hd.symm⟩
    exact .begun hk' hp' hrest'

theorem Coalesced.release {after : List LaneDeed} (h : Coalesced t after) {pass : Pass}
    {reply : Option (Scripted Reply)} (hp : t.phase = .passing pass reply)
    (reply' : Option (Scripted Reply)) : Coalesced (t.go (.passing pass reply')) after := by
  cases h with
  | due hp' => simp [hp] at hp'
  | woken hp' => simp [hp] at hp'
  | left hp' => simp [hp] at hp'
  | begun hk _ hrest => exact .begun hk (fun due hw => by cases hw) hrest

theorem sound_start (l : Lane) (epoch : Nat) : (start l epoch).Sound where
  exclusive := guarded_nil
  owes := .inl (by cases l <;> rfl)
  coalesced before during after heq := by simp [start] at heq

theorem Sound.trigger (h : s.Sound) : (s.step .trigger).Sound where
  exclusive := h.exclusive.concat nofun fun hp => ⟨nofun, .inr (s.task.pass?_notify.symm.trans hp)⟩
  owes := .inl s.task.owes_notify
  coalesced before during after heq _ hafter := by
    -- The history ends with a trigger, so one comes after the pass.
    rw [← List.cons_append, ← List.append_assoc] at heq
    rcases concat_eq_append_cons_iff.1 heq with ⟨-, hd, -⟩ | ⟨mid, rfl, -⟩
    · cases hd
    · simp at hafter

theorem Sound.release (h : s.Sound) : (s.step .release).Sound := by
  unfold step
  cases hr : s.task.release? with
  | none => exact h
  | some t =>
    obtain ⟨pass, reply, reply', hp, rfl⟩ := LaneTask.release?_cases hr
    refine ⟨h.exclusive.mono (fun hp' => by cases hp'), ?_, ?_⟩
    · rcases h.owes with ho | ho | ho
      · refine .inl ?_
        simpa [LaneTask.owes, hp, LaneTask.go] using ho
      · simp [LaneTask.isOver, hp] at ho
      · exact .inr (.inr ho)
    · intro before during after heq hduring hafter
      exact (h.coalesced before during after heq hduring hafter).release hp _

/-- A pass that ends after a trigger came leaves the trigger for the lane's next wait. -/
theorem Sound.due (h : s.Sound) (hm : Move x s.task w (.ended true) t' w')
    {before during : List LaneDeed} (heq : s.history = before ++ .triggered :: during)
    (hduring : LaneDeed.began ∉ during) : Coalesced t' [] := by
  have hover := hm.isOver_eq_false
  have ho : s.task.owes = true := by
    rcases h.owes with ho | ho | ho
    · exact ho
    · simp [ho] at hover
    · obtain ⟨e, he, rfl⟩ := ho before .triggered during heq rfl
      exact absurd he hduring
  cases hm with
  | finish hp _ =>
    refine .due rfl ?_
    simpa [LaneTask.owes, hp] using ho

theorem Sound.move (h : s.Sound) (hm : Move x s.task w d t' w') :
    (LaneCourse.mk t' (s.history ++ [d])).Sound where
  exclusive := by
    rcases hm.pass with ⟨rfl, hp, hp'⟩ | ⟨⟨taken, rfl⟩, -⟩ | ⟨hd, hp⟩
    · exact h.exclusive.concat (fun _ => hp) fun hnone => absurd hnone hp'
    · exact h.exclusive.concat nofun fun _ => ⟨nofun, .inl ⟨taken, rfl⟩⟩
    · exact h.exclusive.concat (fun hb => absurd hb hd) fun hnone => ⟨hd, .inr (hp hnone)⟩
  owes := by
    have hd := hm.ne_triggered
    rcases h.owes with ho | ho | ho
    · rcases hm.owes ho with rfl | hover | ho'
      · exact .inr (.inr (followed_concat.2 ⟨hd, .inl rfl⟩))
      · exact .inr (.inl hover)
      · exact .inl ho'
    · simp [hm.isOver_eq_false] at ho
    · exact .inr (.inr (followed_concat.2 ⟨hd, .inr ho⟩))
  coalesced before during after heq hduring hafter := by
    rw [← List.cons_append, ← List.append_assoc] at heq
    rcases concat_eq_append_cons_iff.1 heq with ⟨rfl, rfl, hh⟩ | ⟨after', rfl, hh⟩
    · exact h.due hm hh hduring
    · rw [List.append_assoc, List.cons_append] at hh
      have hno : LaneDeed.triggered ∉ after' := fun hmem =>
        hafter (List.mem_append_left _ hmem)
      exact (h.coalesced before during after' hh hduring hno).move hm

theorem Sound.step (h : s.Sound) (e : LaneEvent) : (s.step e).Sound := by
  cases e with
  | trigger => exact h.trigger
  | release => exact h.release
  | step x w =>
    cases hs : s.task.step? x w with
    | none =>
      simp only [LaneCourse.step, hs]
      exact h
    | some tw =>
      obtain ⟨t, w'⟩ := tw
      simp only [LaneCourse.step, hs]
      exact h.move (LaneTask.move_of_step hs)

theorem Sound.run (h : s.Sound) (es : List LaneEvent) : (s.run es).Sound := by
  induction es generalizing s with
  | nil => exact h
  | cons e es ih => exact ih (h.step e)

end

/-- Whatever a lane finds at each of its steps, and whenever triggers come:

1. its passes do not overlap;
2. if triggers came during a pass and none after it, then one pass begins because of them, next and
   at once, and no later one does, unless the lane is over;
3. while it waits and no trigger is kept, a pass began after each trigger that ever came. -/
theorem triggers_coalesce (l : Lane) (epoch : Nat) (es : List LaneEvent) :
    let s := (start l epoch).run es
    Parted (· = .began) (· = .began) (fun d => ∃ taken, d = .ended taken) s.history ∧
      (∀ before during after,
        s.history = before ++ .triggered :: (during ++ .ended true :: after) →
          LaneDeed.began ∉ during → LaneDeed.triggered ∉ after →
          ((after = [] ∨ after = [.woke .trigger]) ∧ ∀ x w, (s.task.step? x w).isSome = true) ∨
            (after = [.left] ∨ after = [.woke .trigger, .left]) ∧ s.task.isOver = true ∨
            ∃ rest, after = .woke .trigger :: .began :: rest ∧ LaneDeed.woke .trigger ∉ rest) ∧
      ∀ due, s.task.phase = .waiting due false → s.task.permit = false →
        Followed (· = .triggered) (· = .began) s.history := by
  intro s
  have h : s.Sound := (sound_start l epoch).run es
  refine ⟨h.exclusive.parted, fun before during after heq hduring hafter => ?_, fun due hp hk => ?_⟩
  · cases h.coalesced before during after heq hduring hafter with
    | due hp hk =>
      refine .inl ⟨.inl rfl, fun x w => ?_⟩
      simp only [LaneTask.step?, hp, hk]
      split <;> rfl
    | woken hp hk =>
      refine .inl ⟨.inr rfl, fun x w => ?_⟩
      simp only [LaneTask.step?, hp]
      rfl
    | left hp hor => exact .inr (.inl ⟨hor, by simp [LaneTask.isOver, hp]⟩)
    | begun hk hp hrest => exact .inr (.inr ⟨_, rfl, hrest⟩)
  · rcases h.owes with ho | ho | ho
    · rw [LaneTask.owes_waiting hp, hk] at ho
      cases ho
    · simp [LaneTask.isOver, hp] at ho
    · exact ho

/-- Two triggers come while the first pass waits for its reply: one more pass begins. -/
theorem two_triggers_one_pass :
    let x : LaneContext := ⟨"notes", {}, false, true, 0⟩
    let w : LaneWork := ⟨Progress.begin {}, {}, {}⟩
    let go : LaneEvent := .step x w
    let s := (start .pull 1).run [go, go, go, .trigger, .trigger, go, go, go, go]
    let before := [.woke .first, .began, .asked]
    let during := [.triggered, .wentOn]
    let after := [.woke .trigger, .began]
    s.history = before ++ .triggered :: (during ++ .ended true :: after) ∧
      LaneDeed.began ∉ during ∧ LaneDeed.triggered ∉ after ∧
      ∃ rest, after = .woke .trigger :: .began :: rest ∧ LaneDeed.woke .trigger ∉ rest := by
  intro x w go s before during after
  have hh : s.history = before ++ .triggered :: (during ++ .ended true :: after) := rfl
  have hduring : LaneDeed.began ∉ during := by decide
  have hafter : LaneDeed.triggered ∉ after := by decide
  refine ⟨hh, hduring, hafter, ?_⟩
  rcases (triggers_coalesce .pull 1 _).2.1 before during after hh hduring hafter with
    ⟨h, -⟩ | ⟨h, -⟩ | h
  · simp [after] at h
  · simp [after] at h
  · exact h

end LaneCourse

end Replication
