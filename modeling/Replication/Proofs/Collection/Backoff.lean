import Mathlib.Algebra.Group.Nat.Defs
import Mathlib.Data.List.Induction
import Replication.Proofs.Collection.Lane

/-!
# Waits after failures

A lane that fails waits longer with every failure in a row. The rule works on words of 64 bits and
the lane counts its failures in one of 32; neither bound is ever felt.

1. Under a greatest wait of 64 bits the backoff is that of numbers without bound
   (`Schedule.backoffMillis_eq`), also where the count of failures has come to its bound
   (`Schedule.backoffMillis_min`).
2. A step of a lane that reports a pass counts its outcome, and no other step counts anything
   (`LaneTask.counted_of_step`). So the count is that of the unclean passes in a row at the end of
   what the lane reported (`LaneCourse.Counts`).
3. The wait follows from the outcomes alone (`LaneTask.waitAfter_eq`), and over any course a lane
   waits as its outcomes call for (`LaneCourse.waits_by_streak`).
-/

namespace Replication

/-! ## The backoff of a number of failures -/

namespace Schedule

theorem boundedPower_eq (n : Nat) : boundedPower n = min (2 ^ n) (Word.greatest 64) := by
  unfold boundedPower
  split
  · rename_i h
    have hlt : 2 ^ n < 2 ^ 64 := Nat.pow_lt_pow_right (by decide) h
    have hsize : Word.size n = 2 ^ n := rfl
    have hgreatest : Word.greatest 64 = 2 ^ 64 - 1 := rfl
    omega
  · rename_i h
    have hle : 2 ^ 64 ≤ 2 ^ n := Nat.pow_le_pow_right (by decide) (by omega)
    have hgreatest : Word.greatest 64 = 2 ^ 64 - 1 := rfl
    omega

/-- A product that is bounded in its second factor and then as a whole is felt to be bounded only
above the bound. -/
theorem min_mul_min (b p g : Nat) : min (b * min p g) g = min (b * p) g := by
  rcases Nat.eq_zero_or_pos b with rfl | hb
  · simp
  · rcases Nat.le_total p g with h | h
    · rw [Nat.min_eq_left h]
    · have hg : g ≤ b * g := Nat.le_mul_of_pos_left g hb
      have hp : g ≤ b * p := hg.trans (Nat.mul_le_mul_left b h)
      rw [Nat.min_eq_right h, Nat.min_eq_right hg, Nat.min_eq_right hp]

/-- The bounds of 64 bits are not felt under a greatest wait of 64 bits. -/
theorem backoffMillis_eq {s : Schedule} (h : s.backoffMax < Word.size 64) (failures : Nat) :
    s.backoffMillis failures = min (s.backoffBase * 2 ^ (failures - 1)) s.backoffMax := by
  have hmax : s.backoffMax ≤ Word.greatest 64 := Nat.le_sub_one_of_lt h
  unfold backoffMillis
  rw [boundedPower_eq, min_mul_min, Nat.min_assoc, Nat.min_eq_right hmax]

theorem backoffMillis_le (s : Schedule) (failures : Nat) :
    s.backoffMillis failures ≤ s.backoffMax := Nat.min_le_right _ _

theorem backoffMillis_mono (s : Schedule) (h : s.backoffMax < Word.size 64) {m n : Nat}
    (hmn : m ≤ n) : s.backoffMillis m ≤ s.backoffMillis n := by
  rw [backoffMillis_eq h, backoffMillis_eq h]
  have hpow : 2 ^ (m - 1) ≤ 2 ^ (n - 1) := Nat.pow_le_pow_right (by decide) (by omega)
  have hmul := Nat.mul_le_mul_left s.backoffBase hpow
  omega

/-- From 65 failures on the backoff no longer grows, so a count may stop there or later. -/
theorem backoffMillis_min (s : Schedule) {g : Nat} (hg : 65 ≤ g) (failures : Nat) :
    s.backoffMillis (min failures g) = s.backoffMillis failures := by
  rcases Nat.le_total failures g with hle | hle
  · rw [Nat.min_eq_left hle]
  · rw [Nat.min_eq_right hle]
    unfold backoffMillis boundedPower
    rw [if_neg (by omega), if_neg (by omega)]

end Schedule

/-! ## Outcomes -/

/-- The unclean passes in a row at the end of some outcomes. -/
def streak (outcomes : List Bool) : Nat := (outcomes.reverse.takeWhile (!·)).length

@[simp] theorem streak_nil : streak [] = 0 := rfl

@[simp] theorem streak_concat (outcomes : List Bool) (clean : Bool) :
    streak (outcomes ++ [clean]) = if clean then 0 else streak outcomes + 1 := by
  cases clean <;> simp [streak]

theorem streak_pos_iff {outcomes : List Bool} :
    0 < streak outcomes ↔ outcomes.getLast? = some false := by
  rcases List.eq_nil_or_concat' outcomes with rfl | ⟨before, clean, rfl⟩
  · simp
  · cases clean <;> simp

theorem streak_append {outcomes later : List Bool} (h : ∀ clean ∈ later, clean = false) :
    streak (outcomes ++ later) = streak outcomes + later.length := by
  induction later using List.reverseRecOn with
  | nil => simp
  | append_singleton later clean ih =>
    obtain rfl := h clean (by simp)
    rw [← List.append_assoc, streak_concat, ih fun c hc => h c (List.mem_append_left _ hc),
      List.length_append]
    rfl

theorem streak_le_length (outcomes : List Bool) : streak outcomes ≤ outcomes.length := by
  unfold streak
  exact (List.takeWhile_prefix _).length_le.trans_eq List.length_reverse

namespace LaneTask

/-- Failures in a row are counted up to a bound. -/
theorem foldl_recordPass (outcomes : List Bool) :
    outcomes.foldl recordPass 0 = min (streak outcomes) (Word.greatest 32) := by
  induction outcomes using List.reverseRecOn with
  | nil => rfl
  | append_singleton outcomes clean ih =>
    rw [List.foldl_append, List.foldl_cons, List.foldl_nil, ih, streak_concat, recordPass]
    cases clean with
    | true => simp
    | false =>
      simp only [Bool.false_eq_true, if_false]
      omega

/-- The wait of a lane whose passes ended with some outcomes. -/
def waitAfter (s : Schedule) (outcomes : List Bool) : Span :=
  delay s (outcomes.foldl recordPass 0)

/-- The wait depends on the unclean passes at the end, however many they are. -/
theorem waitAfter_eq (s : Schedule) (outcomes : List Bool) :
    waitAfter s outcomes =
      if 0 < streak outcomes then .ofMillis (s.backoffMillis (streak outcomes))
      else s.fallback := by
  rw [waitAfter, foldl_recordPass, delay]
  have hgreatest : 65 ≤ Word.greatest 32 := by decide
  by_cases h : 0 < streak outcomes
  · rw [if_neg (by omega), if_pos h, Schedule.backoff, s.backoffMillis_min hgreatest]
  · rw [if_pos (by omega), if_neg h]

theorem waitAfter_clean (s : Schedule) {outcomes : List Bool}
    (h : outcomes.getLast? = some true) : waitAfter s outcomes = s.fallback := by
  rw [waitAfter_eq, if_neg (by simp [streak_pos_iff, h])]

theorem waitAfter_unclean (s : Schedule) {outcomes : List Bool}
    (h : outcomes.getLast? = some false) :
    waitAfter s outcomes = .ofMillis (s.backoffMillis (streak outcomes)) := by
  rw [waitAfter_eq, if_pos (streak_pos_iff.2 h)]

/-- While passes go on to be unclean the wait does not become shorter, nor too long. -/
theorem waitAfter_append {s : Schedule} (hmax : s.backoffMax < Word.size 64)
    {outcomes more : List Bool} (h : outcomes.getLast? = some false)
    (hmore : ∀ clean ∈ more, clean = false) :
    (waitAfter s outcomes).nanos ≤ (waitAfter s (outcomes ++ more)).nanos ∧
      (waitAfter s (outcomes ++ more)).nanos ≤ (Span.ofMillis s.backoffMax).nanos := by
  have hpos := streak_pos_iff.2 h
  rw [waitAfter_unclean s h, waitAfter_eq s (outcomes ++ more), streak_append hmore,
    if_pos (by omega)]
  exact ⟨Nat.mul_le_mul_right _ (s.backoffMillis_mono hmax (Nat.le_add_right _ _)),
    Nat.mul_le_mul_right _ (s.backoffMillis_le _)⟩

/-- The outcome of the pass that the next step of a lane reports, if the report is taken. -/
def outcome? (t : LaneTask) (w : LaneWork) : Option Bool :=
  match t.phase with
  | .passing pass _ => (pass.result?.map Pass.wasClean).filter fun clean =>
      (w.progress.finishPass? t.epoch t.lane clean).isSome
  | _ => none

/-- What a step of a lane does to its count: it reports an outcome, which is counted, and the lane
is to wait; or it leaves the count, and the lane is not to wait because of this step. -/
inductive Counted (t t' : LaneTask) : Option Bool → Prop where
  | counted (clean : Bool) : t'.phase = .turning → t'.failures = recordPass t.failures clean →
      Counted t t' (some clean)
  | left : t'.phase ≠ .turning → t'.failures = t.failures → Counted t t' none

section

variable {x : LaneContext} {t t' : LaneTask} {w w' : LaneWork}

theorem counted_go {phase : LanePhase} (h : phase ≠ .turning) : Counted t (t.go phase) none :=
  .left h rfl

theorem counted_of_endPass {pass : Pass} {reply : Option (Scripted Reply)}
    {result : Except SyncError Bool} (hp : t.phase = .passing pass reply)
    (hr : pass.result? = some result) (h : t.endPass x result w = (t', w')) :
    Counted t t' (t.outcome? w) := by
  obtain ⟨f, ⟨hnone, he⟩ | ⟨p, hsome, he⟩⟩ := endPass_cases x t result w
  · obtain ⟨rfl, -⟩ := Prod.mk.inj (he.symm.trans h)
    have ho : t.outcome? w = none := by simp [outcome?, hp, hr, hnone]
    rw [ho]
    exact counted_go (by simp)
  · obtain ⟨rfl, -⟩ := Prod.mk.inj (he.symm.trans h)
    have ho : t.outcome? w = some (Pass.wasClean result) := by simp [outcome?, hp, hr, hsome]
    rw [ho]
    exact .counted _ rfl rfl

theorem counted_of_step (h : t.step? x w = some (t', w')) : Counted t t' (t.outcome? w) := by
  cases hp : t.phase with
  | passing pass reply =>
    simp only [step?, hp, stepPass?] at h
    cases hr : pass.result? with
    | some result =>
      simp only [hr, Option.some.injEq] at h
      exact counted_of_endPass hp hr h
    | none =>
      have ho : t.outcome? w = none := by simp [outcome?, hp, hr]
      rw [ho]
      simp only [hr] at h
      split at h
      · split at h
        · cases h
          exact counted_go (by simp)
        · cases h
        · cases h
          exact counted_go (by simp)
      · cases h
        exact counted_go (by simp)
  | _ =>
    have ho : t.outcome? w = none := by simp [outcome?, hp]
    rw [ho]
    have hm := move_of_step h
    generalize t.phase.deed t'.phase = d at hm
    cases hm with
    | again => exact .left (by simp) rfl
    | ask hm | answer hm | proceed hm | finish hm | discard hm =>
      rw [hp] at hm
      cases hm
    | _ => exact counted_go (by simp)

theorem outcome?_of_stays (h : t.step? x w = none) : t.outcome? w = none := by
  cases hp : t.phase with
  | passing pass reply =>
    cases hr : pass.result? with
    | none => simp [outcome?, hp, hr]
    | some result => simp [step?, hp, stepPass?, hr] at h
  | _ => simp [outcome?, hp]

end

end LaneTask

namespace LaneCourse

open LaneTask (Counted)

/-- The outcome that a lane reports at an event, if it reports one. -/
def outcome? (s : LaneCourse) : LaneEvent → Option Bool
  | .step _ w => s.task.outcome? w
  | .trigger | .release => none

/-- The outcomes that a lane reports at events, oldest first. -/
def outcomes (s : LaneCourse) : List LaneEvent → List Bool
  | [] => []
  | e :: es => (s.outcome? e).toList ++ (s.step e).outcomes es

/-- The count of a lane is that of its outcomes, and it is to wait only after one. -/
structure Counts (s : LaneCourse) (outcomes : List Bool) : Prop where
  failures : s.task.failures = outcomes.foldl LaneTask.recordPass 0
  reported : s.task.phase = .turning → outcomes ≠ []

theorem counts_start (l : Lane) (epoch : Nat) : (start l epoch).Counts [] where
  failures := rfl
  reported h := by cases l <;> cases h

section

variable {s : LaneCourse} {outcomes : List Bool}

theorem Counts.step (h : s.Counts outcomes) (e : LaneEvent) :
    (s.step e).Counts (outcomes ++ (s.outcome? e).toList) := by
  cases e with
  | trigger =>
    rw [outcome?, Option.toList_none, List.append_nil]
    rcases s.task.notify_cases with ⟨due, -, he⟩ | ⟨-, he⟩
    · exact ⟨by simpa [LaneCourse.step, he, LaneTask.go] using h.failures,
        fun hp => by simp [LaneCourse.step, he, LaneTask.go] at hp⟩
    · exact ⟨by simpa [LaneCourse.step, he] using h.failures,
        fun hp => h.reported (by simpa [LaneCourse.step, he] using hp)⟩
  | release =>
    rw [outcome?, Option.toList_none, List.append_nil]
    unfold LaneCourse.step
    cases hr : s.task.release? with
    | none => exact h
    | some t =>
      obtain ⟨pass, reply, reply', -, rfl⟩ := LaneTask.release?_cases hr
      exact ⟨h.failures, fun hp => by cases hp⟩
  | step x w =>
    rw [outcome?]
    cases hs : s.task.step? x w with
    | none =>
      rw [LaneTask.outcome?_of_stays hs, Option.toList_none, List.append_nil]
      simpa only [LaneCourse.step, hs] using h
    | some tw =>
      obtain ⟨t, w'⟩ := tw
      have hc := LaneTask.counted_of_step hs
      generalize s.task.outcome? w = o at hc
      simp only [LaneCourse.step, hs]
      cases hc with
      | counted clean _ hf =>
        refine ⟨?_, by simp⟩
        rw [Option.toList_some, List.foldl_append, ← h.failures]
        exact hf
      | left hp hf =>
        rw [Option.toList_none, List.append_nil]
        exact ⟨hf.trans h.failures, fun hp' => absurd hp' hp⟩

theorem Counts.run (h : s.Counts outcomes) (es : List LaneEvent) :
    (s.run es).Counts (outcomes ++ s.outcomes es) := by
  induction es generalizing s outcomes with
  | nil =>
    rw [LaneCourse.outcomes, List.append_nil]
    exact h
  | cons e es ih =>
    rw [LaneCourse.outcomes, ← List.append_assoc]
    exact ih (h.step e)

end

/-- For all outcomes of passes: after a clean one the wait is the fallback interval; after unclean
ones it is the base, doubled for each of those in a row but the first, up to the greatest wait, in
numbers without bound. While passes go on to be unclean the waits do not become shorter, nor longer
than the greatest one. And whatever a lane finds at each of its steps, and whenever triggers come:
it counts the unclean passes in a row, and once it is to wait it waits as long as the outcomes of
its passes call for, unless a trigger is kept or it is to stop. -/
theorem waits_by_streak (schedule : Schedule) (hmax : schedule.backoffMax < Word.size 64) :
    (∀ outcomes : List Bool,
      (outcomes.getLast? = some true →
        LaneTask.waitAfter schedule outcomes = schedule.fallback) ∧
      (outcomes.getLast? = some false → LaneTask.waitAfter schedule outcomes =
        .ofMillis (min (schedule.backoffBase * 2 ^ (streak outcomes - 1)) schedule.backoffMax)) ∧
      ∀ more, outcomes.getLast? = some false → (∀ clean ∈ more, clean = false) →
        let later := LaneTask.waitAfter schedule (outcomes ++ more)
        (LaneTask.waitAfter schedule outcomes).nanos ≤ later.nanos ∧
          later.nanos ≤ (Span.ofMillis schedule.backoffMax).nanos) ∧
    ∀ l epoch es,
      let s := (start l epoch).run es
      let outcomes := (start l epoch).outcomes es
      (outcomes.length < Word.size 32 → s.task.failures = streak outcomes) ∧
      (s.task.phase = .turning → outcomes ≠ [] ∧
        ∀ (x : LaneContext) (w : LaneWork), x.settings.schedule = schedule → x.stopping = false →
          s.task.permit = false →
          let due := x.now + (LaneTask.waitAfter schedule outcomes).nanos
          s.task.step? x w = some (s.task.go (.waiting due false), w)) := by
  refine ⟨fun outcomes => ⟨LaneTask.waitAfter_clean schedule, fun hlast => ?_,
    fun more => LaneTask.waitAfter_append hmax⟩, fun l epoch es => ?_⟩
  · rw [← Schedule.backoffMillis_eq hmax]
    exact LaneTask.waitAfter_unclean schedule hlast
  · intro s outcomes
    have h : s.Counts outcomes := (counts_start l epoch).run es
    refine ⟨fun hlen => ?_, fun hp => ⟨h.reported hp, fun x w hx hs hk => ?_⟩⟩
    · have hle : streak outcomes ≤ outcomes.length := streak_le_length outcomes
      have hlen' : outcomes.length ≤ Word.greatest 32 := Nat.le_sub_one_of_lt hlen
      rw [h.failures, LaneTask.foldl_recordPass]
      exact Nat.min_eq_left (hle.trans hlen')
    · rw [LaneTask.waitAfter, ← h.failures]
      simp only [LaneTask.step?, hp, hs, hk, Bool.false_eq_true, if_false, hx]

/-- Two passes do not reach the server, the second one begun by a trigger: the lane waits twice as
long as after the first. -/
theorem second_wait_doubled :
    let x : LaneContext := ⟨"notes", {}, false, true, 0⟩
    let unreachable : Except SyncError Page := .error (.transport "fetch" "no route")
    let w : LaneWork := ⟨Progress.begin {}, {}, { pages := [⟨false, unreachable⟩] }⟩
    let go : LaneEvent := .step x w
    let es := [go, go, go, go, go, .trigger, go, go, go, go, go]
    let s := (start .pull 1).run es
    (start .pull 1).outcomes es = [false, false] ∧
      s.task.step? x w = some (s.task.go (.waiting 2000000000 false), w) := by
  intro x unreachable w go es s
  have ho : (start .pull 1).outcomes es = [false, false] := by decide +kernel
  have hs : ((start .pull 1).run es).task.phase = .turning := rfl
  have hkept : ((start .pull 1).run es).task.permit = false := by decide +kernel
  obtain ⟨hwait, hlane⟩ := waits_by_streak {} (by decide)
  have hdue : x.now + (LaneTask.waitAfter {} [false, false]).nanos = 2000000000 := by
    rw [(hwait [false, false]).2.1 rfl]
    exact Nat.zero_add 2000000000
  have hstep := ((hlane .pull 1 es).2 hs).2 x w rfl rfl hkept
  rw [ho, hdue] at hstep
  exact ⟨ho, hstep⟩

end LaneCourse

end Replication
