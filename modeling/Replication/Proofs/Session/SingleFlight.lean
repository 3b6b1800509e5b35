import Mathlib.Data.List.Basic
import Replication.Session.Basic

/-!
# One renewal at a time

Any number of callers ask for a new token, wait, go on and go away, in any order, while renewals
come to their ends and tokens are set and dropped.

1. An event starts a renewal, ends one, empties the slot, or leaves both alone (`Moved`), and brings
   a caller one place further (`Next`).
2. So the slot holds the renewal that is under way (`Held`), and a caller that joined one gets what
   came of it (`Follows`).
-/

namespace Replication.Session

/-- The result of a caller whose renewal had an outcome. -/
def resultOf : Except String String → Except SyncError String
  | .ok token => .ok token
  | .error message => .error (.session message)

theorem store_fst (s : Session) (o : Except String String) : (s.store o).1 = resultOf o := by
  cases o <;> rfl

/-! ## One event -/

/-- What an event may do to the renewals and to the slot. -/
inductive Moved (s s' : Session) : Prop where
  | same : s'.renewals = s.renewals → s'.slot = s.slot → Moved s s'
  | began : s.slot = none → s'.renewals = s.renewals ++ [none] →
      s'.slot = some s.renewals.length → Moved s s'
  | ended {n : Nat} {o : Except String String} : s.isRunning n = true →
      s'.renewals = s.renewals.set n (some o) → s'.slot = s.slot → Moved s s'
  | emptied {n : Nat} {o : Except String String} : s.slot = some n → s.outcome? n = some o →
      s'.renewals = s.renewals → s'.slot = none → Moved s s'

/-- The next place of a caller. -/
inductive Next (s : Session) : RenewalCaller → RenewalCaller → Prop where
  | heard {n : Nat} {o : Except String String} : s.outcome? n = some o →
      Next s (.waiting n) (.clearing o)
  | emptied (o : Except String String) : Next s (.clearing o) (.storing o)
  | stored (o : Except String String) : Next s (.storing o) (.done (resultOf o))

theorem moved_clearSlot (s : Session) : Moved s s.clearSlot := by
  unfold clearSlot
  cases hs : s.slot with
  | none => exact .same rfl rfl
  | some n =>
    dsimp only
    cases ho : s.outcome? n with
    | none => exact .same rfl rfl
    | some o => exact .emptied hs ho rfl rfl

theorem moved_step (s : Session) (e : Event) : Moved s (s.step e) := by
  cases e with
  | call k =>
    show Moved s (s.call k)
    unfold call
    cases hr : s.renewable with
    | false => exact .same rfl rfl
    | true =>
      cases hs : s.slot with
      | some n => exact .same rfl rfl
      | none => exact .began hs rfl rfl
  | settle n o =>
    show Moved s (s.settle n o)
    unfold settle
    split
    · exact .ended ‹_› rfl rfl
    · exact .same rfl rfl
  | advance k =>
    show Moved s (s.advance k)
    unfold advance
    split
    · split
      · exact .same rfl rfl
      · exact .same rfl rfl
    · rcases s.moved_clearSlot with ⟨h, h'⟩ | ⟨hs, h, h'⟩ | ⟨hr, h, h'⟩ | ⟨hs, ho, h, h'⟩
      · exact .same h h'
      · exact .began hs h h'
      · exact .ended hr h h'
      · exact .emptied hs ho h h'
    · rename_i o _
      cases o <;> exact .same rfl rfl
    · exact .same rfl rfl
  | cancel k => exact .same rfl rfl
  | setToken t => exact .same rfl rfl
  | clear => exact .same rfl rfl

/-- A token changes by a call for it, or by a caller that has one to store. -/
theorem token_step (s : Session) (e : Event) :
    (s.step e).token = s.token ∨ (∃ t, e = .setToken t) ∨ e = .clear ∨
      ∃ k t, e = .advance k ∧ s.callers.get? k = some (.storing (.ok t)) ∧
        (s.step e).token = some t := by
  cases e with
  | call k =>
    left
    show (s.call k).token = s.token
    unfold call
    split
    · rfl
    · split <;> rfl
  | settle n o =>
    left
    show (s.settle n o).token = s.token
    unfold settle
    split <;> rfl
  | advance k =>
    show (s.advance k).token = s.token ∨ _
    unfold advance
    split
    · split <;> exact .inl rfl
    · left
      show s.clearSlot.token = s.token
      unfold clearSlot
      split
      · split <;> rfl
      · rfl
    · rename_i o hk
      cases o with
      | error m => exact .inl rfl
      | ok t =>
        refine .inr (.inr (.inr ⟨k, t, rfl, hk, ?_⟩))
        show (s.advance k).token = some t
        unfold advance
        rw [hk]
        rfl
    · exact .inl rfl
  | cancel k => exact .inl rfl
  | setToken t => exact .inr (.inl ⟨t, rfl⟩)
  | clear => exact .inr (.inr (.inl rfl))

/-- Whether an event lets a caller begin anew or go away. -/
def Event.Resets (k : Nat) (e : Event) : Prop := e = .call k ∨ e = .cancel k

/-- Whether an event is a step of a caller. -/
def Event.advances (k : Nat) : Event → Bool
  | .advance k' => k' == k
  | _ => false

theorem get?_place (s : Session) (k k' : Nat) (c : RenewalCaller) :
    (s.place k c).callers.get? k' = if k = k' then some c else s.callers.get? k' :=
  KeyMap.get?_set _ _ _ _

theorem callers_clearSlot (s : Session) : s.clearSlot.callers = s.callers := by
  unfold clearSlot
  split
  · split <;> rfl
  · rfl

/-- A step of a caller brings it to its next place, or it waits for a renewal under way, or has its
result, or is not there. -/
theorem next_advance (s : Session) (k : Nat) :
    (∃ c c', s.callers.get? k = some c ∧ (s.advance k).callers.get? k = some c' ∧ Next s c c') ∨
      (s.advance k).callers.get? k = s.callers.get? k ∧
        ((∃ n, s.callers.get? k = some (.waiting n) ∧ s.outcome? n = none) ∨
          (∃ r, s.callers.get? k = some (.done r)) ∨ s.callers.get? k = none) := by
  unfold advance
  cases hk : s.callers.get? k with
  | none => exact .inr ⟨hk, .inr (.inr rfl)⟩
  | some c =>
    cases c with
    | waiting n =>
      dsimp only
      cases ho : s.outcome? n with
      | none => exact .inr ⟨hk, .inl ⟨n, rfl, ho⟩⟩
      | some o => exact .inl ⟨_, _, rfl, by rw [get?_place, if_pos rfl], .heard ho⟩
    | clearing o => exact .inl ⟨_, _, rfl, by rw [get?_place, if_pos rfl], .emptied o⟩
    | storing o =>
      refine .inl ⟨_, _, rfl, ?_, .stored o⟩
      dsimp only
      rw [get?_place, if_pos rfl, store_fst]
    | done r => exact .inr ⟨hk, .inr (.inl ⟨r, rfl⟩)⟩

/-- The place of a caller is changed by its own steps only. -/
theorem get?_step {s : Session} {k : Nat} {e : Event} (hr : ¬e.Resets k)
    (ha : e.advances k = false) : (s.step e).callers.get? k = s.callers.get? k := by
  cases e with
  | call k' =>
    have hne : k' ≠ k := fun h => hr (.inl (congrArg Event.call h))
    show (s.call k').callers.get? k = _
    unfold call
    split
    · rw [get?_place, if_neg hne]
    · split
      · rw [get?_place, if_neg hne]
      · exact (get?_place s k' k _).trans (if_neg hne)
  | settle n o =>
    show (s.settle n o).callers.get? k = _
    unfold settle
    split <;> rfl
  | advance k' =>
    have hne : k' ≠ k := by simpa [Event.advances] using ha
    show (s.advance k').callers.get? k = _
    unfold advance
    split
    · split
      · rw [get?_place, if_neg hne]
      · rfl
    · rw [get?_place, if_neg hne, callers_clearSlot]
    · rename_i o _
      dsimp only
      rw [get?_place, if_neg hne]
      cases o <;> rfl
    · rfl
  | cancel k' =>
    have hne : k' ≠ k := fun h => hr (.inr (congrArg Event.cancel h))
    exact (KeyMap.get?_erase _ _ _).trans (if_neg hne)
  | setToken t => rfl
  | clear => rfl

/-! ## The slot -/

theorem outcome?_of_eq {s s' : Session} (h : s'.renewals = s.renewals) (n : Nat) :
    s'.outcome? n = s.outcome? n := by
  unfold outcome?
  rw [h]

theorem isRunning_iff {s : Session} {n : Nat} :
    s.isRunning n = true ↔ s.renewals[n]? = some none := by
  unfold isRunning
  split <;> simp_all

theorem outcome?_eq_none_of_isRunning {s : Session} {n : Nat} (h : s.isRunning n = true) :
    s.outcome? n = none := by
  unfold outcome?
  rw [isRunning_iff.1 h]
  rfl

/-- The slot holds the renewal under way. -/
def Held (s : Session) : Prop := ∀ n, s.isRunning n = true → s.slot = some n

theorem Held.step {s : Session} (h : s.Held) (e : Event) : (s.step e).Held := by
  intro n hn
  rw [isRunning_iff] at hn
  rcases s.moved_step e with ⟨hr, hs⟩ | ⟨hs, hr, hs'⟩ | ⟨hm, hr, hs⟩ | ⟨hs, ho, hr, hs'⟩
  · rw [hs]
    exact h n (isRunning_iff.2 (hr ▸ hn))
  · rw [hr, List.getElem?_append] at hn
    split_ifs at hn with hlt
    · have hheld := h n (isRunning_iff.2 hn)
      rw [hs] at hheld
      cases hheld
    · have hlen : n = s.renewals.length := by
        have := (List.getElem?_eq_some_iff.1 hn).1
        simp only [List.length_singleton] at this
        omega
      rw [hs', hlen]
  · rw [hs]
    refine h n (isRunning_iff.2 ?_)
    rw [hr, List.getElem?_set] at hn
    split_ifs at hn
    · cases hn
    · exact hn
  · rename_i m o
    have hheld := h n (isRunning_iff.2 (hr ▸ hn))
    obtain rfl : m = n := Option.some.inj (hs.symm.trans hheld)
    rw [outcome?_eq_none_of_isRunning (isRunning_iff.2 (hr ▸ hn))] at ho
    cases ho

theorem Held.run {s : Session} (h : s.Held) (es : List Event) : (s.run es).Held := by
  induction es generalizing s with
  | nil => exact h
  | cons e es ih => exact ih (h.step e)

/-- The slot is not emptied while its renewal is under way. -/
theorem Held.slot_step {s : Session} (h : s.Held) {n : Nat} (hn : s.isRunning n = true)
    (e : Event) : (s.step e).slot = some n := by
  have hslot := h n hn
  rcases s.moved_step e with ⟨-, hs⟩ | ⟨hs, -, -⟩ | ⟨-, -, hs⟩ | ⟨hs, ho, -, -⟩
  · rw [hs, hslot]
  · rw [hs] at hslot
    cases hslot
  · rw [hs, hslot]
  · rename_i m o
    obtain rfl : m = n := Option.some.inj (hs.symm.trans hslot)
    rw [outcome?_eq_none_of_isRunning hn] at ho
    cases ho

/-- A renewal has one outcome for good. -/
theorem outcome?_step {s : Session} {n : Nat} {o : Except String String}
    (h : s.outcome? n = some o) (e : Event) : (s.step e).outcome? n = some o := by
  have hn : s.renewals[n]? = some (some o) := by
    unfold outcome? at h
    cases hr : s.renewals[n]? with
    | none => simp [hr] at h
    | some x => rw [hr] at h; exact congrArg some h
  rcases s.moved_step e with ⟨hr, -⟩ | ⟨-, hr, -⟩ | ⟨hm, hr, -⟩ | ⟨-, -, hr, -⟩
  · rw [outcome?_of_eq hr, h]
  · unfold outcome?
    rw [hr, List.getElem?_append_left (List.getElem?_eq_some_iff.1 hn).1, hn]
    rfl
  · rename_i m o'
    have hne : m ≠ n := by
      rintro rfl
      rw [outcome?_eq_none_of_isRunning hm] at h
      cases h
    unfold outcome?
    rw [hr, List.getElem?_set_ne hne, hn]
    rfl
  · rw [outcome?_of_eq hr, h]

theorem outcome?_run {s : Session} {n : Nat} {o : Except String String}
    (h : s.outcome? n = some o) (es : List Event) : (s.run es).outcome? n = some o := by
  induction es generalizing s with
  | nil => exact h
  | cons e es ih => exact ih (outcome?_step h e)

/-- A caller that asks while a renewal is under way joins it. -/
theorem Held.call {s : Session} (h : s.Held) {n : Nat} (hn : s.isRunning n = true)
    (hr : s.renewable = true) (k : Nat) :
    (s.step (.call k)).callers.get? k = some (.waiting n) ∧
      (s.step (.call k)).renewals = s.renewals := by
  show (s.call k).callers.get? k = _ ∧ (s.call k).renewals = _
  unfold Session.call
  simp only [hr, h n hn]
  exact ⟨(get?_place s k k _).trans (if_pos rfl), rfl⟩

/-! ## A caller from its joining on -/

/-- A caller is somewhere between its joining of a renewal and its result, and has of it what came
of it. -/
def Follows (k n : Nat) (s : Session) : Prop :=
  ∃ c, s.callers.get? k = some c ∧ match c with
    | .waiting m => m = n
    | .clearing o | .storing o => s.outcome? n = some o
    | .done r => ∃ o, s.outcome? n = some o ∧ r = resultOf o

/-- The steps that a caller has to make. -/
def left (k : Nat) (s : Session) : Nat :=
  match s.callers.get? k with
  | some (.waiting _) => 3
  | some (.clearing _) => 2
  | some (.storing _) => 1
  | _ => 0

theorem Follows.step {s : Session} {k n : Nat} (h : Follows k n s) {e : Event}
    (he : ¬e.Resets k) : Follows k n (s.step e) := by
  obtain ⟨c, hc, hf⟩ := h
  -- A place that stays is as good as before, since outcomes stay.
  have hstay : (s.step e).callers.get? k = s.callers.get? k → Follows k n (s.step e) := by
    intro hsame
    refine ⟨c, hsame.trans hc, ?_⟩
    cases c with
    | waiting m => exact hf
    | clearing o => exact outcome?_step hf e
    | storing o => exact outcome?_step hf e
    | done r =>
      obtain ⟨o, ho, hr⟩ := hf
      exact ⟨o, outcome?_step ho e, hr⟩
  cases ha : e.advances k with
  | false => exact hstay (get?_step he ha)
  | true =>
    obtain rfl : e = .advance k := by
      cases e <;> simp_all [Event.advances]
    rcases s.next_advance k with ⟨c₁, c', hc₁, hc', hnext⟩ | ⟨hsame, -⟩
    · obtain rfl : c₁ = c := Option.some.inj (hc₁.symm.trans hc)
      refine ⟨c', hc', ?_⟩
      cases hnext with
      | heard ho =>
        obtain rfl : _ = n := hf
        exact outcome?_step ho (.advance k)
      | emptied o => exact outcome?_step hf (.advance k)
      | stored o => exact ⟨o, outcome?_step hf (.advance k), rfl⟩
    · exact hstay hsame

theorem Follows.run {s : Session} {k n : Nat} (h : Follows k n s) {es : List Event}
    (he : ∀ e ∈ es, ¬e.Resets k) : Follows k n (s.run es) := by
  induction es generalizing s with
  | nil => exact h
  | cons e es ih =>
    obtain ⟨he, hes⟩ := List.forall_mem_cons.1 he
    exact ih (h.step he) hes

/-- Once its renewal is over, every step of a caller brings it on. -/
theorem Follows.left_step {s : Session} {k n : Nat} (h : Follows k n s)
    {o : Except String String} (ho : s.outcome? n = some o) {e : Event} (he : ¬e.Resets k) :
    left k (s.step e) = left k s - if e.advances k then 1 else 0 := by
  cases ha : e.advances k with
  | false =>
    unfold left
    rw [get?_step he ha]
    rfl
  | true =>
    obtain rfl : e = .advance k := by
      cases e <;> simp_all [Event.advances]
    show left k (s.advance k) = left k s - 1
    unfold left
    rcases s.next_advance k with ⟨c, c', hc, hc', hnext⟩ | ⟨hsame, ⟨m, hm, hnone⟩ | ⟨r, hr⟩ | hn⟩
    · rw [hc, hc']
      cases hnext <;> rfl
    · obtain ⟨c, hc, hf⟩ := h
      obtain rfl : c = .waiting m := Option.some.inj (hc.symm.trans hm)
      obtain rfl : m = n := hf
      rw [ho] at hnone
      cases hnone
    · rw [hsame, hr]
      rfl
    · rw [hsame, hn]
      rfl

theorem Follows.left_run {s : Session} {k n : Nat} (h : Follows k n s)
    {o : Except String String} (ho : s.outcome? n = some o) {es : List Event}
    (he : ∀ e ∈ es, ¬e.Resets k) :
    left k (s.run es) = left k s - es.countP (Event.advances k) := by
  induction es generalizing s with
  | nil => rfl
  | cons e es ih =>
    obtain ⟨he, hes⟩ := List.forall_mem_cons.1 he
    show left k ((s.step e).run es) = _
    rw [ih (h.step he) (outcome?_step ho e) hes, h.left_step ho he, List.countP_cons]
    omega

/-- A caller that has no step to make has its result. -/
theorem Follows.result {s : Session} {k n : Nat} (h : Follows k n s)
    {o : Except String String} (ho : s.outcome? n = some o) (hl : left k s = 0) :
    s.result? k = some (resultOf o) := by
  obtain ⟨c, hc, hf⟩ := h
  unfold left at hl
  unfold result?
  rw [hc] at hl ⊢
  cases c with
  | waiting m => cases hl
  | clearing o => cases hl
  | storing o => cases hl
  | done r =>
    obtain ⟨o', ho', rfl⟩ := hf
    rw [Option.some.inj (ho'.symm.trans ho)]

/-- What a caller that follows a renewal returns came of it. -/
theorem Follows.outcome {s : Session} {k n : Nat} (h : Follows k n s)
    {r : Except SyncError String} (hr : s.result? k = some r) :
    ∃ o, s.outcome? n = some o ∧ r = resultOf o := by
  obtain ⟨c, hc, hf⟩ := h
  unfold result? at hr
  rw [hc] at hr
  cases c with
  | waiting m => cases hr
  | clearing o => cases hr
  | storing o => cases hr
  | done r' =>
    obtain rfl := Option.some.inj hr
    exact hf

/-- Every caller follows a renewal, or has its result. -/
def Joined (s : Session) : Prop :=
  ∀ k c, s.callers.get? k = some c → (∃ n, Follows k n s) ∨ ∃ r, c = .done r

/-- A caller that asks follows a renewal from then on, unless there is no way to renew the token. -/
theorem follows_call (s : Session) (k : Nat) :
    (∃ n, Follows k n (s.call k)) ∨ ∃ r, (s.call k).callers.get? k = some (.done r) := by
  unfold call
  split
  · exact .inr ⟨_, (get?_place s k k _).trans (if_pos rfl)⟩
  · split
    · exact .inl ⟨_, _, (get?_place s k k _).trans (if_pos rfl), rfl⟩
    · exact .inl ⟨_, _, (get?_place s k k _).trans (if_pos rfl), rfl⟩

/-- A caller with its result, or none at all, stays that way. -/
theorem get?_step_of_done {s : Session} {k : Nat} {e : Event} (hr : ¬e.Resets k)
    (hk : ∀ c, s.callers.get? k = some c → ∃ r, c = .done r) :
    (s.step e).callers.get? k = s.callers.get? k := by
  cases ha : e.advances k with
  | false => exact get?_step hr ha
  | true =>
    obtain rfl : e = .advance k := by
      cases e <;> simp_all [Event.advances]
    rcases s.next_advance k with ⟨c, c', hc, -, hnext⟩ | ⟨hsame, -⟩
    · obtain ⟨r, rfl⟩ := hk c hc
      cases hnext
    · exact hsame

theorem Joined.step {s : Session} (h : s.Joined) (e : Event) : (s.step e).Joined := by
  intro k c hc
  by_cases hr : e.Resets k
  · rcases hr with rfl | rfl
    · rcases s.follows_call k with hn | ⟨r, hr⟩
      · exact .inl hn
      · exact .inr ⟨r, Option.some.inj (hc.symm.trans hr)⟩
    · have hgone : (s.cancel k).callers.get? k = none := (KeyMap.get?_erase _ _ _).trans (if_pos rfl)
      have hcaller : (s.cancel k).callers.get? k = some c := hc
      rw [hgone] at hcaller
      cases hcaller
  · by_cases hk : ∀ c, s.callers.get? k = some c → ∃ r, c = .done r
    · rw [get?_step_of_done hr hk] at hc
      exact .inr (hk c hc)
    · push Not at hk
      obtain ⟨c₀, hc₀, hno⟩ := hk
      rcases h k c₀ hc₀ with ⟨n, hn⟩ | ⟨r, hdone⟩
      · exact .inl ⟨n, hn.step hr⟩
      · exact absurd hdone (hno r)

theorem Joined.run {s : Session} (h : s.Joined) (es : List Event) : (s.run es).Joined := by
  induction es generalizing s with
  | nil => exact h
  | cons e es ih => exact ih (h.step e)

/-- A caller changes the token only if its renewal brought one. -/
theorem Follows.token {s : Session} {k n : Nat} (h : Follows k n s) {m : String}
    (ho : s.outcome? n = some (.error m)) : (s.step (.advance k)).token = s.token := by
  rcases s.token_step (.advance k) with ht | ⟨t, ht⟩ | ht | ⟨k', t, hk, hstore, -⟩
  · exact ht
  · cases ht
  · cases ht
  · obtain rfl : k = k' := Event.advance.inj hk
    obtain ⟨c, hc, hf⟩ := h
    obtain rfl : c = .storing (.ok t) := Option.some.inj (hc.symm.trans hstore)
    cases (Option.some.inj (ho.symm.trans hf))

/-- A token that is neither set nor dropped changes only to one that a renewal brought. -/
theorem Joined.token {s : Session} (h : s.Joined) (e : Event) :
    (s.step e).token = s.token ∨ (∃ t, e = .setToken t) ∨ e = .clear ∨
      ∃ n t, s.outcome? n = some (.ok t) ∧ (s.step e).token = some t := by
  rcases s.token_step e with ht | ht | ht | ⟨k, t, -, hk, ht⟩
  · exact .inl ht
  · exact .inr (.inl ht)
  · exact .inr (.inr (.inl ht))
  · rcases h k _ hk with ⟨n, c, hc, hf⟩ | ⟨r, hr⟩
    · obtain rfl : c = .storing (.ok t) := Option.some.inj (hc.symm.trans hk)
      exact .inr (.inr (.inr ⟨n, t, hf, ht⟩))
    · cases hr

/-! ## All of it -/

/-- However callers, renewals and tokens interleave:

- at most one renewal is under way;
- while it is, the slot holds it and no event empties the slot;
- a caller that asks meanwhile joins it and starts none;
- a caller that joined a renewal returns what came of it, and does so within three steps of its own
  once the renewal is over, unless it goes away;
- it leaves the token alone if its renewal failed, and what changes the token, other than a call for
  it, is a renewal that brought one. -/
theorem single_flight (token : Option String) (renewable : Bool) (es : List Event) :
    let s := run { token, renewable } es
    (∀ m n, s.isRunning m = true → s.isRunning n = true → m = n) ∧
    (∀ n, s.isRunning n = true → s.slot = some n ∧ ∀ e, (s.step e).slot = some n) ∧
    (∀ n k, s.isRunning n = true → s.renewable = true →
      (s.step (.call k)).callers.get? k = some (.waiting n) ∧
        (s.step (.call k)).renewals = s.renewals) ∧
    (∀ k n, s.callers.get? k = some (.waiting n) → ∀ es', (∀ e ∈ es', ¬Event.Resets k e) →
      (∀ r, (s.run es').result? k = some r →
        ∃ o, (s.run es').outcome? n = some o ∧ r = resultOf o) ∧
      (∀ o, s.outcome? n = some o → 3 ≤ es'.countP (Event.advances k) →
        (s.run es').result? k = some (resultOf o)) ∧
      ∀ m, (s.run es').outcome? n = some (.error m) →
        ((s.run es').step (.advance k)).token = (s.run es').token) ∧
    ∀ e, (s.step e).token = s.token ∨ (∃ t, e = .setToken t) ∨ e = .clear ∨
      ∃ n t, s.outcome? n = some (.ok t) ∧ (s.step e).token = some t := by
  intro s
  have hheld : s.Held := by
    refine Held.run ?_ es
    intro n hn
    rw [isRunning_iff] at hn
    cases hn
  have hcallers : s.Joined := Joined.run (fun k c hc => by cases hc) es
  refine ⟨?_, ?_, ?_, ?_, hcallers.token⟩
  · intro m n hm hn
    exact Option.some.inj ((hheld m hm).symm.trans (hheld n hn))
  · intro n hn
    exact ⟨hheld n hn, hheld.slot_step hn⟩
  · intro n k hn hr
    exact hheld.call hn hr k
  · intro k n hk es' hes'
    have hjoined : Follows k n s := ⟨_, hk, rfl⟩
    have hfollows := hjoined.run hes'
    refine ⟨fun r hr => hfollows.outcome hr, fun o ho hcount => ?_, fun m hm => hfollows.token hm⟩
    refine hfollows.result (outcome?_run ho es') ?_
    have hthree : left k s = 3 := by
      unfold left
      rw [hk]
    rw [hjoined.left_run ho hes', hthree]
    omega

/-- Two callers share a renewal that fails: both are told, it was started once, and the token that
was there stays. -/
theorem shared_failure :
    let s := run { token := some "old", renewable := true }
      [.call 1, .call 2, .settle 0 (.error "refused")]
    let es : List Event :=
      [.advance 2, .advance 1, .advance 1, .advance 2, .advance 2, .advance 1]
    s.renewals.length = 1 ∧ (s.run es).token = some "old" ∧
      (s.run es).result? 1 = some (.error (.session "refused")) ∧
      (s.run es).result? 2 = some (.error (.session "refused")) := by
  intro s es
  have hes : ∀ k, ∀ e ∈ es, ¬Event.Resets k e := by
    intro k e he hr
    rcases hr with rfl | rfl <;> simp [es] at he
  obtain ⟨-, -, -, hjoin, -⟩ := single_flight (some "old") true
    [.call 1, .call 2, .settle 0 (.error "refused")]
  refine ⟨rfl, rfl, ?_, ?_⟩
  · exact (hjoin 1 0 rfl es (hes 1)).2.1 (.error "refused") rfl (by decide)
  · exact (hjoin 2 0 rfl es (hes 2)).2.1 (.error "refused") rfl (by decide)

end Replication.Session
