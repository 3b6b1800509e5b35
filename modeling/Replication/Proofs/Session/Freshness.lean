import Mathlib.Data.List.Induction
import Replication.Proofs.Collection.History
import Replication.Proofs.Session.SingleFlight

/-!
# Which token stays

Every caller of a renewal stores the token itself, at a time of its own: another renewal may have
stored its token by then, or the token may have been set or dropped.

1. A history says which renewals began and ended and which tokens were stored. A store is outdated
   if what it replaces is newer than the renewal that it comes from (`Outdated`).
2. No store of a history is outdated exactly if stores come in the order in which their renewals
   began and no token is set or dropped between the beginning of a renewal and its last store
   (`fresh_iff_inOrder`). This rests on renewals not overlapping (`Grounded`).
3. A course is a session with its history. Its events come in any order
   (`Course.fresh_iff_inOrder_history`).
4. Histories are in order if every caller has its result before a renewal begins or the token is
   set or dropped (`Course.inOrder_of_apart`).
-/

namespace Replication.Session

/-- What is done to the renewals and to the token of a session. -/
inductive Deed where
  | began (renewal : Nat)
  | ended (renewal : Nat)
  /-- A caller stored the token that its renewal brought. -/
  | stored (renewal : Nat) (token : String)
  /-- The token was set or dropped. -/
  | replaced (token : Option String)
  deriving DecidableEq, Repr

namespace Deed

/-- Whether a deed puts something in the place of the token. -/
def writes : Deed → Bool
  | .stored _ _ | .replaced _ => true
  | .began _ | .ended _ => false

/-- The token after a deed. -/
def token (before : Option String) : Deed → Option String
  | .stored _ t => some t
  | .replaced t => t
  | .began _ | .ended _ => before

/-- The renewal whose token a deed stores. -/
def source? : Deed → Option Nat
  | .stored n _ => some n
  | _ => none

end Deed

/-- The renewals whose tokens were stored, in the order of the stores. -/
def stores (h : List Deed) : List Nat := h.filterMap Deed.source?

/-- After a history the result of a renewal is outdated: it was over before the present token was
stored from a renewal that began later, or it began before the token was set or dropped. Renewals
are numbered in the order in which they begin. -/
def Outdated (h : List Deed) (n : Nat) : Prop :=
  (∃ past m t since, h = past ++ .stored m t :: since ∧ (∀ d ∈ since, d.writes = false) ∧
    n < m ∧ .ended n ∈ past) ∨
  ∃ past t since, h = past ++ .replaced t :: since ∧ .began n ∈ past

/-- No store replaces a token with an outdated one. -/
def Fresh (h : List Deed) : Prop :=
  ∀ past n t since, h = past ++ .stored n t :: since → ¬Outdated past n

/-- Stores come in the order in which their renewals began, and none comes after the token was set
or dropped since the beginning of its renewal. -/
structure InOrder (h : List Deed) : Prop where
  sorted : (stores h).Pairwise (· ≤ ·)
  undisturbed : ∀ past t since, h = past ++ .replaced t :: since →
    ∀ n ∈ stores since, .began n ∉ past

/-- When a token is stored, its renewal and all before it have begun and are over. -/
def Grounded (h : List Deed) : Prop :=
  ∀ past n t since, h = past ++ .stored n t :: since → ∀ m ≤ n, .began m ∈ past ∧ .ended m ∈ past

section

variable {h : List Deed} {d : Deed}

theorem stores_append (h h' : List Deed) : stores (h ++ h') = stores h ++ stores h' :=
  List.filterMap_append

theorem mem_stores {n : Nat} : n ∈ stores h ↔ ∃ t, .stored n t ∈ h := by
  unfold stores
  rw [List.mem_filterMap]
  constructor
  · rintro ⟨d, hd, hn⟩
    cases d with
    | stored m t => exact ⟨t, Option.some.inj hn ▸ hd⟩
    | _ => cases hn
  · rintro ⟨t, ht⟩
    exact ⟨_, ht, rfl⟩

theorem stores_eq_nil (hn : ∀ d ∈ h, d.writes = false) : stores h = [] := by
  refine List.eq_nil_iff_forall_not_mem.2 fun n hmem => ?_
  obtain ⟨t, ht⟩ := mem_stores.1 hmem
  cases hn _ ht

theorem fresh_nil : Fresh [] := by
  intro past n t since heq
  simp at heq

theorem inOrder_nil : InOrder [] where
  sorted := List.Pairwise.nil
  undisturbed past t since heq := by simp at heq

theorem Grounded.left {h' : List Deed} (hg : Grounded (h ++ h')) : Grounded h := by
  intro past n t since heq
  refine hg past n t (since ++ h') ?_
  rw [heq, List.append_assoc, List.cons_append]

theorem fresh_concat :
    Fresh (h ++ [d]) ↔ Fresh h ∧ ∀ n t, d = .stored n t → ¬Outdated h n := by
  constructor
  · intro hf
    refine ⟨fun past n t since heq => hf past n t (since ++ [d]) ?_, fun n t hd => ?_⟩
    · exact concat_eq_append_cons_iff.2 (.inr ⟨since, rfl, heq⟩)
    · exact hf h n t [] (hd ▸ rfl)
  · rintro ⟨hf, hd⟩ past n t since heq
    rcases concat_eq_append_cons_iff.1 heq with ⟨-, hs, rfl⟩ | ⟨mid, -, hh⟩
    · exact hd n t hs.symm
    · exact hf past n t mid hh

theorem inOrder_concat :
    InOrder (h ++ [d]) ↔ InOrder h ∧ ∀ n t, d = .stored n t →
      (∀ m ∈ stores h, m ≤ n) ∧
        ∀ past t' since, h = past ++ .replaced t' :: since → .began n ∉ past := by
  have hstores : stores (h ++ [d]) = stores h ++ stores [d] := stores_append h [d]
  constructor
  · intro ho
    have hsorted := ho.sorted
    rw [hstores, List.pairwise_append] at hsorted
    refine ⟨⟨hsorted.1, fun past t since heq n hn => ?_⟩, fun n t hd => ⟨fun m hm => ?_, ?_⟩⟩
    · refine ho.undisturbed past t (since ++ [d]) ?_ n ?_
      · exact concat_eq_append_cons_iff.2 (.inr ⟨since, rfl, heq⟩)
      · rw [stores_append]
        exact List.mem_append_left _ hn
    · exact hsorted.2.2 m hm n (mem_stores.2 ⟨t, by simp [hd]⟩)
    · intro past t' since heq
      refine ho.undisturbed past t' (since ++ [d]) ?_ n ?_
      · exact concat_eq_append_cons_iff.2 (.inr ⟨since, rfl, heq⟩)
      · exact mem_stores.2 ⟨t, by simp [hd]⟩
  · rintro ⟨ho, hd⟩
    refine ⟨?_, fun past t since heq n hn => ?_⟩
    · rw [hstores, List.pairwise_append]
      refine ⟨ho.sorted, ?_, fun m hm n hn => ?_⟩
      · cases d <;> simp [stores, Deed.source?, List.filterMap_cons]
      · obtain ⟨t, ht⟩ := mem_stores.1 hn
        exact (hd n t (List.mem_singleton.1 ht).symm).1 m hm
    · rcases concat_eq_append_cons_iff.1 heq with ⟨rfl, -, -⟩ | ⟨mid, rfl, hh⟩
      · cases hn
      · rw [stores_append, List.mem_append] at hn
        rcases hn with hn | hn
        · exact ho.undisturbed past t mid hh n hn
        · obtain ⟨t', ht'⟩ := mem_stores.1 hn
          exact (hd n t' (List.mem_singleton.1 ht').symm).2 past t mid hh

/-- The present token is what the last deed that writes says. -/
theorem exists_last_write (hd : ∃ d ∈ h, d.writes = true) :
    ∃ past d since, h = past ++ d :: since ∧ d.writes = true ∧ ∀ x ∈ since, x.writes = false := by
  induction h using List.reverseRecOn with
  | nil =>
    obtain ⟨d, hd, -⟩ := hd
    cases hd
  | append_singleton h x ih =>
    cases hx : x.writes with
    | true => exact ⟨h, x, [], rfl, hx, nofun⟩
    | false =>
      obtain ⟨d, hmem, hw⟩ := hd
      have hmem : d ∈ h := by
        rcases List.mem_append.1 hmem with hmem | hmem
        · exact hmem
        · rw [List.mem_singleton.1 hmem, hx] at hw
          cases hw
      obtain ⟨past, d, since, rfl, hd, hsince⟩ := ih ⟨d, hmem, hw⟩
      refine ⟨past, d, since ++ [x], by simp, hd, fun y hy => ?_⟩
      rcases List.mem_append.1 hy with hy | hy
      · exact hsince y hy
      · rw [List.mem_singleton.1 hy, hx]

/-- If the stores so far are in order, a result is outdated exactly if a later renewal's token was
stored, or the token was set or dropped since its renewal began. -/
theorem outdated_iff (hg : Grounded h) (ho : InOrder h) {n : Nat} :
    Outdated h n ↔ (∃ m ∈ stores h, n < m) ∨
      ∃ past t since, h = past ++ .replaced t :: since ∧ .began n ∈ past := by
  constructor
  · rintro (⟨past, m, t, since, rfl, -, hlt, -⟩ | hreplaced)
    · exact .inl ⟨m, mem_stores.2 ⟨t, by simp⟩, hlt⟩
    · exact .inr hreplaced
  · rintro (⟨m, hm, hlt⟩ | hreplaced)
    · obtain ⟨t, ht⟩ := mem_stores.1 hm
      obtain ⟨past, d, since, rfl, hd, hsince⟩ := exists_last_write ⟨_, ht, rfl⟩
      cases d with
      | stored k t' =>
        -- Since the stores are in order, the last one is of a renewal that began no earlier.
        have hk : m ≤ k := by
          have hsorted := ho.sorted
          rw [stores_append, List.pairwise_append] at hsorted
          rw [stores_append, List.mem_append] at hm
          have hstores : stores (.stored k t' :: since) = [k] := by
            show k :: stores since = [k]
            rw [stores_eq_nil hsince]
          rw [hstores] at hm hsorted
          rcases hm with hm | hm
          · exact hsorted.2.2 m hm k (List.mem_singleton_self k)
          · exact Nat.le_of_eq (List.mem_singleton.1 hm)
        have hlt' : n < k := Nat.lt_of_lt_of_le hlt hk
        exact .inl ⟨past, k, t', since, rfl, hsince, hlt',
          (hg past k t' since rfl n (Nat.le_of_lt hlt')).2⟩
      | replaced t' =>
        refine .inr ⟨past, t', since, rfl, ?_⟩
        have hpast : .stored m t ∈ past := by
          rcases List.mem_append.1 ht with ht | ht
          · exact ht
          · rcases List.mem_cons.1 ht with ht | ht
            · cases ht
            · cases hsince _ ht
        obtain ⟨before, after, rfl⟩ := List.append_of_mem hpast
        refine List.mem_append_left _ ?_
        refine (hg before m t (after ++ .replaced t' :: since) ?_ n (Nat.le_of_lt hlt)).1
        simp
      | _ => cases hd
    · exact .inr hreplaced

/-- No store is outdated exactly if the stores are in order. -/
theorem fresh_iff_inOrder (hg : Grounded h) : Fresh h ↔ InOrder h := by
  induction h using List.reverseRecOn with
  | nil => exact ⟨fun _ => inOrder_nil, fun _ => fresh_nil⟩
  | append_singleton h d ih =>
    rw [fresh_concat, inOrder_concat, ih hg.left]
    refine and_congr_right fun ho => forall_congr' fun n => forall_congr' fun t =>
      imp_congr_right fun _ => ?_
    rw [outdated_iff hg.left ho]
    simp only [not_or, not_exists, not_and, Nat.not_lt]

end

/-! ## Courses -/

/-- A session, the renewal that each caller joined, and what happened so far. -/
structure Course where
  session : Session
  joined : KeyMap Nat Nat := []
  history : List Deed := []

namespace Course

/-- The deed of a caller's next step: it stores the token that its renewal brought, or does nothing
to the token. -/
def storeOf (c : Course) (k : Nat) : List Deed :=
  match c.session.callers.get? k, c.joined.get? k with
  | some (.storing (.ok t)), some n => [.stored n t]
  | _, _ => []

/-- What an event does to the renewals and to the token. -/
def deeds (c : Course) : Event → List Deed
  | .call _ =>
    if c.session.renewable && c.session.slot.isNone then [.began c.session.renewals.length] else []
  | .settle n _ => if c.session.isRunning n then [.ended n] else []
  | .advance k => c.storeOf k
  | .cancel _ => []
  | .setToken t => [.replaced (some t)]
  | .clear => [.replaced none]

/-- The renewal that a caller joins is the one that it waits for. -/
def joinedAfter (c : Course) : Event → KeyMap Nat Nat
  | .call k => match (c.session.call k).callers.get? k with
    | some (.waiting n) => c.joined.set k n
    | _ => c.joined
  | _ => c.joined

/-- The course after an event. -/
def step (c : Course) (e : Event) : Course :=
  ⟨c.session.step e, c.joinedAfter e, c.history ++ c.deeds e⟩

/-- The course after events. -/
def run (c : Course) (es : List Event) : Course := es.foldl step c

/-- The course of a session with a token, to which nothing happened yet. -/
def opened (token : Option String) (renewable : Bool) : Course := ⟨{ token, renewable }, [], []⟩

theorem run_concat (c : Course) (es : List Event) (e : Event) :
    c.run (es ++ [e]) = (c.run es).step e := by
  unfold run
  rw [List.foldl_append]
  rfl

theorem session_run (c : Course) (es : List Event) : (c.run es).session = c.session.run es := by
  induction es generalizing c with
  | nil => rfl
  | cons e es ih => exact ih (c.step e)

/-- The deeds of an event, with what they make of the renewals and of the token. -/
inductive Effect (s s' : Session) : List Deed → Prop where
  | none : s'.renewals = s.renewals → s'.token = s.token → Effect s s' []
  | began : s.slot = .none → s'.renewals = s.renewals ++ [.none] → s'.token = s.token →
      Effect s s' [.began s.renewals.length]
  | ended {n : Nat} {o : Except String String} : s.isRunning n = true →
      s'.renewals = s.renewals.set n (some o) → s'.token = s.token → Effect s s' [.ended n]
  | stored {n : Nat} {t : String} : s.outcome? n = some (.ok t) → s'.renewals = s.renewals →
      s'.token = some t → Effect s s' [.stored n t]
  | replaced (t : Option String) : s'.renewals = s.renewals → s'.token = t →
      Effect s s' [.replaced t]

/-- What holds of every course. -/
structure Sound (c : Course) : Prop where
  held : c.session.Held
  /-- Only the latest renewal can be under way. -/
  latest : ∀ n, c.session.isRunning n = true → n + 1 = c.session.renewals.length
  began : ∀ n, n < c.session.renewals.length ↔ .began n ∈ c.history
  ended : ∀ n o, c.session.outcome? n = some o → .ended n ∈ c.history
  follows : ∀ k r, c.session.callers.get? k = some r →
    (∃ n, c.joined.get? k = some n ∧ Follows k n c.session) ∨ ∃ out, r = .done out
  grounded : Grounded c.history
  brought : ∀ n t, .stored n t ∈ c.history → c.session.outcome? n = some (.ok t)

section

variable {c : Course}

theorem sound_opened (token : Option String) (renewable : Bool) : (opened token renewable).Sound where
  held n hn := by cases isRunning_iff.1 hn
  latest n hn := by cases isRunning_iff.1 hn
  began n := by simp [opened]
  ended n o ho := by cases ho
  follows k r hr := by cases hr
  grounded past n t since heq := by simp [opened] at heq
  brought n t ht := by cases ht

/-- A caller that stores a token has it from the renewal that it joined. -/
theorem Sound.joined_of_storing (h : c.Sound) {k : Nat} {t : String}
    (hk : c.session.callers.get? k = some (.storing (.ok t))) :
    ∃ n, c.joined.get? k = some n ∧ c.session.outcome? n = some (.ok t) := by
  rcases h.follows k _ hk with ⟨n, hn, r, hr, hf⟩ | ⟨out, hout⟩
  · obtain rfl : r = .storing (.ok t) := Option.some.inj (hr.symm.trans hk)
    exact ⟨n, hn, hf⟩
  · cases hout

theorem storeOf_cases (c : Course) (k : Nat) :
    c.storeOf k = [] ∨ ∃ n t, c.storeOf k = [.stored n t] ∧
      c.session.callers.get? k = some (.storing (.ok t)) ∧ c.joined.get? k = some n := by
  unfold storeOf
  split
  · rename_i t n hk hn
    exact .inr ⟨n, t, rfl, hk, hn⟩
  · exact .inl rfl

theorem renewals_advance (s : Session) (k : Nat) : (s.advance k).renewals = s.renewals := by
  unfold advance
  split
  · split <;> rfl
  · show s.clearSlot.renewals = s.renewals
    unfold clearSlot
    split
    · split <;> rfl
    · rfl
  · rename_i o _
    cases o <;> rfl
  · rfl

theorem Sound.effect_advance (h : c.Sound) (k : Nat) :
    Effect c.session (c.session.advance k) (c.storeOf k) := by
  have hrenewals := renewals_advance c.session k
  rcases c.storeOf_cases k with hnone | ⟨n, t, hstored, hk, hn⟩
  · rw [hnone]
    rcases c.session.token_step (.advance k) with ht | ⟨t, ht⟩ | ht | ⟨k', t, hk', hstoring, -⟩
    · exact .none hrenewals ht
    · cases ht
    · cases ht
    · cases hk'
      obtain ⟨n, hn, -⟩ := h.joined_of_storing hstoring
      simp [storeOf, hstoring, hn] at hnone
  · rw [hstored]
    obtain ⟨n', hn', ho⟩ := h.joined_of_storing hk
    rw [hn] at hn'
    cases hn'
    refine .stored ho hrenewals ?_
    unfold advance
    rw [hk]
    rfl

theorem Sound.effect (h : c.Sound) (e : Event) :
    Effect c.session (c.session.step e) (c.deeds e) := by
  cases e with
  | call k =>
    show Effect c.session (c.session.call k)
      (if c.session.renewable && c.session.slot.isNone then _ else _)
    unfold call
    cases hr : c.session.renewable with
    | false => exact .none rfl rfl
    | true =>
      cases hs : c.session.slot with
      | some n => exact .none rfl rfl
      | none => exact .began hs rfl rfl
  | settle n o =>
    show Effect c.session (c.session.settle n o) (if c.session.isRunning n then _ else _)
    unfold settle
    split
    · exact .ended ‹_› rfl rfl
    · exact .none rfl rfl
  | advance k => exact h.effect_advance k
  | cancel k => exact .none rfl rfl
  | setToken t => exact .replaced _ rfl rfl
  | clear => exact .replaced _ rfl rfl

/-- A caller that asks joins the renewal in the slot, or begins one. -/
theorem call_cases (s : Session) (k : Nat) :
    ((s.call k).slot = s.slot ∧ (∃ out, (s.call k).callers.get? k = some (.done out))) ∨
      (∃ n, s.slot = some n ∧ (s.call k).slot = some n ∧
        (s.call k).callers.get? k = some (.waiting n)) ∨
      s.slot = none ∧ (s.call k).slot = some s.renewals.length ∧
        (s.call k).renewals.length = s.renewals.length + 1 ∧
        (s.call k).callers.get? k = some (.waiting s.renewals.length) := by
  unfold call
  split
  · exact .inl ⟨rfl, _, (get?_place s k k _).trans (if_pos rfl)⟩
  · split
    · rename_i n hs
      exact .inr (.inl ⟨n, hs, hs, (get?_place s k k _).trans (if_pos rfl)⟩)
    · rename_i hs
      exact .inr (.inr ⟨hs, rfl, by simp, (get?_place s k k _).trans (if_pos rfl)⟩)

theorem joinedAfter_of_not_resets {e : Event} {k : Nat} (he : ¬e.Resets k) :
    (c.joinedAfter e).get? k = c.joined.get? k := by
  cases e with
  | call k' =>
    have hne : k' ≠ k := fun h => he (.inl (congrArg Event.call h))
    unfold joinedAfter
    dsimp only
    split
    · rw [KeyMap.get?_set, if_neg hne]
    · rfl
  | _ => rfl

theorem Sound.follows_step (h : c.Sound) (e : Event) (k : Nat) (r : RenewalCaller)
    (hr : (c.step e).session.callers.get? k = some r) :
    (∃ n, (c.step e).joined.get? k = some n ∧ Follows k n (c.step e).session) ∨
      ∃ out, r = .done out := by
  by_cases he : e.Resets k
  · rcases he with rfl | rfl
    · have hjoins : ∀ n, (c.session.call k).callers.get? k = some (.waiting n) →
          ∃ n, (c.step (.call k)).joined.get? k = some n ∧
            Follows k n (c.step (.call k)).session := by
        intro n hn
        refine ⟨n, ?_, _, hn, rfl⟩
        show (c.joinedAfter (.call k)).get? k = some n
        simp [joinedAfter, hn]
      rcases call_cases c.session k with ⟨-, out, hout⟩ | ⟨n, -, -, hn⟩ | ⟨-, -, -, hn⟩
      · exact .inr ⟨out, Option.some.inj (hr.symm.trans hout)⟩
      · exact .inl (hjoins n hn)
      · exact .inl (hjoins _ hn)
    · have hgone : (c.session.cancel k).callers.get? k = none :=
        (KeyMap.get?_erase _ _ _).trans (if_pos rfl)
      cases hgone.symm.trans hr
  · by_cases hdone : ∀ r, c.session.callers.get? k = some r → ∃ out, r = .done out
    · have hsame := get?_step_of_done he hdone
      exact .inr (hdone r (hsame.symm.trans hr))
    · push Not at hdone
      obtain ⟨r₀, hr₀, hno⟩ := hdone
      rcases h.follows k r₀ hr₀ with ⟨n, hn, hf⟩ | ⟨out, hout⟩
      · exact .inl ⟨n, (joinedAfter_of_not_resets he).trans hn, hf.step he⟩
      · exact absurd hout (hno out)

/-- A renewal is over or under way once it began. -/
theorem outcome?_or_isRunning {s : Session} {n : Nat} (hn : n < s.renewals.length) :
    (∃ o, s.outcome? n = some o) ∨ s.isRunning n = true := by
  rw [isRunning_iff]
  unfold outcome?
  rw [List.getElem?_eq_getElem hn]
  cases s.renewals[n] with
  | none => exact .inr rfl
  | some o => exact .inl ⟨o, rfl⟩

theorem lt_length_of_outcome? {s : Session} {n : Nat} {o : Except String String}
    (ho : s.outcome? n = some o) : n < s.renewals.length := by
  by_contra hn
  unfold outcome? at ho
  rw [List.getElem?_eq_none (Nat.le_of_not_lt hn)] at ho
  cases ho

/-- Before a renewal that is over, all others are over. -/
theorem Sound.over (h : c.Sound) {n : Nat} {o : Except String String}
    (ho : c.session.outcome? n = some o) {m : Nat} (hm : m ≤ n) :
    .began m ∈ c.history ∧ .ended m ∈ c.history := by
  have hn := lt_length_of_outcome? ho
  have hlt : m < c.session.renewals.length := Nat.lt_of_le_of_lt hm hn
  refine ⟨(h.began m).1 hlt, ?_⟩
  rcases outcome?_or_isRunning hlt with ⟨o', ho'⟩ | hrunning
  · exact h.ended m o' ho'
  · have hlast := h.latest m hrunning
    obtain rfl : m = n := by omega
    rw [outcome?_eq_none_of_isRunning hrunning] at ho
    cases ho

section

variable {s' : Session} {ds : List Deed}

theorem Sound.latest_effect (h : c.Sound) (he : Effect c.session s' ds) (n : Nat)
    (hn : s'.isRunning n = true) : n + 1 = s'.renewals.length := by
  have hsame : s'.renewals = c.session.renewals → n + 1 = s'.renewals.length := by
    intro hr
    rw [isRunning_iff, hr] at hn
    rw [hr]
    exact h.latest n (isRunning_iff.2 hn)
  cases he with
  | none hr | stored _ hr | replaced _ hr => exact hsame hr
  | began hs hr =>
    rw [isRunning_iff, hr, List.getElem?_append] at hn
    rw [hr, List.length_append, List.length_singleton]
    split_ifs at hn with hlt
    · have hheld := h.held n (isRunning_iff.2 hn)
      rw [hs] at hheld
      cases hheld
    · have := (List.getElem?_eq_some_iff.1 hn).1
      rw [List.length_singleton] at this
      omega
  | ended hm hr =>
    rw [isRunning_iff, hr, List.getElem?_set] at hn
    rw [hr, List.length_set]
    split_ifs at hn
    · cases hn
    · exact h.latest n (isRunning_iff.2 hn)

theorem Sound.began_effect (h : c.Sound) (he : Effect c.session s' ds) (n : Nat) :
    n < s'.renewals.length ↔ .began n ∈ c.history ++ ds := by
  rw [List.mem_append, ← h.began n]
  cases he with
  | none hr | stored _ hr | replaced _ hr => simp [hr]
  | began hs hr =>
    rw [hr, List.length_append, List.length_singleton, List.mem_singleton, Deed.began.injEq]
    omega
  | ended hm hr => simp [hr]

theorem Sound.ended_effect (h : c.Sound) (he : Effect c.session s' ds) (n : Nat)
    (o : Except String String) (ho : s'.outcome? n = some o) : .ended n ∈ c.history ++ ds := by
  rw [List.mem_append]
  cases he with
  | none hr | stored _ hr | replaced _ hr =>
    rw [outcome?_of_eq hr] at ho
    exact .inl (h.ended n o ho)
  | began hs hr =>
    refine .inl (h.ended n o ?_)
    unfold outcome? at ho ⊢
    rw [hr, List.getElem?_append] at ho
    split_ifs at ho with hlt
    · exact ho
    · rw [List.getElem?_singleton] at ho
      split_ifs at ho
      · cases ho
      · cases ho
  | @ended m o' hm hr =>
    by_cases hne : m = n
    · exact .inr (by simp [hne])
    · refine .inl (h.ended n o ?_)
      unfold outcome? at ho ⊢
      rwa [hr, List.getElem?_set_ne hne] at ho

theorem Sound.grounded_effect (h : c.Sound) (he : Effect c.session s' ds) :
    Grounded (c.history ++ ds) := by
  cases he with
  | @stored n t ho =>
    intro past n' t' since heq m hm
    rcases concat_eq_append_cons_iff.1 heq with ⟨-, hs, rfl⟩ | ⟨mid, -, hh⟩
    · cases hs
      exact h.over ho hm
    · exact h.grounded past n' t' mid hh m hm
  | none =>
    rw [List.append_nil]
    exact h.grounded
  | _ =>
    intro past n' t' since heq m hm
    rcases concat_eq_append_cons_iff.1 heq with ⟨-, hs, -⟩ | ⟨mid, -, hh⟩
    · cases hs
    · exact h.grounded past n' t' mid hh m hm

theorem Sound.brought_effect (h : c.Sound) (he : Effect c.session s' ds) (n : Nat) (t : String)
    (ht : .stored n t ∈ c.history ++ ds) : c.session.outcome? n = some (.ok t) := by
  rcases List.mem_append.1 ht with ht | ht
  · exact h.brought n t ht
  · cases he with
    | stored ho =>
      cases List.mem_singleton.1 ht
      exact ho
    | none => cases ht
    | _ => cases List.mem_singleton.1 ht

theorem foldl_effect (he : Effect c.session s' ds) :
    s'.token = ds.foldl Deed.token c.session.token := by
  cases he <;> assumption

end

theorem Sound.step (h : c.Sound) (e : Event) : (c.step e).Sound where
  held := h.held.step e
  latest := h.latest_effect (h.effect e)
  began := h.began_effect (h.effect e)
  ended := h.ended_effect (h.effect e)
  follows := h.follows_step e
  grounded := h.grounded_effect (h.effect e)
  brought n t ht := outcome?_step (h.brought_effect (h.effect e) n t ht) e

theorem Sound.run (h : c.Sound) (es : List Event) : (c.run es).Sound := by
  induction es generalizing c with
  | nil => exact h
  | cons e es ih => exact ih (h.step e)

/-- The token after events is what their deeds make of it. -/
theorem Sound.token_run (h : c.Sound) {before : Option String}
    (ht : c.session.token = c.history.foldl Deed.token before) (es : List Event) :
    (c.run es).session.token = (c.run es).history.foldl Deed.token before := by
  induction es generalizing c with
  | nil => exact ht
  | cons e es ih =>
    refine ih (h.step e) ?_
    show (c.session.step e).token = (c.history ++ c.deeds e).foldl Deed.token before
    rw [List.foldl_append, ← ht]
    exact foldl_effect (h.effect e)

end

/-! ## Renewals that keep apart -/

/-- The event puts a renewal into the empty slot, or sets or drops the token. -/
def Turns (s : Session) (e : Event) : Prop :=
  (∃ t, e = .setToken t) ∨ e = .clear ∨ (∃ k, e = .call k) ∧ s.slot = none

/-- No renewal is in the slot, and every caller has its result. -/
def AtRest (s : Session) : Prop :=
  s.slot = none ∧ ∀ k r, s.callers.get? k = some r → ∃ out, r = .done out

/-- The renewal can still be joined, or a caller waits for its result. -/
def Live (c : Course) (n : Nat) : Prop :=
  c.session.slot = some n ∨ ∃ k r, c.session.callers.get? k = some r ∧
    (∀ out, r ≠ .done out) ∧ c.joined.get? k = some n

/-- Only the latest renewal is live, and the token was not set or dropped since it began. -/
structure Tidy (c : Course) : Prop where
  inOrder : InOrder c.history
  live : ∀ n, c.Live n → n + 1 = c.session.renewals.length ∧
    ∀ past t since, c.history = past ++ .replaced t :: since → .began n ∉ past

section

variable {c : Course} {e : Event}

theorem Live.not_atRest {n : Nat} (hl : c.Live n) : ¬AtRest c.session := by
  rintro ⟨hslot, hdone⟩
  rcases hl with hs | ⟨k, r, hk, hr, -⟩
  · rw [hslot] at hs
    cases hs
  · obtain ⟨out, hout⟩ := hdone k r hk
    exact hr out hout

theorem slot_step {s : Session} (hcall : ∀ k, e ≠ .call k) :
    (s.step e).slot = s.slot ∨ (s.step e).slot = none := by
  cases e with
  | call k => exact absurd rfl (hcall k)
  | settle n o =>
    left
    show (s.settle n o).slot = s.slot
    unfold settle
    split <;> rfl
  | advance k =>
    show (s.advance k).slot = s.slot ∨ (s.advance k).slot = none
    unfold advance
    split
    · split <;> exact .inl rfl
    · show s.clearSlot.slot = s.slot ∨ s.clearSlot.slot = none
      unfold clearSlot
      split
      · split
        · exact .inr rfl
        · exact .inl rfl
      · exact .inl rfl
    · rename_i o _
      cases o <;> exact .inl rfl
    · exact .inl rfl
  | _ => exact .inl rfl

/-- A caller that has no result yet asked just now, or was there before with the same renewal. -/
theorem live_of_not_resets {k n : Nat} {r : RenewalCaller} (he : ¬e.Resets k)
    (hk : (c.step e).session.callers.get? k = some r) (hr : ∀ out, r ≠ .done out)
    (hn : (c.step e).joined.get? k = some n) : c.Live n := by
  by_cases hdone : ∀ r, c.session.callers.get? k = some r → ∃ out, r = .done out
  · have hsame := get?_step_of_done he hdone
    obtain ⟨out, hout⟩ := hdone r (hsame.symm.trans hk)
    exact absurd hout (hr out)
  · push Not at hdone
    obtain ⟨r₀, hr₀, hno⟩ := hdone
    exact .inr ⟨k, r₀, hr₀, hno, (joinedAfter_of_not_resets he).symm.trans hn⟩

/-- What is live after an event was live before, or began just now. -/
theorem live_step {n : Nat} (hl : (c.step e).Live n) :
    c.Live n ∨ n = c.session.renewals.length ∧
      (c.session.step e).renewals.length = n + 1 ∧ Turns c.session e := by
  by_cases hcall : ∃ k, e = .call k
  · obtain ⟨k, rfl⟩ := hcall
    have hother : ∀ k' r, (c.step (.call k)).session.callers.get? k' = some r →
        (∀ out, r ≠ .done out) → (c.step (.call k)).joined.get? k' = some n → k' ≠ k →
        c.Live n := by
      intro k' r hk' hr hn hne
      refine live_of_not_resets ?_ hk' hr hn
      rintro (he | he)
      · exact hne (Event.call.inj he).symm
      · cases he
    have hown : ∀ m, (c.session.call k).callers.get? k = some (.waiting m) →
        (c.step (.call k)).joined.get? k = some m := by
      intro m hm
      show (c.joinedAfter (.call k)).get? k = some m
      simp [joinedAfter, hm]
    rcases call_cases c.session k with ⟨hs, out, hout⟩ | ⟨m, hs, hs', hm⟩ | ⟨hs, hs', hlen, hm⟩
    · left
      rcases hl with hslot | ⟨k', r, hk', hr, hn⟩
      · exact .inl (hs.symm.trans hslot)
      · refine hother k' r hk' hr hn ?_
        rintro rfl
        exact hr out (Option.some.inj (hk'.symm.trans hout))
    · left
      rcases hl with hslot | ⟨k', r, hk', hr, hn⟩
      · exact .inl (hs.trans (hs'.symm.trans hslot))
      · by_cases hne : k' = k
        · subst hne
          rw [hown m hm] at hn
          exact .inl (hs.trans hn)
        · exact hother k' r hk' hr hn hne
    · have hbegan : n = c.session.renewals.length →
          n = c.session.renewals.length ∧
            (c.session.step (.call k)).renewals.length = n + 1 ∧ Turns c.session (.call k) :=
        fun hn => ⟨hn, hn ▸ hlen, .inr (.inr ⟨⟨k, rfl⟩, hs⟩)⟩
      rcases hl with hslot | ⟨k', r, hk', hr, hn⟩
      · exact .inr (hbegan (Option.some.inj (hslot.symm.trans hs')))
      · by_cases hne : k' = k
        · subst hne
          rw [hown _ hm] at hn
          exact .inr (hbegan (Option.some.inj hn).symm)
        · exact .inl (hother k' r hk' hr hn hne)
  · push Not at hcall
    left
    rcases hl with hslot | ⟨k, r, hk, hr, hn⟩
    · rcases slot_step (s := c.session) hcall with hs | hs
      · exact .inl (hs.symm.trans hslot)
      · cases hs.symm.trans hslot
    · refine live_of_not_resets ?_ hk hr hn
      rintro (he | he)
      · exact hcall k he
      · subst he
        have hgone : (c.session.cancel k).callers.get? k = none :=
          (KeyMap.get?_erase _ _ _).trans (if_pos rfl)
        cases hgone.symm.trans hk

/-- Which event does which deed. -/
theorem deed_cases {d : Deed} (hd : d ∈ c.deeds e) :
    (∃ k, e = .call k ∧ c.session.slot = none ∧ d = .began c.session.renewals.length) ∨
      (∃ n o, e = .settle n o ∧ d = .ended n) ∨
      (∃ k n t, e = .advance k ∧ d = .stored n t ∧
        c.session.callers.get? k = some (.storing (.ok t)) ∧ c.joined.get? k = some n) ∨
      ∃ t, d = .replaced t ∧ ((∃ m, e = .setToken m) ∨ e = .clear) := by
  cases e with
  | call k =>
    simp only [deeds] at hd
    split at hd
    · rename_i hbegins
      rw [Bool.and_eq_true, Option.isNone_iff_eq_none] at hbegins
      exact .inl ⟨k, rfl, hbegins.2, List.mem_singleton.1 hd⟩
    · cases hd
  | settle n o =>
    simp only [deeds] at hd
    split at hd
    · exact .inr (.inl ⟨n, o, rfl, List.mem_singleton.1 hd⟩)
    · cases hd
  | advance k =>
    have hd : d ∈ c.storeOf k := hd
    rcases c.storeOf_cases k with hnone | ⟨n, t, hstored, hk, hn⟩
    · rw [hnone] at hd
      cases hd
    · rw [hstored] at hd
      exact .inr (.inr (.inl ⟨k, n, t, rfl, List.mem_singleton.1 hd, hk, hn⟩))
  | cancel k => cases hd
  | setToken t =>
    exact .inr (.inr (.inr ⟨some t, List.mem_singleton.1 hd, .inl ⟨t, rfl⟩⟩))
  | clear => exact .inr (.inr (.inr ⟨none, List.mem_singleton.1 hd, .inr rfl⟩))

theorem turns_of_began {n : Nat} (hd : .began n ∈ c.deeds e) : Turns c.session e := by
  rcases deed_cases hd with ⟨k, rfl, hs, -⟩ | ⟨_, _, -, h⟩ | ⟨_, _, _, -, h, -⟩ | ⟨_, h, -⟩
  · exact .inr (.inr ⟨⟨k, rfl⟩, hs⟩)
  all_goals cases h

theorem turns_of_replaced {t : Option String} (hd : .replaced t ∈ c.deeds e) :
    Turns c.session e := by
  rcases deed_cases hd with ⟨_, -, -, h⟩ | ⟨_, _, -, h⟩ | ⟨_, _, _, -, h, -⟩ | ⟨_, -, hset | rfl⟩
  · cases h
  · cases h
  · cases h
  · exact .inl hset
  · exact .inr (.inl rfl)

/-- A caller that stores a token has no result yet. -/
theorem live_of_stored {n : Nat} {t : String} (hd : .stored n t ∈ c.deeds e) : c.Live n := by
  rcases deed_cases hd with ⟨_, -, -, h⟩ | ⟨_, _, -, h⟩ | ⟨k, _, _, -, h, hk, hn⟩ | ⟨_, h, -⟩
  · cases h
  · cases h
  · cases h
    exact .inr ⟨k, _, hk, nofun, hn⟩
  · cases h

theorem deeds_eq_nil_or_singleton (c : Course) (e : Event) :
    c.deeds e = [] ∨ ∃ d, c.deeds e = [d] := by
  cases e with
  | call k | settle n o =>
    simp only [deeds]
    split
    · exact .inr ⟨_, rfl⟩
    · exact .inl rfl
  | advance k =>
    rcases c.storeOf_cases k with hnone | ⟨n, t, hstored, -⟩
    · exact .inl hnone
    · exact .inr ⟨_, hstored⟩
  | cancel k => exact .inl rfl
  | setToken t => exact .inr ⟨_, rfl⟩
  | clear => exact .inr ⟨_, rfl⟩

/-- A deed in the history after an event is the event's own, or it was there before, after the same
deeds. -/
theorem history_step_cases {past since : List Deed} {d : Deed}
    (heq : (c.step e).history = past ++ d :: since) :
    (d ∈ c.deeds e ∧ past = c.history) ∨ ∃ mid, c.history = past ++ d :: mid := by
  have heq : c.history ++ c.deeds e = past ++ d :: since := heq
  rcases c.deeds_eq_nil_or_singleton e with hds | ⟨x, hds⟩
  · rw [hds, List.append_nil] at heq
    exact .inr ⟨since, heq⟩
  · rw [hds] at heq
    rcases concat_eq_append_cons_iff.1 heq with ⟨-, rfl, hpast⟩ | ⟨mid, -, hmid⟩
    · exact .inl ⟨by simp [hds], hpast.symm⟩
    · exact .inr ⟨mid, hmid⟩

theorem Tidy.inOrder_step (ht : c.Tidy) (h : c.Sound) : InOrder (c.step e).history := by
  show InOrder (c.history ++ c.deeds e)
  rcases c.deeds_eq_nil_or_singleton e with hds | ⟨d, hds⟩
  · rw [hds, List.append_nil]
    exact ht.inOrder
  · rw [hds, inOrder_concat]
    refine ⟨ht.inOrder, fun n t hd => ?_⟩
    obtain ⟨hlast, hundisturbed⟩ := ht.live n (live_of_stored (t := t) (e := e) (by simp [hds, hd]))
    refine ⟨fun m hm => ?_, hundisturbed⟩
    obtain ⟨t', ht'⟩ := mem_stores.1 hm
    have := lt_length_of_outcome? (h.brought m t' ht')
    omega

theorem length_renewals_step (h : c.Sound) (he : ¬Turns c.session e) :
    (c.session.step e).renewals.length = c.session.renewals.length := by
  have heffect := h.effect e
  have hbegan : ∀ n, .began n ∉ c.deeds e := fun n hn => he (turns_of_began hn)
  generalize c.deeds e = ds at heffect hbegan
  cases heffect with
  | none hr | stored _ hr | replaced _ hr => rw [hr]
  | began => exact absurd (List.mem_singleton_self _) (hbegan _)
  | ended _ hr => rw [hr, List.length_set]

theorem Tidy.live_step (ht : c.Tidy) (h : c.Sound)
    (hapart : Turns c.session e → AtRest c.session) (n : Nat) (hl : (c.step e).Live n) :
    n + 1 = (c.step e).session.renewals.length ∧
      ∀ past t since, (c.step e).history = past ++ .replaced t :: since → .began n ∉ past := by
  rcases Course.live_step hl with hl | ⟨hn, hlen, -⟩
  · have hturns : ¬Turns c.session e := fun hturns => hl.not_atRest (hapart hturns)
    obtain ⟨hlast, hundisturbed⟩ := ht.live n hl
    refine ⟨hlast.trans (length_renewals_step h hturns).symm, fun past t since heq => ?_⟩
    rcases history_step_cases heq with ⟨hd, -⟩ | ⟨mid, hmid⟩
    · exact absurd (turns_of_replaced hd) hturns
    · exact hundisturbed past t mid hmid
  · refine ⟨hlen.symm, fun past t since heq hpast => ?_⟩
    have hbefore : .began n ∈ c.history := by
      rcases history_step_cases heq with ⟨-, rfl⟩ | ⟨mid, hmid⟩
      · exact hpast
      · rw [hmid]
        exact List.mem_append_left _ hpast
    exact absurd ((h.began n).2 hbefore) (by omega)

theorem Tidy.step (ht : c.Tidy) (h : c.Sound) (hapart : Turns c.session e → AtRest c.session) :
    (c.step e).Tidy where
  inOrder := ht.inOrder_step h
  live := ht.live_step h hapart

end

theorem tidy_opened (token : Option String) (renewable : Bool) : (opened token renewable).Tidy where
  inOrder := inOrder_nil
  live n hl := by rcases hl with hs | ⟨k, r, hk, -⟩ <;> contradiction

/-- If every caller has its result and the slot is empty whenever a renewal begins and whenever the
token is set or dropped, then stores are in order. -/
theorem inOrder_of_apart {token : Option String} {renewable : Bool} {es : List Event}
    (hapart : ∀ before e after, es = before ++ e :: after →
      Turns ((opened token renewable).run before).session e →
        AtRest ((opened token renewable).run before).session) :
    InOrder ((opened token renewable).run es).history := by
  suffices htidy : ((opened token renewable).run es).Tidy from htidy.inOrder
  induction es using List.reverseRecOn with
  | nil => exact tidy_opened token renewable
  | append_singleton es e ih =>
    rw [run_concat]
    refine (ih fun before e' after heq => ?_).step ((sound_opened token renewable).run es)
      (hapart es e [] rfl)
    refine hapart before e' (after ++ [e]) ?_
    rw [heq, List.append_assoc, List.cons_append]

/-- Whatever callers, renewals and calls about the token do, and in whatever order:

- the token is what the last deed that writes it says, and what a caller stores is what the renewal
  that it joined brought;
- no store replaces the token with an outdated one exactly if the stores come in the order in which
  their renewals began, and the token is neither set nor dropped between the beginning of a renewal
  and a store from it. -/
theorem fresh_iff_inOrder_history (token : Option String) (renewable : Bool) (es : List Event) :
    let c := (opened token renewable).run es
    c.session = Session.run { token, renewable } es ∧
      c.session.token = c.history.foldl Deed.token token ∧
      (∀ n t, .stored n t ∈ c.history → c.session.outcome? n = some (.ok t)) ∧
      (Fresh c.history ↔ InOrder c.history) := by
  intro c
  have h : c.Sound := (sound_opened token renewable).run es
  exact ⟨session_run _ es, (sound_opened token renewable).token_run rfl es, h.brought,
    fresh_iff_inOrder h.grounded⟩

/-- A caller that waits for long stores the token of the first renewal over that of the second, and
a token comes back after it was dropped. -/
theorem late_store_outdated :
    let steps (k : Nat) : List Event := List.replicate 3 (.advance k)
    let c := (opened none true).run
      ([.call 1, .call 2, .settle 0 (.ok "first")] ++ steps 1 ++
        [.call 3, .settle 1 (.ok "second")] ++ steps 3 ++ steps 2)
    let c' := (opened none true).run ([.call 1, .clear, .settle 0 (.ok "first")] ++ steps 1)
    c.session.token = some "first" ∧ ¬Fresh c.history ∧
      c'.session.token = some "first" ∧ ¬Fresh c'.history := by
  intro steps c c'
  refine ⟨rfl, fun h => ?_, rfl, fun h => ?_⟩
  · refine h [.began 0, .ended 0, .stored 0 "first", .began 1, .ended 1, .stored 1 "second"] 0
      "first" [] rfl (.inl ⟨[.began 0, .ended 0, .stored 0 "first", .began 1, .ended 1], 1,
        "second", [], rfl, nofun, by decide, by decide⟩)
  · exact h [.began 0, .replaced none, .ended 0] 0 "first" [] rfl
      (.inr ⟨[.began 0], none, [.ended 0], rfl, by decide⟩)

end Course

end Replication.Session
