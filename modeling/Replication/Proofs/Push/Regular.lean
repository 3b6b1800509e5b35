import Replication.Proofs.Push.Account
import Replication.Proofs.Push.Announce
import Replication.Proofs.Push.Ledger

/-!
# Desks without failures of their own

An event is plain if it belongs to push passes with a given limit, if everything can be written, and
if an answer names no mutation of its request twice (`Desk.Plain`). Requests may fail and answers
may say anything else. A desk that only plain events happen to is regular (`Desk.Regular`), and an
answer to one of its requests is reconciled as a whole (`Desk.Regular.step_cases`).
-/

namespace Replication

/-- A row after an answer is one from before, which it may have struck. -/
theorem Rows.exists_of_mem_delivered {rows : Rows} {maxRetries : Nat} {batch : List Mutation}
    {a : PushAnswer} {row' : Row} (hrow' : row' ∈ rows.delivered maxRetries batch a) :
    ∃ row ∈ rows, row' = row.struckBy maxRetries (a.misses batch) := by
  obtain ⟨row, hrow, rfl⟩ := List.mem_map.1 hrow'
  exact ⟨row, (List.mem_filter.1 hrow).1, rfl⟩

namespace PushPass

/-- The mutations that are sent together are different ones. -/
theorem Reads.nodup {collection : String} {limit : Nat} {rows : Rows} {batch : List Mutation}
    (h : Reads collection limit rows batch) (hu : rows.Unique) :
    (batch.map Mutation.id).Nodup := by
  obtain ⟨ms, hms, rfl⟩ := h
  have hids : ms.map Mutation.id = ((rows.pending collection).take limit).map Row.id := by
    generalize (rows.pending collection).take limit = read at hms
    induction hms with
    | nil => rfl
    | cons hm _ ih => rw [List.map_cons, List.map_cons, ih, (Row.mutation_eq_ok hm).1]
  have hrows : (((rows.pending collection).take limit).map Row.id).Nodup :=
    (((List.take_sublist _ _).trans List.filter_sublist).map Row.id).nodup hu
  exact ((deliverable_sublist ms).map Mutation.id).nodup (hids ▸ hrows)

end PushPass

namespace Desk

/-- An event is one of push passes with a given limit, or a mutation is queued or dropped, and
everything can be written; and an answer names no mutation of its request twice. -/
def Plain (maxRetries : Nat) (d : Desk) : Event → Prop
  | .enqueue m => m.retries ≤ Row.maxRetries
  | .giveUp _ _ => False
  | .begin _ _ n => n = maxRetries
  | .answer c (.ok a) => ∀ batch, d.request? c = some batch → (a.named batch).Nodup
  | .disturb locked _ => ∀ n, (Database.acquire locked Database.maxAttempts n).1 = true
  | _ => True

/-- Each event is of a kind, where it happens. -/
def Always (kind : Desk → Event → Prop) : Desk → List Event → Prop
  | _, [] => True
  | d, e :: es => kind d e ∧ Always kind (d.step e) es

/-- A desk that only plain events happened to. -/
structure Regular (maxRetries : Nat) (d : Desk) : Prop where
  orderly : d.Orderly
  legible : d.Legible
  writable : d.replica.Writable
  limit : ∀ c p, d.passes.get? c = some p → p.maxRetries = maxRetries
  distinct : ∀ c batch, d.request? c = some batch → (batch.map Mutation.id).Nodup
  counts : ∀ row ∈ d.rows, row.failed = false → 0 ≤ row.retries ∧ row.retries ≤ Row.maxRetries

theorem regular_opened (maxRetries : Nat) : opened.Regular maxRetries where
  orderly := orderly_opened
  legible := legible_opened
  writable := (⟨rfl, fun _ => rfl⟩ : opened.replica.Free).writable
  limit _ _ h := by cases h
  distinct _ _ h := by cases h
  counts _ h := by cases h

variable {maxRetries : Nat} {d : Desk} {e : Event}

theorem Plain.not_giveUp (h : d.Plain maxRetries e) (id reason : String) :
    e ≠ .giveUp id reason := by
  rintro rfl
  exact h

theorem exists_pass_of_request? {c : String} {batch : List Mutation}
    (h : d.request? c = some batch) :
    ∃ p, d.passes.get? c = some p ∧ p.request? = some batch := Option.bind_eq_some_iff.1 h

/-! ## One event -/

theorem Orderly.steady (h : d.Orderly) (hr : e ≠ .restart) (hd : ∀ l f, e ≠ .disturb l f) :
    d.replica.Steady (d.step e).replica := by
  cases e with
  | enqueue m =>
    obtain ⟨r', hr', ⟨he, -⟩ | ⟨he, -⟩⟩ := Replica.exec_enqueue m h.there
    all_goals
      simp only [Desk.step, he]
      exact hr'.toSteady
  | discard ids =>
    obtain ⟨_, r', _, hr', he, -⟩ := Replica.exec_discard ids h.there
    simp only [Desk.step, he]
    exact hr'.toSteady
  | giveUp id reason =>
    obtain ⟨_, r', hr', he, -⟩ := Replica.exec_markFailed id reason h.there
    simp only [Desk.step, he]
    exact hr'.toSteady
  | restart => exact absurd rfl hr
  | begin c limit maxRetries => exact d.replica.alike_refl.toSteady
  | proceed c =>
    dsimp only [Desk.step, stepPass]
    split
    · exact d.replica.alike_refl.toSteady
    · rename_i p _
      obtain ⟨p', r', he, hr', -⟩ := p.proceed_cases h.opened h.there
      rw [he]
      exact hr'.toSteady
  | answer c answer =>
    dsimp only [Desk.step, stepPass]
    split
    · exact d.replica.alike_refl.toSteady
    · rename_i p _
      cases hq : p.request? with
      | none =>
        rw [PushPass.answered_of_none hq]
        exact d.replica.alike_refl.toSteady
      | some batch =>
        obtain ⟨p', r', _, he, hr', -⟩ := PushPass.answered_cases hq answer h.there h.unique
        rw [he]
        exact hr'
  | disturb l f => exact absurd rfl (hd l f)

theorem Regular.writable_step (h : d.Regular maxRetries) (he : d.Plain maxRetries e) :
    (d.step e).replica.Writable := by
  by_cases hr : e = .restart
  · subst hr
    exact (⟨rfl, fun _ => rfl⟩ : (d.step .restart).replica.Free).writable
  by_cases hd : ∃ l f, e = .disturb l f
  · obtain ⟨l, f, rfl⟩ := hd
    exact ⟨h.writable.opened, he⟩
  · exact (h.orderly.steady hr fun l f he => hd ⟨l, f, he⟩).writable h.writable

/-- The passes that are under way keep their limit. -/
theorem Regular.limit_step (h : d.Regular maxRetries) (he : d.Plain maxRetries e) {c : String}
    {p : PushPass} (hp : (d.step e).passes.get? c = some p) : p.maxRetries = maxRetries := by
  have hpass {c' : String} {f : PushPass → Replica → PushPass × Replica}
      (hf : ∀ p r, (f p r).1.begun = p.begun)
      (hp : (d.stepPass c' f).passes.get? c = some p) : p.maxRetries = maxRetries := by
    unfold stepPass at hp
    split at hp
    · exact h.limit c p hp
    · rename_i q hq
      rw [KeyMap.get?_set] at hp
      split_ifs at hp
      · obtain rfl := Option.some.inj hp
        exact (congrArg (·.2.2) (hf q d.replica)).trans (h.limit c' q hq)
      · exact h.limit c p hp
  cases e with
  | enqueue m => exact h.limit c p hp
  | discard ids => exact h.limit c p hp
  | giveUp id reason => exact h.limit c p hp
  | restart => cases hp
  | begin c' limit n =>
    dsimp only [step] at hp
    rw [KeyMap.get?_set] at hp
    split_ifs at hp
    · obtain rfl := Option.some.inj hp
      exact he
    · exact h.limit c p hp
  | proceed c' => exact hpass PushPass.begun_proceed hp
  | answer c' answer => exact hpass (fun p => p.begun_answered answer) hp
  | disturb l f => exact h.limit c p hp

section answered

variable {c : String} {a : PushAnswer} {batch : List Mutation}

theorem Regular.sendable (h : d.Regular maxRetries) (hq : d.request? c = some batch) :
    d.rows.Sendable (batch.map Mutation.id) := by
  intro id hid
  obtain ⟨m, hm, rfl⟩ := List.mem_map.1 hid
  obtain ⟨row, hrow, hf, -, hid, hread⟩ := h.legible.asked c batch hq m hm
  exact ⟨row, hrow, hf, hid, hread⟩

theorem Regular.countable (h : d.Regular maxRetries) (ids : List String) :
    d.rows.Countable ids := by
  intro row hrow hf _
  have hle := (h.counts row hrow hf).2
  simp only [Row.countable, decide_eq_true_eq]
  have hsmall : (Row.maxRetries : Int) + 1 < Word.size 63 := by decide
  omega

/-- An answer to a request is reconciled as a whole. -/
theorem Regular.rows_answered (h : d.Regular maxRetries) (hq : d.request? c = some batch)
    (hn : (a.named batch).Nodup) :
    (d.step (.answer c (.ok a))).rows = d.rows.delivered maxRetries batch a := by
  obtain ⟨p, hp, hpq⟩ := exists_pass_of_request? hq
  obtain ⟨report, r', -, hrows, hex⟩ := Reconcile.exec_apply_writable p.collection maxRetries
    h.writable h.orderly.there h.orderly.unique (h.distinct c batch hq) hn (h.sendable hq)
    (h.countable _)
  have hreplica : (d.step (.answer c (.ok a))).replica = r' := by
    rw [replica_answer]
    simp only [reconciling?, hp, hpq, Option.bind_some, Option.map_some, h.limit c p hp, hex]
  rw [Desk.rows, hreplica, hrows]
  rfl

end answered

/-- What a plain event does to the rows: it appends a new one; it may drop some, and is no answer to
a request; or it is one. -/
theorem Regular.step_cases (h : d.Regular maxRetries) (he : d.Plain maxRetries e) :
    (∃ m, e = .enqueue m ∧ d.inserted? e = some m ∧ m.id ∉ d.rows.map Row.id ∧
        (d.step e).rows = d.rows ++ [Row.ofMutation m]) ∨
      (d.inserted? e = none ∧ (∀ row ∈ (d.step e).rows, row ∈ d.rows) ∧
        ∀ c a, e = .answer c (.ok a) → d.request? c = none) ∨
      ∃ c a batch, e = .answer c (.ok a) ∧ d.request? c = some batch ∧ (a.named batch).Nodup ∧
        (d.step e).rows = d.rows.delivered maxRetries batch a := by
  obtain ⟨-, ⟨m, rfl, hm, hrows⟩ | ht⟩ := h.orderly.step e
  · exact .inl ⟨m, rfl, inserted?_of_append hm hrows, hm, hrows⟩
  by_cases ha : ∃ c a batch, e = .answer c (.ok a) ∧ d.request? c = some batch
  · obtain ⟨c, a, batch, rfl, hq⟩ := ha
    have hn := he batch hq
    exact .inr (.inr ⟨c, a, batch, rfl, hq, hn, h.rows_answered hq hn⟩)
  · refine .inr (.inl ⟨inserted?_of_turned ht, fun row hrow => ?_, fun c a hc => ?_⟩)
    · refine ht.mem_of_mem (fun id hid => ?_) (causes_marked he.not_giveUp) hrow
      obtain ⟨c, a, batch, rfl, hq, -⟩ := mem_batch_of_causes (.inr hid)
      exact absurd ⟨c, a, batch, rfl, hq⟩ ha
    · exact Option.eq_none_iff_forall_ne_some.2 fun batch hq => ha ⟨c, a, batch, hc, hq⟩

/-- A pending row counts as many failed deliveries as can be reported, since a row with more is
given up. -/
theorem Regular.counts_step (hm : maxRetries < Row.maxRetries) (h : d.Regular maxRetries)
    (he : d.Plain maxRetries e) {row : Row} (hrow : row ∈ (d.step e).rows)
    (hf : row.failed = false) : 0 ≤ row.retries ∧ row.retries ≤ Row.maxRetries := by
  obtain ⟨m, rfl, -, -, hrows⟩ | ⟨-, hrows, -⟩ | ⟨c, a, batch, rfl, hq, hn, hrows⟩ :=
    h.step_cases he
  · rw [hrows, List.mem_append, List.mem_singleton] at hrow
    rcases hrow with hrow | rfl
    · exact h.counts row hrow hf
    · exact ⟨Int.natCast_nonneg _, Int.ofNat_le.2 he⟩
  · exact h.counts row (hrows row hrow) hf
  · rw [hrows] at hrow
    obtain ⟨row₀, hrow₀, rfl⟩ := Rows.exists_of_mem_delivered hrow
    cases hf₀ : row₀.failed with
    | true =>
      rw [Row.struckBy_of_failed hf₀, hf₀] at hf
      cases hf
    | false =>
      have hcount := h.counts row₀ hrow₀ hf₀
      unfold Row.struckBy at hf ⊢
      rw [if_neg (by simp [hf₀])] at hf ⊢
      split at hf
      · simp only [Row.strike, decide_eq_false_iff_not, not_lt] at hf ⊢
        have hlt := Row.lt_reported_iff (n := row₀.retries + 1) (by omega) hm
        omega
      · exact hcount

theorem Regular.step (hm : maxRetries < Row.maxRetries) (h : d.Regular maxRetries)
    (he : d.Plain maxRetries e) : (d.step e).Regular maxRetries where
  orderly := (h.orderly.step e).1
  legible := h.legible.step h.orderly he.not_giveUp
  writable := h.writable_step he
  limit _ _ hp := h.limit_step he hp
  distinct c batch hq := by
    rcases request?_step h.orderly hq with ⟨hq, -⟩ | ⟨p, -, -, -, hreads⟩
    · exact h.distinct c batch hq
    · exact hreads.nodup h.orderly.unique
  counts _ hrow hf := h.counts_step hm he hrow hf

end Desk

end Replication
