import Replication.Proofs.Push.Regular

/-!
# How often a mutation is sent in vain

A mutation keeps the count that it was queued with and, since then, one more failed delivery for
each answer to a request that holds it and does not accept it (`Desk.Past`). Where every write gets
through and no answer names a mutation twice (`Desk.Regular`), its row holds just that count and the
last reason, and is given up when the count is one more than the limit (`Desk.Tells`). A mutation
that is asked for waits, so one that was given up is not sent again (`Desk.given_up_at_ceiling`).
-/

namespace Replication

namespace PushAnswer

variable {a : PushAnswer} {sent : List Mutation} {id : String}

/-- Why the delivery of a mutation failed, if it was sent and an answer does not accept it. -/
def missed? (a : PushAnswer) (sent : List Mutation) (id : String) : Option String :=
  if id ∈ sent.map Mutation.id ∧ id ∉ a.accepted then
    some (((a.rejected.find? (·.id == id)).map Rejection.reason).getD Reconcile.unansweredReason)
  else none

theorem missed?_isSome_iff :
    (a.missed? sent id).isSome = true ↔ id ∈ sent.map Mutation.id ∧ id ∉ a.accepted := by
  unfold missed?
  split_ifs with h
  · exact iff_of_true rfl h
  · exact iff_of_false Bool.false_ne_true h

theorem wasSent_iff : wasSent sent id = true ↔ id ∈ sent.map Mutation.id := by
  unfold wasSent
  simp

theorem mem_taken_iff : id ∈ a.taken sent ↔ id ∈ a.accepted ∧ id ∈ sent.map Mutation.id := by
  rw [taken, List.mem_filter, wasSent_iff]

/-- Why a sent mutation was refused is what the first rejection that names it says. -/
theorem lookup_refused (hid : id ∈ sent.map Mutation.id) :
    ((a.refused sent).map fun r => (r.id, r.reason)).lookup id =
      (a.rejected.find? (·.id == id)).map Rejection.reason := by
  unfold refused
  induction a.rejected with
  | nil => rfl
  | cons r rs ih =>
    by_cases hr : r.id = id
    · have hsent : wasSent sent r.id = true := wasSent_iff.2 (hr ▸ hid)
      rw [List.filter_cons, if_pos hsent, List.map_cons, List.lookup_cons, hr]
      simp [hr]
    · have hne : (id == r.id) = false := by simpa using Ne.symm hr
      rw [List.find?_cons_of_neg (by simpa using hr), ← ih, List.filter_cons]
      split
      · rw [List.map_cons, List.lookup_cons, hne]
      · rfl

/-- An answer without repetitions names no sent mutation twice. -/
theorem nodup_named (h : (a.accepted ++ a.rejected.map Rejection.id).Nodup) :
    (a.named sent).Nodup :=
  (List.filter_sublist.append (List.filter_sublist.map Rejection.id)).nodup h

theorem lookup_map_const {ids : List String} (hid : id ∈ ids) (reason : String) :
    (ids.map fun x => (x, reason)).lookup id = some reason := by
  induction ids with
  | nil => cases hid
  | cons x ids ih =>
    by_cases hx : id = x
    · subst hx
      simp
    · have hne : (id == x) = false := by simpa using hx
      rw [List.map_cons, List.lookup_cons, hne]
      exact ih ((List.mem_cons.1 hid).resolve_left hx)

/-- The misses of an answer are the sent mutations that it does not accept. -/
theorem lookup_misses (hids : (sent.map Mutation.id).Nodup) (hn : (a.named sent).Nodup)
    (id : String) : (a.misses sent).lookup id = a.missed? sent id := by
  by_cases h : id ∈ sent.map Mutation.id ∧ id ∉ a.accepted
  · rw [missed?, if_pos h, misses, List.lookup_append, lookup_refused h.1]
    cases hr : a.rejected.find? (·.id == id) with
    | some r => rfl
    | none =>
      have hnot : id ∉ a.named sent := by
        intro hnamed
        rcases List.mem_append.1 hnamed with ht | hrefused
        · exact h.2 (mem_taken_iff.1 ht).1
        · obtain ⟨r, hr', rfl⟩ := List.mem_map.1 hrefused
          simpa using List.find?_eq_none.1 hr r (List.mem_filter.1 hr').1
      rw [lookup_map_const (mem_unanswered.2 ⟨h.1, hnot⟩)]
      rfl
  · rw [missed?, if_neg h]
    refine Row.lookup_eq_none_of_not_mem fun hm => ?_
    obtain ⟨hid, ht⟩ := (mem_misses_iff hids hn).1 hm
    exact h ⟨hid, fun hacc => ht (mem_taken_iff.2 ⟨hacc, hid⟩)⟩

end PushAnswer

namespace Desk

/-- Why the delivery of a mutation failed once more in an event, if it did. -/
def missed? (d : Desk) (id : String) : Event → Option String
  | .answer c (.ok a) => (d.request? c).bind fun batch => a.missed? batch id
  | _ => none

variable {maxRetries : Nat} {d : Desk} {e : Event}

theorem exists_of_missed? {id reason : String} (h : d.missed? id e = some reason) :
    ∃ c a batch, e = .answer c (.ok a) ∧ d.request? c = some batch ∧
      a.missed? batch id = some reason := by
  unfold missed? at h
  split at h
  · obtain ⟨batch, hq, hm⟩ := Option.bind_eq_some_iff.1 h
    exact ⟨_, _, batch, rfl, hq, hm⟩
  · cases h

theorem missed?_eq_none (h : ∀ c a, e = .answer c (.ok a) → d.request? c = none) (id : String) :
    d.missed? id e = none := by
  refine Option.eq_none_iff_forall_ne_some.2 fun reason hm => ?_
  obtain ⟨c, a, batch, rfl, hq, -⟩ := exists_of_missed? hm
  rw [h c a rfl] at hq
  cases hq

/-! ## What a mutation went through -/

/-- What a mutation went through: the count that it was queued with, and since then the reasons of
its failed deliveries, oldest first. -/
structure Past where
  start : Nat := 0
  reasons : List String := []

/-- The failed deliveries of a mutation. -/
def Past.count (p : Past) : Nat := p.start + p.reasons.length

/-- The past of a mutation after an event. It begins when the mutation comes into the outbox. -/
def remember (d : Desk) (id : String) (p : Past) (e : Event) : Past :=
  match d.inserted? e with
  | some m => if m.id = id then ⟨m.retries, []⟩ else p
  | none => ⟨p.start, p.reasons ++ (d.missed? id e).toList⟩

/-- The past of a mutation after events. -/
def past (d : Desk) (id : String) (p : Past) : List Event → Past
  | [] => p
  | e :: es => (d.step e).past id (d.remember id p e) es

/-- The row of a mutation tells its past: the number of its failed deliveries and the reason of the
last one, and it is given up when there was one too many. -/
structure Tells (maxRetries : Nat) (d : Desk) (id : String) (p : Past) : Prop where
  counted : ∀ row ∈ d.rows, row.id = id → row.retries = p.count
  reason : ∀ row ∈ d.rows, row.id = id → row.lastError = p.reasons.getLast?
  failed : ∀ row ∈ d.rows, row.id = id → (row.failed = true ↔ p.count = maxRetries + 1)
  bounded : p.count ≤ maxRetries + 1

variable {id : String} {p : Past}

theorem remember_of_missed {reason : String} (hi : d.inserted? e = none)
    (hm : d.missed? id e = some reason) :
    d.remember id p e = ⟨p.start, p.reasons ++ [reason]⟩ := by
  simp only [remember, hi, hm, Option.toList_some]

theorem remember_of_none (hi : d.inserted? e = none) (hm : d.missed? id e = none) :
    d.remember id p e = p := by
  simp only [remember, hi, hm, Option.toList_none, List.append_nil]

/-- Where no row of the mutation is new or changed, what its row told is still told. -/
theorem Tells.mono (h : Tells maxRetries d id p) {d' : Desk}
    (hold : ∀ row ∈ d'.rows, row.id = id → row ∈ d.rows) : Tells maxRetries d' id p where
  counted row hrow hid := h.counted row (hold row hrow hid) hid
  reason row hrow hid := h.reason row (hold row hrow hid) hid
  failed row hrow hid := h.failed row (hold row hrow hid) hid
  bounded := h.bounded

theorem Tells.le_of_pending (h : Tells maxRetries d id p) {row : Row} (hrow : row ∈ d.rows)
    (hid : row.id = id) (hf : row.failed = false) : p.count ≤ maxRetries := by
  have hne : p.count ≠ maxRetries + 1 := by
    intro hc
    have ht := (h.failed row hrow hid).2 hc
    rw [hf] at ht
    cases ht
  have hle := h.bounded
  omega

/-- A row is given up by the failed delivery that is one too many. -/
theorem failed_strike_iff (hm : maxRetries < Row.maxRetries) {row : Row} {n : Nat}
    (hn : row.retries = n) (hle : n ≤ maxRetries) (reason : String) :
    (row.strike maxRetries reason).failed = true ↔ n = maxRetries := by
  have hlt := Row.lt_reported_iff (n := row.retries + 1) (by omega) hm
  simp only [Row.strike, decide_eq_true_eq, hlt]
  omega

/-- A mutation whose delivery fails waits, and its row is struck. -/
theorem Regular.exists_struck (h : d.Regular maxRetries) (he : d.Plain maxRetries e)
    {reason : String} (hmiss : d.missed? id e = some reason) :
    ∃ row ∈ d.rows, row.id = id ∧ row.failed = false ∧
      row.strike maxRetries reason ∈ (d.step e).rows := by
  obtain ⟨c, a, batch, rfl, hq, ha⟩ := exists_of_missed? hmiss
  have hn := he batch hq
  obtain ⟨hid, hacc⟩ := PushAnswer.missed?_isSome_iff.1 (Option.isSome_of_eq_some ha)
  obtain ⟨row, hrow, hf, rfl, -⟩ := h.sendable hq id hid
  refine ⟨row, hrow, rfl, hf, ?_⟩
  rw [h.rows_answered hq hn]
  refine List.mem_map.2 ⟨row, (Reconcile.mem_acknowledge hf).2 ⟨hrow, fun ht => ?_⟩, ?_⟩
  · exact hacc (PushAnswer.mem_taken_iff.1 ht).1
  · exact Row.struckBy_of_some hf
      ((PushAnswer.lookup_misses (h.distinct c batch hq) hn row.id).trans ha)

/-- A mutation that comes into the outbox has its past before it. -/
theorem Tells.insert (h : p.start ≤ maxRetries → Tells maxRetries d id p) {m : Mutation}
    (hi : d.inserted? e = some m) (hm : m.id ∉ d.rows.map Row.id)
    (hrows : (d.step e).rows = d.rows ++ [Row.ofMutation m])
    (hp : (d.remember id p e).start ≤ maxRetries) :
    Tells maxRetries (d.step e) id (d.remember id p e) := by
  simp only [remember, hi] at hp ⊢
  split_ifs at hp ⊢ with hid
  · subst hid
    have hnew : ∀ row ∈ (d.step e).rows, row.id = m.id → row = Row.ofMutation m := by
      intro row hrow hid
      rw [hrows, List.mem_append, List.mem_singleton] at hrow
      exact hrow.resolve_left fun hrow => hm (hid ▸ List.mem_map_of_mem hrow)
    have hcount : Past.count ⟨m.retries, []⟩ = m.retries := rfl
    refine ⟨fun row hrow hid => ?_, fun row hrow hid => ?_, fun row hrow hid => ?_, ?_⟩
    · rw [hnew row hrow hid, hcount]
      rfl
    · rw [hnew row hrow hid]
      rfl
    · rw [hnew row hrow hid, hcount]
      dsimp only at hp
      exact iff_of_false Bool.false_ne_true (by omega)
    · dsimp only at hp
      omega
  · have hold : ∀ row ∈ (d.step e).rows, row.id = id → row ∈ d.rows := by
      intro row hrow hrid
      rw [hrows, List.mem_append, List.mem_singleton] at hrow
      refine hrow.resolve_right fun hrow => hid ?_
      rw [← hrid, hrow]
      rfl
    exact (h hp).mono hold

/-- A failed delivery is one more, with its reason. -/
theorem Tells.strike (hm : maxRetries < Row.maxRetries) (ht : Tells maxRetries d id p) {row : Row}
    (hrow : row ∈ d.rows) (hid : row.id = id) (hf : row.failed = false) {d' : Desk}
    {reason : String} (hd' : ∀ row' ∈ d'.rows, row'.id = id → row' = row.strike maxRetries reason) :
    Tells maxRetries d' id ⟨p.start, p.reasons ++ [reason]⟩ := by
  have hcount : Past.count ⟨p.start, p.reasons ++ [reason]⟩ = p.count + 1 := by
    simp only [Past.count, List.length_append, List.length_singleton]
    omega
  have hle := ht.le_of_pending hrow hid hf
  have hretries := ht.counted row hrow hid
  refine ⟨fun row' hrow' hid' => ?_, fun row' hrow' hid' => ?_, fun row' hrow' hid' => ?_, ?_⟩
  · rw [hd' row' hrow' hid', hcount]
    simp [Row.strike, hretries]
  · rw [hd' row' hrow' hid']
    simp [Row.strike]
  · rw [hd' row' hrow' hid', hcount, failed_strike_iff hm hretries hle]
    omega
  · omega

/-- After an event the row of a mutation tells its past again. -/
theorem Tells.step (hm : maxRetries < Row.maxRetries) (h : d.Regular maxRetries)
    (he : d.Plain maxRetries e) (ht : p.start ≤ maxRetries → Tells maxRetries d id p)
    (hp : (d.remember id p e).start ≤ maxRetries) :
    Tells maxRetries (d.step e) id (d.remember id p e) := by
  obtain ⟨m, -, hi, hmid, hrows⟩ | ⟨hi, hrows, hnone⟩ | ⟨c, a, batch, rfl, hq, hn, hrows⟩ :=
    h.step_cases he
  · exact Tells.insert ht hi hmid hrows hp
  · rw [remember_of_none hi (missed?_eq_none hnone id)] at hp ⊢
    exact (ht hp).mono fun row hrow _ => hrows row hrow
  have hmissed : d.missed? id (.answer c (.ok a)) = (a.misses batch).lookup id := by
    rw [PushAnswer.lookup_misses (h.distinct c batch hq) hn]
    simp only [missed?, hq, Option.bind_some]
  cases hl : (a.misses batch).lookup id with
  | none =>
    rw [remember_of_none rfl (hmissed.trans hl)] at hp ⊢
    have hold : ∀ row ∈ (d.step (.answer c (.ok a))).rows, row.id = id → row ∈ d.rows := by
      intro row' hrow' hid
      rw [hrows] at hrow'
      obtain ⟨row, hrow, rfl⟩ := Rows.exists_of_mem_delivered hrow'
      rw [Row.id_struckBy] at hid
      rwa [Row.struckBy_of_none (hid ▸ hl)]
    exact (ht hp).mono hold
  | some reason =>
    have hreason := hmissed.trans hl
    obtain ⟨row, hrow, hid, hf, -⟩ := h.exists_struck he hreason
    rw [remember_of_missed rfl hreason] at hp ⊢
    refine Tells.strike hm (ht hp) hrow hid hf fun row' hrow' hid' => ?_
    rw [hrows] at hrow'
    obtain ⟨row₀, hrow₀, rfl⟩ := Rows.exists_of_mem_delivered hrow'
    rw [Row.id_struckBy] at hid'
    obtain rfl := h.orderly.unique.eq hrow₀ hrow (hid'.trans hid.symm)
    exact Row.struckBy_of_some hf (hid ▸ hl)

/-- A mutation that was given up is not asked for. -/
theorem Tells.not_requested (h : d.Regular maxRetries) (ht : Tells maxRetries d id p)
    (hc : p.count = maxRetries + 1) {c : String} {batch : List Mutation}
    (hq : d.request? c = some batch) : id ∉ batch.map Mutation.id := by
  intro hid
  obtain ⟨row, hrow, hf, hid, -⟩ := h.sendable hq id hid
  have hle := ht.le_of_pending hrow hid hf
  omega

/-- After plain events a desk is regular, and the row of a mutation that was queued with a count
within the limit tells its past. -/
theorem regular_run (hm : maxRetries < Row.maxRetries) (h : d.Regular maxRetries)
    (ht : p.start ≤ maxRetries → Tells maxRetries d id p) {es : List Event}
    (hes : d.Always (Plain maxRetries) es) :
    (d.run es).Regular maxRetries ∧
      ((d.past id p es).start ≤ maxRetries → Tells maxRetries (d.run es) id (d.past id p es)) := by
  induction es generalizing d p with
  | nil => exact ⟨h, ht⟩
  | cons e es ih => exact ih (h.step hm hes.1) (Tells.step hm h hes.1 ht) hes.2

/-- Push passes with one limit over any events, where everything can be written and no answer names
a mutation twice. The row of a mutation that was queued with a count within the limit holds that
count and one more for each answer to a request that held the mutation and did not accept it, and
the reason of the last one; it is given up once there was one too many, and is not asked for then.
Each such answer finds its row and leaves it with that reason, given up just if the count was at the
limit. -/
theorem given_up_at_ceiling (maxRetries : Nat) (hm : maxRetries < Row.maxRetries)
    (es : List Event) (hes : opened.Always (Plain maxRetries) es) (id : String)
    (hstart : (opened.past id {} es).start ≤ maxRetries) :
    let d := opened.run es
    let p := opened.past id {} es
    Tells maxRetries d id p ∧
      (p.count = maxRetries + 1 → ∀ c batch, d.request? c = some batch →
        id ∉ batch.map Mutation.id) ∧
      ∀ e reason, d.Plain maxRetries e → d.missed? id e = some reason →
        ∃ row ∈ (d.step e).rows, row.id = id ∧ row.retries = p.count + 1 ∧
          row.lastError = some reason ∧ (row.failed = true ↔ p.count = maxRetries) := by
  have hempty : Tells maxRetries opened id {} :=
    ⟨fun _ h => (by cases h), fun _ h => (by cases h), fun _ h => (by cases h), Nat.zero_le _⟩
  obtain ⟨h, ht⟩ := regular_run hm (regular_opened maxRetries) (fun _ => hempty) hes
  have ht := ht hstart
  refine ⟨ht, fun hc c batch hq => ht.not_requested h hc hq, fun e reason he hmiss => ?_⟩
  obtain ⟨row, hrow, hid, hf, hrow'⟩ := h.exists_struck he hmiss
  have hretries := ht.counted row hrow hid
  refine ⟨_, hrow', hid, ?_, rfl, ?_⟩
  · simp [Row.strike, hretries]
  · exact failed_strike_iff hm hretries (ht.le_of_pending hrow hid hf) reason

/-- Where one failed delivery is allowed, a request fails on its way, and of the two answers after
that the first refuses a mutation and the second is silent about it: it is given up by the second,
for want of an answer, and its row counts two. -/
theorem given_up_second :
    let m (id document : String) : Mutation := ⟨id, "notes", .delete, document, none, 0, 0⟩
    let es : List Event :=
      [.enqueue (m "a" "x"), .enqueue (m "b" "y"), .begin "notes" 10 1, .proceed "notes",
        .answer "notes" (.error (.connection "send")), .begin "notes" 10 1, .proceed "notes",
        .answer "notes" (.ok ⟨["b"], [⟨"a", "no"⟩], []⟩), .begin "notes" 10 1, .proceed "notes"]
    ∃ row ∈ ((opened.run es).step (.answer "notes" (.ok ⟨[], [], []⟩))).rows, row.id = "a" ∧
      row.retries = 2 ∧ row.lastError = some Reconcile.unansweredReason ∧ row.failed = true := by
  intro m es
  have hes : opened.Always (Plain 1) es := by
    refine ⟨Nat.zero_le _, Nat.zero_le _, rfl, trivial, trivial, rfl, trivial, ?_, rfl, trivial,
      trivial⟩
    exact fun batch _ => PushAnswer.nodup_named (by decide)
  have hcount : (opened.past "a" {} es).count = 1 := by decide +kernel
  have hstart : (opened.past "a" {} es).start ≤ 1 := by decide +kernel
  obtain ⟨-, -, hnext⟩ := given_up_at_ceiling 1 (by decide) es hes "a" hstart
  obtain ⟨row, hrow, hid, hretries, hreason, hfailed⟩ :=
    hnext (.answer "notes" (.ok ⟨[], [], []⟩)) Reconcile.unansweredReason
      (fun batch _ => PushAnswer.nodup_named (by decide)) (by decide +kernel)
  rw [hcount] at hretries hfailed
  exact ⟨row, hrow, hid, hretries, hreason, hfailed.2 rfl⟩

end Desk

end Replication
