import Replication.Proofs.Push.Pass

/-!
# Everything that happens to an outbox

A client queues mutations, pushes them, drops those that were given up, and is opened again, in any
order and between any two steps of a push pass. A desk is the client with its push passes under
way, at most one for each collection; an event is one thing that happens to it. Answers are
arbitrary, and at any time the lock on the database and the refusals of the documents may become
others, so that any write from then on may fail.
-/

namespace Replication

/-- A client with its push passes under way. -/
structure Desk where
  replica : Replica
  passes : KeyMap String PushPass := []

namespace Desk

/-- What happens to a desk. -/
inductive Event where
  /-- A mutation is queued. -/
  | enqueue (m : Mutation)
  /-- Given up mutations are dropped. -/
  | discard (ids : List String)
  /-- A mutation is given up by a call. -/
  | giveUp (id reason : String)
  /-- The client ends, its passes with it, and its database is opened again. -/
  | restart
  /-- A push pass begins; one that is under way for the collection is abandoned. -/
  | begin (collection : String) (limit maxRetries : Nat)
  /-- The push pass of a collection makes a step of its own. -/
  | proceed (collection : String)
  /-- The request of a collection's push pass is answered, or fails. -/
  | answer (collection : String) (answer : Except SyncError PushAnswer)
  /-- The attempts to write that meet a lock, and the refusals of the documents, become others. -/
  | disturb (locked : Nat → Bool) (refusal : Nat → String → String → Option String)

/-- The batch that the push pass of a collection sent and that is not answered yet. -/
def request? (d : Desk) (collection : String) : Option (List Mutation) :=
  (d.passes.get? collection).bind PushPass.request?

/-- The rows of the outbox. -/
def rows (d : Desk) : Rows := d.replica.rows?.getD []

/-- The desk after a step of a collection's push pass. -/
def stepPass (d : Desk) (collection : String)
    (f : PushPass → Replica → PushPass × Replica) : Desk :=
  match d.passes.get? collection with
  | none => d
  | some p => ⟨(f p d.replica).2, d.passes.set collection (f p d.replica).1⟩

/-- The desk after an event. -/
def step (d : Desk) : Event → Desk
  | .enqueue m => { d with replica := ((Replica.enqueue m).exec d.replica).2 }
  | .discard ids => { d with replica := ((Replica.discard ids).exec d.replica).2 }
  | .giveUp id reason => { d with replica := ((Replica.markFailed id reason).exec d.replica).2 }
  | .restart => { replica := d.replica.opened d.replica.database.tables }
  | .begin collection limit maxRetries =>
    { d with passes := d.passes.set collection (.begin collection limit maxRetries) }
  | .proceed collection => d.stepPass collection PushPass.proceed
  | .answer collection answer => d.stepPass collection (·.answered answer)
  | .disturb locked refusal =>
    { d with replica := { d.replica with
        database := { d.replica.database with locked }
        documents := { d.replica.documents with refusal } } }

/-- The desk after events. -/
def run (d : Desk) (es : List Event) : Desk := es.foldl step d

@[simp] theorem run_nil (d : Desk) : d.run [] = d := rfl

theorem run_concat (d : Desk) (es : List Event) (e : Event) :
    d.run (es ++ [e]) = (d.run es).step e := List.foldl_concat _ _ _ _

theorem run_append (d : Desk) (es es' : List Event) : d.run (es ++ es') = (d.run es).run es' :=
  List.foldl_append

/-- A desk where nothing was ever queued. -/
def opened : Desk := { replica := ({} : Replica).opened {} }

/-- Why an event changes rows. -/
def causes (d : Desk) : Event → Row.Causes
  | .answer collection (.ok a) =>
    match d.request? collection with
    | some batch => Reconcile.causes a batch
    | none => {}
  | .discard ids => { dropped := ids }
  | .giveUp id _ => { marked := [id] }
  | _ => {}

/-- The mutation that an event brings into the outbox. -/
def inserted? (d : Desk) : Event → Option Mutation
  | .enqueue m =>
    if m.id ∉ d.rows.map Row.id ∧ m.id ∈ (d.step (.enqueue m)).rows.map Row.id then some m else none
  | _ => none

/-- What always holds of a desk: its database is there and open, no two rows are of one mutation,
and its passes are those of their collections. -/
structure Orderly (d : Desk) : Prop where
  opened : d.replica.database.closed = false
  there : d.replica.rows? = some d.rows
  unique : d.rows.Unique
  own : ∀ c p, d.passes.get? c = some p → p.collection = c

theorem orderly_opened : opened.Orderly := ⟨rfl, rfl, List.nodup_nil, fun _ _ h => by cases h⟩

/-! ## One event -/

theorem rows_of_eq {d : Desk} {rows : Rows} (h : d.replica.rows? = some rows) : d.rows = rows := by
  rw [Desk.rows, h]
  rfl

theorem Orderly.of_replica {d : Desk} (h : d.Orderly) {r' : Replica} {rows : Rows}
    (hr : d.replica.Steady r') (hrows : r'.rows? = some rows) (hu : rows.Unique) :
    ({ d with replica := r' } : Desk).Orderly where
  opened := hr.closed.trans h.opened
  there := by rw [rows_of_eq (d := { d with replica := r' }) hrows]; exact hrows
  unique := by rw [rows_of_eq (d := { d with replica := r' }) hrows]; exact hu
  own := h.own

theorem Orderly.of_pass {d : Desk} (h : d.Orderly) {collection : String} {p : PushPass}
    (hp : p.collection = collection) :
    ({ d with passes := d.passes.set collection p } : Desk).Orderly where
  opened := h.opened
  there := h.there
  unique := h.unique
  own c p' hp' := by
    dsimp only at hp'
    rw [KeyMap.get?_set] at hp'
    split_ifs at hp' with hc
    · rw [← hc, ← Option.some.inj hp', hp]
    · exact h.own c p' hp'

/-- What a step of a collection's pass does to a desk. -/
theorem stepPass_of_some {d : Desk} {collection : String} {p : PushPass}
    (hp : d.passes.get? collection = some p) {f : PushPass → Replica → PushPass × Replica}
    {p' : PushPass} {r' : Replica} (hf : f p d.replica = (p', r')) :
    d.stepPass collection f = ⟨r', d.passes.set collection p'⟩ := by
  rw [stepPass, hp]
  dsimp only
  rw [hf]

/-- A step of a pass leaves rows as they are. -/
theorem Orderly.proceed {d : Desk} (h : d.Orderly) (c : String) :
    (d.step (.proceed c)).Orderly ∧ (d.step (.proceed c)).rows = d.rows := by
  dsimp only [Desk.step]
  cases hp : d.passes.get? c with
  | none =>
    rw [stepPass, hp]
    exact ⟨h, rfl⟩
  | some p =>
    obtain ⟨p', r', he, hr', hrows, hown, -⟩ := p.proceed_cases h.opened h.there
    rw [stepPass_of_some hp he]
    exact ⟨(h.of_replica hr'.toSteady hrows h.unique).of_pass (hown.trans (h.own c p hp)),
      rows_of_eq hrows⟩

/-- An answer changes rows of the mutations that were sent. -/
theorem Orderly.answer {d : Desk} (h : d.Orderly) (c : String)
    (answer : Except SyncError PushAnswer) :
    (d.step (.answer c answer)).Orderly ∧
      Rows.Turned (d.causes (.answer c answer)) d.rows (d.step (.answer c answer)).rows := by
  dsimp only [Desk.step]
  cases hp : d.passes.get? c with
  | none =>
    rw [stepPass, hp]
    exact ⟨h, Rows.turned_refl _ _⟩
  | some p =>
    cases hq : p.request? with
    | none =>
      rw [stepPass_of_some hp (PushPass.answered_of_none hq answer d.replica)]
      exact ⟨h.of_pass (h.own c p hp), Rows.turned_refl _ _⟩
    | some batch =>
      obtain ⟨p', r', rows', he, hr', hrows, hown, -, ht⟩ :=
        PushPass.answered_cases hq answer h.there h.unique
      have hc : d.request? c = some batch := by
        rw [request?, hp]
        exact hq
      have ht' : Rows.Turned (d.causes (.answer c answer)) d.rows rows' := by
        cases answer with
        | error e => exact ht.1 ▸ Rows.turned_refl _ _
        | ok a =>
          dsimp only [causes]
          rw [hc]
          exact ht.1
      rw [stepPass_of_some hp he, rows_of_eq (d := ⟨r', d.passes.set c p'⟩) hrows]
      exact ⟨(h.of_replica hr' hrows (ht'.unique h.unique)).of_pass
        (hown.trans (h.own c p hp)), ht'⟩

/-- A mutation is appended unless its identifier is there already, or the write fails. -/
theorem Orderly.enqueue {d : Desk} (h : d.Orderly) (m : Mutation) :
    (d.step (.enqueue m)).Orderly ∧
      ((d.step (.enqueue m)).rows = d.rows ∨
        m.id ∉ d.rows.map Row.id ∧ (d.step (.enqueue m)).rows = d.rows ++ [Row.ofMutation m]) := by
  obtain ⟨r', hr', ⟨he, hrows⟩ | ⟨he, hrows⟩⟩ := Replica.exec_enqueue m h.there
  · simp only [Desk.step, he]
    exact ⟨h.of_replica hr'.toSteady hrows h.unique, .inl (rows_of_eq hrows)⟩
  · simp only [Desk.step, he]
    refine ⟨h.of_replica hr'.toSteady hrows (h.unique.insert _), ?_⟩
    by_cases hm : m.id ∈ d.rows.map Row.id
    · rw [Rows.insert_of_mem (Row.ofMutation m) hm] at hrows
      exact .inl (rows_of_eq hrows)
    · rw [Rows.insert_of_not_mem (Row.ofMutation m) hm] at hrows
      exact .inr ⟨hm, rows_of_eq hrows⟩

/-- An event keeps a desk orderly. It appends the row of a mutation that it brings, or each row
stays, changes or leaves as a cause has it. -/
theorem Orderly.step {d : Desk} (h : d.Orderly) (e : Event) :
    (d.step e).Orderly ∧
      ((∃ m, e = .enqueue m ∧ m.id ∉ d.rows.map Row.id ∧
          (d.step e).rows = d.rows ++ [Row.ofMutation m]) ∨
        Rows.Turned (d.causes e) d.rows (d.step e).rows) := by
  have hsame : ∀ {d' : Desk}, d'.rows = d.rows → Rows.Turned (d.causes e) d.rows d'.rows :=
    fun hd => hd ▸ Rows.turned_refl _ _
  cases e with
  | enqueue m =>
    obtain ⟨ho, hrows | ⟨hm, hrows⟩⟩ := h.enqueue m
    · exact ⟨ho, .inr (hsame hrows)⟩
    · exact ⟨ho, .inl ⟨m, rfl, hm, hrows⟩⟩
  | discard ids =>
    obtain ⟨out, r', dropped, hr', he, hd, -, hrows⟩ := Replica.exec_discard ids h.there
    simp only [Desk.step, he]
    have ht := Rows.turned_without hd.subset d.rows
    refine ⟨h.of_replica hr'.toSteady hrows (ht.unique h.unique), .inr ?_⟩
    rw [rows_of_eq (d := { d with replica := r' }) hrows]
    exact ht
  | giveUp id reason =>
    obtain ⟨out, r', hr', he, ⟨hrows, -⟩ | hrows⟩ := Replica.exec_markFailed id reason h.there
    · simp only [Desk.step, he]
      exact ⟨h.of_replica hr'.toSteady hrows h.unique, .inr (hsame (rows_of_eq hrows))⟩
    · simp only [Desk.step, he]
      have ht := Rows.turned_markFailed d.rows id reason
      refine ⟨h.of_replica hr'.toSteady hrows (ht.unique h.unique), .inr ?_⟩
      rw [rows_of_eq (d := { d with replica := r' }) hrows]
      exact ht
  | restart =>
    have hrows : (d.step .restart).replica.rows? = some d.rows := rfl
    have hd := rows_of_eq hrows
    refine ⟨⟨rfl, hd ▸ hrows, hd ▸ h.unique, fun _ _ hp => by cases hp⟩, .inr (hsame hd)⟩
  | begin c limit maxRetries => exact ⟨h.of_pass rfl, .inr (hsame rfl)⟩
  | proceed c =>
    obtain ⟨ho, hrows⟩ := h.proceed c
    exact ⟨ho, .inr (hsame hrows)⟩
  | answer c answer =>
    obtain ⟨ho, ht⟩ := h.answer c answer
    exact ⟨ho, .inr ht⟩
  | disturb locked refusal => exact ⟨⟨h.opened, h.there, h.unique, h.own⟩, .inr (hsame rfl)⟩

theorem Orderly.run {d : Desk} (h : d.Orderly) (es : List Event) : (d.run es).Orderly := by
  induction es generalizing d with
  | nil => exact h
  | cons e es ih => exact ih (h.step e).1

/-! ## Causes and requests -/

/-- A cause of an answer is that a mutation of the batch was sent. -/
theorem mem_batch_of_causes {d : Desk} {e : Event} {id : String}
    (h : id ∈ (d.causes e).taken ∨ id ∈ (d.causes e).struck) :
    ∃ c a batch, e = .answer c (.ok a) ∧ d.request? c = some batch ∧
      id ∈ batch.map Mutation.id := by
  unfold causes at h
  split at h
  · rename_i c a
    split at h
    · rename_i batch hb
      refine ⟨c, a, batch, rfl, hb, ?_⟩
      exact h.elim Reconcile.mem_sent_of_taken fun hs => hs
    · simp at h
  · simp at h
  · simp at h
  · simp at h

theorem causes_marked {d : Desk} {e : Event} (he : ∀ id reason, e ≠ .giveUp id reason) :
    (d.causes e).marked = [] := by
  unfold causes
  split
  · split <;> rfl
  · rfl
  · rename_i id reason
    exact absurd rfl (he id reason)
  · rfl

theorem request?_set (r : Replica) (ps : KeyMap String PushPass) (c c' : String) (p : PushPass) :
    request? ⟨r, ps.set c' p⟩ c =
      if c' = c then p.request? else (ps.get? c).bind PushPass.request? := by
  unfold request?
  rw [KeyMap.get?_set]
  split_ifs <;> rfl

/-- After a step of a pass its request is one from before, or its batch was just read. -/
theorem request?_proceed {d : Desk} (h : d.Orderly) {c c' : String} {batch : List Mutation}
    (hb : (d.step (.proceed c')).request? c = some batch) :
    d.request? c = some batch ∨
      c' = c ∧ ∃ p, d.passes.get? c = some p ∧ p.phase = .reading ∧
        PushPass.Reads c p.limit d.rows batch := by
  dsimp only [Desk.step] at hb
  cases hp : d.passes.get? c' with
  | none =>
    rw [stepPass, hp] at hb
    exact .inl hb
  | some p =>
    obtain ⟨p', r', he, -, -, -, hreq⟩ := p.proceed_cases h.opened h.there
    rw [stepPass_of_some hp he, request?_set] at hb
    split_ifs at hb with hc
    · subst hc
      rcases hreq batch hb with hq | ⟨hphase, hreads⟩
      · exact .inl (by rw [request?, hp]; exact hq)
      · exact .inr ⟨rfl, p, hp, hphase, h.own c' p hp ▸ hreads⟩
    · exact .inl hb

/-- An answer leaves the requests of other collections only. -/
theorem request?_answer {d : Desk} {c c' : String} {batch : List Mutation}
    {answer : Except SyncError PushAnswer}
    (hb : (d.step (.answer c' answer)).request? c = some batch) :
    d.request? c = some batch ∧ c' ≠ c := by
  dsimp only [Desk.step] at hb
  cases hp : d.passes.get? c' with
  | none =>
    rw [stepPass, hp] at hb
    refine ⟨hb, ?_⟩
    rintro rfl
    simp [request?, hp] at hb
  | some p =>
    have hnone := p.request?_answered answer d.replica
    obtain ⟨p', r', he⟩ : ∃ p' r', p.answered answer d.replica = (p', r') := ⟨_, _, rfl⟩
    rw [he] at hnone
    rw [stepPass_of_some hp he, request?_set] at hb
    split_ifs at hb with hc
    · simp [hnone] at hb
    · exact ⟨hb, hc⟩

/-- A request is under way after an event if it was before, or if its batch was just read. -/
theorem request?_step {d : Desk} (h : d.Orderly) {e : Event} {c : String} {batch : List Mutation}
    (hb : (d.step e).request? c = some batch) :
    (d.request? c = some batch ∧ ∀ a, e ≠ .answer c a) ∨
      ∃ p, e = .proceed c ∧ d.passes.get? c = some p ∧ p.phase = .reading ∧
        PushPass.Reads c p.limit d.rows batch := by
  cases e with
  | enqueue m => exact .inl ⟨hb, fun a ha => by cases ha⟩
  | discard ids => exact .inl ⟨hb, fun a ha => by cases ha⟩
  | giveUp id reason => exact .inl ⟨hb, fun a ha => by cases ha⟩
  | restart => cases hb
  | disturb locked refusal => exact .inl ⟨hb, fun a ha => by cases ha⟩
  | begin c' limit maxRetries =>
    dsimp only [Desk.step] at hb
    rw [request?_set] at hb
    split_ifs at hb
    · cases hb
    · exact .inl ⟨hb, fun a ha => by cases ha⟩
  | proceed c' =>
    rcases request?_proceed h hb with hb | ⟨rfl, p, hp, hphase, hreads⟩
    · exact .inl ⟨hb, fun a ha => by cases ha⟩
    · exact .inr ⟨p, rfl, hp, hphase, hreads⟩
  | answer c' answer =>
    obtain ⟨hb, hne⟩ := request?_answer hb
    exact .inl ⟨hb, fun a ha => hne (Event.answer.inj ha).1⟩

/-! ## Whole passes -/

theorem step_pass (r : Replica) (ps : KeyMap String PushPass) (c : String) (p : PushPass)
    (f : PushPass → Replica → PushPass × Replica) :
    stepPass ⟨r, ps.set c p⟩ c f = ⟨(f p r).2, ps.set c (f p r).1⟩ := by
  simp [stepPass]

/-- All that a pass does up to its next request are steps of its own. -/
theorem run_settle (r : Replica) (ps : KeyMap String PushPass) (c : String) (p : PushPass) :
    run ⟨r, ps.set c p⟩ [.proceed c, .proceed c] = ⟨(p.settle r).2, ps.set c (p.settle r).1⟩ := by
  simp only [run, List.foldl_cons, List.foldl_nil, step, step_pass]
  rfl

/-- A pass that runs against a server is a run of the desk, whatever the server answers. -/
theorem exists_run_pass {σ : Type} (remote : Remote σ) (fuel : Nat) (r : Replica)
    (ps : KeyMap String PushPass) (c : String) (p : PushPass) (s : σ) :
    ∃ es, run ⟨r, ps.set c p⟩ es =
      ⟨(PushPass.run remote fuel p r s).2.1, ps.set c (PushPass.run remote fuel p r s).1⟩ := by
  induction fuel generalizing r p s with
  | zero => exact ⟨[], rfl⟩
  | succ fuel ih =>
    cases hp : p.phase with
    | asking batch read =>
      let answer := remote.send p.collection batch s
      obtain ⟨es, hes⟩ := ih (p.receive answer.1 r).2 (p.receive answer.1 r).1 answer.2
      refine ⟨[.answer c answer.1] ++ ([.proceed c, .proceed c] ++ es), ?_⟩
      rw [run_append, run_append]
      simp only [PushPass.run, hp]
      have ha : run ⟨r, ps.set c p⟩ [.answer c answer.1] =
          ⟨(p.answered answer.1 r).2, ps.set c (p.answered answer.1 r).1⟩ := by
        simp only [run, List.foldl_cons, List.foldl_nil, step, step_pass]
      rw [ha, run_settle]
      exact hes
    | _ => exact ⟨[], by simp [PushPass.run, hp]⟩

/-- So is a whole pass, from its beginning on. -/
theorem exists_run_begin {σ : Type} (remote : Remote σ) (fuel limit maxRetries : Nat) (d : Desk)
    (c : String) (s : σ) :
    ∃ es, d.run es =
      let p := (PushPass.begin c limit maxRetries).settle d.replica
      ⟨(PushPass.run remote fuel p.1 p.2 s).2.1,
        d.passes.set c (PushPass.run remote fuel p.1 p.2 s).1⟩ := by
  let p := (PushPass.begin c limit maxRetries).settle d.replica
  obtain ⟨es, hes⟩ := exists_run_pass remote fuel p.2 d.passes c p.1 s
  refine ⟨[.begin c limit maxRetries] ++ ([.proceed c, .proceed c] ++ es), ?_⟩
  rw [run_append, run_append]
  have hb : d.run [.begin c limit maxRetries] =
      ⟨d.replica, d.passes.set c (.begin c limit maxRetries)⟩ := rfl
  rw [hb, run_settle]
  exact hes

end Desk

end Replication
