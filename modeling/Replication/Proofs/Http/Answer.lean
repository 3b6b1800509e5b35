import Replication.Http.Client
import Replication.Proofs.Replica.Outbox

/-!
# What the body of an answer says about each mutation

The body of an answer to a push speaks of mutations in three lists: those that were taken, those
that were refused, and the documents that the server holds instead of what was pushed, its
conflicts. A mutation whose document is in conflict counts as refused, once and for that reason,
unless the second list names it (`Http.rejectionsOf_foldl`). If the first list is left out, all that
was not refused counts as taken.

If the first list is there it is believed as it is, even where it names what the body refuses. So an
answer is consistent just when its body names nothing as taken that it refuses
(`Http.PushBody.answer_consistent_iff`).
-/

namespace Replication

/-- A document is read as a change of the collection that was asked for. -/
theorem Document.collection_toChange {collection : String} {positioned : Bool} {document : Object}
    {c : Change} (h : toChange collection positioned document = .ok c) :
    c.collection = collection := by
  unfold toChange at h
  simp only [bind, Except.bind, pure, Except.pure] at h
  split at h
  · split at h
    · cases h
    · split at h
      · rw [← Except.ok.inj h]
      · rw [← Except.ok.inj h]
      · cases h
  · cases h

namespace Http

/-! ## Conflicts -/

/-- A state is of the document of some sent mutation with an identifier. -/
def Contests (sent : List Mutation) (id : String) (c : Change) : Prop :=
  ∃ m ∈ sent, m.id = id ∧ m.document = c.document

/-- A sent mutation with an identifier is in conflict: some state is of its document. -/
def Contested (sent : List Mutation) (states : List Change) (id : String) : Prop :=
  ∃ c ∈ states, Contests sent id c

instance (sent : List Mutation) (id : String) : DecidablePred (Contests sent id) := by
  unfold Contests
  infer_instance

instance (sent : List Mutation) (states : List Change) (id : String) :
    Decidable (Contested sent states id) := by
  unfold Contested
  infer_instance

/-- The rejections of one mutation. -/
def rejectionsOf (id : String) (rejected : List Rejection) : List Rejection :=
  rejected.filter fun x => x.id = id

section conflicts

variable {sent : List Mutation} {rejected : List Rejection} {states : List Change} {c : Change}
  {id : String}

theorem not_contested_nil : ¬Contested sent [] id := by simp [Contested]

theorem contested_cons :
    Contested sent (c :: states) id ↔ Contests sent id c ∨ Contested sent states id := by
  simp [Contested]

@[simp] theorem rejectionsOf_eq_nil_iff :
    rejectionsOf id rejected = [] ↔ id ∉ rejected.map Rejection.id := by
  simp [rejectionsOf, List.filter_eq_nil_iff]

theorem rejectionsOf_map_named (id : String) (rejected : List Rejection) :
    rejectionsOf id (rejected.map named) = (rejectionsOf id rejected).map named := by
  have hid (x : Rejection) : (named x).id = x.id := by
    unfold named
    split <;> rfl
  simp [rejectionsOf, List.filter_map, Function.comp_def, hid]

/-- A conflict adds a rejection of the mutation of its document, unless there is one already. -/
theorem rejectionsOf_addConflict (hdocs : (sent.map Mutation.document).Nodup) :
    rejectionsOf id (addConflict sent rejected c) =
      if rejectionsOf id rejected = [] ∧ Contests sent id c then [⟨id, "conflict"⟩]
      else rejectionsOf id rejected := by
  unfold addConflict
  cases hfind : sent.find? (·.document == c.document) with
  | none =>
    have hnone : ¬Contests sent id c := by
      rintro ⟨m, hm, -, hd⟩
      simpa [hd] using List.find?_eq_none.1 hfind m hm
    rw [if_neg fun h => hnone h.2]
  | some m =>
    have hm := List.mem_of_find?_eq_some hfind
    have hd : m.document = c.document := by simpa using List.find?_some hfind
    -- No other mutation that was sent is about this document.
    have hcontested : Contests sent id c ↔ m.id = id := by
      constructor
      · rintro ⟨m', hm', hid, hd'⟩
        rwa [List.inj_on_of_nodup_map hdocs hm hm' (hd.trans hd'.symm)]
      · exact fun hid => ⟨m, hm, hid, hd⟩
    simp only [hcontested]
    split
    · rename_i hany
      have hthere : rejectionsOf m.id rejected ≠ [] := by
        simpa [rejectionsOf_eq_nil_iff] using hany
      rw [if_neg]
      rintro ⟨hnil, rfl⟩
      exact hthere hnil
    · rename_i hany
      have hnil : rejectionsOf m.id rejected = [] := by
        simpa [rejectionsOf_eq_nil_iff] using hany
      by_cases hid : m.id = id
      · subst hid
        rw [if_pos ⟨hnil, rfl⟩]
        rw [rejectionsOf, List.filter_append, ← rejectionsOf, hnil]
        simp
      · rw [if_neg fun h => hid h.2]
        simp [rejectionsOf, hid]

/-- Once all conflicts are added, a mutation has the rejections that it had before, or that of its
conflict if it had none. -/
theorem rejectionsOf_foldl (hdocs : (sent.map Mutation.document).Nodup) :
    rejectionsOf id (states.foldl (addConflict sent) rejected) =
      if rejectionsOf id rejected = [] ∧ Contested sent states id then [⟨id, "conflict"⟩]
      else rejectionsOf id rejected := by
  induction states generalizing rejected with
  | nil => rw [if_neg fun h => not_contested_nil h.2, List.foldl_nil]
  | cons c states ih =>
    rw [List.foldl_cons, ih, rejectionsOf_addConflict hdocs]
    simp only [contested_cons]
    by_cases hnil : rejectionsOf id rejected = []
    · by_cases hc : Contests sent id c
      · simp [hnil, hc]
      · simp [hnil, hc]
    · simp [hnil]

end conflicts

/-! ## A whole answer -/

namespace PushBody

variable {b : PushBody} {collection : String} {sent : List Mutation} {a : PushAnswer}
  {states : List Change}

/-- What a body with some states says about the mutations that were sent. -/
def withStates (b : PushBody) (sent : List Mutation) (states : List Change) : PushAnswer :=
  let rejected := states.foldl (addConflict sent) (b.rejected.map named)
  { accepted := b.accepted.getD
      ((sent.filter fun m => !rejected.any (·.id == m.id)).map Mutation.id)
    rejected
    serverState := states }

theorem answer_eq (b : PushBody) (collection : String) (sent : List Mutation) :
    b.answer collection sent =
      (b.conflicts.mapM (Document.toChange collection false)).map (b.withStates sent) := by
  unfold answer withStates
  cases b.conflicts.mapM (Document.toChange collection false) with
  | error e => rfl
  | ok states => cases b.accepted <;> rfl

/-- The states of an answer are the conflicts of its body, one by one. -/
theorem answer_eq_ok :
    b.answer collection sent = .ok a ↔
      List.Forall₂ (fun d c => Document.toChange collection false d = .ok c)
        b.conflicts a.serverState ∧ a = b.withStates sent a.serverState := by
  rw [answer_eq, ← Replica.mapM_eq_ok]
  cases b.conflicts.mapM (Document.toChange collection false) with
  | error e => simp [Except.map]
  | ok states =>
    simp only [Except.map, Except.ok.injEq]
    constructor
    · rintro rfl
      exact ⟨rfl, rfl⟩
    · rintro ⟨rfl, ha⟩
      exact ha.symm

/-- All states of an answer are of the collection that was pushed. -/
theorem collection_of_answer (h : b.answer collection sent = .ok a) :
    ∀ c ∈ a.serverState, c.collection = collection := by
  have hstates := (answer_eq_ok.1 h).1
  generalize b.conflicts = ds, a.serverState = states at hstates
  induction hstates with
  | nil => exact fun _ hc => by cases hc
  | cons hc _ ih => exact List.forall_mem_cons.2 ⟨Document.collection_toChange hc, ih⟩

/-- Documents that can be read one by one can be read together. -/
theorem exists_states {ds : List Object}
    (h : ∀ d ∈ ds, (Document.toChange collection false d).isOk = true) :
    ∃ states, List.Forall₂ (fun d c => Document.toChange collection false d = .ok c) ds states := by
  induction ds with
  | nil => exact ⟨[], .nil⟩
  | cons d ds ih =>
    have hd := h d List.mem_cons_self
    obtain ⟨states, hs⟩ := ih fun d' hd' => h d' (List.mem_cons_of_mem d hd')
    cases hc : Document.toChange collection false d with
    | error e =>
      rw [hc] at hd
      cases hd
    | ok c => exact ⟨c :: states, .cons hc hs⟩

/-- A mutation has the rejections that the body names, or that of its conflict. -/
theorem rejectionsOf_withStates (b : PushBody) (states : List Change)
    (hdocs : (sent.map Mutation.document).Nodup) (id : String) :
    rejectionsOf id (b.withStates sent states).rejected =
      if id ∈ b.rejected.map Rejection.id then (rejectionsOf id b.rejected).map named
      else if Contested sent states id then [⟨id, "conflict"⟩] else [] := by
  unfold withStates
  dsimp only
  rw [rejectionsOf_foldl hdocs, rejectionsOf_map_named]
  by_cases hid : id ∈ b.rejected.map Rejection.id
  · simp [hid]
  · simp [hid, rejectionsOf_eq_nil_iff.2 hid]

theorem mem_rejected_withStates (b : PushBody) (hdocs : (sent.map Mutation.document).Nodup)
    {id : String} :
    id ∈ (b.withStates sent states).rejected.map Rejection.id ↔
      id ∈ b.rejected.map Rejection.id ∨ Contested sent states id := by
  rw [← not_iff_not, ← rejectionsOf_eq_nil_iff, b.rejectionsOf_withStates states hdocs]
  by_cases hid : id ∈ b.rejected.map Rejection.id <;> simp [hid]

/-- Without a list of what was taken, all that was sent and not refused was. -/
theorem mem_accepted_withStates (hb : b.accepted = none) {id : String} :
    id ∈ (b.withStates sent states).accepted ↔
      id ∈ sent.map Mutation.id ∧ id ∉ (b.withStates sent states).rejected.map Rejection.id := by
  unfold withStates
  simp only [hb, Option.getD_none, List.mem_map, List.mem_filter, Bool.not_eq_true',
    List.any_eq_false, beq_iff_eq]
  constructor
  · rintro ⟨m, ⟨hm, hnot⟩, rfl⟩
    exact ⟨⟨m, hm, rfl⟩, fun ⟨x, hx, hid⟩ => hnot x hx hid⟩
  · rintro ⟨⟨m, hm, rfl⟩, hnot⟩
    exact ⟨m, ⟨hm, fun x hx hid => hnot ⟨x, hx, hid⟩⟩, rfl⟩

/-- An answer takes nothing that it refuses; and a sent mutation whose document is in conflict is
not taken, but refused, and for that reason unless the body refuses it by name. -/
structure Consistent (b : PushBody) (sent : List Mutation) (a : PushAnswer) : Prop where
  apart : ∀ id ∈ a.accepted, id ∉ a.rejected.map Rejection.id
  refused : ∀ m ∈ sent, m.document ∈ a.serverState.map Change.document →
    m.id ∉ a.accepted ∧ ∃ x ∈ a.rejected, x.id = m.id ∧
      (m.id ∉ b.rejected.map Rejection.id → x.reason = "conflict")

/-- An answer that takes nothing that it refuses is consistent. -/
theorem consistent_of_apart (hdocs : (sent.map Mutation.document).Nodup)
    (h : ∀ id ∈ (b.withStates sent states).accepted,
      id ∉ (b.withStates sent states).rejected.map Rejection.id) :
    b.Consistent sent (b.withStates sent states) := by
  refine ⟨h, fun m hm hd => ?_⟩
  obtain ⟨c, hc, hd⟩ := List.mem_map.1 hd
  have hcontested : Contested sent states m.id := ⟨c, hc, m, hm, rfl, hd.symm⟩
  have hrejected := (b.mem_rejected_withStates hdocs).2 (.inr hcontested)
  refine ⟨fun hacc => h _ hacc hrejected, ?_⟩
  obtain ⟨x, hx, hid⟩ := List.mem_map.1 hrejected
  refine ⟨x, hx, hid, fun hnot => ?_⟩
  have hthis := b.rejectionsOf_withStates states hdocs m.id
  rw [if_neg hnot, if_pos hcontested] at hthis
  have hmem : x ∈ rejectionsOf m.id (b.withStates sent states).rejected :=
    List.mem_filter.2 ⟨hx, by simpa using hid⟩
  rw [hthis] at hmem
  rw [List.mem_singleton.1 hmem]

theorem apart_iff (hdocs : (sent.map Mutation.document).Nodup) :
    (∀ id ∈ (b.withStates sent states).accepted,
        id ∉ (b.withStates sent states).rejected.map Rejection.id) ↔
      ∀ ids, b.accepted = some ids → ∀ id ∈ ids,
        id ∉ b.rejected.map Rejection.id ∧ ¬Contested sent states id := by
  simp only [b.mem_rejected_withStates hdocs, not_or]
  cases hb : b.accepted with
  | none =>
    refine iff_of_true (fun id hid => ?_) (fun ids hids => by cases hids)
    exact not_or.1 (mt (b.mem_rejected_withStates hdocs).2 ((mem_accepted_withStates hb).1 hid).2)
  | some ids =>
    have haccepted : (b.withStates sent states).accepted = ids := by simp [withStates, hb]
    rw [haccepted]
    exact ⟨fun h ids' hids => Option.some.inj hids ▸ h, fun h => h ids rfl⟩

/-- What is read from the body of an answer to a push of mutations of different documents, whose
conflicts can be read. Its states are the conflicts in their order. A mutation has the rejections
that the body names, or one for its conflict if it has none of these. Without a list of what was
taken each sent mutation is either taken or refused. And the answer is consistent if and only if the
body names nothing as taken that it refuses, by name or as a conflict. -/
theorem answer_consistent_iff (b : PushBody) (collection : String) (sent : List Mutation)
    (hdocs : (sent.map Mutation.document).Nodup)
    (hread : ∀ d ∈ b.conflicts, (Document.toChange collection false d).isOk = true) :
    ∃ a, b.answer collection sent = .ok a ∧
      List.Forall₂ (fun d c => Document.toChange collection false d = .ok c)
        b.conflicts a.serverState ∧
      (∀ id, rejectionsOf id a.rejected =
        if id ∈ b.rejected.map Rejection.id then (rejectionsOf id b.rejected).map named
        else if Contested sent a.serverState id then [⟨id, "conflict"⟩] else []) ∧
      (b.accepted = none →
        ∀ m ∈ sent, m.id ∈ a.accepted ↔ m.id ∉ a.rejected.map Rejection.id) ∧
      (b.Consistent sent a ↔ ∀ ids, b.accepted = some ids → ∀ id ∈ ids,
        id ∉ b.rejected.map Rejection.id ∧ ¬Contested sent a.serverState id) := by
  obtain ⟨states, hs⟩ := exists_states hread
  refine ⟨b.withStates sent states, answer_eq_ok.2 ⟨hs, rfl⟩, hs,
    b.rejectionsOf_withStates states hdocs, fun hb m hm => ?_, ?_⟩
  · rw [mem_accepted_withStates hb]
    exact and_iff_right (List.mem_map_of_mem hm)
  · exact ⟨fun h => (apart_iff hdocs).1 h.apart,
      fun h => consistent_of_apart hdocs ((apart_iff hdocs).2 h)⟩

/-- Of two mutations the document of the second one is in conflict and nothing else is said: the
first one is taken and the second one is not. -/
theorem answer_one_conflict :
    let m (id document : String) : Mutation := ⟨id, "notes", .update, document, none, 0, 0⟩
    let sent := [m "a" "x", m "b" "y"]
    let b : PushBody := ⟨none, [], [[("id", .str "notes/y")]]⟩
    ∃ a, b.answer "notes" sent = .ok a ∧ b.Consistent sent a ∧ a.accepted = ["a"] := by
  intro m sent b
  obtain ⟨a, ha, -, -, -, hiff⟩ :=
    answer_consistent_iff b "notes" sent (by decide) (by decide +kernel)
  refine ⟨a, ha, hiff.2 (fun ids hids => by cases hids), ?_⟩
  have haccepted : (b.answer "notes" sent).toOption.map PushAnswer.accepted = some ["a"] := by
    decide +kernel
  rw [ha] at haccepted
  exact Option.some.inj haccepted

/-- The body names a mutation as taken whose document is in conflict: the answer takes it and
refuses it. -/
theorem answer_takes_refused :
    let m : Mutation := ⟨"a", "notes", .update, "x", none, 0, 0⟩
    let b : PushBody := ⟨some ["a"], [], [[("id", .str "notes/x")]]⟩
    ((b.answer "notes" [m]).toOption.map fun a =>
      (a.accepted, a.rejected, a.serverState.map Change.document)) =
        some (["a"], [⟨"a", "conflict"⟩], ["x"]) := by
  decide +kernel

end PushBody

end Http

end Replication
