import Mathlib.Data.List.Nodup
import Replication.Tables.Outbox

/-!
# The rows of the outbox

What the statements on the outbox do to its rows. Identifiers stay unique, rows keep their order,
and no statement changes what a row says about its mutation. In one step a pending row may leave
because it was taken, or have failed deliveries; a failed row may only be discarded (`Row.Turn`).
-/

namespace Replication

namespace Row

/-- The row as it was queued: without its failed deliveries. -/
def queued (r : Row) : Row := { r with retries := 0, lastError := none, failed := false }

section queued

variable {r r' : Row} (h : r.queued = r'.queued)

include h

theorem id_of_queued : r.id = r'.id := by simpa [queued] using congrArg Row.id h

theorem collection_of_queued : r.collection = r'.collection := by
  simpa [queued] using congrArg Row.collection h

theorem document_of_queued : r.document = r'.document := by
  simpa [queued] using congrArg Row.document h

/-- What can be read of a row does not depend on its deliveries. -/
theorem mutation_of_queued {m : Mutation} (hm : r.mutation = .ok m) :
    r'.mutation = .ok { m with retries := reported r'.retries } := by
  obtain ⟨id, collection, operation, document, payload, enqueuedAt, _, _, _⟩ := r
  obtain ⟨id', collection', operation', document', payload', enqueuedAt', n', _, _⟩ := r'
  simp only [queued, Row.mk.injEq, and_true] at h
  obtain ⟨rfl, rfl, rfl, rfl, rfl, rfl⟩ := h
  unfold mutation at hm ⊢
  cases ho : Operation.ofName? operation with
  | none => simp [ho, bind, Except.bind] at hm
  | some o =>
    cases payload with
    | none =>
      simp only [ho] at hm ⊢
      rw [← Except.ok.inj hm]
      rfl
    | some text =>
      cases hb : payloadOf? text with
      | none => simp [ho, hb, bind, Except.bind] at hm
      | some b =>
        simp only [ho, hb] at hm ⊢
        rw [← Except.ok.inj hm]
        rfl

end queued

/-- A row is that of a mutation, whatever became of its deliveries. -/
def Holds (r : Row) (m : Mutation) : Prop := r.queued = (ofMutation m).queued

theorem holds_ofMutation (m : Mutation) : (ofMutation m).Holds m := rfl

theorem Holds.id {r : Row} {m : Mutation} (h : r.Holds m) : r.id = m.id := id_of_queued h

theorem Holds.collection {r : Row} {m : Mutation} (h : r.Holds m) : r.collection = m.collection :=
  collection_of_queued h

theorem Holds.document {r : Row} {m : Mutation} (h : r.Holds m) : r.document = m.document :=
  document_of_queued h

/-- Whether the mutation of a row can be read back. -/
def Readable (r : Row) : Prop := ∃ m, r.mutation = .ok m

instance (r : Row) : Decidable r.Readable :=
  decidable_of_iff (r.mutation.isOk = true) <| by
    unfold Readable
    cases r.mutation <;> simp [Except.isOk, Except.toBool]

theorem Readable.of_queued {r r' : Row} (h : r.queued = r'.queued) (hr : r.Readable) :
    r'.Readable := by
  obtain ⟨m, hm⟩ := hr
  exact ⟨_, mutation_of_queued h hm⟩

/-- The mutation of a row is about the row's document. -/
theorem mutation_eq_ok {r : Row} {m : Mutation} (h : r.mutation = .ok m) :
    m.id = r.id ∧ m.collection = r.collection ∧ m.document = r.document := by
  unfold mutation at h
  cases ho : Operation.ofName? r.operation with
  | none => simp [ho, bind, Except.bind] at h
  | some o =>
    cases hp : r.payload with
    | none =>
      simp only [ho, hp] at h
      rw [← Except.ok.inj h]
      exact ⟨rfl, rfl, rfl⟩
    | some text =>
      cases hb : payloadOf? text with
      | none => simp [ho, hp, hb, bind, Except.bind] at h
      | some b =>
        simp only [ho, hp, hb] at h
        rw [← Except.ok.inj h]
        exact ⟨rfl, rfl, rfl⟩

theorem payloadOf?_render (v : Json) :
    payloadOf? v.render = (Json.Tree.parse? v.chars).bind Json.Tree.object? := by
  rw [payloadOf?, Json.render, String.toList_ofList]

/-- A mutation is not read from its row if its payload is not. -/
theorem not_readable_of_payload {r : Row} {text : String} (hp : r.payload = some text)
    (h : payloadOf? text = none) : ¬r.Readable := by
  rintro ⟨m, hm⟩
  unfold mutation at hm
  cases ho : Operation.ofName? r.operation <;> simp [ho, hp, h, bind, Except.bind] at hm

theorem failure_of_mutation {r : Row} {m : Mutation} (h : r.mutation = .ok m) :
    r.failure = .ok ⟨m, r.lastError.getD ""⟩ := by
  unfold failure
  rw [h]
  rfl

theorem countable_of_le {n : Nat} (h : n ≤ maxRetries) : countable n = true := by
  have : (maxRetries : Int) < Word.size 63 := by decide
  simp only [countable, decide_eq_true_eq]
  omega

/-! ## What becomes of a row -/

/-- What failed deliveries of some mutations may make of a row. -/
inductive Struck (ids : List String) (r : Row) : Row → Prop where
  | same : Struck ids r r
  | missed (n : Int) (e : Option String) : r.failed = false → r.id ∈ ids →
      Struck ids r { r with retries := n, lastError := e }
  | givenUp (n : Int) (e : Option String) : r.failed = false → r.id ∈ ids → countable n = true →
      Struck ids r { r with retries := n, lastError := e, failed := true }

theorem Struck.trans {ids : List String} {r r' r'' : Row} (h : r.Struck ids r')
    (h' : r'.Struck ids r'') : r.Struck ids r'' := by
  cases h with
  | same => exact h'
  | missed n e hr hi =>
    cases h' with
    | same => exact .missed n e hr hi
    | missed n' e' _ _ => exact .missed n' e' hr hi
    | givenUp n' e' _ _ hn => exact .givenUp n' e' hr hi hn
  | givenUp n e hr hi hn =>
    cases h' with
    | same => exact .givenUp n e hr hi hn
    | missed _ _ hf => cases hf
    | givenUp _ _ hf => cases hf

theorem Struck.mono {ids ids' : List String} (hs : ∀ id ∈ ids, id ∈ ids') {r r' : Row}
    (h : r.Struck ids r') : r.Struck ids' r' := by
  cases h with
  | same => exact .same
  | missed n e hr hi => exact .missed n e hr (hs _ hi)
  | givenUp n e hr hi hn => exact .givenUp n e hr (hs _ hi) hn

theorem Struck.queued {ids : List String} {r r' : Row} (h : r.Struck ids r') :
    r'.queued = r.queued := by
  cases h <;> rfl

/-- Why rows change: mutations that the server took, those whose delivery failed, those that were
given up by a call, and given up ones that were dropped. -/
structure Causes where
  taken : List String := []
  struck : List String := []
  marked : List String := []
  dropped : List String := []

/-- What a step may make of a row. -/
inductive Turn (c : Causes) (r : Row) : Option Row → Prop where
  | same : Turn c r (some r)
  | taken : r.failed = false → r.id ∈ c.taken → Turn c r none
  | dropped : r.failed = true → r.id ∈ c.dropped → Turn c r none
  | missed (n : Int) (e : Option String) : r.failed = false → r.id ∈ c.struck → r.id ∉ c.taken →
      Turn c r (some { r with retries := n, lastError := e })
  | givenUp (n : Int) (e : Option String) : r.failed = false → r.id ∈ c.struck →
      r.id ∉ c.taken → countable n = true →
      Turn c r (some { r with retries := n, lastError := e, failed := true })
  | marked (e : Option String) : r.failed = false → r.id ∈ c.marked →
      Turn c r (some { r with lastError := e, failed := true })

theorem Turn.queued {c : Causes} {r r' : Row} (h : r.Turn c (some r')) : r'.queued = r.queued := by
  cases h <;> rfl

/-- A row that was given up is never pending again. -/
theorem Turn.pending_of_pending {c : Causes} {r r' : Row} (h : r.Turn c (some r'))
    (hr' : r'.failed = false) : r.failed = false := by
  cases h <;> assumption

end Row

namespace Rows

/-- No two rows are of one mutation. -/
def Unique (rows : Rows) : Prop := (rows.map Row.id).Nodup

theorem Unique.eq {rows : Rows} (h : rows.Unique) {r r' : Row} (hr : r ∈ rows) (hr' : r' ∈ rows)
    (hid : r.id = r'.id) : r = r' :=
  List.inj_on_of_nodup_map h hr hr' hid

/-- Whether the outbox waits to deliver a mutation. -/
def Waits (rows : Rows) (id : String) : Prop := ∃ r ∈ rows, r.failed = false ∧ r.id = id

/-! ## Queueing -/

theorem find?_isSome_iff {rows : Rows} {id : String} :
    (rows.find? id).isSome = true ↔ id ∈ rows.map Row.id := by
  unfold find?
  simp [List.find?_isSome]

theorem insert_of_mem {rows : Rows} (row : Row) (h : row.id ∈ rows.map Row.id) :
    rows.insert row = (false, rows) := by
  unfold insert
  rw [if_pos (find?_isSome_iff.2 h)]

theorem insert_of_not_mem {rows : Rows} (row : Row) (h : row.id ∉ rows.map Row.id) :
    rows.insert row = (true, rows ++ [row]) := by
  unfold insert
  rw [if_neg (mt find?_isSome_iff.1 h)]

theorem Unique.insert {rows : Rows} (h : rows.Unique) (row : Row) : (rows.insert row).2.Unique := by
  by_cases hm : row.id ∈ rows.map Row.id
  · rw [insert_of_mem row hm]
    exact h
  · rw [insert_of_not_mem row hm, Unique, List.map_append, List.nodup_append]
    refine ⟨h, List.nodup_singleton _, ?_⟩
    intro id hid id' hid' he
    obtain rfl := List.mem_singleton.1 hid'
    exact hm (he ▸ hid)

/-! ## Deliveries and their ends -/

theorem acknowledge_nil (rows : Rows) : rows.acknowledge [] = (0, rows) := by
  simp [acknowledge]

/-- Rows after a step: each stays where it is, changes or leaves as a cause has it. -/
def Turned (c : Row.Causes) (rows rows' : Rows) : Prop :=
  ∃ f : Row → Option Row, rows' = rows.filterMap f ∧ ∀ r ∈ rows, r.Turn c (f r)

theorem turned_refl (c : Row.Causes) (rows : Rows) : Turned c rows rows :=
  ⟨some, by simp, fun _ _ => .same⟩

section turned

variable {c : Row.Causes} {rows rows' : Rows} (h : Turned c rows rows')

include h

theorem Turned.exists_of_mem {r' : Row} (hr' : r' ∈ rows') : ∃ r ∈ rows, r.Turn c (some r') := by
  obtain ⟨f, rfl, hf⟩ := h
  obtain ⟨r, hr, he⟩ := List.mem_filterMap.1 hr'
  exact ⟨r, hr, he ▸ hf r hr⟩

/-- A pending row that no cause names stays as it is. -/
theorem Turned.mem_of_not_mem {r : Row} (hr : r ∈ rows) (hf : r.failed = false)
    (ht : r.id ∉ c.taken) (hs : r.id ∉ c.struck) (hm : r.id ∉ c.marked) : r ∈ rows' := by
  obtain ⟨f, rfl, hturn⟩ := h
  refine List.mem_filterMap.2 ⟨r, hr, ?_⟩
  have hr' := hturn r hr
  generalize f r = o at hr'
  cases hr' with
  | same => rfl
  | taken _ hid => exact absurd hid ht
  | dropped hf' _ => simp [hf] at hf'
  | missed _ _ _ hid _ => exact absurd hid hs
  | givenUp _ _ _ hid _ _ => exact absurd hid hs
  | marked _ _ hid => exact absurd hid hm

/-- If nothing but what was taken has a cause, every row that is left is as it was. -/
theorem Turned.mem_of_mem (hs : ∀ id ∈ c.struck, id ∈ c.taken) (hm : c.marked = []) {r : Row}
    (hr : r ∈ rows') : r ∈ rows := by
  obtain ⟨r₀, hr₀, ht⟩ := h.exists_of_mem hr
  cases ht with
  | same => exact hr₀
  | missed _ _ _ hid hno => exact absurd (hs _ hid) hno
  | givenUp _ _ _ hid hno _ => exact absurd (hs _ hid) hno
  | marked _ _ hid => simp [hm] at hid

theorem Turned.ids_sublist : (rows'.map Row.id).Sublist (rows.map Row.id) := by
  obtain ⟨f, rfl, hf⟩ := h
  induction rows with
  | nil => exact .slnil
  | cons r rows ih =>
    obtain ⟨hr, hrows⟩ := List.forall_mem_cons.1 hf
    cases he : f r with
    | none => simpa [he] using (ih hrows).cons r.id
    | some r' =>
      have hid : r'.id = r.id := Row.id_of_queued (he ▸ hr).queued
      simpa [he, hid] using (ih hrows).cons_cons r.id

theorem Turned.unique (hu : rows.Unique) : rows'.Unique := h.ids_sublist.nodup hu

theorem Turned.waits {id : String} (hw : rows'.Waits id) : rows.Waits id := by
  obtain ⟨r', hr', hf, rfl⟩ := hw
  obtain ⟨r, hr, ht⟩ := h.exists_of_mem hr'
  exact ⟨r, hr, ht.pending_of_pending hf, (Row.id_of_queued ht.queued).symm⟩

end turned

theorem alterPending_eq (rows : Rows) (id : String) (f : Row → Row) :
    rows.alterPending id f = rows.map fun r => if r.failed = false ∧ r.id = id then f r else r := by
  unfold alterPending
  simp [Row.pending]

theorem turned_markFailed (rows : Rows) (id reason : String) :
    Turned { marked := [id] } rows (rows.markFailed id reason).2 := by
  refine ⟨fun r => some (if r.failed = false ∧ r.id = id then giveUp reason r else r), ?_, ?_⟩
  · rw [markFailed, alterPending_eq, List.filterMap_eq_map']
  · intro r _
    dsimp only
    split_ifs with hp
    · exact .marked (some reason) hp.1 (by simp [hp.2])
    · exact .same

/-- The rows without the given up ones of some mutations. -/
def without (rows : Rows) (ids : List String) : Rows :=
  rows.filter fun r => !(r.failed && ids.contains r.id)

theorem without_nil (rows : Rows) : rows.without [] = rows := by
  simp [without]

theorem without_discard (rows : Rows) (id : String) (ids : List String) :
    without (rows.discard id).2 ids = rows.without (id :: ids) := by
  unfold without discard
  dsimp only
  rw [List.filter_filter]
  refine List.filter_congr fun r _ => ?_
  by_cases h : r.id = id <;> simp +contextual [h]

theorem turned_without {ids dropped : List String} (hd : ∀ id ∈ dropped, id ∈ ids) (rows : Rows) :
    Turned { dropped := ids } rows (rows.without dropped) := by
  refine ⟨fun r => if r.failed = true ∧ r.id ∈ dropped then none else some r, ?_, ?_⟩
  · unfold without
    rw [← List.filterMap_eq_filter]
    congr 1
    funext r
    by_cases hf : r.failed = true <;> by_cases hd : r.id ∈ dropped <;>
      simp [Option.guard, hf, hd]
  · intro r _
    dsimp only
    split_ifs with hp
    · exact .dropped hp.1 (hd r.id hp.2)
    · exact .same

/-- Rows after failed deliveries of some mutations. -/
def Struck (ids : List String) (rows rows' : Rows) : Prop :=
  ∃ f : Row → Row, rows' = rows.map f ∧ ∀ r ∈ rows, r.Struck ids (f r)

theorem struck_refl (ids : List String) (rows : Rows) : Struck ids rows rows :=
  ⟨id, by simp, fun _ _ => .same⟩

theorem Struck.trans {ids : List String} {rows rows' rows'' : Rows} (h : Struck ids rows rows')
    (h' : Struck ids rows' rows'') : Struck ids rows rows'' := by
  obtain ⟨f, rfl, hf⟩ := h
  obtain ⟨g, rfl, hg⟩ := h'
  refine ⟨g ∘ f, List.map_map, fun r hr => ?_⟩
  exact (hf r hr).trans (hg (f r) (List.mem_map_of_mem hr))

theorem Struck.mono {ids ids' : List String} (hs : ∀ id ∈ ids, id ∈ ids') {rows rows' : Rows}
    (h : Struck ids rows rows') : Struck ids' rows rows' := by
  obtain ⟨f, rfl, hf⟩ := h
  exact ⟨f, rfl, fun r hr => (hf r hr).mono hs⟩

theorem Struck.ids {ids : List String} {rows rows' : Rows} (h : Struck ids rows rows') :
    rows'.map Row.id = rows.map Row.id := by
  obtain ⟨f, rfl, hf⟩ := h
  rw [List.map_map]
  exact List.map_congr_left fun r hr => Row.id_of_queued (hf r hr).queued

theorem Struck.unique {ids : List String} {rows rows' : Rows} (h : Struck ids rows rows')
    (hu : rows.Unique) : rows'.Unique := by
  rw [Unique, h.ids]
  exact hu

theorem struck_requeue (rows : Rows) (id reason : String) :
    Struck [id] rows (rows.requeue id reason).2 := by
  refine ⟨_, alterPending_eq rows id _, fun r _ => ?_⟩
  split_ifs with hp
  · exact .missed (r.retries + 1) (some reason) hp.1 (by simp [hp.2])
  · exact .same

/-- A mutation is given up with a count that can be read. -/
theorem struck_markFailed {rows : Rows} {id : String} (reason : String)
    (hn : ∀ r ∈ rows, r.failed = false → r.id = id → Row.countable r.retries = true) :
    Struck [id] rows (rows.markFailed id reason).2 := by
  refine ⟨_, alterPending_eq rows id _, fun r hr => ?_⟩
  split_ifs with hp
  · exact .givenUp r.retries (some reason) hp.1 (by simp [hp.2]) (hn r hr hp.1 hp.2)
  · exact .same

/-- The row that `requeue` gives is the pending one. -/
theorem eq_of_requeue {rows : Rows} (hu : rows.Unique) {id reason : String} {row : Row}
    (h : (rows.requeue id reason).1 = some row) {r : Row} (hr : r ∈ (rows.requeue id reason).2)
    (hf : r.failed = false) (hid : r.id = id) : r = row := by
  obtain ⟨r₀, hr₀, rfl⟩ := Option.map_eq_some_iff.1 h
  rw [requeue, alterPending_eq] at hr
  obtain ⟨x, hx, rfl⟩ := List.mem_map.1 hr
  have hp := List.find?_some hr₀
  simp only [Row.pending, Bool.and_eq_true, Bool.not_eq_true', beq_iff_eq] at hp
  split_ifs at hf hid ⊢ with hxp
  · rw [hu.eq hx (List.mem_of_find?_eq_some hr₀) (hxp.2.trans hp.2.symm)]
  · exact absurd ⟨hf, hid⟩ hxp

/-- The answer to a delivery first removes what was taken; only what remains can be struck. -/
theorem turned_acknowledge_struck {rows rows' : Rows} {taken struck : List String}
    (h : Struck struck (rows.acknowledge taken).2 rows') :
    Turned { taken, struck } rows rows' := by
  obtain ⟨f, rfl, hf⟩ := h
  refine ⟨fun r => if r.failed = false ∧ r.id ∈ taken then none else some (f r), ?_, ?_⟩
  · rw [acknowledge, ← List.filterMap_eq_map', List.filterMap_filter]
    congr 1
    funext r
    by_cases hf : r.failed = true <;> by_cases ht : r.id ∈ taken <;> simp [Row.pending, hf, ht]
  · intro r hr
    dsimp only
    split_ifs with hp
    · exact .taken hp.1 hp.2
    · have hmem : r ∈ (rows.acknowledge taken).2 := by
        simpa [acknowledge, Row.pending, hr, or_iff_not_imp_left] using hp
      have hs := hf r hmem
      generalize f r = r' at hs
      cases hs with
      | same => exact .same
      | missed n e hfail hid => exact .missed n e hfail hid fun ht => hp ⟨hfail, ht⟩
      | givenUp n e hfail hid hn => exact .givenUp n e hfail hid (fun ht => hp ⟨hfail, ht⟩) hn

end Rows

end Replication
