import Replication.Proofs.Push.Precedence

/-!
# Mutations of a document are delivered in order

Where identifiers are fresh, a batch holds for each document the earliest mutation that waits. From
then on and until its answer no earlier mutation of the document waits, since what was taken or
given up never waits again (`Desk.Ordered`). So a mutation is only ever sent when all earlier ones
of its document are settled, and acceptances come in the order of the ledger.
-/

namespace Replication

namespace Desk

/-- The identifier of a mutation that an event queues. -/
def Event.queued? : Event → Option String
  | .enqueue m => some m.id
  | _ => none

/-- No two mutations are queued with one identifier. -/
def Fresh (es : List Event) : Prop := (es.filterMap Event.queued?).Nodup

instance (es : List Event) : Decidable (Fresh es) :=
  inferInstanceAs (Decidable (es.filterMap Event.queued?).Nodup)

/-- The mutations that the answer in an event accepts of those that were sent. -/
def accepts (d : Desk) (e : Event) : List String := (d.causes e).taken

/-- The acceptances in events, oldest first. -/
def acceptances (d : Desk) : List Event → List String
  | [] => []
  | e :: es => d.accepts e ++ (d.step e).acceptances es

theorem acceptances_concat (d : Desk) (es : List Event) (e : Event) :
    d.acceptances (es ++ [e]) = d.acceptances es ++ (d.run es).accepts e := by
  induction es generalizing d with
  | nil => simp [acceptances]
  | cons e' es ih => rw [List.cons_append, acceptances, acceptances, ih, List.append_assoc]; rfl

/-- What holds of a desk and its ledger after events that queue fresh identifiers. -/
structure Ordered (es : List Event) (l : Ledger) : Prop where
  ids : l.ids.Sublist (es.filterMap Event.queued?)
  batch : ∀ c batch, (opened.run es).request? c = some batch →
    (batch.map Mutation.document).Nodup
  known : ∀ c batch, (opened.run es).request? c = some batch → ∀ m ∈ batch,
    ∃ x ∈ l, x.mutation.id = m.id ∧ x.mutation.collection = c ∧ x.mutation.document = m.document
  clear : ∀ c batch, (opened.run es).request? c = some batch → ∀ m ∈ batch,
    ∀ a, l.Precedes a m.id → ¬l.Waits a
  accepted : ∀ b ∈ opened.acceptances es, b ∈ l.ids
  settled : ∀ b ∈ opened.acceptances es, ∀ a, l.Precedes a b →
    ¬l.Waits a ∧ ∀ c batch, (opened.run es).request? c = some batch → a ∉ batch.map Mutation.id
  inOrder : (opened.acceptances es).Pairwise fun a b => ¬l.Precedes b a

theorem ordered_nil : Ordered [] [] where
  ids := .slnil
  batch _ _ h := by cases h
  known _ _ h := by cases h
  clear _ _ h := by cases h
  accepted _ h := by cases h
  settled _ h := by cases h
  inOrder := .nil

/-- A mutation that is accepted is one that was sent. -/
theorem exists_of_accepts {d : Desk} {e : Event} {b : String} (h : b ∈ d.accepts e) :
    ∃ c a batch m, e = .answer c (.ok a) ∧ d.request? c = some batch ∧ m ∈ batch ∧ m.id = b := by
  obtain ⟨c, a, batch, he, hb, hm⟩ := mem_batch_of_causes (.inl h)
  obtain ⟨m, hm, hid⟩ := List.mem_map.1 hm
  exact ⟨c, a, batch, m, he, hb, hm, hid⟩

theorem inserted?_queued {d : Desk} {e : Event} {m : Mutation} (h : d.inserted? e = some m) :
    e.queued? = some m.id := by
  cases e with
  | enqueue m' =>
    rw [inserted?] at h
    split_ifs at h
    rw [← Option.some.inj h]
    rfl
  | _ => cases h

theorem ids_inserted (d : Desk) (e : Event) :
    (Ledger.ids ((d.inserted? e).toList.map fun m => ⟨m, .waiting⟩)).Sublist e.queued?.toList := by
  cases h : d.inserted? e with
  | none => exact List.nil_sublist _
  | some m =>
    rw [inserted?_queued h]
    exact .refl _

/-- What is read from the rows of a ledger is the earliest of each document. -/
theorem Accounts.earliest {es : List Event} {l : Ledger} (h : Accounts opened es l) {c : String}
    {limit : Nat} {batch : List Mutation}
    (hr : PushPass.Reads c limit (opened.run es).rows batch) :
    (batch.map Mutation.document).Nodup ∧
      ∀ m ∈ batch, ∃ x, l.earliest? c m.document = some x ∧ x.mutation.id = m.id :=
  h.matches.earliest hr

section step

variable {es : List Event} {e : Event} {l l' new : Ledger}

/-- A request after an event is one from before, or its batch was just read. -/
theorem Accounts.request?_concat (hl : Accounts opened es l) {c : String} {batch : List Mutation}
    (hb : (opened.run (es ++ [e])).request? c = some batch) :
    ((opened.run es).request? c = some batch ∧ ∀ a, e ≠ .answer c a) ∨
      e = .proceed c ∧ (batch.map Mutation.document).Nodup ∧
        ∀ m ∈ batch, ∃ x, l.earliest? c m.document = some x ∧ x.mutation.id = m.id := by
  rw [run_concat] at hb
  rcases request?_step (orderly_opened.run es) hb with hb | ⟨p, he, -, -, hr⟩
  · exact .inl hb
  · exact .inr ⟨he, hl.earliest hr⟩

/-- Mutations under way of which one precedes the other are about one document. -/
theorem Ordered.document_of_precedes (h : Ordered es l) (hu : l.ids.Nodup) {c c' : String}
    {batch batch' : List Mutation} (hb : (opened.run es).request? c = some batch)
    (hb' : (opened.run es).request? c' = some batch') {m m' : Mutation} (hm : m ∈ batch)
    (hm' : m' ∈ batch') (hp : l.Precedes m'.id m.id) : c' = c ∧ m'.document = m.document := by
  obtain ⟨x, hx, hid, hc, hd⟩ := h.known c batch hb m hm
  obtain ⟨x', hx', hid', hc', hd'⟩ := h.known c' batch' hb' m' hm'
  rw [← hid, ← hid'] at hp
  obtain ⟨hcol, hdoc⟩ := hp.sameDocument hu hx' hx
  exact ⟨hc' ▸ hc ▸ hcol, hd' ▸ hd ▸ hdoc⟩

/-- Of the mutations of one batch none precedes another. -/
theorem Ordered.not_precedes (h : Ordered es l) (hu : l.ids.Nodup) {c : String}
    {batch : List Mutation} (hb : (opened.run es).request? c = some batch) {m m' : Mutation}
    (hm : m ∈ batch) (hm' : m' ∈ batch) : ¬l.Precedes m'.id m.id := by
  intro hp
  have hd := (h.document_of_precedes hu hb hb hm hm' hp).2
  obtain rfl := List.inj_on_of_nodup_map (h.batch c batch hb) hm' hm hd
  exact Ledger.not_precedes_self hu _ hp

/-- What was accepted before or is accepted now was sent. -/
theorem Ordered.mem_ids_of_accepted (h : Ordered es l) {b : String}
    (hb : b ∈ opened.acceptances (es ++ [e])) : b ∈ l.ids := by
  rw [acceptances_concat, List.mem_append] at hb
  rcases hb with hb | hb
  · exact h.accepted b hb
  · obtain ⟨c, a, batch, m, -, hreq, hm, rfl⟩ := exists_of_accepts hb
    obtain ⟨x, hx, hid, -⟩ := h.known c batch hreq m hm
    exact hid ▸ List.mem_map_of_mem hx

variable (h : Ordered es l)
  (ht : List.Forall₂ (Entry.Turn ((opened.run es).causes e)) l l') (hu : (l' ++ new).ids.Nodup)

section

include h ht hu

/-- No acceptance comes after one of a later mutation of the document. -/
theorem Ordered.inOrder_step :
    (opened.acceptances (es ++ [e])).Pairwise fun a b => ¬(l' ++ new).Precedes b a := by
  have hback : ∀ a ∈ opened.acceptances (es ++ [e]), ∀ b, (l' ++ new).Precedes b a →
      l.Precedes b a := fun a ha b hp => hp.of_turn ht hu (h.mem_ids_of_accepted ha)
  rw [acceptances_concat] at hback ⊢
  refine List.pairwise_append.2 ⟨?_, ?_, fun a ha b hb hp => ?_⟩
  · exact h.inOrder.imp_of_mem fun ha _ hnot hp =>
      hnot (hback _ (List.mem_append_left _ ha) _ hp)
  · refine List.pairwise_of_forall_mem_list fun a ha b hb hp => ?_
    have hp' := hback a (List.mem_append_right _ ha) b hp
    obtain ⟨c, ans, batch, m, he, hbatch, hm, rfl⟩ := exists_of_accepts ha
    obtain ⟨c', ans', batch', m', he', hbatch', hm', rfl⟩ := exists_of_accepts hb
    obtain ⟨rfl, -⟩ := Event.answer.inj (he.symm.trans he')
    obtain rfl := Option.some.inj (hbatch.symm.trans hbatch')
    exact h.not_precedes (Ledger.nodup_of_turn ht hu) hbatch hm hm' hp'
  · have hp' := hback a (List.mem_append_left _ ha) b hp
    obtain ⟨c, ans, batch, m, -, hbatch, hm, rfl⟩ := exists_of_accepts hb
    exact (h.settled a ha m.id hp').2 c batch hbatch (List.mem_map_of_mem hm)

end

variable (hl : Accounts opened es l)

include h ht hl

theorem Ordered.known_step {c : String} {batch : List Mutation}
    (hb : (opened.run (es ++ [e])).request? c = some batch) {m : Mutation} (hm : m ∈ batch) :
    ∃ x ∈ l' ++ new, x.mutation.id = m.id ∧ x.mutation.collection = c ∧
      x.mutation.document = m.document := by
  obtain ⟨x, hx, hid, hc, hd⟩ : ∃ x ∈ l, x.mutation.id = m.id ∧ x.mutation.collection = c ∧
      x.mutation.document = m.document := by
    rcases hl.request?_concat hb with ⟨hb, -⟩ | ⟨-, -, he⟩
    · exact h.known c batch hb m hm
    · obtain ⟨x, hx, hid⟩ := he m hm
      obtain ⟨hmem, -, hc, hd⟩ := Ledger.of_earliest hx
      exact ⟨x, hmem, hid, hc, hd⟩
  obtain ⟨x', hx', hsame⟩ : ∃ x' ∈ l' ++ new, x'.mutation = x.mutation :=
    Ledger.exists_of_turn ht hx
  rw [← hsame] at hid hc hd
  exact ⟨x', hx', hid, hc, hd⟩

include hu

/-- Nothing waits before a mutation under way. -/
theorem Ordered.clear_step {c : String} {batch : List Mutation}
    (hb : (opened.run (es ++ [e])).request? c = some batch) {m : Mutation} (hm : m ∈ batch)
    {a : String} (hp : (l' ++ new).Precedes a m.id) : ¬(l' ++ new).Waits a := by
  rcases hl.request?_concat hb with ⟨hb, -⟩ | ⟨-, -, he⟩
  · obtain ⟨x, hx, hid, -⟩ := h.known c batch hb m hm
    exact Ledger.not_waits_of_turn ht hu (hid ▸ List.mem_map_of_mem hx) (h.clear c batch hb m hm) hp
  · obtain ⟨x, hx, hid⟩ := he m hm
    have hul := Ledger.nodup_of_turn ht hu
    rw [← hid] at hp
    exact Ledger.not_waits_of_turn ht hu (List.mem_map_of_mem (Ledger.of_earliest hx).1)
      (fun a ha => Ledger.not_waits_of_precedes_earliest hul hx ha) hp

/-- What precedes an accepted mutation neither waits nor is under way. -/
theorem Ordered.settled_step {b : String} (hb : b ∈ opened.acceptances (es ++ [e])) {a : String}
    (hp : (l' ++ new).Precedes a b) :
    ¬(l' ++ new).Waits a ∧ ∀ c batch, (opened.run (es ++ [e])).request? c = some batch →
      a ∉ batch.map Mutation.id := by
  have hp' := hp.of_turn ht hu (h.mem_ids_of_accepted hb)
  rw [acceptances_concat, List.mem_append] at hb
  rcases hb with hb | hb
  · obtain ⟨hw, hnot⟩ := h.settled b hb a hp'
    refine ⟨fun hw' => hw (hw'.of_turn ht hu hp'.mem_ids.1), fun c batch hbatch ha => ?_⟩
    rcases hl.request?_concat hbatch with ⟨hbatch, -⟩ | ⟨-, -, he⟩
    · exact hnot c batch hbatch ha
    · obtain ⟨m, hm, rfl⟩ := List.mem_map.1 ha
      obtain ⟨x, hx, hid⟩ := he m hm
      obtain ⟨hmem, hwaits, -⟩ := Ledger.of_earliest hx
      exact hw ⟨x, hmem, hid, hwaits⟩
  · obtain ⟨c, ans, batch, m, rfl, hbatch, hm, rfl⟩ := exists_of_accepts hb
    refine ⟨Ledger.not_waits_of_turn ht hu hp'.mem_ids.2 (h.clear c batch hbatch m hm) hp,
      fun c' batch' hbatch' ha => ?_⟩
    rcases hl.request?_concat hbatch' with ⟨hbatch', hne⟩ | ⟨he, -⟩
    · -- A mutation of the same document is of the same collection.
      obtain ⟨m', hm', rfl⟩ := List.mem_map.1 ha
      have hul := Ledger.nodup_of_turn ht hu
      obtain ⟨rfl, -⟩ := h.document_of_precedes hul hbatch hbatch' hm hm' hp'
      exact hne (.ok ans) rfl
    · cases he

omit hu

/-- An event keeps a desk ordered. -/
theorem Ordered.step (hids : (l' ++ new).ids.Sublist ((es ++ [e]).filterMap Event.queued?))
    (hf : Fresh (es ++ [e])) : Ordered (es ++ [e]) (l' ++ new) where
  ids := hids
  batch c batch hb := by
    rcases hl.request?_concat hb with ⟨hb, -⟩ | ⟨-, hn, -⟩
    · exact h.batch c batch hb
    · exact hn
  known c batch hb m hm := h.known_step ht hl hb hm
  clear c batch hb m hm a hp := h.clear_step ht (hids.nodup hf) hl hb hm hp
  accepted b hb := Ledger.mem_ids_of_turn ht (h.mem_ids_of_accepted hb)
  settled b hb a hp := h.settled_step ht (hids.nodup hf) hl hb hp
  inOrder := h.inOrder_step ht (hids.nodup hf)

end step

theorem Accounts.ordered {es : List Event} {l : Ledger} (h : Accounts opened es l)
    (hf : Fresh es) : Ordered es l := by
  induction h with
  | nil => exact ordered_nil
  | @concat es l l' e hl ht hm ih =>
    have hfes : Fresh es := by
      unfold Fresh at hf ⊢
      rw [List.filterMap_append] at hf
      exact hf.of_append_left
    have ih := ih hfes
    refine ih.step ht hl ?_ hf
    rw [List.filterMap_append, Ledger.ids, List.map_append, ← Ledger.ids, Ledger.ids_of_turn ht]
    have hq : [e].filterMap Event.queued? = e.queued?.toList := by
      cases h : e.queued? <;> simp [h]
    rw [hq]
    exact ih.ids.append (ids_inserted _ e)

/-! ## The order of deliveries -/

/-- Where identifiers are fresh, and whatever else happens: a batch that is read holds no two
mutations of one document, and each of them is the earliest of its document that waits; while it is
under way no earlier mutation of any of its documents waits; and of two mutations of one document
that are accepted, the one that was queued first is first accepted before the other. -/
theorem delivered_in_order (es : List Event) (hf : Fresh es) :
    ∃ l, Accounts opened es l ∧
      (∀ c p batch, (opened.run es).passes.get? c = some p → p.phase = .reading →
        ((opened.run es).step (.proceed c)).request? c = some batch →
        (batch.map Mutation.document).Nodup ∧
          ∀ m ∈ batch, ∃ x, l.earliest? c m.document = some x ∧ x.mutation.id = m.id) ∧
      (∀ c batch, (opened.run es).request? c = some batch → ∀ m ∈ batch,
        ∀ a, l.Precedes a m.id → ¬l.Waits a) ∧
      ∀ a b, l.Precedes a b → a ∈ opened.acceptances es → b ∈ opened.acceptances es →
        (opened.acceptances es).idxOf a < (opened.acceptances es).idxOf b := by
  obtain ⟨l, hl⟩ := exists_accounts es
  have ho := hl.ordered hf
  refine ⟨l, hl, fun c p batch hp hphase hb => ?_, ho.clear, fun a b hab ha hb => ?_⟩
  · rcases request?_step (orderly_opened.run es) hb with ⟨hb, -⟩ | ⟨p', -, -, -, hr⟩
    · have hnone : (opened.run es).request? c = none := by
        rw [request?, hp, Option.bind_some, PushPass.request?, hphase]
      rw [hnone] at hb
      cases hb
    · exact hl.earliest hr
  · have hne : a ≠ b := by
      rintro rfl
      exact Ledger.not_precedes_self (ho.ids.nodup hf) a hab
    rcases Nat.lt_trichotomy ((opened.acceptances es).idxOf a) ((opened.acceptances es).idxOf b)
      with hlt | heq | hgt
    · exact hlt
    · exact absurd ((List.idxOf_inj ha).1 heq) hne
    · have hpair := (List.pairwise_iff_getElem.1 ho.inOrder) _ _ (List.idxOf_lt_length_of_mem hb)
        (List.idxOf_lt_length_of_mem ha) hgt
      simp only [List.getElem_idxOf] at hpair
      exact absurd hab hpair

/-- Two mutations of one document are sent one after the other, the first one again after a failed
request. -/
theorem delivered_one_after_the_other :
    let m (id : String) : Mutation := ⟨id, "notes", .delete, "d", none, 0, 0⟩
    let es : List Event :=
      [.enqueue (m "a"), .enqueue (m "b"), .begin "notes" 10 3, .proceed "notes",
        .answer "notes" (.error .persistence), .begin "notes" 10 3, .proceed "notes",
        .answer "notes" (.ok ⟨["a"], [], []⟩), .proceed "notes",
        .answer "notes" (.ok ⟨["b", "a"], [], []⟩)]
    Fresh es ∧ opened.acceptances es = ["a", "b"] ∧
      ∃ l, Accounts opened es l ∧ ∀ a b, l.Precedes a b →
        a ∈ opened.acceptances es → b ∈ opened.acceptances es →
          (opened.acceptances es).idxOf a < (opened.acceptances es).idxOf b := by
  intro m es
  have hf : Fresh es := by decide
  obtain ⟨l, hl, -, -, ho⟩ := delivered_in_order es hf
  exact ⟨hf, by decide +kernel, l, hl, ho⟩

end Desk

end Replication
