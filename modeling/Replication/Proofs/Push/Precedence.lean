import Replication.Proofs.Push.Ledger

/-!
# Which mutations come first

A ledger is in the order in which mutations came into the outbox. That says which mutation of a
document precedes which, and which is the earliest that waits. What becomes of entries changes
neither the order nor makes anything wait again, and a batch that is read from the rows of a ledger
holds the earliest mutation that waits of each of its documents (`Ledger.Matches.earliest`).
-/

namespace Replication

/-- Rows pair with lists that pair with them. -/
theorem exists_sublist_of_forall₂ {α β : Type} {R : α → β → Prop} {l : List α} {l' s' : List β}
    (h : List.Forall₂ R l l') (hs : s'.Sublist l') : ∃ s, s.Sublist l ∧ List.Forall₂ R s s' := by
  induction h generalizing s' with
  | nil =>
    obtain rfl := List.sublist_nil.1 hs
    exact ⟨[], .slnil, .nil⟩
  | @cons a b l l' hab _ ih =>
    cases hs with
    | cons _ hs =>
      obtain ⟨s, hsl, hR⟩ := ih hs
      exact ⟨s, hsl.cons a, hR⟩
    | cons_cons _ hs =>
      obtain ⟨s, hsl, hR⟩ := ih hs
      exact ⟨a :: s, hsl.cons_cons a, .cons hab hR⟩

/-- Two entries are about one document. -/
def Entry.SameDocument (x y : Entry) : Prop :=
  x.mutation.collection = y.mutation.collection ∧ x.mutation.document = y.mutation.document

namespace Ledger

/-- The identifiers of the mutations, oldest first. -/
def ids (l : Ledger) : List String := l.map fun x => x.mutation.id

/-- Two mutations are about one document, and the first one came before the second one. -/
def Precedes (l : Ledger) (a b : String) : Prop :=
  ∃ x y, [x, y].Sublist l ∧ x.mutation.id = a ∧ y.mutation.id = b ∧ x.SameDocument y

/-- A mutation waits to be delivered. -/
def Waits (l : Ledger) (a : String) : Prop :=
  ∃ x ∈ l, x.mutation.id = a ∧ x.fate = .waiting

/-- The earliest mutation of a document that waits. -/
def earliest? (l : Ledger) (collection document : String) : Option Entry :=
  l.find? fun x => x.mutation.collection == collection && x.fate == .waiting &&
    x.mutation.document == document

theorem Precedes.mem_ids {l : Ledger} {a b : String} (h : l.Precedes a b) :
    a ∈ l.ids ∧ b ∈ l.ids := by
  obtain ⟨x, y, hs, rfl, rfl, -⟩ := h
  exact ⟨List.mem_map_of_mem (hs.subset (by simp)), List.mem_map_of_mem (hs.subset (by simp))⟩

theorem eq_of_id {l : Ledger} (hu : l.ids.Nodup) {x y : Entry} (hx : x ∈ l) (hy : y ∈ l)
    (h : x.mutation.id = y.mutation.id) : x = y :=
  List.inj_on_of_nodup_map hu hx hy h

theorem not_precedes_self {l : Ledger} (hu : l.ids.Nodup) (a : String) : ¬l.Precedes a a := by
  rintro ⟨x, y, hs, hx, hy, -⟩
  have hn : ([x, y].map fun x : Entry => x.mutation.id).Nodup := (hs.map _).nodup hu
  simp [hx, hy] at hn

/-- Entries of which one precedes the other are about one document. -/
theorem Precedes.sameDocument {l : Ledger} (hu : l.ids.Nodup) {x y : Entry} (hx : x ∈ l)
    (hy : y ∈ l) (hp : l.Precedes x.mutation.id y.mutation.id) : x.SameDocument y := by
  obtain ⟨x', y', hs, hx', hy', hd⟩ := hp
  obtain rfl := eq_of_id hu (hs.subset (by simp)) hx hx'
  obtain rfl := eq_of_id hu (hs.subset (by simp)) hy hy'
  exact hd

theorem of_earliest {l : Ledger} {collection document : String} {x : Entry}
    (h : l.earliest? collection document = some x) :
    x ∈ l ∧ x.fate = .waiting ∧ x.mutation.collection = collection ∧
      x.mutation.document = document := by
  have hp := List.find?_some h
  simp only [Bool.and_eq_true, beq_iff_eq] at hp
  exact ⟨List.mem_of_find?_eq_some h, hp.1.2, hp.1.1, hp.2⟩

section follow

variable {c : Row.Causes} {l l' new : Ledger} (h : List.Forall₂ (Entry.Turn c) l l')

include h

theorem ids_of_turn : l'.ids = l.ids := by
  induction h with
  | nil => rfl
  | cons hx _ ih => simp only [ids, List.map_cons, hx.mutation] at ih ⊢; rw [ih]

/-- Among the mutations that were there, the order stays. -/
theorem Precedes.of_turn (hu : (l' ++ new).ids.Nodup) {a b : String}
    (hp : Precedes (l' ++ new) a b) (hb : b ∈ l.ids) : l.Precedes a b := by
  obtain ⟨x', y', hs, rfl, rfl, hd⟩ := hp
  obtain ⟨s₁, s₂, he, hs₁, hs₂⟩ := List.sublist_append_iff.1 hs
  rw [← ids_of_turn h] at hb
  have hnew : y' ∉ s₂ := by
    intro hy
    rw [ids, List.map_append, List.nodup_append] at hu
    exact hu.2.2 _ hb _ (List.mem_map_of_mem (hs₂.subset hy)) rfl
  have hs₂' : s₂ = [] := by
    rcases List.eq_nil_or_concat s₂ with h₂ | ⟨s, z, rfl⟩
    · exact h₂
    · have hz : z = y' := by
        have := congrArg List.getLast? he
        simpa using this.symm
      exact absurd (by simp [hz]) hnew
  rw [hs₂', List.append_nil] at he
  obtain ⟨s, hsl, hR⟩ := exists_sublist_of_forall₂ h (he ▸ hs₁)
  obtain ⟨x, t, hx, ht, rfl⟩ := List.forall₂_cons_right_iff.1 hR
  obtain ⟨y, u, hy, hu', rfl⟩ := List.forall₂_cons_right_iff.1 ht
  obtain rfl := List.forall₂_nil_right_iff.1 hu'
  refine ⟨x, y, hsl, congrArg Mutation.id hx.mutation.symm, congrArg Mutation.id hy.mutation.symm,
    ?_⟩
  rwa [Entry.SameDocument, hx.mutation, hy.mutation] at hd

/-- Among the mutations that were there, none waits that did not. -/
theorem Waits.of_turn (hu : (l' ++ new).ids.Nodup) {a : String} (hw : Waits (l' ++ new) a)
    (ha : a ∈ l.ids) : l.Waits a := by
  obtain ⟨x', hx', rfl, hf⟩ := hw
  rw [← ids_of_turn h] at ha
  rcases List.mem_append.1 hx' with hx' | hx'
  · obtain ⟨i, hi, rfl⟩ := List.mem_iff_getElem.1 hx'
    have hlen := h.length_eq
    have hturn := (List.forall₂_iff_get.1 h).2 i (by omega) hi
    refine ⟨l[i], List.getElem_mem _, ?_, hturn.waiting hf⟩
    exact congrArg Mutation.id hturn.mutation.symm
  · rw [ids, List.map_append, List.nodup_append] at hu
    exact absurd rfl (hu.2.2 _ ha _ (List.mem_map_of_mem hx'))

theorem nodup_of_turn (hu : (l' ++ new).ids.Nodup) : l.ids.Nodup := by
  rw [← ids_of_turn h]
  exact ((List.sublist_append_left l' new).map _).nodup hu

theorem mem_ids_of_turn {b : String} (hb : b ∈ l.ids) : b ∈ (l' ++ new).ids := by
  rw [← ids_of_turn h] at hb
  exact ((List.sublist_append_left l' new).map _).subset hb

theorem exists_of_turn {x : Entry} (hx : x ∈ l) : ∃ x' ∈ l' ++ new, x'.mutation = x.mutation := by
  obtain ⟨i, hi, rfl⟩ := List.mem_iff_getElem.1 hx
  have hlen := h.length_eq
  have hturn := (List.forall₂_iff_get.1 h).2 i hi (by omega)
  exact ⟨l'[i], List.mem_append_left _ (List.getElem_mem _), hturn.mutation⟩

/-- Nothing comes to wait before a mutation before which nothing waited. -/
theorem not_waits_of_turn (hu : (l' ++ new).ids.Nodup) {b : String} (hb : b ∈ l.ids)
    (hclear : ∀ a, l.Precedes a b → ¬l.Waits a) {a : String} (hp : Precedes (l' ++ new) a b) :
    ¬Waits (l' ++ new) a := by
  intro hw
  have hp' := hp.of_turn h hu hb
  exact hclear a hp' (hw.of_turn h hu hp'.mem_ids.1)

end follow

/-! ## What a batch holds -/

/-- The pending rows of a collection are those of its waiting entries. -/
theorem Matches.pending {l : Ledger} {rows : Rows} (h : Matches l rows) (collection : String) :
    List.Forall₂ Entry.Live
      (l.filter fun x => x.mutation.collection == collection && x.fate == .waiting)
      (rows.pending collection) := by
  unfold Rows.pending
  induction h with
  | nil => exact .nil
  | @gone x l rows hx _ ih =>
    have hne : (x.fate == .waiting) = false := by
      rcases hx with hx | hx <;> rw [hx] <;> rfl
    rw [List.filter_cons_of_neg (by simp [hne])]
    exact ih
  | @live x row l rows hx _ ih =>
    have he : (x.fate == .waiting) = row.pending := by
      rw [hx.2, Row.pending]
      cases row.failed <;> rfl
    rw [List.filter_cons, List.filter_cons, hx.1.collection, he]
    split
    · exact .cons hx ih
    · exact ih

/-- The first of a document is found where the list before it has none. -/
theorem find?_of_forall₂ {R : Entry → Mutation → Prop} {l : Ledger} {before after : List Mutation}
    {m : Mutation} (h : List.Forall₂ R l (before ++ m :: after))
    (hR : ∀ x y, R x y → x.mutation.document = y.document)
    (hb : ∀ y ∈ before, y.document ≠ m.document) :
    ∃ x, l.find? (fun x => x.mutation.document == m.document) = some x ∧ R x m := by
  induction before generalizing l with
  | nil =>
    obtain ⟨x, t, hx, -, rfl⟩ := List.forall₂_cons_right_iff.1 h
    exact ⟨x, by rw [List.find?_cons_of_pos (by simp [hR x m hx])], hx⟩
  | cons y before ih =>
    obtain ⟨x, t, hx, ht, rfl⟩ := List.forall₂_cons_right_iff.1 h
    obtain ⟨hy, hb⟩ := List.forall_mem_cons.1 hb
    obtain ⟨x', hx', hR'⟩ := ih ht hb
    refine ⟨x', ?_, hR'⟩
    rw [List.find?_cons_of_neg (by simpa [hR x y hx] using hy)]
    exact hx'

/-- A batch that is read holds the earliest mutation that waits of each of its documents. -/
theorem Matches.earliest {l : Ledger} {rows : Rows} (h : Matches l rows) {collection : String}
    {limit : Nat} {batch : List Mutation} (hr : PushPass.Reads collection limit rows batch) :
    (batch.map Mutation.document).Nodup ∧
      ∀ m ∈ batch, ∃ x, l.earliest? collection m.document = some x ∧ x.mutation.id = m.id := by
  obtain ⟨ms, hms, rfl⟩ := hr
  refine ⟨nodup_documents_deliverable ms, fun m hm => ?_⟩
  obtain ⟨before, after, rfl, hb⟩ := exists_of_mem_deliverable hm
  have hlive := List.forall₂_take limit (h.pending collection)
  -- Entries, rows and mutations that were read go together.
  have hread : List.Forall₂
      (fun (x : Entry) (m : Mutation) => x.mutation.id = m.id ∧ x.mutation.document = m.document)
      ((l.filter fun x => x.mutation.collection == collection && x.fate == .waiting).take limit)
      (before ++ m :: after) := by
    refine List.forall₂_iff_get.2 ⟨hlive.length_eq.trans hms.length_eq, fun i h₁ h₂ => ?_⟩
    have hx := (List.forall₂_iff_get.1 hlive).2 i h₁ (by rw [← hlive.length_eq]; exact h₁)
    have hy := Row.mutation_eq_ok
      ((List.forall₂_iff_get.1 hms).2 i (by rw [← hlive.length_eq]; exact h₁) h₂)
    exact ⟨hx.1.id.symm.trans hy.1.symm, hx.1.document.symm.trans hy.2.2.symm⟩
  obtain ⟨x, hx, hid, -⟩ := find?_of_forall₂ hread (fun _ _ h => h.2) hb
  refine ⟨x, ?_, hid⟩
  have hfind := (List.take_prefix limit _).find?_eq_some hx
  rw [List.find?_filter] at hfind
  unfold earliest?
  rw [← hfind]
  congr 1
  funext x
  rw [Bool.eq_iff_iff]
  simp

/-- Nothing waits before the earliest mutation of a document that waits. -/
theorem not_waits_of_precedes_earliest {l : Ledger} (hu : l.ids.Nodup)
    {collection document : String} {x : Entry} (h : l.earliest? collection document = some x)
    {a : String} (hp : l.Precedes a x.mutation.id) : ¬l.Waits a := by
  rintro ⟨z, hz, hza, hzf⟩
  obtain ⟨y, x', hs, rfl, hx', hd⟩ := hp
  obtain ⟨hx, before, after, rfl, hb⟩ := List.find?_eq_some_iff_append.1 h
  obtain rfl := eq_of_id hu (hs.subset (by simp)) (by simp) hx'
  obtain rfl := eq_of_id hu hz (hs.subset (by simp)) hza
  simp only [Bool.and_eq_true, beq_iff_eq] at hx
  have hz' : z ∉ before := by
    intro hz'
    simpa [hd.1, hd.2, hx.1.1, hx.2, hzf] using hb z hz'
  obtain ⟨s₁, s₂, he, hs₁, hs₂⟩ := List.sublist_append_iff.1 hs
  cases s₁ with
  | cons z₁ s₁ =>
    obtain rfl : z = z₁ := (List.cons.inj he).1
    exact hz' (hs₁.subset (by simp))
  | nil =>
    obtain rfl : [z, x'] = s₂ := he
    rw [ids, List.map_append, List.nodup_append, List.map_cons, List.nodup_cons] at hu
    cases hs₂ with
    | cons _ hs₂ => exact hu.2.1.1 (List.mem_map_of_mem (hs₂.subset (by simp)))
    | cons_cons _ hs₂ => exact hu.2.1.1 (List.mem_map_of_mem (hs₂.subset (by simp)))

end Ledger

end Replication
