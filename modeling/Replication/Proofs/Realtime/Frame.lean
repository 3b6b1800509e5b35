import Replication.Proofs.Text.Split
import Replication.Realtime.Frame

/-!
# The collection that a change notice names

A notice names its collection by the path of the document that changed, or else by the member
`collection` of the document itself (`Frame.Delta.Names`). The collection of a path has at least one
character; that of a document is taken as it is. So a notice names a collection with a name just
when it is not left to a document that calls its collection the empty text
(`Frame.decode_names_iff`).
-/

namespace Replication

/-! ## Paths -/

/-- A path that is a collection, a slash and an identifier without slashes, neither of them
empty. -/
def LeadsInto (path collection : String) : Prop :=
  ∃ id, path = collection ++ "/" ++ id ∧ collection ≠ "" ∧ id ≠ "" ∧ '/' ∉ id.toList

/-- The last slash of a path divides it. -/
theorem collectionOf?_of_toList {path : String} {collection id : List Char}
    (h : path.toList = collection ++ '/' :: id) (hid : '/' ∉ id) :
    collectionOf? path =
      if id = [] ∨ collection = [] then none else some (String.ofList collection) := by
  have hback : path.toList.reverse = id.reverse ++ '/' :: collection.reverse := by simp [h]
  have hid' : '/' ∉ id.reverse := mt List.mem_reverse.1 hid
  unfold collectionOf?
  dsimp only
  rw [hback, takeWhile_append_cons hid', dropWhile_append_cons hid']
  simp

theorem collectionOf?_eq_some_iff {path collection : String} :
    collectionOf? path = some collection ↔ LeadsInto path collection := by
  constructor
  · intro h
    by_cases hslash : '/' ∈ path.toList.reverse
    · obtain ⟨name, back, hcut, hname⟩ := List.eq_append_cons_of_mem hslash
      have hpath : path.toList = back.reverse ++ '/' :: name.reverse := by
        rw [← List.reverse_reverse path.toList, hcut]
        simp
      have hname' : '/' ∉ name.reverse := mt List.mem_reverse.1 hname
      rw [collectionOf?_of_toList hpath hname'] at h
      split at h
      · cases h
      · next hne =>
        obtain rfl := Option.some.inj h
        refine ⟨String.ofList name.reverse, ?_, ?_, ?_, by simpa using hname⟩
        · rw [← String.ofList_toList (s := path), hpath]
          apply String.toList_inj.1
          simp
        · simpa [← String.toList_inj] using mt Or.inr hne
        · simpa [← String.toList_inj] using mt Or.inl hne
    · have hback : path.toList.reverse.dropWhile (· != '/') = [] := dropWhile_of_not_mem hslash
      unfold collectionOf? at h
      dsimp only at h
      rw [hback] at h
      simp at h
  · rintro ⟨id, rfl, hcollection, hid, hslash⟩
    have hpath : (collection ++ "/" ++ id).toList = collection.toList ++ '/' :: id.toList := by
      rw [String.toList_append, String.toList_append, List.append_assoc]
      rfl
    have hne : ¬(id.toList = [] ∨ collection.toList = []) := by
      simp [String.toList_eq_nil_iff, hid, hcollection]
    rw [collectionOf?_of_toList hpath hslash, if_neg hne, String.ofList_toList]

namespace Frame

open Json (Tree)

/-! ## Changes -/

/-- The collection that a change names: that of its path, or if its path has none the one that its
document calls its own. -/
inductive Delta.Names (d : Delta) : String → Prop where
  | path {collection : String} (h : LeadsInto d.path collection) : Names d collection
  | document {collection : String} (hpath : ∀ c, ¬LeadsInto d.path c)
      (h : d.document.bind (Object.get? · "collection") = some (.str collection)) :
      Names d collection

/-- The path of the document that changed, if the notice has one. -/
def Delta.place (d : Delta) : Option String := if d.path = "" then none else some d.path

theorem namedCollection?_eq_some_iff {document : Option Object} {collection : String} :
    namedCollection? document = some collection ↔
      document.bind (Object.get? · "collection") = some (.str collection) := by
  unfold namedCollection?
  split
  · next s h => simp [h]
  · next h => exact iff_of_false (fun h' => by cases h') (h collection)

theorem or_eq_some_iff_names {d : Delta} {collection : String} :
    (collectionOf? d.path).or (namedCollection? d.document) = some collection ↔
      d.Names collection := by
  rw [Option.or_eq_some_iff, collectionOf?_eq_some_iff, namedCollection?_eq_some_iff]
  constructor
  · rintro (h | ⟨hpath, h⟩)
    · exact .path h
    · refine .document (fun c hc => ?_) h
      rw [collectionOf?_eq_some_iff.2 hc] at hpath
      cases hpath
  · rintro (h | ⟨hpath, h⟩)
    · exact .inl h
    · refine .inr ⟨Option.eq_none_iff_forall_not_mem.2 fun c hc => hpath c ?_, h⟩
      exact collectionOf?_eq_some_iff.1 hc

/-! ## Messages -/

/-- A message that calls itself a change notice, whatever else it holds. -/
def IsNotice (text : String) : Prop :=
  ∃ payload, (Tree.parse? text.toList).bind envelope? = some ("event", payload)

/-- The change that a message tells of, if it is a change notice whose payload can be read. -/
def told? (text : String) : Option Delta :=
  match (Tree.parse? text.toList).bind envelope? with
  | some ("event", some payload) => delta? payload
  | _ => none

section

variable {text : String} {d : Delta}

theorem eventOf_of_delta? {payload : Json} (h : delta? payload = some d) :
    (∀ c, d.Names c → eventOf payload = .ok ⟨c, d.kind, d.place⟩) ∧
      ((∀ c, ¬d.Names c) → ∃ m, eventOf payload = .error (.protocol m)) := by
  unfold eventOf
  constructor
  · intro c hc
    simp only [h, or_eq_some_iff_names.2 hc]
    simp [Delta.place]
  · intro hnone
    have hor : (collectionOf? d.path).or (namedCollection? d.document) = none :=
      Option.eq_none_iff_forall_not_mem.2 fun c hc => hnone c (or_eq_some_iff_names.1 hc)
    simp only [h, hor]
    exact ⟨_, rfl⟩

theorem decode_of_payload {payload : Json}
    (h : (Tree.parse? text.toList).bind envelope? = some ("event", some payload)) :
    decode text = (eventOf payload).map .event := by
  unfold decode
  rw [h]
  rfl

/-- What a text that tells of a change is decoded to. -/
theorem decode_of_told? (h : told? text = some d) :
    (∀ c, d.Names c → decode text = .ok (.event ⟨c, d.kind, d.place⟩)) ∧
      ((∀ c, ¬d.Names c) → ∃ m, decode text = .error (.protocol m)) := by
  unfold told? at h
  split at h
  · next payload htext =>
    obtain ⟨hnamed, hnone⟩ := eventOf_of_delta? h
    rw [decode_of_payload htext]
    refine ⟨fun c hc => ?_, fun hno => ?_⟩
    · rw [hnamed c hc]
      rfl
    · obtain ⟨m, hm⟩ := hnone hno
      rw [hm]
      exact ⟨m, rfl⟩
  · cases h

/-- A notice that tells of no change is refused. -/
theorem decode_of_isNotice (h : IsNotice text) (hnone : told? text = none) :
    ∃ m, decode text = .error (.protocol m) := by
  obtain ⟨payload, htext⟩ := h
  unfold told? at hnone
  unfold decode
  rw [htext] at hnone ⊢
  cases payload with
  | none => exact ⟨_, rfl⟩
  | some payload =>
    have hdelta : delta? payload = none := hnone
    simp only [eventOf, hdelta]
    exact ⟨_, rfl⟩

/-- A text that is decoded to a notice tells of a change. -/
theorem exists_told?_of_decode {e : ChangeEvent} (h : decode text = .ok (.event e)) :
    ∃ d, told? text = some d := by
  unfold decode at h
  split at h
  · cases h
  · cases h
  · cases h
  · next payload htext =>
    cases hdelta : delta? payload with
    | none =>
      simp only [eventOf, hdelta] at h
      cases h
    | some d => exact ⟨d, by simp only [told?, htext, hdelta]⟩
  · next payload htext =>
    unfold errorOf at h
    split at h
    · cases h
    · dsimp only at h
      split at h <;> cases h
  · cases h

/-- What a text is decoded to as a notice: just what the change that it tells of says. -/
theorem decode_eq_event_iff {e : ChangeEvent} :
    decode text = .ok (.event e) ↔
      ∃ d, told? text = some d ∧ d.Names e.collection ∧ e.kind = d.kind ∧ e.document = d.place := by
  constructor
  · intro h
    obtain ⟨d, hd⟩ := exists_told?_of_decode h
    obtain ⟨hnamed, hnone⟩ := decode_of_told? hd
    by_cases hno : ∀ c, ¬d.Names c
    · obtain ⟨m, hm⟩ := hnone hno
      rw [hm] at h
      cases h
    · obtain ⟨c, hc⟩ := not_forall_not.1 hno
      rw [hnamed c hc] at h
      cases h
      exact ⟨d, hd, hc, rfl, rfl⟩
  · rintro ⟨d, hd, hnames, hkind, hdocument⟩
    rw [(decode_of_told? hd).1 _ hnames, ← hkind, ← hdocument]

/-- A text names its collection: as a notice it has one with a name, and it is refused if it calls
itself a notice and none can be told from it. -/
structure NamesCollection (text : String) : Prop where
  named : ∀ e, decode text = .ok (.event e) → e.collection ≠ ""
  refused : IsNotice text → (∀ d, told? text = some d → ∀ c, d.Names c → c = "") →
    ∃ m, decode text = .error (.protocol m)

theorem namesCollection_iff :
    NamesCollection text ↔ ∀ d, told? text = some d → ¬d.Names "" := by
  constructor
  · intro h d hd hempty
    exact h.named _ ((decode_of_told? hd).1 _ hempty) rfl
  · intro h
    refine ⟨fun e he hempty => ?_, fun hnotice hnone => ?_⟩
    · obtain ⟨d, hd, hnames, -⟩ := decode_eq_event_iff.1 he
      exact h d hd (hempty ▸ hnames)
    · cases hd : told? text with
      | none => exact decode_of_isNotice hnotice hd
      | some d =>
        refine (decode_of_told? hd).2 fun c hc => h d hd ?_
        rwa [← hnone d hd c hc]

theorem names_empty_iff :
    d.Names "" ↔ (∀ c, ¬LeadsInto d.path c) ∧
      d.document.bind (Object.get? · "collection") = some (.str "") := by
  constructor
  · rintro (⟨id, -, hempty, -, -⟩ | ⟨hpath, h⟩)
    · exact absurd rfl hempty
    · exact ⟨hpath, h⟩
  · rintro ⟨hpath, h⟩
    exact .document hpath h

end

/-- What a text is decoded to as a notice. It is one just if it tells of a change that names a
collection, and then it has this collection and the kind and the path of the change. The collection
is that of the path if the path has one. And the text names its collection just if it tells of no
change whose path has none and whose document calls its collection the empty text. -/
theorem decode_names_iff (text : String) :
    (∀ e, decode text = .ok (.event e) ↔ ∃ d, told? text = some d ∧
      d.Names e.collection ∧ e.kind = d.kind ∧ e.document = d.place) ∧
    (∀ d c, told? text = some d → LeadsInto d.path c →
      decode text = .ok (.event ⟨c, d.kind, some d.path⟩)) ∧
    (NamesCollection text ↔ ∀ d, told? text = some d → (∀ c, ¬LeadsInto d.path c) →
      d.document.bind (Object.get? · "collection") ≠ some (.str "")) := by
  refine ⟨fun e => decode_eq_event_iff, fun d c hd hpath => ?_, ?_⟩
  · have hne : d.path ≠ "" := by
      obtain ⟨id, hcut, hcollection, -, -⟩ := hpath
      intro hempty
      rw [hempty] at hcut
      have := congrArg String.toList hcut
      simp [hcollection] at this
    rw [(decode_of_told? hd).1 c (.path hpath), Delta.place, if_neg hne]
  · rw [namesCollection_iff]
    simp only [names_empty_iff, not_and]

/-- A document that calls its collection the empty text: the notice of its change has a collection
without a name. -/
theorem decode_empty_collection :
    let text := "\x7b\"type\":\"event\",\"payload\":\x7b\"delta\":\x7b\"type\":\"create\",\"document\":\x7b\"collection\":\"\"\x7d\x7d\x7d\x7d"
    decode text = .ok (.event ⟨"", .create, none⟩) ∧ ¬NamesCollection text := by
  intro text
  have hdecode : decode text = .ok (.event ⟨"", .create, none⟩) := by
    have h : (decode text).toOption = some (.event ⟨"", .create, none⟩) := by decide +kernel
    cases hd : decode text with
    | ok f =>
      rw [hd] at h
      exact congrArg _ (Option.some.inj h)
    | error e =>
      rw [hd] at h
      cases h
  exact ⟨hdecode, fun h => h.named _ hdecode rfl⟩

end Frame

end Replication
