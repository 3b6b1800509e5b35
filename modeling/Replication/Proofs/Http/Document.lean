import Replication.Http.Document

/-!
# Documents that are sent and read back

The document that is pushed for a mutation is its body under its identifier on the wire, as one flat
object. A server may send it back as it came, in a conflict or in the feed, and then it is read as a
change of the collection that it was pushed for.

The identifier comes back whatever it holds, since just what was put in front of it is taken off
(`Document.localId_wireId`). The members of the body come back as they were, the position among
them, except for the two that say what a document is and not what it holds: `id` is replaced on the
way out, and `deleted` is taken off on the way in, where it can make a tombstone of the document
(`Document.Echoes`). So a mutation comes back whole just when its body has neither, and a position
if one is required (`Document.sent_and_read_back`).
-/

namespace Replication

namespace Object

theorem erase_insert (o : Object) (key : String) (v : Json) :
    (insert key v o).erase key = o.erase key := by
  induction o with
  | nil => simp [insert, erase]
  | cons e o ih =>
    obtain ⟨k, w⟩ := e
    unfold insert
    split
    · next h =>
      subst h
      simp [erase]
    · split
      · simp [erase]
      · unfold erase at ih ⊢
        rw [List.filter_cons, List.filter_cons, ih]

theorem erase_eq_self {o : Object} {key : String} (h : o.get? key = none) : o.erase key = o := by
  unfold erase
  rw [List.filter_eq_self]
  intro e he
  have hne : key ≠ e.1 := by simpa using List.lookup_eq_none_iff.1 h e he
  simpa using hne.symm

/-- Nothing is lost with two keys just if neither is there. -/
theorem erase_erase_eq_self_iff {o : Object} {key other : String} :
    (o.erase key).erase other = o ↔ o.get? key = none ∧ o.get? other = none := by
  constructor
  · intro h
    rw [← h]
    simp
  · rintro ⟨hkey, hother⟩
    rw [erase_eq_self hkey, erase_eq_self hother]

end Object

namespace Document

/-! ## Identifiers -/

theorem wireId_ne_empty (collection document : String) : wireId collection document ≠ "" := by
  intro h
  have := congrArg String.toList h
  simp [wireId] at this

/-- The identifier within the collection is what the collection was put in front of, also where it
has slashes or begins like the collection. -/
theorem localId_wireId (collection document : String) :
    localId collection (wireId collection document) = document := by
  have hwire : (wireId collection document).toList =
      (collection.toList ++ ['/']) ++ document.toList := by
    rw [wireId, String.toList_append, String.toList_append]
    rfl
  unfold localId
  dsimp only
  rw [hwire, if_pos (List.isPrefixOf_iff_prefix.2 (List.prefix_append _ _)), List.drop_left,
    String.ofList_toList]

/-! ## Positions -/

theorem positionIn?_erase {document : Object} {field key : String} (h : field ≠ key) :
    positionIn? (document.erase key) field = positionIn? document field := by
  unfold positionIn?
  rw [Object.get?_erase, if_neg h]

/-- The identifier says nothing about the position. -/
theorem position?_erase_idField (document : Object) :
    position? (document.erase idField) = position? document := by
  unfold position?
  rw [positionIn?_erase (by decide), positionIn?_erase (by decide)]

/-! ## The way out -/

/-- The body of a mutation, empty if it has none. -/
abbrev body (m : Mutation) : Object := m.payload.getD []

variable {m : Mutation} {positioned : Bool} {c : Change}

theorem get?_ofMutation (m : Mutation) (key : String) :
    (ofMutation m).get? key =
      if key = idField then some (.str (wireId m.collection m.document)) else (body m).get? key :=
  Object.get?_insert _ _ _ _

theorem id_ofMutation (m : Mutation) :
    (ofMutation m).get? idField = some (.str (wireId m.collection m.document)) := by
  rw [get?_ofMutation, if_pos rfl]

theorem erase_ofMutation (m : Mutation) : (ofMutation m).erase idField = (body m).erase idField :=
  Object.erase_insert _ _ _

/-- The position that the body names goes with the document. -/
theorem position?_ofMutation (m : Mutation) : position? (ofMutation m) = position? (body m) := by
  rw [← position?_erase_idField, erase_ofMutation, position?_erase_idField]

/-! ## The way in -/

/-- A document says that it is a tombstone. -/
def Buried (document : Object) : Prop := document.get? deletedField = some (.bool true)

/-- A change is what a document with an identifier says. -/
structure Says (document : Object) (collection id : String) (c : Change) : Prop where
  document_eq : c.document = localId collection id
  collection_eq : c.collection = collection
  fields_eq : c.fields = (document.erase idField).erase deletedField
  deleted_iff : c.deleted = true ↔ Buried document
  checkpoint_eq : c.checkpoint = (position? document).getD origin

section

variable {collection id : String} {document : Object}

/-- A document with an identifier is refused where a position is required and it has none. -/
theorem toChange_of_unplaced (hid : document.get? idField = some (.str id)) (hne : id ≠ "")
    (hnone : position? document = none) :
    toChange collection true document = .error (.protocol
      ("Document '" ++ id ++ "' has neither " ++ updatedField ++ " nor " ++ versionField)) := by
  have hempty : id.isEmpty = false := by simpa using hne
  unfold toChange
  simp only [hid, hempty, position?_erase_idField, hnone, bind, Except.bind]
  rfl

/-- It is read otherwise, as what it says. -/
theorem exists_toChange (hid : document.get? idField = some (.str id)) (hne : id ≠ "")
    (hsome : positioned = true → position? document ≠ none) :
    ∃ c, toChange collection positioned document = .ok c ∧ Says document collection id c := by
  have hempty : id.isEmpty = false := by simpa using hne
  have hdeleted : (document.erase idField).get? deletedField = document.get? deletedField := by
    rw [Object.get?_erase, if_neg (by decide)]
  unfold toChange
  simp only [hid, hempty, position?_erase_idField, hdeleted, bind, Except.bind, pure, Except.pure]
  cases hposition : position? document
  case' none => rw [Bool.eq_false_iff.2 fun h => hsome h hposition]
  all_goals
    refine ⟨_, rfl, rfl, rfl, rfl, ?_, by rw [hposition]; rfl⟩
    unfold Buried
    dsimp only
    split
    · next h => simp [h]
    · next h => exact iff_of_false (by simp) h

end

/-- A change is what a mutation says, with the reserved fields of its body taken for what they
mean. -/
structure Echoes (m : Mutation) (c : Change) : Prop where
  document_eq : c.document = m.document
  collection_eq : c.collection = m.collection
  fields_eq : c.fields = ((body m).erase idField).erase deletedField
  deleted_iff : c.deleted = true ↔ Buried (body m)
  checkpoint_eq : c.checkpoint = (position? (body m)).getD origin

/-- A change is what a mutation says: its document, with the fields of its body. -/
structure Restores (m : Mutation) (c : Change) : Prop where
  document_eq : c.document = m.document
  collection_eq : c.collection = m.collection
  fields_eq : c.fields = body m
  alive : c.deleted = false

theorem Says.echoes (h : Says (ofMutation m) m.collection (wireId m.collection m.document) c) :
    Echoes m c where
  document_eq := h.document_eq.trans (localId_wireId _ _)
  collection_eq := h.collection_eq
  fields_eq := by rw [h.fields_eq, erase_ofMutation]
  deleted_iff := by
    rw [h.deleted_iff, Buried, get?_ofMutation, if_neg (by decide)]
    rfl
  checkpoint_eq := by rw [h.checkpoint_eq, position?_ofMutation]

theorem Echoes.restores_iff (h : Echoes m c) :
    Restores m c ↔ (body m).get? idField = none ∧ (body m).get? deletedField = none := by
  rw [← Object.erase_erase_eq_self_iff, ← h.fields_eq]
  constructor
  · exact Restores.fields_eq
  · intro hfields
    refine ⟨h.document_eq, h.collection_eq, hfields, Bool.eq_false_iff.2 fun hdeleted => ?_⟩
    -- A tombstone has lost the field that says so.
    have hburied : (body m).get? deletedField = some (.bool true) := h.deleted_iff.1 hdeleted
    rw [← hfields, h.fields_eq] at hburied
    simp at hburied

theorem toChange_ofMutation_of_unplaced (hnone : position? (body m) = none) :
    toChange m.collection true (ofMutation m) = .error (.protocol
      ("Document '" ++ wireId m.collection m.document ++ "' has neither " ++ updatedField ++
        " nor " ++ versionField)) :=
  toChange_of_unplaced (id_ofMutation m) (wireId_ne_empty _ _)
    ((position?_ofMutation m).trans hnone)

theorem exists_toChange_ofMutation (hsome : positioned = true → position? (body m) ≠ none) :
    ∃ c, toChange m.collection positioned (ofMutation m) = .ok c ∧ Echoes m c := by
  rw [← position?_ofMutation] at hsome
  obtain ⟨c, hc, hsays⟩ : ∃ c, toChange m.collection positioned (ofMutation m) = .ok c ∧
      Says (ofMutation m) m.collection (wireId m.collection m.document) c :=
    exists_toChange (id_ofMutation m) (wireId_ne_empty _ _) hsome
  exact ⟨c, hc, hsays.echoes⟩

/-- The document of a mutation comes back whole. -/
def ComesBack (positioned : Bool) (m : Mutation) : Prop :=
  ∃ c, toChange m.collection positioned (ofMutation m) = .ok c ∧ Restores m c

theorem comesBack_iff :
    ComesBack positioned m ↔
      (body m).get? idField = none ∧ (body m).get? deletedField = none ∧
        (positioned = true → position? (body m) ≠ none) := by
  by_cases hsome : positioned = true → position? (body m) ≠ none
  · obtain ⟨c, hc, hechoes⟩ := exists_toChange_ofMutation hsome
    have honly : ComesBack positioned m ↔ Restores m c := by
      constructor
      · rintro ⟨c', hc', h⟩
        rw [hc] at hc'
        exact Except.ok.inj hc' ▸ h
      · exact fun h => ⟨c, hc, h⟩
    rw [honly, hechoes.restores_iff]
    exact ⟨fun h => ⟨h.1, h.2, hsome⟩, fun h => ⟨h.1, h.2.1⟩⟩
  · obtain ⟨rfl, hnone⟩ : positioned = true ∧ position? (body m) = none := by simpa using hsome
    refine iff_of_false ?_ fun h => hsome h.2.2
    rintro ⟨c, hc, -⟩
    rw [toChange_ofMutation_of_unplaced hnone] at hc
    cases hc

/-- What becomes of the document of a mutation that is read as a change of its collection. Where no
position is required or its body has one, there is a change, of the collection and the identifier of
the mutation and with the fields of its body but for the two reserved ones, and it is a tombstone
just if the body says so. Where a position is required and the body has none, it is refused. So the
mutation comes back whole just if its body has neither reserved field, and a position if one is
required. -/
theorem sent_and_read_back (m : Mutation) (positioned : Bool) :
    ((positioned = true → position? (body m) ≠ none) →
      ∃ c, toChange m.collection positioned (ofMutation m) = .ok c ∧ Echoes m c) ∧
    (positioned = true → position? (body m) = none →
      toChange m.collection positioned (ofMutation m) = .error (.protocol
        ("Document '" ++ wireId m.collection m.document ++ "' has neither " ++ updatedField ++
          " nor " ++ versionField))) ∧
    (ComesBack positioned m ↔
      (body m).get? idField = none ∧ (body m).get? deletedField = none ∧
        (positioned = true → position? (body m) ≠ none)) := by
  refine ⟨exists_toChange_ofMutation, ?_, comesBack_iff⟩
  rintro rfl hnone
  exact toChange_ofMutation_of_unplaced hnone

/-- A field of a body that says that the document is deleted makes a tombstone of it, and one that
calls itself the identifier is lost; and a body without a position does not come back where one is
required. -/
theorem reserved_fields_lost :
    let update (payload : Object) : Mutation := ⟨"m1", "users", .update, "a", some payload, 0, 0⟩
    let n : String × Json := ("n", .num (.int 1))
    toChange "users" false (ofMutation (update [("deleted", .bool true), n])) =
        .ok ⟨"a", "users", [n], true, origin⟩ ∧
      toChange "users" false (ofMutation (update [("id", .str "b"), n])) =
        .ok ⟨"a", "users", [n], false, origin⟩ ∧
      ¬ComesBack false (update [("deleted", .bool true), n]) ∧
      ¬ComesBack false (update [("id", .str "b"), n]) ∧
      ¬ComesBack true (update [n]) := by
  refine ⟨rfl, rfl, ?_, ?_, ?_⟩
  · rw [comesBack_iff]
    rintro ⟨-, h, -⟩
    cases h
  · rw [comesBack_iff]
    rintro ⟨h, -, -⟩
    cases h
  · rw [comesBack_iff]
    rintro ⟨-, -, h⟩
    exact h rfl rfl

end Document

end Replication
