import Mathlib.Data.List.Nodup
import Replication.Proofs.Checkpoint.Number
import Replication.Proofs.Pull.Page
import Replication.Proofs.Push.Batch
import Replication.Remote

/-!
# A server with versions

The server that replication is made for: it keeps one record of each document, tombstones included,
and every write gives its record the next version of one clock. A fetch gives the records above a
position in the order of their versions; a push is applied and taken as a whole, or it fails, before
or after it was applied.
-/

namespace Replication

/-- What a mutation leaves of its document: nothing if it deletes it. -/
def Mutation.body (m : Mutation) : Option Object :=
  match m.operation with
  | .delete => none
  | .create | .update => some (m.payload.getD [])

/-- What the server keeps of a document; a tombstone has no body. -/
structure Revision where
  document : String
  body : Option Object
  version : Nat

/-- The position of a record. -/
def Revision.position (x : Revision) : Checkpoint := .ofNat x.version

/-- A record as a change of its collection. -/
def Revision.change (x : Revision) (collection : String) : Change :=
  ⟨x.document, collection, x.body.getD [], x.body.isNone, x.position⟩

/-- The server: its records in the order of their versions, its clock, the mutations that it
applied, the requests so far, and which of them fail. A failed push says whether it was applied. -/
structure Authority where
  records : List Revision := []
  clock : Nat := 0
  received : List String := []
  fetches : Nat := 0
  sends : Nat := 0
  fetchFault : Nat → Option SyncError := fun _ => none
  sendFault : Nat → Option (SyncError × Bool) := fun _ => none

namespace Authority

/-- The body that the server has of a document; none if there is no record or a tombstone. -/
def live? (s : Authority) (document : String) : Option Object :=
  (s.records.find? (·.document == document)).bind Revision.body

/-- Writes a document. -/
def put (s : Authority) (document : String) (body : Option Object) : Authority :=
  { s with
    records := s.records.filter (·.document ≠ document) ++ [⟨document, body, s.clock + 1⟩]
    clock := s.clock + 1 }

/-- Applies a mutation. -/
def take (s : Authority) (m : Mutation) : Authority :=
  { s.put m.document m.body with received := s.received ++ [m.id] }

/-- Applies mutations in their order. -/
def takeAll (s : Authority) (ms : List Mutation) : Authority := ms.foldl take s

/-- The records above a position. -/
def above (s : Authority) (position : Option Checkpoint) : List Revision :=
  s.records.filter fun x => position.all x.position.isAfter

/-- The page of a number of records above a position. -/
def page (s : Authority) (collection : String) (position : Option Checkpoint) (limit : Nat) :
    Page :=
  let xs := (s.above position).take limit
  ⟨xs.map (·.change collection), xs.getLast?.map Revision.position⟩

/-- What a fetch answers. -/
def fetched (s : Authority) (collection : String) (position : Option Checkpoint) (limit : Nat) :
    Except SyncError Page :=
  match s.fetchFault s.fetches with
  | some e => .error e
  | none => .ok (s.page collection position limit)

/-- What a push answers, and the server afterwards. -/
def pushed (s : Authority) (ms : List Mutation) : Except SyncError PushAnswer × Authority :=
  let counted := { s with sends := s.sends + 1 }
  match s.sendFault s.sends with
  | some (e, applied) => (.error e, if applied then counted.takeAll ms else counted)
  | none => (.ok (.all ms), counted.takeAll ms)

/-- The server as the client meets it. -/
def remote : Remote Authority where
  fetch collection position limit s :=
    (s.fetched collection position limit, { s with fetches := s.fetches + 1 })
  send _ ms s := s.pushed ms

/-- What always holds of the server: versions ascend up to the clock, and no document has two
records. -/
structure WellKept (s : Authority) : Prop where
  ordered : (s.records.map Revision.version).Pairwise (· < ·)
  bounded : ∀ x ∈ s.records, x.version ≤ s.clock
  single : (s.records.map Revision.document).Nodup

/-! ## Writes -/

theorem mem_put {s : Authority} {document : String} {body : Option Object} {x : Revision} :
    x ∈ (s.put document body).records ↔
      (x ∈ s.records ∧ x.document ≠ document) ∨ x = ⟨document, body, s.clock + 1⟩ := by
  simp [put]

theorem WellKept.put {s : Authority} (h : s.WellKept) (document : String) (body : Option Object) :
    (s.put document body).WellKept where
  ordered := by
    simp only [Authority.put, List.map_append, List.map_cons, List.map_nil, List.pairwise_append]
    refine ⟨h.ordered.sublist (List.filter_sublist.map _), List.pairwise_singleton _ _, ?_⟩
    intro v hv w hw
    obtain ⟨x, hx, rfl⟩ := List.mem_map.1 hv
    rw [List.mem_singleton.1 hw]
    exact Nat.lt_succ_of_le (h.bounded x (List.mem_filter.1 hx).1)
  bounded x hx := by
    rcases mem_put.1 hx with ⟨hx, -⟩ | rfl
    · exact Nat.le_succ_of_le (h.bounded x hx)
    · exact Nat.le_refl _
  single := by
    simp only [Authority.put, List.map_append, List.map_cons, List.map_nil, List.nodup_append]
    refine ⟨(List.filter_sublist.map _).nodup h.single, by simp, ?_⟩
    intro d hd d' hd'
    obtain ⟨x, hx, rfl⟩ := List.mem_map.1 hd
    rw [List.mem_singleton.1 hd']
    simpa using (List.mem_filter.1 hx).2

theorem WellKept.eq {s : Authority} (h : s.WellKept) {x y : Revision} (hx : x ∈ s.records)
    (hy : y ∈ s.records) (hd : x.document = y.document) : x = y :=
  List.inj_on_of_nodup_map h.single hx hy hd

theorem WellKept.live? {s : Authority} (h : s.WellKept) {x : Revision} (hx : x ∈ s.records) :
    s.live? x.document = x.body := by
  cases hf : s.records.find? (·.document == x.document) with
  | none => simpa using List.find?_eq_none.1 hf x hx
  | some y =>
    have hy := List.find?_some hf
    rw [Authority.live?, hf, Option.bind_some,
      h.eq (List.mem_of_find?_eq_some hf) hx (by simpa using hy)]

theorem live?_put_of_ne (s : Authority) {document other : String} (body : Option Object)
    (hne : document ≠ other) : (s.put document body).live? other = s.live? other := by
  have hf : List.find? (·.document == other) (s.records.filter (·.document ≠ document)) =
      s.records.find? (·.document == other) := by
    rw [List.find?_filter]
    congr 1
    funext x
    rw [Bool.eq_iff_iff]
    simp only [decide_eq_true_eq, beq_iff_eq, ne_eq, and_iff_right_iff_imp]
    rintro rfl
    exact hne.symm
  unfold Authority.live? Authority.put
  dsimp only
  rw [List.find?_append, hf]
  simp [hne]

theorem live?_put_self (s : Authority) (document : String) (body : Option Object) :
    (s.put document body).live? document = body := by
  have hf : List.find? (·.document == document) (s.records.filter (·.document ≠ document)) =
      none := by
    refine List.find?_eq_none.2 fun x hx => ?_
    simpa using (List.mem_filter.1 hx).2
  unfold Authority.live? Authority.put
  dsimp only
  rw [List.find?_append, hf]
  simp

section takeAll

variable {s : Authority}

theorem WellKept.takeAll (h : s.WellKept) (ms : List Mutation) : (s.takeAll ms).WellKept := by
  induction ms generalizing s with
  | nil => exact h
  | cons m ms ih => exact ih ⟨(h.put _ _).ordered, (h.put _ _).bounded, (h.put _ _).single⟩

theorem clock_le_takeAll (s : Authority) (ms : List Mutation) : s.clock ≤ (s.takeAll ms).clock := by
  induction ms generalizing s with
  | nil => exact Nat.le_refl _
  | cons m ms ih => exact Nat.le_trans (Nat.le_succ _) (ih (s.take m))

theorem received_takeAll (s : Authority) (ms : List Mutation) :
    (s.takeAll ms).received = s.received ++ ms.map Mutation.id := by
  induction ms generalizing s with
  | nil => simp [Authority.takeAll]
  | cons m ms ih =>
    have := ih (s.take m)
    rw [Authority.takeAll, List.foldl_cons, ← Authority.takeAll, this]
    simp [take, Authority.put]

theorem faults_takeAll (s : Authority) (ms : List Mutation) :
    (s.takeAll ms).fetchFault = s.fetchFault ∧ (s.takeAll ms).sendFault = s.sendFault := by
  induction ms generalizing s with
  | nil => exact ⟨rfl, rfl⟩
  | cons m ms ih => exact ih (s.take m)

/-- Documents that no mutation is about keep their records. -/
theorem mem_takeAll_of_not_mem {ms : List Mutation} {x : Revision}
    (hx : x ∈ s.records) (hd : x.document ∉ ms.map Mutation.document) :
    x ∈ (s.takeAll ms).records := by
  induction ms generalizing s with
  | nil => exact hx
  | cons m ms ih =>
    rw [List.map_cons, List.mem_cons, not_or] at hd
    exact ih (mem_put.2 (.inl ⟨hx, hd.1⟩)) hd.2

theorem live?_takeAll_of_not_mem (s : Authority) {ms : List Mutation} {document : String}
    (hd : document ∉ ms.map Mutation.document) :
    (s.takeAll ms).live? document = s.live? document := by
  induction ms generalizing s with
  | nil => rfl
  | cons m ms ih =>
    rw [List.map_cons, List.mem_cons, not_or] at hd
    have := ih (s.take m) hd.2
    rw [Authority.takeAll, List.foldl_cons, ← Authority.takeAll, this]
    exact live?_put_of_ne s m.body (Ne.symm hd.1)

/-- Documents that a mutation is about get records above the clock. -/
theorem exists_of_mem_takeAll {ms : List Mutation} {document : String}
    (hd : document ∈ ms.map Mutation.document) :
    ∃ x ∈ (s.takeAll ms).records, x.document = document ∧ s.clock < x.version := by
  induction ms generalizing s with
  | nil => cases hd
  | cons m ms ih =>
    by_cases hms : document ∈ ms.map Mutation.document
    · obtain ⟨x, hx, hxd, hv⟩ := ih (s := s.take m) hms
      exact ⟨x, hx, hxd, Nat.lt_of_succ_lt hv⟩
    · obtain rfl : document = m.document := by simpa [hms] using hd
      refine ⟨⟨m.document, m.body, s.clock + 1⟩, ?_, rfl, Nat.lt_succ_self _⟩
      exact mem_takeAll_of_not_mem (s := s.take m) (mem_put.2 (.inr rfl)) hms

end takeAll

/-! ## Pages -/

theorem mem_above {s : Authority} {position : Option Checkpoint} {x : Revision} :
    x ∈ s.above position ↔ x ∈ s.records ∧ ∀ q, position = some q → q < x.position := by
  unfold above
  cases position <;> simp

theorem WellKept.pairwise_above {s : Authority} (h : s.WellKept) (position : Option Checkpoint) :
    ((s.above position).map Revision.version).Pairwise (· < ·) :=
  h.ordered.sublist (List.filter_sublist.map _)

/-- A page holds, with a record, all that were above the position before it. -/
theorem WellKept.mem_take {s : Authority} (h : s.WellKept) {position : Option Checkpoint}
    {limit : Nat} {x y : Revision} (hx : x ∈ s.above position)
    (hy : y ∈ (s.above position).take limit) (hle : x.version ≤ y.version) :
    x ∈ (s.above position).take limit := by
  have hp := h.pairwise_above position
  rw [← List.take_append_drop limit (s.above position), List.map_append,
    List.pairwise_append] at hp
  rw [← List.take_append_drop limit (s.above position), List.mem_append] at hx
  rcases hx with hx | hx
  · exact hx
  · have := hp.2.2 _ (List.mem_map_of_mem hy) _ (List.mem_map_of_mem hx)
    omega

theorem WellKept.valid_page {s : Authority} (h : s.WellKept) (collection : String)
    (position : Option Checkpoint) (limit : Nat) :
    (s.page collection position limit).Valid collection position where
  own c hc := by
    obtain ⟨x, -, rfl⟩ := List.mem_map.1 hc
    rfl
  newer c hc q hq := by
    obtain ⟨x, hx, rfl⟩ := List.mem_map.1 hc
    exact (mem_above.1 (List.mem_of_mem_take hx)).2 q hq
  ordered := by
    have hp := (h.pairwise_above position).sublist ((List.take_sublist limit _).map _)
    rw [List.pairwise_map] at hp
    simp only [page, List.map_map, List.pairwise_map]
    refine hp.imp fun hlt => ?_
    exact Checkpoint.ofNat_le_ofNat.2 (Nat.le_of_lt hlt)
  ahead n hn c hc := by
    obtain ⟨x, hx, rfl⟩ := List.mem_map.1 hc
    obtain ⟨y, hy, rfl⟩ := Option.map_eq_some_iff.1 hn
    refine Checkpoint.ofNat_le_ofNat.2 ?_
    have hp := (h.pairwise_above position).sublist ((List.take_sublist limit _).map _)
    obtain ⟨xs, hxs⟩ := List.getLast?_eq_some_iff.1 hy
    rw [hxs, List.map_append, List.pairwise_append] at hp
    rw [hxs, List.mem_append, List.mem_singleton] at hx
    rcases hx with hx | rfl
    · exact Nat.le_of_lt (hp.2.2 _ (List.mem_map_of_mem hx) _ (by simp))
    · exact Nat.le_refl _

end Authority

end Replication
