import Replication.Proofs.Json.RoundTrip
import Replication.Proofs.Replica.Outbox

/-!
# Queued mutations that are read back

Queueing writes a mutation to a row, and its payload to a text. A payload may nest as deep as its
writer likes, and its text is read back up to a limit only.

1. A row that a mutation was written to reads as the mutation, or it fails if the payload is too
   deep (`Row.mutation_ofMutation`).
2. After any calls to queue mutations the outbox holds the first one of each identifier that a call
   returned for (`Replica.rows_queueAll`).
3. So a read of what waits gives the mutations as they were queued just if no payload among them is
   too deep; one that is makes the whole read fail (`Replica.pending_queued_iff`).
-/

namespace Replication

/-- Whether the payload of a mutation nests deeper than what may be read. -/
def Mutation.deep (m : Mutation) : Bool :=
  m.payload.any fun o => decide (Json.maxDepth < (Json.obj o).depth)

theorem Mutation.deep_eq_false_iff {m : Mutation} :
    m.deep = false ↔ ∀ o, m.payload = some o → (Json.obj o).depth ≤ Json.maxDepth := by
  unfold deep
  cases m.payload <;> simp

/-- A mutation that is written without loss: its payload is, and its count fits in 32 bits. -/
structure Mutation.Proper (m : Mutation) : Prop where
  payload : ∀ o, m.payload = some o → (Json.obj o).Proper
  retries : m.retries < Word.size 32

theorem Mutation.Proper.retries_le {m : Mutation} (h : m.Proper) : m.retries ≤ Row.maxRetries :=
  Nat.le_sub_one_of_lt h.retries

/-- The error of a payload that cannot be read. -/
def Mutation.corrupt (m : Mutation) : SyncError :=
  .internal ("Corrupt outbox payload for " ++ m.id ++ ": <detail>")

namespace Row

theorem payloadOf?_render_obj {o : Object} (h : (Json.obj o).Proper) :
    payloadOf? (Json.obj o).render =
      if (Json.obj o).depth ≤ Json.maxDepth then some o else none := by
  obtain ⟨t, ht, hv⟩ := h.exists_tree
  rw [payloadOf?_render, ht, Option.bind_some]
  split_ifs at hv ⊢
  · exact Json.Tree.object?_of_value? hv
  · exact Json.Tree.object?_eq_none hv

/-- A mutation is read back from its row, or its payload is too deep. -/
theorem mutation_ofMutation {m : Mutation} (h : m.Proper) :
    (ofMutation m).mutation = if m.deep = true then .error m.corrupt else .ok m := by
  have hcount : reported (m.retries : Int) = m.retries := by
    rw [reported, if_pos ⟨Int.natCast_nonneg _, Int.ofNat_le.2 h.retries_le⟩, Int.toNat_natCast]
  obtain ⟨id, collection, operation, document, payload, enqueuedAt, retries⟩ := m
  unfold mutation ofMutation
  dsimp only at hcount ⊢
  rw [Operation.ofName?_name, hcount]
  cases payload with
  | none => rfl
  | some o =>
    have ho := payloadOf?_render_obj (h.payload o rfl)
    dsimp only [Option.map_some]
    rw [ho, Mutation.deep, Option.any_some]
    by_cases hfit : (Json.obj o).depth ≤ Json.maxDepth
    · rw [if_pos hfit, if_neg (by simpa using hfit)]
      rfl
    · rw [if_neg hfit, if_pos (by simpa using hfit)]
      rfl

end Row

namespace Replica

/-! ## Reading a list of rows -/

/-- Rows that mutations were written to read as the mutations, or they fail with the first one whose
payload is too deep. -/
theorem decode_ofMutation {ms : List Mutation} (h : ∀ m ∈ ms, m.Proper) :
    decode Row.mutation (ms.map Row.ofMutation) =
      (ms.find? Mutation.deep).elim (.ok ms) fun m => .error m.corrupt := by
  have hcount : ((ms.map Row.ofMutation).all fun r => Row.countable r.retries) = true := by
    refine List.all_eq_true.2 fun r hr => ?_
    obtain ⟨m, hm, rfl⟩ := List.mem_map.1 hr
    exact Row.countable_of_le (h m hm).retries_le
  rw [decode, if_pos hcount]
  clear hcount
  induction ms with
  | nil => rfl
  | cons m ms ih =>
    have hm := Row.mutation_ofMutation (h m List.mem_cons_self)
    rw [List.map_cons, List.mapM_cons, hm, ih fun x hx => h x (List.mem_cons_of_mem m hx)]
    cases hdeep : m.deep with
    | true => rw [List.find?_cons_of_pos hdeep]; rfl
    | false =>
      rw [List.find?_cons_of_neg (by simp [hdeep])]
      cases ms.find? Mutation.deep <;> rfl

/-! ## Calls to queue mutations -/

/-- Calls to queue mutations one after the other: those that returned, and the replica after all of
them. -/
def queueAll : List Mutation → Replica → List Mutation × Replica
  | [], r => ([], r)
  | m :: ms, r =>
    match (enqueue m).exec r with
    | (.ok _, r) => (m :: (queueAll ms r).1, (queueAll ms r).2)
    | (.error _, r) => queueAll ms r

/-- The first mutation of each identifier but some. -/
def newOf : (known : List String) → List Mutation → List Mutation
  | _, [] => []
  | known, m :: ms =>
    if m.id ∈ known then newOf known ms else m :: newOf (known ++ [m.id]) ms

theorem newOf_sublist (known : List String) (ms : List Mutation) : (newOf known ms).Sublist ms := by
  induction ms generalizing known with
  | nil => exact .slnil
  | cons m ms ih =>
    rw [newOf]
    split
    · exact (ih known).cons m
    · exact (ih (known ++ [m.id])).cons_cons m

/-- The outbox keeps its rows, and has a new one for each new mutation that a call returned for. -/
theorem rows_queueAll (ms : List Mutation) {r : Replica} {rows : Rows} (h : r.rows? = some rows) :
    (queueAll ms r).1.Sublist ms ∧ r.Alike (queueAll ms r).2 ∧
      (queueAll ms r).2.rows? =
        some (rows ++ (newOf (rows.map Row.id) (queueAll ms r).1).map Row.ofMutation) := by
  induction ms generalizing r rows with
  | nil => exact ⟨.slnil, r.alike_refl, by simpa [queueAll, newOf] using h⟩
  | cons m ms ih =>
    obtain ⟨r', halike, ⟨he, hrows⟩ | ⟨he, hrows⟩⟩ := exec_enqueue m h
    · obtain ⟨hsub, hrest, hkept⟩ := ih hrows
      rw [queueAll, he]
      exact ⟨hsub.cons m, halike.trans hrest, hkept⟩
    · obtain ⟨hsub, hrest, hkept⟩ := ih hrows
      rw [queueAll, he]
      refine ⟨hsub.cons_cons m, halike.trans hrest, hkept.trans ?_⟩
      dsimp only
      rw [newOf]
      have hid : (Row.ofMutation m).id = m.id := rfl
      by_cases hm : m.id ∈ rows.map Row.id
      · rw [if_pos hm, Rows.insert_of_mem _ hm]
      · rw [if_neg hm, Rows.insert_of_not_mem _ hm, List.map_append, List.map_singleton, hid,
          List.map_cons, List.append_assoc, List.singleton_append]

/-! ## Reads of what waits -/

theorem pending_map_ofMutation (ms : List Mutation) (collection : String) :
    Rows.pending (ms.map Row.ofMutation) collection =
      (ms.filter fun m => m.collection == collection).map Row.ofMutation := by
  rw [Rows.pending, List.filter_map]
  congr 1
  refine List.filter_congr fun m _ => ?_
  simp [Row.pending, Row.ofMutation]

/-- What a read of what waits gives after calls to queue mutations. -/
theorem exec_pending_queueAll {r : Replica} (hopen : r.database.closed = false)
    (hempty : r.rows? = some []) (ms : List Mutation) (h : ∀ m ∈ ms, m.Proper)
    (collection : String) (limit : Nat) (entries : List Mutation)
    (hentries : entries =
      ((newOf [] (queueAll ms r).1).filter fun m => m.collection == collection).take limit) :
    (pending collection limit).exec (queueAll ms r).2 =
      ((entries.find? Mutation.deep).elim (.ok entries) fun m => .error m.corrupt,
        (queueAll ms r).2) := by
  obtain ⟨hsub, halike, hrows⟩ := rows_queueAll ms hempty
  have hproper : ∀ m ∈ entries, m.Proper := by
    intro m hm
    rw [hentries] at hm
    have hnew := (List.mem_filter.1 (List.mem_of_mem_take hm)).1
    exact h m (hsub.subset ((newOf_sublist [] _).subset hnew))
  rw [exec_pending (halike.closed.trans hopen) hrows, List.map_nil, List.nil_append,
    pending_map_ofMutation, ← List.map_take, ← hentries, decode_ofMutation hproper]

/-- Calls to queue mutations, on an empty outbox and whichever of them fail. The first mutation of
each identifier that a call returned for waits, and a read of those of a collection gives them as
they were queued if and only if no payload among them nests deeper than what may be read. The first
one that does makes the whole read fail. -/
theorem pending_queued_iff {r : Replica} (hopen : r.database.closed = false)
    (hempty : r.rows? = some []) (ms : List Mutation) (hproper : ∀ m ∈ ms, m.Proper)
    (collection : String) (limit : Nat) :
    let r' := (queueAll ms r).2
    let entries :=
      ((newOf [] (queueAll ms r).1).filter fun m => m.collection == collection).take limit
    ((pending collection limit).exec r' = (.ok entries, r') ↔
        ∀ m ∈ entries, ∀ o, m.payload = some o → (Json.obj o).depth ≤ Json.maxDepth) ∧
      ∀ m, entries.find? Mutation.deep = some m →
        (pending collection limit).exec r' = (.error m.corrupt, r') := by
  intro r' entries
  have hread := exec_pending_queueAll hopen hempty ms hproper collection limit entries rfl
  have hshallow : (∀ m ∈ entries, ∀ o, m.payload = some o → (Json.obj o).depth ≤ Json.maxDepth) ↔
      entries.find? Mutation.deep = none := by
    simp only [List.find?_eq_none, Bool.not_eq_true, Mutation.deep_eq_false_iff]
  refine ⟨?_, fun m hm => by rw [hread, hm]; rfl⟩
  rw [hshallow, hread]
  cases hfind : entries.find? Mutation.deep with
  | none => exact iff_of_true rfl rfl
  | some m => exact iff_of_false (fun h => by cases h) (fun h => by cases h)

/-- Two mutations are queued, one of them twice. -/
theorem two_read_back :
    let a : Mutation := ⟨"m1", "notes", .create, "x", some [("n", .arr [.num (.int 1)])], 5, 0⟩
    let b : Mutation := ⟨"m2", "notes", .delete, "x", none, 6, 0⟩
    let out := queueAll [a, b, a] {}
    out.1 = [a, b, a] ∧ (pending "notes" 10).exec out.2 = (.ok [a, b], out.2) := by
  intro a b out
  have ha : a.Proper := by
    refine ⟨fun o ho => ?_, by decide⟩
    obtain rfl := Option.some.inj ho
    refine .obj (List.pairwise_singleton _ _) (List.forall_mem_singleton.2 (.arr ?_))
    exact List.forall_mem_singleton.2 (.int (by decide) (by decide))
  have hb : b.Proper := ⟨fun o ho => (by cases ho), by decide⟩
  have hproper : ∀ m ∈ [a, b, a], m.Proper := by simp [ha, hb]
  have hshallow : ∀ m ∈ [a, b], ∀ o, m.payload = some o → (Json.obj o).depth ≤ Json.maxDepth := by
    simp only [← Mutation.deep_eq_false_iff]
    decide
  exact ⟨rfl, (pending_queued_iff (r := {}) rfl rfl [a, b, a] hproper "notes" 10).1.2 hshallow⟩

/-- A deletion and a payload of 127 lists in an object are queued. Neither can be read: the payload
is too deep, and its row makes the whole read fail. -/
theorem deep_hides_others :
    let shallow : Mutation := ⟨"m1", "notes", .delete, "a", none, 0, 0⟩
    let lists : Json := Nat.iterate (fun v => .arr [v]) 127 .null
    let deep : Mutation := ⟨"m2", "notes", .create, "b", some [("outline", lists)], 0, 0⟩
    let out := queueAll [shallow, deep] {}
    out.1 = [shallow, deep] ∧
      out.2.rows? = some [Row.ofMutation shallow, Row.ofMutation deep] ∧
      (pending "notes" 10).exec out.2 =
        (.error (.internal "Corrupt outbox payload for m2: <detail>"), out.2) := by
  intro shallow lists deep out
  have hlists : ∀ n, Json.Proper (Nat.iterate (fun v => .arr [v]) n .null) ∧
      Json.depth (Nat.iterate (fun v => .arr [v]) n .null) = n := by
    intro n
    induction n with
    | zero => exact ⟨.null, rfl⟩
    | succ n ih =>
      rw [Function.iterate_succ_apply']
      refine ⟨.arr (List.forall_mem_singleton.2 ih.1), ?_⟩
      rw [Json.depth, Json.depthOfItems, ih.2, Json.depthOfItems]
      omega
  have hshallow : shallow.Proper := ⟨fun o ho => (by cases ho), by decide⟩
  have hdeep : deep.Proper := by
    refine ⟨fun o ho => ?_, by decide⟩
    obtain rfl := Option.some.inj ho
    exact .obj (List.pairwise_singleton _ _) (List.forall_mem_singleton.2 (hlists 127).1)
  have hfind : [shallow, deep].find? Mutation.deep = some deep := by
    have hdepth : (Json.obj [("outline", lists)]).depth = 128 := by
      rw [Json.depth, Json.depthOfEntries, (hlists 127).2]
      rfl
    have htoo : deep.deep = true := Bool.eq_true_of_not_eq_false fun hfit => by
      have hle := Mutation.deep_eq_false_iff.1 hfit _ rfl
      rw [hdepth] at hle
      exact absurd hle (by decide)
    rw [List.find?_cons_of_neg (by decide), List.find?_cons_of_pos htoo]
  have hread := exec_pending_queueAll (r := {}) rfl rfl [shallow, deep]
    (by simp [hshallow, hdeep]) "notes" 10 [shallow, deep] rfl
  rw [hfind] at hread
  exact ⟨rfl, rfl, hread⟩

end Replica

end Replication
