import Replication.Proofs.Push.Pass
import Replication.Proofs.Replica.Checkpoints
import Replication.Proofs.Sync.Authority
import Replication.Pull.Pass

/-!
# A client and its server

Everything that may happen to one collection: other clients write on the server, this one writes
locally, resets its checkpoint, is opened again, pulls and pushes, while requests, local documents
and the tables fail at any time (`World.Reachable`).

What makes it come right in the end is a fact about each document (`World.Tracked`): the local copy
is what the server has, or the server's record is above the checkpoint and will be pulled, or a
mutation of the document waits and will be pushed. This module has the facts of a world, of which
that is one (`World.Consistent`), and shows that every event but a pass keeps them.
-/

namespace Replication

theorem Replica.Steady.persisted? {r r' : Replica} (h : r.Steady r') :
    r'.persisted? = r.persisted? := by
  funext c
  rw [Replica.persisted?, h.kept]
  rfl

/-- A client, its server, and the mutations that were written locally. -/
structure World where
  replica : Replica
  server : Authority
  written : List String := []

namespace World

/-- The rows of the outbox. -/
def rows (w : World) : Rows := w.replica.rows?.getD []

/-- The world at first: the client has nothing. -/
def initial (s : Authority) : World := { replica := ({} : Replica).opened {}, server := s }

/-- The world after a local write. -/
def write (w : World) (m : Mutation) : World :=
  { w with
    replica := ((Replica.writeLocally m).exec w.replica).2
    written := w.written ++ [m.id] }

/-- The world where from now on other accesses fail: attempts to write to the tables, writes to
local documents, and requests. -/
def disturbed (w : World) (locked : Nat → Bool) (refusal : Nat → String → String → Option String)
    (fetchFault : Nat → Option SyncError) (sendFault : Nat → Option (SyncError × Bool)) : World :=
  { w with
    replica := { w.replica with
      database := { w.replica.database with locked }
      documents := { w.replica.documents with refusal } }
    server := { w.server with fetchFault, sendFault } }

/-- A pull pass up to a number of requests, and the world afterwards. -/
def pull (w : World) (collection : String) (limit fuel : Nat) : PullPass × World :=
  let (p, r, s) :=
    PullPass.run Authority.remote fuel (w.replica.beginPull collection limit) w.replica w.server
  (p, { w with replica := r, server := s })

/-- A push pass up to a number of requests, and the world afterwards. -/
def push (w : World) (collection : String) (limit maxRetries fuel : Nat) : PushPass × World :=
  let (p, r) := (PushPass.begin collection limit maxRetries).settle w.replica
  let (p, r, s) := PushPass.run Authority.remote fuel p r w.server
  (p, { w with replica := r, server := s })

/-- The worlds of one collection. A local write is one that succeeds and has a fresh identifier. -/
inductive Reachable (collection : String) : World → Prop where
  | start {s : Authority} : s.WellKept → Reachable collection (initial s)
  | remoteWrite {w : World} (document : String) (body : Option Object) : Reachable collection w →
      Reachable collection { w with server := w.server.put document body }
  | localWrite {w : World} {m : Mutation} : Reachable collection w → m.collection = collection →
      m.retries ≤ Row.maxRetries → m.id ∉ w.written →
      ((Replica.writeLocally m).exec w.replica).1 = .ok () → Reachable collection (w.write m)
  | reset {w : World} : Reachable collection w →
      Reachable collection
        { w with replica := ((Replica.deleteCheckpoint collection).exec w.replica).2 }
  | restart {w : World} : Reachable collection w →
      Reachable collection { w with replica := w.replica.opened w.replica.database.tables }
  | pull {w : World} (limit fuel : Nat) : Reachable collection w →
      Reachable collection (w.pull collection limit fuel).2
  | push {w : World} (limit maxRetries fuel : Nat) : Reachable collection w →
      Reachable collection (w.push collection limit maxRetries fuel).2
  | trouble {w : World} (locked : Nat → Bool)
      (refusal : Nat → String → String → Option String) (fetchFault : Nat → Option SyncError)
      (sendFault : Nat → Option (SyncError × Bool)) : Reachable collection w →
      Reachable collection (w.disturbed locked refusal fetchFault sendFault)

/-- The server has a record of a document that is above the checkpoint. -/
def Ahead (collection : String) (w : World) (document : String) : Prop :=
  ∃ x ∈ w.server.records, x.document = document ∧
    ∀ q, w.replica.persisted? collection = some q → q < x.position

/-- What is missing of a document is still to come. -/
def Tracked (collection : String) (w : World) (document : String) : Prop :=
  w.replica.documents.get? collection document = w.server.live? document ∨
    w.Ahead collection document ∨ ∃ row ∈ w.rows, row.document = document

/-- What always holds of a world. -/
structure Consistent (collection : String) (w : World) : Prop where
  server : w.server.WellKept
  synced : w.replica.Synced
  opened : w.replica.database.closed = false
  outbox : w.replica.rows? = some w.rows
  table : w.replica.database.tables.checkpoints.isSome = true
  unique : w.rows.Unique
  pending : ∀ row ∈ w.rows,
    row.failed = false ∧ row.collection = collection ∧ Row.countable row.retries = true
  known : ∀ row ∈ w.rows, row.id ∈ w.written
  position : ∀ q, w.replica.persisted? collection = some q → ∃ v ≤ w.server.clock, q = .ofNat v
  tracked : ∀ document, w.Tracked collection document
  received : ∀ id ∈ w.written, id ∈ w.server.received ∨ id ∈ w.rows.map Row.id

section

variable {collection : String} {w : World}

theorem rows_of_eq {r : Replica} {rows : Rows} (h : r.rows? = some rows) (s : Authority)
    (l : List String) : World.rows ⟨r, s, l⟩ = rows := by
  rw [World.rows, h]
  rfl

theorem Consistent.start (collection : String) {s : Authority} (hs : s.WellKept) :
    Consistent collection (initial s) where
  server := hs
  synced := Replica.synced_opened _ _
  opened := rfl
  outbox := rfl
  table := rfl
  unique := List.nodup_nil
  pending _ h := by cases h
  known _ h := by cases h
  position _ h := by cases h
  received _ h := by cases h
  tracked d := by
    cases hf : s.records.find? (·.document == d) with
    | none =>
      have hlive : s.live? d = none := by rw [Authority.live?, hf, Option.bind_none]
      exact .inl hlive.symm
    | some x =>
      refine .inr (.inl ⟨x, List.mem_of_find?_eq_some hf, ?_, fun _ hq => by cases hq⟩)
      simpa using List.find?_some hf

theorem Ahead.steady {document : String} (h : Ahead collection w document) {r : Replica}
    (hr : w.replica.Steady r) : Ahead collection { w with replica := r } document := by
  obtain ⟨x, hx, hxd, hlt⟩ := h
  exact ⟨x, hx, hxd, fun q hq => hlt q (hr.persisted? ▸ hq)⟩

/-- What does not touch checkpoints keeps a world consistent if it is right about the rows and keeps
documents tracked. -/
theorem Consistent.steady (h : Consistent collection w) {r : Replica} {s : Authority}
    {written : List String} {rows : Rows} (hr : w.replica.Steady r) (hrows : r.rows? = some rows)
    (hs : s.WellKept) (hclock : w.server.clock ≤ s.clock) (hu : rows.Unique)
    (hpending : ∀ row ∈ rows,
      row.failed = false ∧ row.collection = collection ∧ Row.countable row.retries = true)
    (hknown : ∀ row ∈ rows, row.id ∈ written)
    (htracked : ∀ document, Tracked collection ⟨r, s, written⟩ document)
    (hreceived : ∀ id ∈ written, id ∈ s.received ∨ id ∈ rows.map Row.id) :
    Consistent collection ⟨r, s, written⟩ := by
  have hw := rows_of_eq hrows s written
  refine ⟨hs, fun c => ?_, hr.closed.trans h.opened, hw ▸ hrows, ?_, hw ▸ hu, hw ▸ hpending,
    hw ▸ hknown, fun q hq => ?_, htracked, hw ▸ hreceived⟩
  · rw [Replica.checkpoint?, hr.handed, hr.persisted?]
    exact h.synced c
  · rw [hr.kept]
    exact h.table
  · obtain ⟨v, hv, rfl⟩ := h.position q (hr.persisted? ▸ hq)
    exact ⟨v, Nat.le_trans hv hclock, rfl⟩

/-- A record with a new version is above the checkpoint. -/
theorem Consistent.ahead_of_lt (h : Consistent collection w) {s : Authority} {x : Revision}
    (hx : x ∈ s.records) (hlt : w.server.clock < x.version) :
    Ahead collection { w with server := s } x.document := by
  refine ⟨x, hx, rfl, fun q hq => ?_⟩
  obtain ⟨v, hv, rfl⟩ := h.position q hq
  exact Checkpoint.ofNat_lt_ofNat.2 (Nat.lt_of_le_of_lt hv hlt)

theorem Consistent.remoteWrite (h : Consistent collection w) (document : String)
    (body : Option Object) :
    Consistent collection { w with server := w.server.put document body } := by
  refine h.steady w.replica.alike_refl.toSteady h.outbox (h.server.put document body)
    (Nat.le_succ _) h.unique h.pending h.known (fun d => ?_) h.received
  by_cases hd : document = d
  · subst hd
    exact .inr (.inl (h.ahead_of_lt (Authority.mem_put.2 (.inr rfl)) (Nat.lt_succ_self _)))
  · rcases h.tracked d with hl | ⟨x, hx, hxd, hlt⟩ | hrow
    · exact .inl (hl.trans (w.server.live?_put_of_ne body hd).symm)
    · exact .inr (.inl ⟨x, Authority.mem_put.2 (.inl ⟨hx, hxd ▸ Ne.symm hd⟩), hxd, hlt⟩)
    · exact .inr (.inr hrow)

theorem Consistent.localWrite (h : Consistent collection w) {m : Mutation}
    (hc : m.collection = collection) (hn : m.retries ≤ Row.maxRetries) (hm : m.id ∉ w.written)
    (hok : ((Replica.writeLocally m).exec w.replica).1 = .ok ()) :
    Consistent collection (w.write m) := by
  obtain ⟨r, he⟩ : ∃ r, (Replica.writeLocally m).exec w.replica = (.ok (), r) :=
    ⟨_, Prod.ext hok rfl⟩
  have hwrite : w.write m = { w with replica := r, written := w.written ++ [m.id] } := by
    rw [write, he]
  have hnew : m.id ∉ w.rows.map Row.id := by
    intro hin
    obtain ⟨row, hrow, hid⟩ := List.mem_map.1 hin
    exact hm (hid ▸ h.known row hrow)
  obtain ⟨hr, hrows, hdocs⟩ := Replica.exec_writeLocally_ok he h.outbox hnew
  have hu := h.unique.insert (Row.ofMutation m)
  rw [Rows.insert_of_not_mem (Row.ofMutation m) hnew] at hu
  rw [hwrite]
  refine h.steady hr hrows h.server (Nat.le_refl _) hu ?_ ?_ (fun d => ?_) ?_
  · refine List.forall_mem_append.2 ⟨h.pending, List.forall_mem_singleton.2 ?_⟩
    exact ⟨rfl, hc, Row.countable_of_le hn⟩
  · refine List.forall_mem_append.2 ⟨fun row hrow => ?_, List.forall_mem_singleton.2 ?_⟩
    · exact List.mem_append_left _ (h.known row hrow)
    · exact List.mem_append_right _ (List.mem_singleton_self _)
  · have hw := rows_of_eq hrows w.server (w.written ++ [m.id])
    by_cases hd : d = m.document
    · exact .inr (.inr ⟨Row.ofMutation m, hw ▸ by simp, hd.symm⟩)
    · rcases h.tracked d with hl | ha | ⟨row, hrow, hrd⟩
      · exact .inl ((hdocs collection d hd).trans hl)
      · exact .inr (.inl (ha.steady hr))
      · exact .inr (.inr ⟨row, hw ▸ List.mem_append_left _ hrow, hrd⟩)
  · rw [List.map_append]
    refine List.forall_mem_append.2 ⟨fun id hid => ?_, List.forall_mem_singleton.2 (.inr ?_)⟩
    · exact (h.received id hid).imp_right (List.mem_append_left _)
    · exact List.mem_append_right _ (List.mem_singleton_self _)

theorem Consistent.reset (h : Consistent collection w) :
    Consistent collection
      { w with replica := ((Replica.deleteCheckpoint collection).exec w.replica).2 } := by
  rcases Replica.exec_deleteCheckpoint collection w.replica with
    ⟨e, n, m, he⟩ | ⟨t, n, m, ht, he⟩
  · rw [he]
    exact ⟨h.server, h.synced.written rfl n m, h.opened, h.outbox, h.table, h.unique, h.pending,
      h.known, h.position, h.tracked, h.received⟩
  · rw [he]
    have hk : (w.replica.forgotten collection t n m).persisted? collection = none := by simp
    refine ⟨h.server, h.synced.forgotten ht collection n m, h.opened, h.outbox, rfl, h.unique,
      h.pending, h.known, ?_, fun d => ?_, h.received⟩
    · intro q hq
      simp [hk] at hq
    · rcases h.tracked d with hl | ⟨x, hx, hxd, -⟩ | hrow
      · exact .inl hl
      · exact .inr (.inl ⟨x, hx, hxd, fun q hq => by simp [hk] at hq⟩)
      · exact .inr (.inr hrow)

theorem Consistent.restart (h : Consistent collection w) :
    Consistent collection { w with replica := w.replica.opened w.replica.database.tables } := by
  have hk : (w.replica.opened w.replica.database.tables).persisted? =
      w.replica.persisted? := by
    obtain ⟨t, ht⟩ := Option.isSome_iff_exists.1 h.table
    funext c
    simp [Replica.persisted?, Replica.opened, Database.restored, ht]
  refine ⟨h.server, Replica.synced_opened _ _, rfl, rfl, rfl, h.unique, h.pending, h.known, ?_,
    fun d => ?_, h.received⟩
  · intro q hq
    exact h.position q (hk ▸ hq)
  · rcases h.tracked d with hl | ⟨x, hx, hxd, hlt⟩ | hrow
    · exact .inl hl
    · exact .inr (.inl ⟨x, hx, hxd, fun q hq => hlt q (hk ▸ hq)⟩)
    · exact .inr (.inr hrow)

theorem Consistent.trouble (h : Consistent collection w) (locked : Nat → Bool)
    (refusal : Nat → String → String → Option String) (fetchFault : Nat → Option SyncError)
    (sendFault : Nat → Option (SyncError × Bool)) :
    Consistent collection (w.disturbed locked refusal fetchFault sendFault) :=
  ⟨⟨h.server.ordered, h.server.bounded, h.server.single⟩, h.synced, h.opened, h.outbox, h.table,
    h.unique, h.pending, h.known, h.position, h.tracked, h.received⟩

end

end World

end Replication
