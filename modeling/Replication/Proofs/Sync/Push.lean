import Replication.Proofs.Sync.World

/-!
# Pushes in a world

A push pass leaves every document tracked, wherever it ends: a mutation leaves the outbox only after
the server applied it, which puts the record of its document above the checkpoint
(`World.Consistent.push`). A row whose mutation cannot be read is never sent, and stays.
-/

namespace Replication

/-- The mutations of a request, if one is under way, are those of rows. -/
def PushPass.Backed (p : PushPass) (rows : Rows) : Prop :=
  ∀ batch, p.request? = some batch → ∀ m ∈ batch, ∃ row ∈ rows, row.mutation = .ok m

namespace World

section

variable {collection : String} {w : World}

/-- Whatever touches no row, no checkpoint and no document keeps what holds of a world. -/
theorem Consistent.alike (h : w.Consistent collection) {r : Replica} (hr : w.replica.Alike r)
    (hrows : r.rows? = some w.rows) : Consistent collection { w with replica := r } := by
  have hw := rows_of_eq hrows w.server w.written
  refine h.steady hr.toSteady hrows h.server (Nat.le_refl _) h.unique h.pending h.known
    (fun d => ?_) h.received
  rcases h.tracked d with hl | ha | hrow
  · exact .inl (hr.documents ▸ hl)
  · exact .inr (.inl (ha.steady hr.toSteady))
  · exact .inr (.inr (hw ▸ hrow))

/-- A document that the server wrote is above the checkpoint. -/
theorem Consistent.ahead_takeAll (h : w.Consistent collection) {ms : List Mutation}
    {document : String} (hd : document ∈ ms.map Mutation.document) :
    Ahead collection { w with server := w.server.takeAll ms } document := by
  obtain ⟨x, hx, rfl, hlt⟩ := Authority.exists_of_mem_takeAll (s := w.server) hd
  exact h.ahead_of_lt hx hlt

/-- The server may apply any mutations, whether or not the client hears of it. -/
theorem Consistent.takeAll (h : w.Consistent collection) (ms : List Mutation) :
    Consistent collection { w with server := w.server.takeAll ms } := by
  refine h.steady w.replica.alike_refl.toSteady h.outbox (h.server.takeAll ms)
    (w.server.clock_le_takeAll ms) h.unique h.pending h.known (fun d => ?_) fun id hid => ?_
  · by_cases hd : d ∈ ms.map Mutation.document
    · exact .inr (.inl (h.ahead_takeAll hd))
    · rcases h.tracked d with hl | ⟨x, hx, hxd, hlt⟩ | hrow
      · exact .inl (hl.trans (w.server.live?_takeAll_of_not_mem hd).symm)
      · exact .inr (.inl ⟨x, Authority.mem_takeAll_of_not_mem hx (hxd ▸ hd), hxd, hlt⟩)
      · exact .inr (.inr hrow)
  · rw [Authority.received_takeAll]
    exact (h.received id hid).imp_left (List.mem_append_left _)

/-- Nor does it matter how many requests the server counted. -/
theorem Consistent.counted (h : w.Consistent collection) (n : Nat) :
    Consistent collection { w with server := { w.server with sends := n } } :=
  ⟨⟨h.server.ordered, h.server.bounded, h.server.single⟩, h.synced, h.opened, h.outbox, h.table,
    h.unique, h.pending, h.known, h.position, h.tracked, h.received⟩

section taken

variable {ms : List Mutation} {rows : Rows} (h : w.Consistent collection)
  (hms : ∀ m ∈ ms, ∃ row ∈ w.rows, row.mutation = .ok m)
  (ht : Rows.Turned (Reconcile.causes (.all ms) ms) w.rows rows)

include h hms ht

/-- A row stays after an answer that takes everything, unless its mutation was sent. -/
theorem Consistent.mem_or_sent {row : Row} (hrow : row ∈ w.rows) :
    row ∈ rows ∨ ∃ m ∈ ms, row.mutation = .ok m := by
  by_cases hid : row.id ∈ ms.map Mutation.id
  · obtain ⟨m, hm, he⟩ := List.mem_map.1 hid
    obtain ⟨row', hrow', hread⟩ := hms m hm
    obtain rfl := h.unique.eq hrow hrow' (he.symm.trans (Row.mutation_eq_ok hread).1)
    exact .inr ⟨m, hm, hread⟩
  · exact .inl (ht.mem_of_not_mem hrow (h.pending row hrow).1
      (by simpa [Reconcile.causes] using hid) hid (by simp [Reconcile.causes]))

/-- Rows of mutations that the server applied may leave the outbox. -/
theorem Consistent.taken {r : Replica} (hr : w.replica.Steady r)
    (hd : r.documents = w.replica.documents) (hrows : r.rows? = some rows) :
    Consistent collection { w with replica := r, server := w.server.takeAll ms } := by
  have hold : ∀ row ∈ rows, row ∈ w.rows := fun row hrow =>
    ht.mem_of_mem (by simp [Reconcile.causes]) rfl hrow
  have hs := h.takeAll ms
  refine h.steady hr hrows hs.server (w.server.clock_le_takeAll ms) (ht.unique h.unique)
    (fun row hrow => h.pending row (hold row hrow)) (fun row hrow => h.known row (hold row hrow))
    (fun d => ?_) fun id hid => ?_
  · rcases hs.tracked d with hl | ha | ⟨row, hrow, rfl⟩
    · exact .inl (hd ▸ hl)
    · exact .inr (.inl (ha.steady hr))
    · rcases h.mem_or_sent hms ht hrow with hrow | ⟨m, hm, hread⟩
      · have hw := rows_of_eq hrows (w.server.takeAll ms) w.written
        exact .inr (.inr ⟨row, hw ▸ hrow, rfl⟩)
      · rw [← (Row.mutation_eq_ok hread).2.2]
        exact .inr (.inl ((h.ahead_takeAll (List.mem_map_of_mem hm)).steady hr))
  · rw [Authority.received_takeAll]
    rcases h.received id hid with hin | hin
    · exact .inl (List.mem_append_left _ hin)
    · obtain ⟨row, hrow, rfl⟩ := List.mem_map.1 hin
      rcases h.mem_or_sent hms ht hrow with hrow | ⟨m, hm, hread⟩
      · exact .inr (List.mem_map_of_mem hrow)
      · rw [← (Row.mutation_eq_ok hread).1]
        exact .inl (List.mem_append_right _ (List.mem_map_of_mem hm))

end taken

end

/-! ## Runs of a pass -/

/-- What holds between two steps of a push pass, compared to the world before. -/
structure Sends (collection : String) (before : World) (p : PushPass) (w : World) : Prop where
  world : w.Consistent collection
  own : p.collection = collection
  backed : p.Backed w.rows
  alike : before.replica.Alike w.replica
  fetches : w.server.fetchFault = before.server.fetchFault
  sends : w.server.sendFault = before.server.sendFault
  stuck : ∀ row ∈ before.rows, ¬ row.Readable → row ∈ w.rows

section

variable {collection : String} {before : World} {p : PushPass} {w : World}

theorem Sends.proceed (h : Sends collection before p w) :
    Sends collection before (p.proceed w.replica).1
      { w with replica := (p.proceed w.replica).2 } := by
  obtain ⟨p', r', he, hr', hrows, hown, hreq⟩ := p.proceed_cases h.world.opened h.world.outbox
  have hw := rows_of_eq hrows w.server w.written
  rw [he]
  refine ⟨h.world.alike hr' hrows, hown.trans h.own, ?_, h.alike.trans hr', h.fetches, h.sends,
    hw ▸ h.stuck⟩
  rw [hw]
  intro batch hb m hm
  rcases hreq batch hb with hq | ⟨-, hreads⟩
  · exact h.backed batch hq m hm
  · obtain ⟨row, hrow, -, -, hread⟩ := PushPass.exists_row_of_reads hreads hm
    exact ⟨row, hrow, hread⟩

theorem Sends.settle (h : Sends collection before p w) :
    Sends collection before (p.settle w.replica).1
      { w with replica := (p.settle w.replica).2 } := h.proceed.proceed

/-- A failed request changes nothing of the client, whether or not the server applied it. -/
theorem Sends.failed (h : Sends collection before p w) {p' : PushPass} {r : Replica}
    (hown : p'.collection = p.collection) (hnone : p'.request? = none) (hr : w.replica.Alike r)
    (hrows : r.rows? = some w.rows) (applied : Bool) (batch : List Mutation) :
    let counted := { w.server with sends := w.server.sends + 1 }
    Sends collection before p'
      { w with replica := r, server := if applied then counted.takeAll batch else counted } := by
  intro counted
  have hw := rows_of_eq hrows
  have hback : p'.Backed w.rows := fun batch' hb' => by simp [hnone] at hb'
  have hall := (h.world.counted (w.server.sends + 1)).alike hr hrows
  cases applied with
  | true =>
    obtain ⟨hfetch, hsend⟩ := Authority.faults_takeAll counted batch
    exact ⟨hall.takeAll batch, hown.trans h.own, hw _ _ ▸ hback, h.alike.trans hr,
      hfetch.trans h.fetches, hsend.trans h.sends, hw _ _ ▸ h.stuck⟩
  | false =>
    exact ⟨hall, hown.trans h.own, hw _ _ ▸ hback, h.alike.trans hr, h.fetches, h.sends,
      hw _ _ ▸ h.stuck⟩

/-- A request that is answered takes rows that could be read. -/
theorem Sends.accepted (h : Sends collection before p w) {batch : List Mutation}
    (hb : p.request? = some batch) {p' : PushPass} {r : Replica} {rows : Rows}
    (hown : p'.collection = p.collection) (hnone : p'.request? = none) (hr : w.replica.Alike r)
    (hrows : r.rows? = some rows)
    (ht : Rows.Turned (Reconcile.causes (.all batch) batch) w.rows rows) :
    let counted := { w.server with sends := w.server.sends + 1 }
    Sends collection before p' { w with replica := r, server := counted.takeAll batch } := by
  intro counted
  have hw := rows_of_eq hrows
  have hback : p'.Backed rows := fun batch' hb' => by simp [hnone] at hb'
  obtain ⟨hfetch, hsend⟩ := Authority.faults_takeAll counted batch
  have hcount := h.world.counted (w.server.sends + 1)
  refine ⟨hcount.taken (h.backed batch hb) ht hr.toSteady hr.documents hrows,
    hown.trans h.own, hw _ _ ▸ hback, h.alike.trans hr, hfetch.trans h.fetches,
    hsend.trans h.sends, ?_⟩
  rw [hw]
  intro row hrow hread
  rcases h.world.mem_or_sent (h.backed batch hb) ht (h.stuck row hrow hread) with hin | ⟨m, -, hm⟩
  · exact hin
  · exact absurd ⟨m, hm⟩ hread

theorem Sends.answered (h : Sends collection before p w) {batch : List Mutation}
    (hb : p.request? = some batch) :
    Sends collection before (p.answered (w.server.pushed batch).1 w.replica).1
      { w with
        replica := (p.answered (w.server.pushed batch).1 w.replica).2
        server := (w.server.pushed batch).2 } := by
  obtain ⟨p', r', rows', he, hr', hrows, hown, hnone, ht⟩ :=
    PushPass.answered_cases hb (w.server.pushed batch).1 h.world.outbox h.world.unique
  rw [he]
  unfold Authority.pushed at ht ⊢
  cases hf : w.server.sendFault w.server.sends with
  | some fault =>
    obtain ⟨e, applied⟩ := fault
    simp only [hf] at ht ⊢
    obtain ⟨rfl, hd⟩ := ht
    exact h.failed hown hnone ⟨hr', hd⟩ hrows applied batch
  | none =>
    simp only [hf] at ht ⊢
    exact h.accepted hb hown hnone ⟨hr', ht.2 rfl⟩ hrows ht.1

theorem Sends.run (fuel : Nat) (h : Sends collection before p w) :
    Sends collection before (PushPass.run Authority.remote fuel p w.replica w.server).1
      { w with
        replica := (PushPass.run Authority.remote fuel p w.replica w.server).2.1
        server := (PushPass.run Authority.remote fuel p w.replica w.server).2.2 } := by
  induction fuel generalizing p w with
  | zero => exact h
  | succ fuel ih =>
    cases hp : p.phase with
    | asking batch read =>
      have hb : p.request? = some batch := by rw [PushPass.request?, hp]
      simp only [PushPass.run, hp]
      exact ih (h.answered hb).settle
    | _ =>
      simp only [PushPass.run, hp]
      exact h

/-- A whole push pass. -/
theorem Consistent.sends (h : w.Consistent collection) (limit maxRetries fuel : Nat) :
    Sends collection w (w.push collection limit maxRetries fuel).1
      (w.push collection limit maxRetries fuel).2 := by
  have hbegin : Sends collection w (PushPass.begin collection limit maxRetries) w :=
    ⟨h, rfl, (fun _ hb => by cases hb), w.replica.alike_refl, rfl, rfl, fun _ hrow _ => hrow⟩
  exact hbegin.settle.run fuel

/-- A push pass keeps what holds of a world. -/
theorem Consistent.push (h : w.Consistent collection) (limit maxRetries fuel : Nat) :
    (w.push collection limit maxRetries fuel).2.Consistent collection :=
  (h.sends limit maxRetries fuel).world

end

end World

end Replication
