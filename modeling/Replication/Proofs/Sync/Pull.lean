import Replication.Proofs.Pull.Progress
import Replication.Proofs.Sync.World

/-!
# Pulls in a world

A pull pass leaves every document tracked, wherever it ends: what it brought are records of the
server, and it brought every record that the checkpoint came to cover (`Fetched`).
-/

namespace Replication

theorem Revision.body_change (x : Revision) (collection : String) :
    (x.change collection).body = x.body := by
  unfold Revision.change Change.body
  cases x.body <;> rfl

namespace Authority

/-- A page of the server leads to the position of one of its records. -/
theorem exists_of_reaches {s : Authority} {collection : String} {position : Option Checkpoint}
    {limit : Nat} {l : List (Change × Option String)}
    (hl : l.map Prod.fst = (s.page collection position limit).changes) {q : Checkpoint}
    (hq : (PageOutcome.of l).reaches? (s.page collection position limit) = some q) :
    ∃ x ∈ (s.above position).take limit, x.position = q := by
  by_cases h : Clean l
  · rw [PageOutcome.reaches?_clean h] at hq
    simp only [Page.trailing?, page] at hq
    cases hx : ((s.above position).take limit).getLast? with
    | none =>
      rw [List.getLast?_map, hx] at hq
      cases hq
    | some x =>
      simp only [List.getLast?_map, hx, Option.map_some, Checkpoint.newer_eq_max] at hq
      refine ⟨x, List.mem_of_getLast? hx, ?_⟩
      rw [← Option.some.inj hq]
      exact (max_self x.position).symm
  · obtain ⟨e, he, rfl⟩ := PageOutcome.exists_of_reaches?_refused h hq
    have hmem : e.1 ∈ (s.page collection position limit).changes := by
      rw [← hl]
      exact List.mem_map_of_mem he
    obtain ⟨x, hx, hxe⟩ := List.mem_map.1 hmem
    exact ⟨x, hx, by rw [← hxe]; rfl⟩

/-- A page leaves the checkpoint where it was, or moves it to one of the page's records. -/
theorem persisted_page (s : Authority) {p : PullPass} {r : Replica}
    (hpos : p.position = r.checkpoint? p.collection) :
    (p.receive (.ok (s.page p.collection p.position p.limit)) r).2.persisted? p.collection =
        r.persisted? p.collection ∨
      ∃ x ∈ (s.above p.position).take p.limit,
        (p.receive (.ok (s.page p.collection p.position p.limit)) r).2.persisted? p.collection =
          some x.position := by
  rcases PullPass.persisted_receive hpos _ with hk | ⟨page, q, hpage, hreach, hk⟩
  · exact .inl hk
  · obtain rfl := Except.ok.inj hpage
    obtain ⟨x, hx, rfl⟩ := exists_of_reaches (Documents.map_fst_outcomes _ _ _) hreach
    exact .inr ⟨x, hx, hk⟩

/-- A page brings the changes of its records. -/
theorem exists_brought (s : Authority) (collection : String) {position : Option Checkpoint}
    {limit : Nat} (d : Documents) {x : Revision} (hx : x ∈ (s.above position).take limit) :
    ∃ e ∈ d.outcomes collection (s.page collection position limit).changes,
      e.1 = x.change collection := by
  have hmem : x.change collection ∈
      (d.outcomes collection (s.page collection position limit).changes).map Prod.fst := by
    rw [Documents.map_fst_outcomes]
    exact List.mem_map_of_mem hx
  obtain ⟨e, he, hxe⟩ := List.mem_map.1 hmem
  exact ⟨e, he, hxe⟩

end Authority

/-- What a pull pass brought from the records of the server. -/
structure Fetched (collection : String) (before : Replica) (xs : List Revision)
    (log : List (Change × Option String)) (r : Replica) : Prop where
  source : ∀ e ∈ log, ∃ x ∈ xs, e.1 = x.change collection
  whole : ∀ x ∈ xs, (∀ q, before.persisted? collection = some q → q < x.position) →
    ∀ q, r.persisted? collection = some q → x.position ≤ q → ∃ e ∈ log, e.1 = x.change collection
  position : r.persisted? collection = before.persisted? collection ∨
    ∃ x ∈ xs, r.persisted? collection = some x.position

theorem fetched_nil (collection : String) (r : Replica) (xs : List Revision) :
    Fetched collection r xs [] r where
  source _ h := by cases h
  whole _ _ h q hq hle := absurd hle (not_le_of_gt (h q hq))
  position := .inl rfl

section

variable {collection : String} {before r : Replica} {log : List (Change × Option String)}
  {p : PullPass} {s : Authority}

theorem Fetched.page (hs : s.WellKept) (h : Fetched collection before s.records log r)
    (hp : PullPass.Sound collection before log p r) (ha : p.phase = .asking) :
    Fetched collection before s.records
      (log ++ r.documents.outcomes p.collection
        (s.page p.collection p.position p.limit).changes)
      (p.receive (.ok (s.page p.collection p.position p.limit)) r).2 := by
  obtain ⟨hpos, -⟩ := hp.asking ha
  obtain rfl := hp.own
  have hkept := s.persisted_page (p := p) (hpos.trans (hp.synced _).symm)
  refine ⟨fun e he => ?_, fun x hx hnew q hq hle => ?_, ?_⟩
  · rcases List.mem_append.1 he with he | he
    · exact h.source e he
    · obtain ⟨x, hx, hxe⟩ := List.mem_map.1 (Documents.fst_mem_of_mem_outcomes he)
      exact ⟨x, (Authority.mem_above.1 (List.mem_of_mem_take hx)).1, hxe.symm⟩
  · by_cases hold : ∃ q₀, p.position = some q₀ ∧ x.position ≤ q₀
    · obtain ⟨q₀, hq₀, hle₀⟩ := hold
      obtain ⟨e, he, hxe⟩ := h.whole x hx hnew q₀ (hpos ▸ hq₀) hle₀
      exact ⟨e, List.mem_append_left _ he, hxe⟩
    · have habove : x ∈ s.above p.position := by
        refine Authority.mem_above.2 ⟨hx, fun q₀ hq₀ => ?_⟩
        exact lt_of_not_ge fun hle₀ => hold ⟨q₀, hq₀, hle₀⟩
      rcases hkept with hk | ⟨y, hy, hk⟩
      · exact absurd ⟨q, hpos.trans (hk ▸ hq), hle⟩ hold
      · obtain rfl : q = y.position := Option.some.inj (hq.symm.trans hk)
        have hx' := hs.mem_take habove hy (Checkpoint.ofNat_le_ofNat.1 hle)
        obtain ⟨e, he, hxe⟩ := s.exists_brought p.collection r.documents hx'
        exact ⟨e, List.mem_append_right _ he, hxe⟩
  · rcases hkept with hk | ⟨y, hy, hk⟩
    · rw [hk]
      exact h.position
    · exact .inr ⟨y, (Authority.mem_above.1 (List.mem_of_mem_take hy)).1, hk⟩

theorem Fetched.receive (hs : s.WellKept) (h : Fetched collection before s.records log r)
    (hp : PullPass.Sound collection before log p r) (ha : p.phase = .asking) :
    Fetched collection before s.records
      (log ++ p.brought (s.fetched p.collection p.position p.limit) r)
      (p.receive (s.fetched p.collection p.position p.limit) r).2 := by
  unfold Authority.fetched
  cases s.fetchFault s.fetches with
  | some e =>
    dsimp only [PullPass.brought]
    rw [PullPass.receive_error, List.append_nil]
    exact h
  | none =>
    dsimp only [PullPass.brought]
    rw [Page.fault?_eq_none_iff.2 (hs.valid_page p.collection p.position p.limit)]
    exact h.page hs hp ha

/-- A pull changes nothing of the server but the number of its requests. -/
theorem PullPass.run_server (fuel : Nat) (p : PullPass) (r : Replica) (s : Authority) :
    ∃ n, (PullPass.run Authority.remote fuel p r s).2.2 = { s with fetches := n } := by
  induction fuel generalizing p r s with
  | zero => exact ⟨s.fetches, rfl⟩
  | succ fuel ih =>
    cases hp : p.phase with
    | asking =>
      simp only [PullPass.run, hp]
      obtain ⟨n, hn⟩ := ih _ _ { s with fetches := s.fetches + 1 }
      exact ⟨n, hn⟩
    | _ => exact ⟨s.fetches, by simp [PullPass.run, hp]⟩

theorem Fetched.run (fuel : Nat) (hs : s.WellKept) (h : Fetched collection before s.records log r)
    (hp : PullPass.Sound collection before log p r) :
    Fetched collection before s.records (log ++ PullPass.log Authority.remote fuel p r s)
      (PullPass.run Authority.remote fuel p r s).2.1 := by
  induction fuel generalizing log p r s with
  | zero => simpa [PullPass.log, PullPass.run] using h
  | succ fuel ih =>
    cases ha : p.phase with
    | asking =>
      simp only [PullPass.log, PullPass.run, ha]
      rw [← List.append_assoc]
      exact ih (s := { s with fetches := s.fetches + 1 }) ⟨hs.ordered, hs.bounded, hs.single⟩
        (h.receive hs hp ha) (hp.receive ha _)
    | _ => simpa [PullPass.log, PullPass.run, ha] using h

end

/-- A pull pass leaves the outbox as it is. -/
theorem World.Consistent.rows_pull {collection : String} {w : World} (h : w.Consistent collection)
    (limit fuel : Nat) : (w.pull collection limit fuel).2.rows = w.rows := by
  have hs := PullPass.Sound.run_begin h.synced Authority.remote collection limit fuel w.server
  exact congrArg (·.getD []) hs.beside.outbox

/-- What a pull pass did not bring of a document is still to come. -/
theorem World.Consistent.tracked_of_fetched {collection : String} {w : World}
    (h : w.Consistent collection) {log : List (Change × Option String)} {r : Replica}
    (hs : PullPass.Kept collection w.replica log r)
    (hf : Fetched collection w.replica w.server.records log r) (n : Nat) (d : String) :
    Tracked collection ⟨r, { w.server with fetches := n }, w.written⟩ d := by
  have hbody : ∀ e ∈ w.replica.documents.outcomes collection (log.map Prod.fst),
      e.1.document = d → e.2 = none → e.1.body = w.server.live? d := by
    intro e he hd _
    rw [← hs.logged] at he
    obtain ⟨x, hx, hxe⟩ := hf.source e he
    rw [hxe] at hd ⊢
    rw [Revision.body_change, ← h.server.live? hx]
    exact congrArg _ hd
  have hget := w.replica.documents.get?_applyAll collection hbody
  rw [← hs.logged, ← hs.written] at hget
  rcases hget with ⟨-, hget⟩ | ⟨hnone, hget⟩
  · exact .inl hget
  · rcases h.tracked d with hl | ⟨x, hx, hxd, hlt⟩ | ⟨row, hrow, hrd⟩
    · exact .inl (hget.trans hl)
    · -- A record that the checkpoint came to cover was brought, and written.
      refine .inr (.inl ⟨x, hx, hxd, fun q hq => lt_of_not_ge fun hle => ?_⟩)
      obtain ⟨e, he, hxe⟩ := hf.whole x hx hlt q hq hle
      have hle' : e.1.checkpoint ≤ q := by
        rw [hxe]
        exact hle
      exact hnone e he (by rw [hxe]; exact hxd) (hs.covered e he q hq hle')
    · exact .inr (.inr ⟨row, rows_of_eq (hs.beside.outbox.trans h.outbox) _ _ ▸ hrow, hrd⟩)

/-- A pull pass keeps what holds of a world. -/
theorem World.Consistent.pull {collection : String} {w : World} (h : w.Consistent collection)
    (limit fuel : Nat) : (w.pull collection limit fuel).2.Consistent collection := by
  obtain ⟨n, hn⟩ :=
    PullPass.run_server fuel (w.replica.beginPull collection limit) w.replica w.server
  have hs := PullPass.Sound.run_begin h.synced Authority.remote collection limit fuel w.server
  have hf := (fetched_nil collection w.replica w.server.records).run fuel h.server
    (PullPass.Sound.begin h.synced collection limit)
  rw [List.nil_append] at hf
  have htracked := h.tracked_of_fetched hs.toKept hf n
  have hrows := rows_of_eq (hs.beside.outbox.trans h.outbox) { w.server with fetches := n }
    w.written
  unfold World.pull
  dsimp only
  rw [hn]
  refine ⟨⟨h.server.ordered, h.server.bounded, h.server.single⟩, hs.synced,
    hs.beside.closed.trans h.opened, hrows ▸ hs.beside.outbox.trans h.outbox,
    hs.beside.there.trans h.table, hrows ▸ h.unique, hrows ▸ h.pending, hrows ▸ h.known, ?_,
    htracked, hrows ▸ h.received⟩
  intro q hq
  rcases hf.position with hk | ⟨x, hx, hk⟩
  · exact h.position q (hk ▸ hq)
  · exact ⟨x.version, h.server.bounded x hx, Option.some.inj (hq.symm.trans hk)⟩

end Replication
