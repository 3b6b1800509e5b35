import Replication.Proofs.Pull.Progress

/-!
# Pull passes that nothing stops

When the local documents accept every write and nobody else holds the lock of the database, a valid
page is applied as a whole: the pass then stands at the newest position that the page covers, and
asks again if the page was full (`PullPass.receive_free`).
-/

namespace Replication.PullPass

theorem not_asking_of_done {p : PullPass} {result : Except SyncError PullReport}
    (h : p.phase = .done result) : p.phase ≠ .asking := by
  rw [h]
  exact fun hdone => by cases hdone

/-- A pass that is over stays as it is. -/
theorem run_over {σ : Type} (remote : Remote σ) (fuel : Nat) {p : PullPass}
    (h : p.phase ≠ .asking) (r : Replica) (s : σ) : run remote fuel p r s = (p, r, s) := by
  cases fuel with
  | zero => rfl
  | succ fuel =>
    cases hp : p.phase with
    | asking => exact absurd hp h
    | _ => simp only [run, hp]

/-- A pass that is over brings nothing more. -/
theorem log_over {σ : Type} (remote : Remote σ) (fuel : Nat) {p : PullPass}
    (h : p.phase ≠ .asking) (r : Replica) (s : σ) : log remote fuel p r s = [] := by
  cases fuel with
  | zero => rfl
  | succ fuel =>
    cases hp : p.phase with
    | asking => exact absurd hp h
    | _ => simp only [log, hp]

variable {p : PullPass} {page : Page} {r : Replica}

/-- A valid page is written as a whole. -/
theorem brought_of_valid (hv : page.Valid p.collection p.position) :
    p.brought (.ok page) r = r.documents.outcomes p.collection page.changes := by
  simp only [brought, Page.fault?_eq_none_iff.2 hv]

/-- After a valid page that nothing stops the pass stands at the newest position that the page
covers, and asks again if the page was full. -/
theorem receive_free (hv : page.Valid p.collection p.position) (hne : page.changes ≠ [])
    {q : Checkpoint} (hq : page.trailing? = some q) (hr : r.Free) (hd : r.documents.Accepting)
    {t : KeyMap String Checkpoint} (ht : r.database.tables.checkpoints = some t)
    (hpos : p.position = r.checkpoint? p.collection) :
    ∃ report n m, p.receive (.ok page) r =
      ({ p with
          position := some q
          report
          phase := if p.limit ≤ page.changes.length then .asking else .done (.ok report) },
        Replica.advanced { r with documents := r.documents.applyAll p.collection page.changes }
          p.collection q t n m) := by
  have hclean : Clean (r.documents.outcomes p.collection page.changes) := fun e hmem =>
    Documents.snd_eq_none_of_mem_outcomes _ _ hd hmem
  have hreach := (PageOutcome.reaches?_clean hclean page).trans hq
  have hlt : ∀ c, p.position = some c → c < q := fun c hc => hv.lt_trailing hne hq hc
  obtain ⟨report, m, he⟩ := receive_page (Page.fault?_eq_none_iff.2 hv) hne r
  rw [he]
  exact proceed_free rfl (PageOutcome.of_clean hclean) hreach ⟨hr.opened, hr.unlocked⟩ ht hpos hlt

end Replication.PullPass
