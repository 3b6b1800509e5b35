import Replication.Proofs.Pull.Free

/-!
# Requests and answers of a pull pass

`PullPass.exchanges` is what a run asked and what it was answered. An answer either ends the pass
or, as a full page of which nothing was refused, moves it to the position that the page covers
(`PullPass.receive_cases`).

An answer without a page, and a page with a fault, end the pass with an error. The replica is then
what the answers before it left, and what the run brought is every change of the pages before it
(`PullPass.refused_whole`).
-/

namespace Replication

namespace PullPass

/-- What a run asked, position by position, and what it was answered. -/
def exchanges {σ : Type} (remote : Remote σ) :
    Nat → PullPass → Replica → σ → List (Option Checkpoint × Except SyncError Page)
  | 0, _, _, _ => []
  | fuel + 1, p, r, s =>
    match p.phase with
    | .asking =>
      let (answer, s) := remote.fetch p.collection p.position p.limit s
      (p.position, answer) ::
        exchanges remote fuel (p.receive answer r).1 (p.receive answer r).2 s
    | _ => []

/-- The error of a failed request, or of a page with a fault. -/
def refusal? (collection : String) (position : Option Checkpoint) :
    Except SyncError Page → Option SyncError
  | .error e => some e
  | .ok page => (page.fault? collection position).map (.protocol ·.text)

/-- The changes of an answer: those of a page without a fault. -/
def accepted (collection : String) (position : Option Checkpoint) :
    Except SyncError Page → List Change
  | .error _ => []
  | .ok page => if page.fault? collection position = none then page.changes else []

/-! ## One answer -/

section

variable {p p' : PullPass} {page : Page} {r r' : Replica} {q : Checkpoint}

/-- A pass that saves a newer position stands there. -/
theorem saveTo_ok (hlt : ∀ c, p.position = some c → c < q)
    (hs : p.saveTo (some q) r = (.ok p', r')) : p' = { p with position := some q } := by
  dsimp only [saveTo] at hs
  rw [if_pos (all_isAfter hlt)] at hs
  split at hs
  · exact (Except.ok.inj (Prod.mk.inj hs).1).symm
  · cases (Prod.mk.inj hs).1

/-- Once its page is applied, a pass is over, or it saved where the page leads and asks again after
a full page of which nothing was refused. -/
theorem proceed_saving {o : PageOutcome} (hp : p.phase = .saving page o) (r : Replica) :
    (∃ result, (p.proceed r).1.phase = .done result) ∨
      ∃ p' r' report, p.saveTo (o.reaches? page) r = (.ok p', r') ∧ o.failures = [] ∧
        p'.limit ≤ page.changes.length ∧
        p.proceed r = ({ p' with report, phase := .asking }, r') := by
  rcases hs : p.saveTo (o.reaches? page) r with ⟨e | p', r'⟩
  · rw [proceed_unsaved hp hs]
    exact .inl ⟨_, rfl⟩
  · rcases proceed_saved hp hs with ⟨hclean, hfull, report, h⟩ | ⟨report, m, -, h⟩
    · exact .inr ⟨p', r', report, rfl, hclean, hfull, h⟩
    · rw [h]
      exact .inl ⟨_, rfl⟩

/-- An answer ends the pass, or it is a full page without fault and the pass asks again from the
position that the page covers. -/
theorem receive_cases (p : PullPass) (answer : Except SyncError Page) (r : Replica) :
    (∃ result, (p.receive answer r).1.phase = .done result) ∨
      ∃ page q report r', answer = .ok page ∧ page.Valid p.collection p.position ∧
        page.changes ≠ [] ∧ p.limit ≤ page.changes.length ∧ page.trailing? = some q ∧
        p.receive answer r = ({ p with position := some q, report, phase := .asking }, r') := by
  cases answer with
  | error e => exact .inl ⟨_, rfl⟩
  | ok page =>
    cases hf : page.fault? p.collection p.position with
    | some fault =>
      obtain ⟨report, h⟩ := receive_fault hf r
      rw [h]
      exact .inl ⟨_, rfl⟩
    | none =>
      by_cases hne : page.changes = []
      · obtain ⟨report, m, -, h⟩ := receive_empty hf hne r
        rw [h]
        exact .inl ⟨_, rfl⟩
      obtain ⟨report, m, h⟩ := receive_page hf hne r
      rw [h]
      refine (@proceed_saving _ page (.of (r.documents.outcomes p.collection page.changes)) rfl
        _).imp_right ?_
      rintro ⟨p', r', report', hs, hclean, hfull, hp⟩
      have hv := Page.fault?_eq_none_iff.1 hf
      obtain ⟨q, hq⟩ := Page.trailing?_isSome hne
      have hreach : (PageOutcome.of (r.documents.outcomes p.collection page.changes)).reaches? page
          = some q := by
        rw [PageOutcome.reaches?, hclean, List.head?_nil]
        exact hq
      rw [hreach] at hs
      obtain rfl := saveTo_ok (p := { p with
          report
          phase := .saving page (.of (r.documents.outcomes p.collection page.changes)) })
        (fun c hc => hv.lt_trailing hne hq hc) hs
      exact ⟨page, q, report', r', rfl, hv, hne, hfull, hq, hp⟩

/-- An answer that is refused ends the pass and changes nothing. -/
theorem receive_refused_whole {answer : Except SyncError Page} {e : SyncError}
    (h : refusal? p.collection p.position answer = some e) (r : Replica) :
    (p.receive answer r).1.phase = .done (.error e) ∧ (p.receive answer r).2 = r ∧
      p.brought answer r = [] := by
  cases answer with
  | error e' =>
    obtain rfl := Option.some.inj h
    exact ⟨rfl, rfl, rfl⟩
  | ok page =>
    obtain ⟨fault, hf, rfl⟩ := Option.map_eq_some_iff.1 h
    obtain ⟨report, hr⟩ := receive_fault hf r
    rw [hr]
    exact ⟨rfl, rfl, by simp only [brought, hf]⟩

/-- An answer brings the changes that are accepted from it. -/
theorem map_fst_brought (p : PullPass) (answer : Except SyncError Page) (r : Replica) :
    (p.brought answer r).map Prod.fst = accepted p.collection p.position answer := by
  cases answer with
  | error e => rfl
  | ok page =>
    cases hf : page.fault? p.collection p.position with
    | none => simp [brought, accepted, hf, Documents.map_fst_outcomes]
    | some fault => simp [brought, accepted, hf]

end

/-! ## Runs -/

section

variable {σ : Type} (remote : Remote σ)

theorem exchanges_over (fuel : Nat) {p : PullPass} (h : p.phase ≠ .asking) (r : Replica) (s : σ) :
    exchanges remote fuel p r s = [] := by
  cases fuel with
  | zero => rfl
  | succ fuel =>
    cases hp : p.phase with
    | asking => exact absurd hp h
    | _ => simp only [exchanges, hp]

/-- A run brings what is accepted from its answers. -/
theorem map_fst_log (fuel : Nat) (p : PullPass) (r : Replica) (s : σ) :
    (log remote fuel p r s).map Prod.fst =
      (exchanges remote fuel p r s).flatMap fun x => accepted p.collection x.1 x.2 := by
  induction fuel generalizing p r s with
  | zero => rfl
  | succ fuel ih =>
    by_cases hp : p.phase = .asking
    · simp only [log, exchanges, hp, List.map_append, List.flatMap_cons, map_fst_brought]
      congr 1
      rw [ih]
      rcases receive_cases p (remote.fetch p.collection p.position p.limit s).1 r with
        ⟨result, hdone⟩ | ⟨page, q, report, r', -, -, -, -, -, he⟩
      · rw [exchanges_over remote fuel (not_asking_of_done hdone)]
        rfl
      · rw [he]
    · rw [log_over remote _ hp, exchanges_over remote _ hp]
      rfl

/-- A run that is refused an answer ends with it, and with what the answers before it left. -/
theorem run_refused (fuel : Nat) {k : Nat} {p : PullPass} {r : Replica} {s : σ}
    {position : Option Checkpoint} {answer : Except SyncError Page} {e : SyncError}
    (hk : (exchanges remote fuel p r s)[k]? = some (position, answer))
    (he : refusal? p.collection position answer = some e) :
    (run remote fuel p r s).1.phase = .done (.error e) ∧
      (run remote fuel p r s).2.1 = (run remote k p r s).2.1 ∧
      log remote fuel p r s = log remote k p r s ∧
      (exchanges remote fuel p r s).length = k + 1 := by
  induction fuel generalizing k p r s with
  | zero => cases hk
  | succ fuel ih =>
    by_cases hp : p.phase = .asking
    · rcases hsent : remote.fetch p.collection p.position p.limit s with ⟨a, s'⟩
      simp only [exchanges, hp, hsent] at hk
      cases k with
      | zero =>
        obtain ⟨rfl, rfl⟩ := Prod.mk.inj (Option.some.inj hk)
        obtain ⟨hdone, hsame, hnone⟩ := receive_refused_whole he r
        have hover := not_asking_of_done hdone
        simp only [run, log, exchanges, hp, hsent]
        rw [run_over remote fuel hover, log_over remote fuel hover,
          exchanges_over remote fuel hover, hnone]
        exact ⟨hdone, hsame, rfl, rfl⟩
      | succ k =>
        rw [List.getElem?_cons_succ] at hk
        have hsame : (p.receive a r).1.collection = p.collection := by
          rcases receive_cases p a r with ⟨result, hdone⟩ | ⟨page, q, report, r', -, -, -, -, -, hr⟩
          · rw [exchanges_over remote fuel (not_asking_of_done hdone)] at hk
            cases hk
          · rw [hr]
        obtain ⟨hdone, hreplica, hlog, hlen⟩ := ih hk (hsame.symm ▸ he)
        simp only [run, log, exchanges, hp, hsent]
        exact ⟨hdone, hreplica, by rw [hlog], by rw [List.length_cons, hlen]⟩
    · rw [exchanges_over remote _ hp] at hk
      cases hk

end

/-- A pull pass, whatever the server answers. A page is without fault exactly when all its changes
are of the collection and newer than the position asked for, no position decreases, and the next
position is not behind the last change. What the pass brings is every change of the pages without
fault. If a request fails, or is answered by a page with a fault, it is the last one: the pass
returns the error, and neither the replica nor what was brought differs from what the answers before
it left. -/
theorem refused_whole {σ : Type} (remote : Remote σ) (collection : String) (limit fuel : Nat)
    (r : Replica) (s : σ) :
    let pass := r.beginPull collection limit
    let asked := exchanges remote fuel pass r s
    (∀ (page : Page) (position : Option Checkpoint),
      page.fault? collection position = none ↔
        (∀ c ∈ page.changes, c.collection = collection) ∧
        (∀ q, position = some q → ∀ c ∈ page.changes, q < c.checkpoint) ∧
        (page.changes.map Change.checkpoint).IsChain (· ≤ ·) ∧
        ∀ n last, page.next = some n → page.changes.getLast? = some last → last.checkpoint ≤ n) ∧
    (log remote fuel pass r s).map Prod.fst =
      asked.flatMap (fun x => accepted collection x.1 x.2) ∧
    ∀ k position answer e, asked[k]? = some (position, answer) →
      refusal? collection position answer = some e →
      (run remote fuel pass r s).1.result? = some (.error e) ∧
        (run remote fuel pass r s).2.1 = (run remote k pass r s).2.1 ∧
        log remote fuel pass r s = log remote k pass r s ∧
        asked.length = k + 1 := by
  intro pass asked
  refine ⟨fun page position => Page.fault?_eq_none_iff.trans Page.valid_iff,
    map_fst_log remote fuel pass r s, fun k position answer e hk he => ?_⟩
  obtain ⟨hdone, hrest⟩ := run_refused remote fuel hk he
  exact ⟨by rw [result?, hdone], hrest⟩

/-- The second of two pages holds a change that is not newer than the first page: it is refused,
and the replica is what the first page left. -/
theorem second_page_refused :
    let change (document position : String) : Change :=
      ⟨document, "notes", [], false, ⟨position⟩⟩
    let s : Script :=
      { pages := [⟨false, .ok ⟨[change "a" "1"], none⟩⟩, ⟨false, .ok ⟨[change "b" "1"], none⟩⟩] }
    let pass := ({} : Replica).beginPull "notes" 1
    let e := SyncError.protocol "Change 'b' at checkpoint 1 is not newer than 1"
    (run Script.remote 5 pass {} s).1.result? = some (.error e) ∧
      (run Script.remote 5 pass {} s).2.1 = (run Script.remote 1 pass {} s).2.1 ∧
      (log Script.remote 5 pass {} s).map (fun x => x.1.document) = ["a"] := by
  intro change s pass e
  obtain ⟨-, -, hrefused⟩ := refused_whole Script.remote "notes" 1 5 {} s
  obtain ⟨hresult, hsame, -⟩ := hrefused 1 (some ⟨"1"⟩) (.ok ⟨[change "b" "1"], none⟩) e rfl
    (by decide)
  exact ⟨hresult, hsame, by decide +kernel⟩

end PullPass

end Replication
