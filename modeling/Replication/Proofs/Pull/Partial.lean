import Mathlib.Order.MinMax
import Replication.Proofs.Pull.Progress

/-!
# Where a page with refusals leads

Of a page with refusals a pass keeps the position of the last change before the first refusal, and
moves the checkpoint there if it is strictly older than the refused change (`PageOutcome.reaches?`).
That is the newest position before the refused change unless the changes before it are partly older
and partly at its very position: then the last of them is at that position, and the checkpoint stays
where it was although older changes were written (`PullPass.stops_below_refused_iff`).
-/

namespace Replication

/-- The changes that were written before the first refusal. -/
def leading (l : List (Change × Option String)) : List (Change × Option String) :=
  l.takeWhile fun e => e.2.isNone

/-- The first change that was refused. -/
def firstRefused? (l : List (Change × Option String)) : Option Change :=
  (l.find? fun e => e.2.isSome).map Prod.fst

/-- The newest position, strictly older than the first refused change, of the changes that were
written before it. -/
def newestBelow? (l : List (Change × Option String)) : Option Checkpoint :=
  (firstRefused? l).bind fun c =>
    (((leading l).map fun e => e.1.checkpoint).filter fun q => decide (q < c.checkpoint)).max?

/-- The changes before the first refusal are all strictly older than the refused change, or all at
its position. -/
def Unmixed (l : List (Change × Option String)) : Prop :=
  ∀ c, firstRefused? l = some c →
    (∀ e ∈ leading l, e.1.checkpoint < c.checkpoint) ∨
      ∀ e ∈ leading l, e.1.checkpoint = c.checkpoint

/-- The position that is found is that of one of the changes. -/
theorem exists_of_newestBelow? {l : List (Change × Option String)} {q : Checkpoint}
    (h : newestBelow? l = some q) : ∃ e ∈ l, e.1.checkpoint = q := by
  obtain ⟨c, -, hq⟩ := Option.bind_eq_some_iff.1 h
  obtain ⟨hmem, -⟩ := List.mem_filter.1 (List.max?_mem hq)
  obtain ⟨e, he, rfl⟩ := List.mem_map.1 hmem
  exact ⟨e, (List.takeWhile_sublist _).subset he, rfl⟩

section refused

variable {before after : List (Change × Option String)} {c : Change} {reason : String}
  (h : Clean before)

include h

theorem leading_refused : leading (before ++ (c, some reason) :: after) = before := by
  unfold leading
  rw [List.takeWhile_append_of_pos fun e he => by simp [h e he]]
  simp

theorem firstRefused?_refused : firstRefused? (before ++ (c, some reason) :: after) = some c := by
  unfold firstRefused?
  rw [List.find?_append, List.find?_eq_none.2 fun e he => by simp [h e he]]
  simp

theorem newestBelow?_refused : newestBelow? (before ++ (c, some reason) :: after) =
    ((before.map fun e => e.1.checkpoint).filter fun q => decide (q < c.checkpoint)).max? := by
  unfold newestBelow?
  rw [firstRefused?_refused h, leading_refused h]
  rfl

theorem unmixed_refused : Unmixed (before ++ (c, some reason) :: after) ↔
    (∀ e ∈ before, e.1.checkpoint < c.checkpoint) ∨
      ∀ e ∈ before, e.1.checkpoint = c.checkpoint := by
  unfold Unmixed
  rw [firstRefused?_refused h, leading_refused h]
  simp

end refused

/-- Among changes in order, a refused page leads to the newest position below the refused change,
or nowhere although there is such a position. -/
theorem PageOutcome.reaches?_cases {l : List (Change × Option String)} (page : Page)
    (hl : (l.map fun e => e.1.checkpoint).Pairwise (· ≤ ·)) (hc : ¬Clean l) :
    Unmixed l ∧ (PageOutcome.of l).reaches? page = newestBelow? l ∨
      ¬Unmixed l ∧ (PageOutcome.of l).reaches? page = none ∧ ∃ q, newestBelow? l = some q := by
  obtain ⟨before, c, reason, after, rfl, h⟩ := (clean_or_refused l).resolve_left hc
  rw [unmixed_refused h, PageOutcome.reaches?_refused h, newestBelow?_refused h]
  rw [List.map_append, List.pairwise_append, List.map_cons] at hl
  obtain ⟨hbefore, -, hcross⟩ := hl
  have hle : ∀ e ∈ before, e.1.checkpoint ≤ c.checkpoint := fun e he =>
    hcross _ (List.mem_map_of_mem he) _ List.mem_cons_self
  cases hlast : before.getLast? with
  | none =>
    obtain rfl := List.getLast?_eq_none_iff.1 hlast
    exact .inl ⟨.inl (by simp), rfl⟩
  | some last =>
    obtain ⟨init, rfl⟩ := List.getLast?_eq_some_iff.1 hlast
    have hle_last : ∀ e ∈ init ++ [last], e.1.checkpoint ≤ last.1.checkpoint := by
      rw [List.map_append, List.pairwise_append] at hbefore
      intro e he
      rcases List.mem_append.1 he with he | he
      · exact hbefore.2.2 _ (List.mem_map_of_mem he) _ (by simp)
      · rw [List.mem_singleton.1 he]
    rw [Option.map_some]
    by_cases hlt : last.1.checkpoint < c.checkpoint
    · -- All of them are older, and the last is the newest.
      refine .inl ⟨.inl fun e he => lt_of_le_of_lt (hle_last e he) hlt, ?_⟩
      rw [Option.filter_some, if_pos (by simpa using hlt), eq_comm, List.max?_eq_some_iff]
      simp only [List.mem_filter, List.mem_map, decide_eq_true_eq]
      refine ⟨⟨⟨last, by simp, rfl⟩, hlt⟩, ?_⟩
      rintro _ ⟨⟨e, he, rfl⟩, -⟩
      exact hle_last e he
    · -- The last is at the position of the refused change.
      rw [Option.filter_some, if_neg (by simpa using hlt)]
      by_cases heq : ∀ e ∈ init ++ [last], e.1.checkpoint = c.checkpoint
      · refine .inl ⟨.inr heq, ?_⟩
        rw [eq_comm, List.max?_eq_none_iff, List.filter_eq_nil_iff]
        simp only [List.mem_map, decide_eq_true_eq]
        rintro _ ⟨e, he, rfl⟩
        exact not_lt_of_ge (heq e he).ge
      · refine .inr ⟨?_, rfl, ?_⟩
        · rintro (hall | hall)
          · exact hlt (hall last (by simp))
          · exact heq hall
        · push Not at heq
          obtain ⟨e, he, hne⟩ := heq
          refine Option.ne_none_iff_exists'.1 fun hnone => ?_
          rw [List.max?_eq_none_iff, List.filter_eq_nil_iff] at hnone
          exact hnone _ (List.mem_map_of_mem he)
            (decide_eq_true (lt_of_le_of_ne (hle e he) hne))

namespace PullPass

/-- Over a page with refusals the checkpoint moves to where the page leads, and stays if it leads
nowhere. -/
theorem receive_refused {p : PullPass} {page : Page} {r : Replica}
    (hv : page.Valid p.collection p.position)
    (hc : ¬Clean (r.documents.outcomes p.collection page.changes))
    (hpos : p.position = r.checkpoint? p.collection) (hr : r.Admits)
    (ht : r.database.tables.checkpoints.isSome = true) :
    let next := (PageOutcome.of (r.documents.outcomes p.collection page.changes)).reaches? page
    ∃ report, (p.receive (.ok page) r).1.phase = .done (.ok report) ∧
      report.checkpoint = next.or p.position ∧
      (p.receive (.ok page) r).2.persisted? p.collection =
        next.or (r.persisted? p.collection) := by
  intro next
  obtain ⟨t, ht⟩ := Option.isSome_iff_exists.1 ht
  have hne : page.changes ≠ [] := by
    intro he
    rw [he] at hc
    exact hc clean_nil
  have hdirty : (PageOutcome.of (r.documents.outcomes p.collection page.changes)).failures ≠ [] :=
    mt PageOutcome.failures_of_eq_nil_iff.1 hc
  obtain ⟨report₁, m₁, hp⟩ := receive_page (Page.fault?_eq_none_iff.2 hv) hne r
  rw [hp]
  let p₁ : PullPass :=
    { p with
      report := report₁
      phase := .saving page (.of (r.documents.outcomes p.collection page.changes)) }
  let r₁ : Replica :=
    { r with documents := r.documents.applyAll p.collection page.changes, metrics := m₁ }
  obtain ⟨p₂, r₂, hs, hposition, hpersisted⟩ : ∃ p₂ r₂, p₁.saveTo next r₁ = (.ok p₂, r₂) ∧
      p₂.position = next.or p.position ∧
      r₂.persisted? p.collection = next.or (r.persisted? p.collection) := by
    cases hn : next with
    | none => exact ⟨p₁, r₁, rfl, rfl, rfl⟩
    | some q =>
      obtain ⟨e, he, rfl⟩ := PageOutcome.exists_of_reaches?_refused hc hn
      have hnew := hv.newer e.1 (Documents.fst_mem_of_mem_outcomes he)
      obtain ⟨n, m, hs⟩ := saveTo_admitted (p := p₁) (r := r₁) ⟨hr.opened, hr.granted⟩ ht hpos hnew
      exact ⟨_, _, hs, rfl, by simp [p₁]⟩
  rcases proceed_saved (p := p₁) rfl hs with ⟨hclean, -⟩ | ⟨report, m, hreport, he⟩
  · exact absurd hclean hdirty
  · rw [he]
    exact ⟨report, rfl, hreport.trans hposition, hpersisted⟩

/-- A page with refusals of a pass that stands where its checkpoint is kept. -/
theorem Sound.receive_refused {collection : String} {before : Replica}
    {log : List (Change × Option String)} {p : PullPass} {r : Replica}
    (hs : Sound collection before log p r) (hp : p.phase = .asking) {page : Page}
    (hv : page.Valid collection p.position) (hr : r.Admits)
    (ht : r.database.tables.checkpoints.isSome = true) :
    let l := r.documents.outcomes collection page.changes
    let r' := (p.receive (.ok page) r).2
    ¬Clean l →
      (∃ report, (p.receive (.ok page) r).1.result? = some (.ok report) ∧
        report.checkpoint = r'.persisted? collection) ∧
      (Unmixed l ∧ r'.persisted? collection = (newestBelow? l).or p.position ∨
        ¬Unmixed l ∧ r'.persisted? collection = p.position ∧
          ∃ q, newestBelow? l = some q ∧ p.position ≠ some q) := by
  intro l r' hc
  obtain rfl := hs.own
  have hpos := (hs.asking hp).1
  obtain ⟨report, hdone, hreport, hkept⟩ :=
    PullPass.receive_refused hv hc (hpos.trans (hs.synced _).symm) hr ht
  rw [← hpos] at hkept
  have hordered : (l.map fun e => e.1.checkpoint).Pairwise (· ≤ ·) := by
    have hpage := hv.ordered
    rwa [← r.documents.map_fst_outcomes p.collection page.changes, List.map_map] at hpage
  refine ⟨⟨report, ?_, hreport.trans hkept.symm⟩, ?_⟩
  · unfold result?
    rw [hdone]
  rcases PageOutcome.reaches?_cases page hordered hc with
    ⟨hu, hq⟩ | ⟨hu, hq, q, hbelow⟩
  · rw [hq] at hkept
    exact .inl ⟨hu, hkept⟩
  · rw [hq, Option.none_or] at hkept
    refine .inr ⟨hu, hkept, q, hbelow, fun heq => ?_⟩
    -- The position where the pass stood is older than all changes of the page.
    obtain ⟨e, he, rfl⟩ := exists_of_newestBelow? hbelow
    exact absurd (hv.newer e.1 (Documents.fst_mem_of_mem_outcomes he) _ heq) (lt_irrefl _)

/-- Whatever came before, when a pass that stands at a position gets a valid page of which some
changes are refused, and the checkpoint can be written: the pass is complete and reports the
checkpoint that it keeps. That is the newest position, strictly older than the first refused change,
of the changes that were written before it, or the position where the pass stood if there is none,
just when these changes are not partly older and partly at the position of the refused one; else it
is where the pass stood although an older change was written. -/
theorem stops_below_refused_iff {σ : Type} (remote : Remote σ) (collection : String)
    (limit fuel : Nat) (r : Replica) (s : σ) (h : r.Synced) :
    let pass := run remote fuel (r.beginPull collection limit) r s
    let p := pass.1
    let r₁ := pass.2.1
    ∀ page : Page, p.phase = .asking → page.Valid collection p.position → r₁.Admits →
      r₁.database.tables.checkpoints.isSome = true →
      let l := r₁.documents.outcomes collection page.changes
      let r₂ := (p.receive (.ok page) r₁).2
      ¬Clean l →
        p.position = r₁.persisted? collection ∧
        (∃ report, (p.receive (.ok page) r₁).1.result? = some (.ok report) ∧
          report.checkpoint = r₂.persisted? collection) ∧
        (r₂.persisted? collection = (newestBelow? l).or p.position ↔ Unmixed l) ∧
        (¬Unmixed l →
          r₂.persisted? collection = p.position ∧ ∃ q, newestBelow? l = some q) := by
  intro pass p r₁ page hp hv hr ht l r₂ hc
  have hs : Sound collection r _ p r₁ := Sound.run_begin h remote collection limit fuel s
  obtain ⟨hreport, ⟨hu, hkept⟩ | ⟨hu, hkept, q, hbelow, hne⟩⟩ := hs.receive_refused hp hv hr ht hc
  · exact ⟨(hs.asking hp).1, hreport, ⟨fun _ => hu, fun _ => hkept⟩, fun hno => absurd hu hno⟩
  · refine ⟨(hs.asking hp).1, hreport, ⟨fun heq => ?_, fun hno => absurd hno hu⟩,
      fun _ => ⟨hkept, q, hbelow⟩⟩
    rw [hbelow, Option.some_or] at heq
    exact absurd (hkept.symm.trans heq) hne

/-- Two changes are written and the third is refused: the checkpoint moves to the second one. -/
theorem stops_below_refused :
    let r := ({} : Replica).refusing [("c", "full")]
    let change (document position : String) : Change := ⟨document, "notes", [], false, ⟨position⟩⟩
    let page : Page := ⟨[change "a" "1", change "b" "2", change "c" "3"], some ⟨"3"⟩⟩
    let p := r.beginPull "notes" 10
    let l := r.documents.outcomes "notes" page.changes
    r.Synced ∧ r.Admits ∧ page.Valid "notes" p.position ∧ ¬Clean l ∧ Unmixed l ∧
      newestBelow? l = some ⟨"2"⟩ ∧
      (p.receive (.ok page) r).2.persisted? "notes" = some ⟨"2"⟩ := by
  intro r change page p l
  have hs : r.Synced := fun _ => rfl
  have hr : r.Admits := ⟨rfl, rfl⟩
  have hv : page.Valid "notes" p.position := Page.fault?_eq_none_iff.1 (by decide +kernel)
  have hc : ¬Clean l := by
    intro hl
    cases hl (change "c" "3", some "full") (.tail _ (.tail _ (.head _)))
  have hbelow : newestBelow? l = some ⟨"2"⟩ := by decide +kernel
  obtain ⟨-, -, hiff, -⟩ :=
    stops_below_refused_iff Script.remote "notes" 10 0 r {} hs page rfl hv hr rfl hc
  have hu : Unmixed l := hiff.1 (by decide +kernel)
  exact ⟨hs, hr, hv, hc, hu, hbelow, (hiff.2 hu).trans (congrArg (Option.or · none) hbelow)⟩

/-- Of three changes the last two share their position and the last one is refused: the first one is
older and was written, and yet no checkpoint is kept. -/
theorem stays_behind_mixed :
    let r := ({} : Replica).refusing [("c", "full")]
    let change (document position : String) : Change := ⟨document, "notes", [], false, ⟨position⟩⟩
    let page : Page := ⟨[change "a" "1", change "b" "2", change "c" "2"], some ⟨"2"⟩⟩
    let p := r.beginPull "notes" 10
    let l := r.documents.outcomes "notes" page.changes
    r.Synced ∧ r.Free ∧ page.Valid "notes" p.position ∧ p.position = none ∧
      l.map (fun e => (e.1.checkpoint, e.2)) =
        [(⟨"1"⟩, none), (⟨"2"⟩, none), (⟨"2"⟩, some "full")] ∧
      newestBelow? l = some ⟨"1"⟩ ∧
      (p.receive (.ok page) r).2.persisted? "notes" = none := by
  intro r change page p l
  exact ⟨fun _ => rfl, ⟨rfl, fun _ => rfl⟩, Page.fault?_eq_none_iff.1 (by decide +kernel), rfl, rfl,
    by decide +kernel, by decide +kernel⟩

end PullPass

end Replication
