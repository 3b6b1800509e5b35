import Replication.Proofs.Pull.Free
import Replication.Proofs.Push.Batch
import Replication.Remote

/-!
# Paging through a feed

A feed is the changes of one collection in the order of their positions, and several changes may
share a position. A server that follows its contract answers with the first changes that are
strictly newer than the position it is asked for. A full page ends at a position, and the next
request asks for what is strictly newer, so the changes that share the position but did not fit the
page are passed over.

A pull pass that nothing stops therefore brings a part of the feed in its order, and the whole feed
if and only if no page ends between two changes of one position (`Feed.brought_iff_unsplit`).
-/

namespace Replication

/-- The changes of a collection, in the order of their positions. -/
structure Feed where
  collection : String
  changes : List Change
  own : ∀ c ∈ changes, c.collection = collection
  sorted : (changes.map Change.checkpoint).Pairwise (· ≤ ·)

/-- No page of a size, filled from the front, ends between two changes of one position. -/
def Unsplit (limit : Nat) (cs : List Change) : Prop :=
  ∀ k c c', cs[k * limit + (limit - 1)]? = some c → cs[(k + 1) * limit]? = some c' →
    c.checkpoint < c'.checkpoint

namespace Feed

variable (f : Feed) (position : Option Checkpoint) (limit : Nat)

/-- The changes that are strictly newer than a position. -/
def after : List Change := f.changes.filter fun c => position.all c.checkpoint.isAfter

/-- The first of them; the position to ask from next is that of the last one. -/
def page : Page :=
  let cs := (f.after position).take limit
  ⟨cs, cs.getLast?.map Change.checkpoint⟩

/-- The server that answers from a feed. -/
def remote : Remote Feed where
  fetch _ position limit f := (.ok (f.page position limit), f)
  send _ ms f := (.ok (.all ms), f)

variable {f position limit}

theorem mem_after {c : Change} :
    c ∈ f.after position ↔ c ∈ f.changes ∧ ∀ q, position = some q → q < c.checkpoint := by
  unfold after
  cases position <;> simp

theorem after_none : f.after none = f.changes := List.filter_eq_self.2 fun _ _ => rfl

theorem pairwise_after : ((f.after position).map Change.checkpoint).Pairwise (· ≤ ·) :=
  f.sorted.sublist (List.filter_sublist.map _)

theorem valid_page : (f.page position limit).Valid f.collection position where
  own c hc := f.own c (mem_after.1 (List.mem_of_mem_take hc)).1
  newer c hc := (mem_after.1 (List.mem_of_mem_take hc)).2
  ordered := pairwise_after.sublist ((List.take_sublist limit _).map _)
  ahead n hn c hc := by
    obtain ⟨last, hlast, rfl⟩ := Option.map_eq_some_iff.1 hn
    exact Change.le_getLast (pairwise_after.sublist ((List.take_sublist limit _).map _)) hlast hc

/-- Behind a full page come the changes that did not fit it, but for those at its last position. -/
theorem after_last {last : Change} (hlast : ((f.after position).take limit).getLast? = some last) :
    f.after (some last.checkpoint) =
      ((f.after position).drop limit).filter fun c => c.checkpoint.isAfter last.checkpoint := by
  have hmem := List.mem_of_mem_take (List.mem_of_getLast? hlast)
  have hnewer := (mem_after.1 hmem).2
  have hstep : f.after (some last.checkpoint) =
      (f.after position).filter fun c => c.checkpoint.isAfter last.checkpoint :=
    Change.newerThan_some hnewer f.changes
  have htaken : ((f.after position).take limit).filter
      (fun c => c.checkpoint.isAfter last.checkpoint) = [] := by
    refine List.filter_eq_nil_iff.2 fun c hc => ?_
    have hs : (((f.after position).take limit).map Change.checkpoint).Pairwise (· ≤ ·) :=
      pairwise_after.sublist ((List.take_sublist limit _).map _)
    rw [Checkpoint.isAfter_iff]
    exact not_lt_of_ge (Change.le_getLast hs hlast hc)
  rw [hstep]
  conv_lhs => rw [← List.take_append_drop limit (f.after position)]
  rw [List.filter_append, htaken, List.nil_append]

end Feed

/-! ## Pages that end between two changes of one position -/

section unsplit

variable {limit : Nat} {cs : List Change}

/-- A list that does not fill more than one page has no such end. -/
theorem Unsplit.of_length_le (h : cs.length ≤ limit) : Unsplit limit cs := by
  intro k c c' _ hc'
  have hlt := (List.getElem?_eq_some_iff.1 hc').1
  have hle : limit ≤ (k + 1) * limit := Nat.le_mul_of_pos_left limit (Nat.succ_pos k)
  omega

/-- A full page, and then the pages of the rest. -/
theorem unsplit_iff (hpos : 1 ≤ limit) {last : Change}
    (hlast : (cs.take limit).getLast? = some last) (hfull : limit ≤ cs.length) :
    Unsplit limit cs ↔
      (∀ c, cs[limit]? = some c → last.checkpoint < c.checkpoint) ∧
        Unsplit limit (cs.drop limit) := by
  have hend : cs[limit - 1]? = some last := by
    rw [List.getLast?_eq_getElem?, List.length_take, Nat.min_eq_left hfull,
      List.getElem?_take_of_lt (by omega)] at hlast
    exact hlast
  have hshift : ∀ k, limit + (k * limit + (limit - 1)) = (k + 1) * limit + (limit - 1) := by
    intro k
    rw [Nat.succ_mul]
    omega
  have hshift' : ∀ k, limit + (k + 1) * limit = (k + 1 + 1) * limit := by
    intro k
    rw [Nat.succ_mul (k + 1), Nat.add_comm]
  constructor
  · intro h
    refine ⟨fun c hc => h 0 last c (by simpa using hend) (by simpa using hc), ?_⟩
    intro k c c' hc hc'
    rw [List.getElem?_drop, hshift] at hc
    rw [List.getElem?_drop, hshift'] at hc'
    exact h (k + 1) c c' hc hc'
  · rintro ⟨hfirst, hrest⟩ k c c' hc hc'
    cases k with
    | zero =>
      obtain rfl : last = c := by simpa [hend] using hc
      exact hfirst c' (by simpa using hc')
    | succ k =>
      refine hrest k c c' ?_ ?_
      · rw [List.getElem?_drop, hshift]
        exact hc
      · rw [List.getElem?_drop, hshift']
        exact hc'

/-- The rest is newer than the last change of the page if its first change is. -/
theorem filter_drop_eq_iff (hs : (cs.map Change.checkpoint).Pairwise (· ≤ ·)) (q : Checkpoint) :
    (cs.drop limit).filter (fun c => c.checkpoint.isAfter q) = cs.drop limit ↔
      ∀ c, cs[limit]? = some c → q < c.checkpoint := by
  have hs' : ((cs.drop limit).map Change.checkpoint).Pairwise (· ≤ ·) :=
    hs.sublist ((List.drop_sublist limit cs).map _)
  have hhead : cs[limit]? = (cs.drop limit).head? := by
    rw [List.head?_drop]
  rw [List.filter_eq_self, hhead]
  cases hd : cs.drop limit with
  | nil => simp
  | cons c rest =>
    rw [hd, List.map_cons, List.pairwise_cons] at hs'
    simp only [List.forall_mem_cons, List.head?_cons, Option.some.injEq, forall_eq',
      Checkpoint.isAfter_iff]
    refine ⟨And.left, fun h => ⟨h, fun c' hc' => ?_⟩⟩
    exact lt_of_lt_of_le h (hs'.1 _ (List.mem_map_of_mem hc'))

end unsplit

namespace Feed

variable {f : Feed} {position : Option Checkpoint} {limit : Nat}

/-- A full page and what is brought after it are a part of what is newer than the position, and all
of it if and only if neither this page nor a later one ends between two changes of one position. -/
theorem after_full (hpos : 1 ≤ limit) {last : Change}
    (hlast : ((f.after position).take limit).getLast? = some last)
    (hfull : limit ≤ (f.after position).length) {brought : List Change}
    (hpart : brought.Sublist (f.after (some last.checkpoint)))
    (hiff : brought = f.after (some last.checkpoint) ↔
      Unsplit limit (f.after (some last.checkpoint))) :
    ((f.after position).take limit ++ brought).Sublist (f.after position) ∧
      ((f.after position).take limit ++ brought = f.after position ↔
        Unsplit limit (f.after position)) := by
  have hafter := after_last hlast
  have hsub : (f.after (some last.checkpoint)).Sublist ((f.after position).drop limit) :=
    hafter ▸ List.filter_sublist
  have hrest : (f.after position).take limit ++ brought = f.after position ↔
      brought = (f.after position).drop limit := by
    conv_lhs => rhs; rw [← List.take_append_drop limit (f.after position)]
    rw [List.append_cancel_left_eq]
  constructor
  · conv_rhs => rw [← List.take_append_drop limit (f.after position)]
    exact (List.Sublist.refl _).append (hpart.trans hsub)
  · rw [hrest, unsplit_iff hpos hlast hfull, ← filter_drop_eq_iff pairwise_after, ← hafter]
    constructor
    · intro h
      -- What is brought is in between, so nothing at the last position was left behind.
      have heq : f.after (some last.checkpoint) = (f.after position).drop limit :=
        hsub.eq_of_length_le (h ▸ hpart.length_le)
      exact ⟨heq, heq ▸ hiff.1 (h.trans heq.symm)⟩
    · rintro ⟨heq, hu⟩
      rw [← heq] at hu
      exact (hiff.2 hu).trans heq

/-- Fewer changes are newer than the last of a page. -/
theorem length_after_last_lt (hpos : 1 ≤ limit) {last : Change}
    (hlast : ((f.after position).take limit).getLast? = some last) :
    (f.after (some last.checkpoint)).length < (f.after position).length := by
  have hle := (List.filter_sublist (p := fun c => c.checkpoint.isAfter last.checkpoint)
    (l := (f.after position).drop limit)).length_le
  have hmem := List.mem_of_mem_take (List.mem_of_getLast? hlast)
  have hlen := List.length_pos_of_mem hmem
  rw [after_last hlast]
  rw [List.length_drop] at hle
  omega

end Feed

/-! ## A pass over a feed -/

namespace PullPass

section

variable {f : Feed} {before r : Replica} {log : List (Change × Option String)} {p : PullPass}

theorem run_feed (fuel : Nat) (ha : p.phase = .asking) :
    run Feed.remote (fuel + 1) p r f =
      run Feed.remote fuel (p.receive (.ok (f.page p.position p.limit)) r).1
        (p.receive (.ok (f.page p.position p.limit)) r).2 f := by
  simp only [run, ha, Feed.remote]

theorem log_feed (fuel : Nat) (hown : p.collection = f.collection) (ha : p.phase = .asking) :
    (PullPass.log Feed.remote (fuel + 1) p r f).map Prod.fst =
      (f.after p.position).take p.limit ++
        (PullPass.log Feed.remote fuel (p.receive (.ok (f.page p.position p.limit)) r).1
          (p.receive (.ok (f.page p.position p.limit)) r).2 f).map Prod.fst := by
  have hv : (f.page p.position p.limit).Valid p.collection p.position := hown ▸ Feed.valid_page
  simp only [PullPass.log, ha, Feed.remote, brought_of_valid hv, List.map_append,
    Documents.map_fst_outcomes]
  rfl

/-- After a page of a feed the pass stands at the page's last change, and asks again if the page
was full. -/
theorem receive_feed (hp : Sound f.collection before log p r) (ha : p.phase = .asking)
    (hr : r.Free) (hd : r.documents.Accepting) {t : KeyMap String Checkpoint}
    (ht : r.database.tables.checkpoints = some t) {last : Change}
    (hlast : ((f.after p.position).take p.limit).getLast? = some last) :
    ∃ report n m, p.receive (.ok (f.page p.position p.limit)) r =
      ({ p with
          position := some last.checkpoint
          report
          phase := if p.limit ≤ (f.after p.position).length then .asking
            else .done (.ok report) },
        Replica.advanced
          { r with
            documents := r.documents.applyAll p.collection
              ((f.after p.position).take p.limit) }
          p.collection last.checkpoint t n m) := by
  have hv : (f.page p.position p.limit).Valid p.collection p.position := hp.own ▸ Feed.valid_page
  have hne : (f.page p.position p.limit).changes ≠ [] := by
    intro hnil
    rw [show (f.after p.position).take p.limit = [] from hnil] at hlast
    cases hlast
  have htrail : (f.page p.position p.limit).trailing? = some last.checkpoint := by
    unfold Page.trailing? Feed.page
    simp only [hlast, Option.map_some, Checkpoint.newer_eq_max, max_self]
  have hmem : p.position = r.checkpoint? p.collection := by
    rw [(hp.asking ha).1, hp.own]
    exact (hp.synced f.collection).symm
  have hfull : p.limit ≤ (f.page p.position p.limit).changes.length ↔
      p.limit ≤ (f.after p.position).length := by
    rw [show (f.page p.position p.limit).changes = (f.after p.position).take p.limit from rfl,
      List.length_take]
    omega
  obtain ⟨report, n, m, he⟩ := receive_free hv hne htrail hr hd ht hmem
  refine ⟨report, n, m, ?_⟩
  rw [he]
  simp only [hfull]
  rfl

/-- A pass with nothing newer in the feed is complete with its next page. -/
theorem receive_feed_end (hown : p.collection = f.collection) (hnil : f.after p.position = []) :
    ∃ report m, p.receive (.ok (f.page p.position p.limit)) r =
      ({ p with report, phase := .done (.ok report) }, { r with metrics := m }) := by
  have hv : (f.page p.position p.limit).Valid p.collection p.position := hown ▸ Feed.valid_page
  have hempty : (f.page p.position p.limit).changes = [] := by
    simp [Feed.page, hnil]
  obtain ⟨report, m, -, he⟩ := receive_empty (Page.fault?_eq_none_iff.2 hv) hempty r
  exact ⟨report, m, he⟩

/-- A pass over a feed that nothing stops is complete. It brings a part of what is newer than its
position, and all of it if and only if no page ends between two changes of one position. -/
theorem run_over_feed (fuel : Nat) (hp : Sound f.collection before log p r)
    (ha : p.phase = .asking) (hr : r.Free) (hd : r.documents.Accepting)
    (ht : r.database.tables.checkpoints.isSome = true) (hlimit : 1 ≤ p.limit)
    (hfuel : (f.after p.position).length < fuel) :
    (∃ report, (run Feed.remote fuel p r f).1.phase = .done (.ok report)) ∧
      ((PullPass.log Feed.remote fuel p r f).map Prod.fst).Sublist (f.after p.position) ∧
      ((PullPass.log Feed.remote fuel p r f).map Prod.fst = f.after p.position ↔
        Unsplit p.limit (f.after p.position)) := by
  induction fuel generalizing log p r with
  | zero => omega
  | succ fuel ih =>
    rw [run_feed fuel ha, log_feed fuel hp.own ha]
    cases hlast : ((f.after p.position).take p.limit).getLast? with
    | none =>
      have hnil : f.after p.position = [] :=
        (List.take_eq_nil_iff.1 (List.getLast?_eq_none_iff.1 hlast)).resolve_left (by omega)
      obtain ⟨report, m, he⟩ := receive_feed_end (r := r) hp.own hnil
      have hover : ({ p with report, phase := .done (.ok report) } : PullPass).phase ≠ .asking :=
        not_asking_of_done rfl
      rw [he, run_over _ _ hover, log_over _ _ hover, hnil]
      exact ⟨⟨report, rfl⟩, by simp, by simpa using Unsplit.of_length_le (Nat.zero_le _)⟩
    | some last =>
      obtain ⟨t, ht⟩ := Option.isSome_iff_exists.1 ht
      obtain ⟨report, n, m, he⟩ := receive_feed hp ha hr hd ht hlast
      have hsound := hp.receive ha (.ok (f.page p.position p.limit))
      rw [he] at hsound ⊢
      by_cases hfull : p.limit ≤ (f.after p.position).length
      · have hlt := Feed.length_after_last_lt hlimit hlast
        obtain ⟨hdone, hpart, hiff⟩ := ih hsound (if_pos hfull) ⟨hr.opened, hr.unlocked⟩
          (hd.applyAll _ _) rfl hlimit (Nat.lt_of_lt_of_le hlt (Nat.le_of_lt_succ hfuel))
        exact ⟨hdone, Feed.after_full hlimit hlast hfull hpart hiff⟩
      · simp only [if_neg hfull]
        have hover : ({ p with
            position := some last.checkpoint
            report
            phase := .done (.ok report) } : PullPass).phase ≠ .asking := not_asking_of_done rfl
        have hall : (f.after p.position).take p.limit = f.after p.position :=
          List.take_of_length_le (by omega)
        rw [run_over _ _ hover, log_over _ _ hover, hall]
        exact ⟨⟨report, rfl⟩, by simp, by simpa using Unsplit.of_length_le (by omega)⟩

end

end PullPass

/-! ## A first pass over a feed -/

namespace Feed

/-- A pass without a checkpoint, over documents that accept every write, is complete after at most
one request more than the feed has changes. All that it brings is written, it brings a part of the
feed in its order, and it brings the whole feed if and only if no page ends between two changes of
one position. -/
theorem brought_iff_unsplit (f : Feed) {limit fuel : Nat} {r : Replica} (hlimit : 1 ≤ limit)
    (hs : r.Synced) (hr : r.Free) (ht : r.database.tables.checkpoints.isSome = true)
    (hd : r.documents.Accepting) (hfirst : r.checkpoint? f.collection = none)
    (hfuel : f.changes.length < fuel) :
    let pass := r.beginPull f.collection limit
    let log := PullPass.log Feed.remote fuel pass r f
    let p := (PullPass.run Feed.remote fuel pass r f).1
    let r' := (PullPass.run Feed.remote fuel pass r f).2.1
    (∃ report, p.result? = some (.ok report)) ∧
      (∀ e ∈ log, e.2 = none) ∧
      r'.documents = r.documents.applyAll f.collection (log.map Prod.fst) ∧
      (log.map Prod.fst).Sublist f.changes ∧
      (log.map Prod.fst = f.changes ↔ Unsplit limit f.changes) := by
  intro pass log p r'
  have hall : f.after pass.position = f.changes := by
    rw [show pass.position = none from hfirst, after_none]
  have hsize : pass.limit = limit := Nat.max_eq_left hlimit
  have hsound := PullPass.Sound.begin hs f.collection limit
  have hend := PullPass.Sound.run_begin hs Feed.remote f.collection limit fuel f
  obtain ⟨⟨report, hdone⟩, hpart, hiff⟩ := PullPass.run_over_feed fuel hsound rfl hr hd ht
    (Nat.le_max_right limit 1) (hall.symm ▸ hfuel)
  have hlogged : log = r.documents.outcomes f.collection (log.map Prod.fst) := hend.logged
  refine ⟨⟨report, ?_⟩, ?_, hend.written, hall ▸ hpart, hall ▸ hsize ▸ hiff⟩
  · rw [PullPass.result?, hdone]
  · intro e he
    rw [hlogged] at he
    exact Documents.snd_eq_none_of_mem_outcomes _ _ hd he

/-- A feed of three changes. -/
def three (first second third : String) : List Change :=
  [⟨"a", "notes", [], false, ⟨first⟩⟩, ⟨"b", "notes", [], false, ⟨second⟩⟩,
    ⟨"c", "notes", [], false, ⟨third⟩⟩]

/-- The first two share a position, and pages of two hold them together. -/
theorem brought_tied :
    let f : Feed := ⟨"notes", three "1" "1" "2", by decide, by decide⟩
    let log := PullPass.log Feed.remote 4 (({} : Replica).beginPull "notes" 2) {} f
    Unsplit 2 f.changes ∧ log.map Prod.fst = f.changes := by
  intro f log
  have hu : Unsplit 2 f.changes := (unsplit_iff (by decide) rfl (by decide)).2
    ⟨fun c hc => by cases hc; decide, Unsplit.of_length_le (by decide)⟩
  obtain ⟨-, -, -, -, hiff⟩ := @brought_iff_unsplit f 2 4 {} (by decide)
    (fun _ => rfl) ⟨rfl, fun _ => rfl⟩ rfl (fun _ _ _ => rfl) rfl (by decide)
  exact ⟨hu, hiff.2 hu⟩

/-- The last two share a position, and the first of two pages ends between them: the pass reports
success, the last change was never brought, and nothing in the feed is newer than the checkpoint
that the pass leaves. -/
theorem lost_between_pages :
    let f : Feed := ⟨"notes", three "1" "2" "2", by decide, by decide⟩
    let pass := ({} : Replica).beginPull "notes" 2
    let log := PullPass.log Feed.remote 4 pass {} f
    let p := (PullPass.run Feed.remote 4 pass {} f).1
    let r' := (PullPass.run Feed.remote 4 pass {} f).2.1
    (∃ report, p.result? = some (.ok report) ∧ report.applied = 2 ∧ report.failures = []) ∧
      f.changes.map Change.document = ["a", "b", "c"] ∧
      log.map (fun e => e.1.document) = ["a", "b"] ∧
      r'.documents.get? "notes" "c" = none ∧
      f.after (r'.persisted? "notes") = [] := by
  refine ⟨⟨_, rfl, rfl, rfl⟩, rfl, rfl, rfl, rfl⟩

end Feed

end Replication
