import Mathlib.Data.List.Perm.Subperm
import Replication.Proofs.Pull.Exchanges
import Replication.Proofs.Pull.Paging

/-!
# Pull passes that come to an end

A pass asks again only after a full page without fault, and then from the position that the page
covers, which is newer than the one it asked from. So the positions of its requests increase,
whatever the server answers (`PullPass.positions_increase`).

If the server answers from a finite feed, every page but the last one takes as many changes as a
page holds, or more, out of what is left of the feed. So a pass over a feed of `N` changes is over
after at most `N / limit + 1` requests, and no change is fetched twice (`PullPass.fetched_once`).
-/

namespace Replication

/-- No position precedes every position, and positions that follow one another increase. -/
theorem Checkpoint.lt_trans_option {a b c : Option Checkpoint} (hab : a < b) (hbc : b < c) :
    a < c := by
  cases c with
  | none => exact absurd hbc Option.not_lt_none
  | some z =>
    cases a with
    | none => exact Option.none_lt_some
    | some x =>
      cases b with
      | none => exact absurd hab Option.not_lt_none
      | some y =>
        exact Option.some_lt_some.2
          (lt_trans (Option.some_lt_some.1 hab) (Option.some_lt_some.1 hbc))

namespace PullPass

/-- The changes of an answer, whether or not they are accepted. -/
def fetched : Except SyncError Page → List Change
  | .error _ => []
  | .ok page => page.changes

section

variable {σ : Type} (remote : Remote σ)

/-- A request from a position comes before those from newer positions. -/
theorem positions_increase (fuel : Nat) (p : PullPass) (r : Replica) (s : σ) :
    ((exchanges remote fuel p r s).map Prod.fst).Pairwise (· < ·) ∧
      ∀ x ∈ (exchanges remote fuel p r s).map Prod.fst, x = p.position ∨ p.position < x := by
  induction fuel generalizing p r s with
  | zero => exact ⟨.nil, fun x hx => by cases hx⟩
  | succ fuel ih =>
    by_cases hp : p.phase = .asking
    · simp only [exchanges, hp, List.map_cons, List.pairwise_cons, List.mem_cons]
      rcases receive_cases p (remote.fetch p.collection p.position p.limit s).1 r with
        ⟨result, hdone⟩ | ⟨page, q, report, r', -, hv, hne, -, hq, he⟩
      · rw [exchanges_over remote fuel (not_asking_of_done hdone)]
        exact ⟨⟨fun x hx => (by cases hx), .nil⟩, fun x hx => .inl (hx.resolve_right (by simp))⟩
      · have hlt : p.position < some q := by
          cases hpos : p.position with
          | none => exact Option.none_lt_some
          | some c => exact Option.some_lt_some.2 (hv.lt_trailing hne hq hpos)
        obtain ⟨hpairs, hfirst⟩ := ih { p with position := some q, report, phase := .asking } r'
          (remote.fetch p.collection p.position p.limit s).2
        rw [he]
        have hafter : ∀ x ∈ (exchanges remote fuel
            { p with position := some q, report, phase := .asking } r'
            (remote.fetch p.collection p.position p.limit s).2).map Prod.fst, p.position < x :=
          fun x hx => (hfirst x hx).elim (fun h => h ▸ hlt) (Checkpoint.lt_trans_option hlt)
        exact ⟨⟨hafter, hpairs⟩, fun x hx => hx.imp_right (hafter x)⟩
    · rw [exchanges_over remote _ hp]
      exact ⟨.nil, fun x hx => by cases hx⟩

/-- What is left of a feed after a full page: the page and all that comes later are part of what was
left before, which is larger by what the page holds. -/
theorem newerThan_page {collection : String} {position : Option Checkpoint} {page : Page}
    {q : Checkpoint} {feed rest : List Change} (hv : page.Valid collection position)
    (hne : page.changes ≠ []) (hq : page.trailing? = some q)
    (hpage : page.changes.Subperm (Change.newerThan position feed))
    (hrest : rest.Subperm (Change.newerThan (some q) feed)) :
    (page.changes ++ rest).Subperm (Change.newerThan position feed) ∧
      page.changes.length + (Change.newerThan (some q) feed).length ≤
        (Change.newerThan position feed).length := by
  have hsplit := List.filter_append_perm (fun c => c.checkpoint.isAfter q)
    (Change.newerThan position feed)
  rw [← Change.newerThan_some fun c hc => hv.lt_trailing hne hq hc] at hsplit
  have hkept : page.changes.filter (fun c => !c.checkpoint.isAfter q) = page.changes := by
    refine List.filter_eq_self.2 fun c hc => ?_
    rw [Bool.not_eq_true', Bool.eq_false_iff, ne_eq, Checkpoint.isAfter_iff]
    exact not_lt_of_ge (hv.le_trailing hq hc)
  have hpart := hpage.filter fun c => !c.checkpoint.isAfter q
  rw [hkept] at hpart
  refine ⟨?_, ?_⟩
  · exact (List.perm_append_comm.subperm.trans (hrest.append hpart)).trans hsplit.subperm
  · rw [← hsplit.length_eq, List.length_append, Nat.add_comm]
    exact Nat.add_le_add_left hpart.length_le _

/-- A pass against a feed: what it fetches is part of what the feed holds behind its position, the
requests are at most as many as full pages can come out of that, and one more, and it is over if it
may make so many. -/
theorem run_feed_bound {feed : List Change} (fuel : Nat) {p : PullPass} (hp : p.phase = .asking)
    (hlimit : 1 ≤ p.limit) (r : Replica) (s : σ)
    (hfeed : ∀ position page, (position, .ok page) ∈ exchanges remote fuel p r s →
      page.changes.Subperm (Change.newerThan position feed)) :
    let left := Change.newerThan p.position feed
    (exchanges remote fuel p r s).length ≤ left.length / p.limit + 1 ∧
      ((exchanges remote fuel p r s).flatMap fun x => fetched x.2).Subperm left ∧
      (left.length / p.limit + 1 ≤ fuel → ∃ result, (run remote fuel p r s).1.phase = .done result) := by
  induction fuel generalizing p r s with
  | zero => exact ⟨Nat.zero_le _, List.nil_subperm, fun h => absurd h (Nat.not_succ_le_zero _)⟩
  | succ fuel ih =>
    rcases hsent : remote.fetch p.collection p.position p.limit s with ⟨answer, s'⟩
    simp only [exchanges, run, hp, hsent, List.mem_cons] at hfeed ⊢
    rcases receive_cases p answer r with
      ⟨result, hdone⟩ | ⟨page, q, report, r', rfl, hv, hne, hfull, hq, he⟩
    · have hover := not_asking_of_done hdone
      rw [exchanges_over remote fuel hover, run_over remote fuel hover]
      refine ⟨Nat.le_add_left 1 _, ?_, fun _ => ⟨result, hdone⟩⟩
      rw [List.flatMap_cons, List.flatMap_nil, List.append_nil]
      cases answer with
      | error e => exact List.nil_subperm
      | ok page => exact hfeed p.position page (.inl rfl)
    · rw [he] at hfeed ⊢
      obtain ⟨hlen, hpart, hover⟩ := ih (p := { p with position := some q, report, phase := .asking })
        rfl hlimit r' s' fun position page hmem => hfeed position page (.inr hmem)
      obtain ⟨hall, hless⟩ :=
        newerThan_page hv hne hq (hfeed p.position page (.inl rfl)) hpart
      have hpages : (Change.newerThan (some q) feed).length / p.limit + 1 ≤
          (Change.newerThan p.position feed).length / p.limit := by
        rw [← Nat.add_div_right _ hlimit]
        exact Nat.div_le_div_right (by omega)
      exact ⟨Nat.succ_le_succ (le_trans hlen hpages), hall,
        fun hfuel => hover (le_trans hpages (Nat.le_of_succ_le_succ hfuel))⟩

end

/-- A pull pass, whatever the server answers: it asks from its checkpoint first, and every later
request is from a newer position than the one before. If what every page holds is newer than the
position asked for and part of one feed of `N` changes, the pass makes at most `N / limit + 1`
requests, fetches no change of the feed twice, and is over if it may make so many requests. Pages
may be longer or shorter than the limit, and any request may fail. -/
theorem fetched_once {σ : Type} (remote : Remote σ) (collection : String) (limit fuel : Nat)
    (hlimit : 1 ≤ limit) (r : Replica) (s : σ) :
    let pass := r.beginPull collection limit
    let asked := exchanges remote fuel pass r s
    (asked.map Prod.fst).Pairwise (· < ·) ∧
      (0 < fuel → (asked.map Prod.fst).head? = some (r.checkpoint? collection)) ∧
      ∀ feed : List Change,
        (∀ position page, (position, .ok page) ∈ asked →
          page.changes.Subperm (Change.newerThan position feed)) →
        asked.length ≤ feed.length / limit + 1 ∧
          (asked.flatMap fun x => fetched x.2).Subperm feed ∧
          (feed.length / limit + 1 ≤ fuel →
            ∃ result, (run remote fuel pass r s).1.result? = some result) := by
  intro pass asked
  refine ⟨(positions_increase remote fuel pass r s).1, fun hfuel => ?_, fun feed hfeed => ?_⟩
  · obtain ⟨fuel, rfl⟩ := Nat.exists_eq_succ_of_ne_zero (Nat.ne_of_gt hfuel)
    rfl
  have hsize : pass.limit = limit := Nat.max_eq_left hlimit
  have hpart : (Change.newerThan pass.position feed).Sublist feed := List.filter_sublist
  obtain ⟨hlen, hfetched, hover⟩ :=
    run_feed_bound remote fuel (p := pass) rfl (hsize.symm ▸ hlimit) r s hfeed
  rw [hsize] at hlen hover
  have hpages := Nat.add_le_add_right (Nat.div_le_div_right (c := limit) hpart.length_le) 1
  refine ⟨le_trans hlen hpages, hfetched.trans hpart.subperm, fun hfuel => ?_⟩
  obtain ⟨result, hdone⟩ := hover (le_trans hpages hfuel)
  exact ⟨result, by rw [result?, hdone]⟩

/-- A feed of three changes, two of them a full page: two requests, as many as can be. -/
theorem three_fetched_once :
    let feed := Feed.three "1" "2" "x"
    let s : Script :=
      { pages := [⟨false, .ok ⟨feed.take 2, none⟩⟩, ⟨false, .ok ⟨feed.drop 2, none⟩⟩] }
    let pass := ({} : Replica).beginPull "notes" 2
    let asked := exchanges Script.remote 2 pass {} s
    asked.map Prod.fst = [none, some ⟨"2"⟩] ∧ asked.length ≤ feed.length / 2 + 1 ∧
      (asked.flatMap fun x => fetched x.2).Subperm feed ∧
      ∃ result, (run Script.remote 2 pass {} s).1.result? = some result := by
  obtain ⟨-, -, hbound⟩ := fetched_once Script.remote "notes" 2 2 (by decide) {}
    { pages := [⟨false, .ok ⟨(Feed.three "1" "2" "x").take 2, none⟩⟩,
        ⟨false, .ok ⟨(Feed.three "1" "2" "x").drop 2, none⟩⟩] }
  obtain ⟨hlen, hpart, hover⟩ := hbound (Feed.three "1" "2" "x") fun position page hmem => by
    have hpages := List.mem_pair.1 hmem
    rcases hpages with h | h
    · obtain ⟨rfl, hpage⟩ := Prod.mk.inj h
      obtain rfl := Except.ok.inj hpage
      exact (List.take_sublist 2 _).subperm
    · obtain ⟨rfl, hpage⟩ := Prod.mk.inj h
      obtain rfl := Except.ok.inj hpage
      exact List.Subperm.refl _
  exact ⟨rfl, hlen, hpart, hover (by decide)⟩

end PullPass

end Replication
