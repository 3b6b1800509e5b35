import Replication.Proofs.Sync.Locality
import Replication.Proofs.Sync.Writers

/-!
# Passes of different collections

A pass changes nothing of other collections and no row of a mutation that it did not ask for,
whatever the server answers and whichever writes fail (`Errand.confined_run`). What it does depends
on its collection's share of the replica and on the writes that fail for it. So passes of two
collections may change places, if the server answers requests of one collection without regard to
those of the other (`Errand.pass_apart`).
-/

namespace Replication

/-! ## Servers -/

namespace Remote

variable {σ τ : Type}

/-- What a server answers to the requests of a collection, and what becomes of a part of its state
then, depends on that part. -/
structure Own (remote : Remote σ) (collection : String) (part : σ → τ) : Prop where
  fetch : ∀ position limit s s', part s = part s' →
    (remote.fetch collection position limit s).1 =
        (remote.fetch collection position limit s').1 ∧
      part (remote.fetch collection position limit s).2 =
        part (remote.fetch collection position limit s').2
  send : ∀ sent s s', part s = part s' →
    (remote.send collection sent s).1 = (remote.send collection sent s').1 ∧
      part (remote.send collection sent s).2 = part (remote.send collection sent s').2

/-- The requests of a collection leave a part of a server's state. -/
structure Spares (remote : Remote σ) (collection : String) (part : σ → τ) : Prop where
  fetch : ∀ position limit s, part (remote.fetch collection position limit s).2 = part s
  send : ∀ sent s, part (remote.send collection sent s).2 = part s

/-- A server that has a state for each collection. -/
def each (remote : Remote σ) : Remote (String → σ) where
  fetch collection position limit s :=
    let (page, next) := remote.fetch collection position limit (s collection)
    (page, Function.update s collection next)
  send collection sent s :=
    let (answer, next) := remote.send collection sent (s collection)
    (answer, Function.update s collection next)

theorem own_each (remote : Remote σ) (collection : String) :
    remote.each.Own collection fun s => s collection where
  fetch position limit s s' h := by simp [each, h]
  send sent s s' h := by simp [each, h]

theorem spares_each (remote : Remote σ) {collection other : String} (h : other ≠ collection) :
    remote.each.Spares collection fun s => s other where
  fetch position limit s := by simp [each, h]
  send sent s := by simp [each, h]

end Remote

/-! ## Runs of passes -/

section run

variable {σ τ : Type} {remote : Remote σ} {collection : String} {part : σ → τ}

namespace PullPass

variable {p : PullPass}

theorem confined_run (fuel : Nat) (hp : p.collection = collection) (r : Replica) (s : σ) :
    r.Confined collection [] (run remote fuel p r s).2.1 := by
  induction fuel generalizing p r s with
  | zero => exact r.confined_refl collection []
  | succ fuel ih =>
    unfold run
    split
    · have hstep := (local_receive hp (remote.fetch p.collection p.position p.limit s).1).confined r
        (r.owns_nil collection)
      exact hstep.trans (ih ((p.collection_receive _ r).trans hp) _ _)
    · exact r.confined_refl collection []

theorem same_run (h : remote.Own collection part) (fuel : Nat) (hp : p.collection = collection)
    {r r' : Replica} {s s' : σ} (hr : r.part collection = r'.part collection)
    (hs : part s = part s') :
    (run remote fuel p r s).2.1.part collection =
      (run remote fuel p r' s').2.1.part collection := by
  induction fuel generalizing p r r' s s' with
  | zero => exact hr
  | succ fuel ih =>
    unfold run
    split
    · obtain ⟨hanswer, hs'⟩ := h.fetch p.position p.limit s s' hs
      obtain ⟨hout, hpart⟩ :=
        (local_receive hp (remote.fetch collection p.position p.limit s).1).same r r'
          (r.owns_nil collection) (r'.owns_nil collection) hr
      subst hp
      dsimp only
      rw [← hanswer, ← hout]
      exact ih (p.collection_receive _ r) hpart hs'
    · exact hr

theorem spares_run (h : remote.Spares collection part) (fuel : Nat) (hp : p.collection = collection)
    (r : Replica) (s : σ) : part (run remote fuel p r s).2.2 = part s := by
  induction fuel generalizing p r s with
  | zero => rfl
  | succ fuel ih =>
    unfold run
    split
    · rw [ih ((p.collection_receive _ r).trans hp), hp]
      exact h.fetch p.position p.limit s
    · rfl

end PullPass

namespace PushPass

variable {p : PushPass}

/-- The batches that a run sends. -/
def requests (remote : Remote σ) : Nat → PushPass → Replica → σ → List (List Mutation)
  | 0, _, _, _ => []
  | fuel + 1, p, r, s =>
    match p.phase with
    | .asking batch _ =>
      let (answer, s) := remote.send p.collection batch s
      let (p, r) := p.receive answer r
      batch :: requests remote fuel p r s
    | _ => []

/-- The mutations of all batches that a run sends. -/
def sent (remote : Remote σ) (fuel : Nat) (p : PushPass) (r : Replica) (s : σ) : List String :=
  (requests remote fuel p r s).flatten.map Mutation.id

theorem sent_succ (fuel : Nat) {batch : List Mutation} {read : Nat}
    (hphase : p.phase = .asking batch read) (r : Replica) (s : σ) :
    sent remote (fuel + 1) p r s = p.asked ++
      sent remote fuel (p.receive (remote.send p.collection batch s).1 r).1
        (p.receive (remote.send p.collection batch s).1 r).2
        (remote.send p.collection batch s).2 := by
  unfold sent asked request?
  rw [requests, hphase]
  simp

theorem confined_run (fuel : Nat) {r : Replica} (h : p.Rightful collection r) (hr : r.Sole)
    (s : σ) : r.Confined collection (sent remote fuel p r s) (run remote fuel p r s).2.1 := by
  induction fuel generalizing p r s with
  | zero => exact r.confined_refl collection _
  | succ fuel ih =>
    cases hphase : p.phase with
    | asking batch read =>
      let answer := (remote.send p.collection batch s).1
      have hstep := (local_receive h.own answer).confined r h.owns
      have hrest := ih (h.receive hr answer) (hstep.sole hr) (remote.send p.collection batch s).2
      rw [sent_succ fuel hphase]
      unfold run
      rw [hphase]
      exact (hstep.mono (List.subset_append_left _ _)).trans
        (hrest.mono (List.subset_append_right _ _))
    | _ =>
      unfold run
      rw [hphase]
      exact r.confined_refl collection _

theorem same_run (h : remote.Own collection part) (fuel : Nat) {r r' : Replica} {s s' : σ}
    (hp : p.Rightful collection r) (hp' : p.Rightful collection r') (hr : r.Sole) (hr' : r'.Sole)
    (hsame : r.part collection = r'.part collection) (hs : part s = part s') :
    (run remote fuel p r s).2.1.part collection =
      (run remote fuel p r' s').2.1.part collection := by
  induction fuel generalizing p r r' s s' with
  | zero => exact hsame
  | succ fuel ih =>
    cases hphase : p.phase with
    | asking batch read =>
      let answer := (remote.send p.collection batch s).1
      have hstep := local_receive hp.own answer
      obtain ⟨hanswer, hs'⟩ := h.send batch s s' hs
      rw [← hp.own] at hanswer hs'
      obtain ⟨hout, hpart⟩ := hstep.same r r' hp.owns hp'.owns hsame
      have hnext' := hp'.receive hr' answer
      rw [← hout] at hnext'
      unfold run
      rw [hphase]
      dsimp only
      rw [← hanswer, ← hout]
      exact ih (hp.receive hr answer) hnext' ((hstep.confined r hp.owns).sole hr)
        ((hstep.confined r' hp'.owns).sole hr') hpart hs'
    | _ =>
      unfold run
      rw [hphase]
      exact hsame

theorem spares_run (h : remote.Spares collection part) (fuel : Nat) (hp : p.collection = collection)
    (r : Replica) (s : σ) : part (run remote fuel p r s).2.2 = part s := by
  induction fuel generalizing p r s with
  | zero => rfl
  | succ fuel ih =>
    unfold run
    split
    · rw [ih ((p.collection_receive _ r).trans hp), hp]
      exact h.send _ s
    · rfl

end PushPass

end run

/-! ## Errands -/

/-- A pass of a collection, up to a number of requests. -/
inductive Errand where
  | pull (collection : String) (limit fuel : Nat)
  | push (collection : String) (limit maxRetries fuel : Nat)

namespace Errand

variable {σ τ : Type}

/-- The collection of an errand. -/
def collection : Errand → String
  | .pull collection _ _ => collection
  | .push collection _ _ _ => collection

/-- The replica and the server after an errand. -/
def run (remote : Remote σ) (e : Errand) (r : Replica) (s : σ) : Replica × σ :=
  match e with
  | .pull collection limit fuel =>
    (PullPass.run remote fuel (r.beginPull collection limit) r s).2
  | .push collection limit maxRetries fuel =>
    let (p, r) := (PushPass.begin collection limit maxRetries).settle r
    (PushPass.run remote fuel p r s).2

/-- The mutations that an errand sends. -/
def sent (remote : Remote σ) (e : Errand) (r : Replica) (s : σ) : List String :=
  match e with
  | .pull _ _ _ => []
  | .push collection limit maxRetries fuel =>
    let (p, r) := (PushPass.begin collection limit maxRetries).settle r
    PushPass.sent remote fuel p r s

variable {remote : Remote σ} {part : σ → τ}

theorem rightful_begin (collection : String) (limit maxRetries : Nat) (r : Replica) :
    (PushPass.begin collection limit maxRetries).Rightful collection r :=
  ⟨rfl, r.owns_nil collection⟩

/-- What a push pass does before its first request. -/
theorem local_begin (collection : String) (limit maxRetries : Nat) :
    Local collection [] (PushPass.begin collection limit maxRetries).settle :=
  PushPass.local_settle rfl

theorem confined_begin (collection : String) (limit maxRetries : Nat) (r : Replica) :
    r.Confined collection [] ((PushPass.begin collection limit maxRetries).settle r).2 :=
  (local_begin collection limit maxRetries).confined r (r.owns_nil collection)

/-- An errand changes nothing of other collections, and no rows but of mutations that it sends. -/
theorem confined_run (remote : Remote σ) (e : Errand) {r : Replica} (hr : r.Sole) (s : σ) :
    r.Confined e.collection (e.sent remote r s) (e.run remote r s).1 := by
  cases e with
  | pull collection limit fuel =>
    have hp : (r.beginPull collection limit).collection = collection := rfl
    exact PullPass.confined_run fuel hp r s
  | push collection limit maxRetries fuel =>
    have hsettle := confined_begin collection limit maxRetries r
    have hrightful := (rightful_begin collection limit maxRetries r).settle hr
    exact (hsettle.mono (List.nil_subset _)).trans
      (PushPass.confined_run fuel hrightful (hsettle.sole hr) s)

/-- What an errand leaves of its collection's part depends on that part. -/
theorem same_run (e : Errand) (h : remote.Own e.collection part) {r r' : Replica} (hr : r.Sole)
    (hr' : r'.Sole) (hsame : r.part e.collection = r'.part e.collection) {s s' : σ}
    (hs : part s = part s') :
    (e.run remote r s).1.part e.collection = (e.run remote r' s').1.part e.collection := by
  cases e with
  | pull collection limit fuel =>
    have hbegin : r.beginPull collection limit = r'.beginPull collection limit :=
      congrArg (PullPass.begin collection limit) (congrArg (·.handed) hsame)
    have hp : (r.beginPull collection limit).collection = collection := rfl
    change (PullPass.run remote fuel (r.beginPull collection limit) r s).2.1.part collection =
      (PullPass.run remote fuel (r'.beginPull collection limit) r' s').2.1.part collection
    rw [← hbegin]
    exact PullPass.same_run h fuel hp hsame hs
  | push collection limit maxRetries fuel =>
    let p := PushPass.begin collection limit maxRetries
    obtain ⟨hout, hpart⟩ := (local_begin collection limit maxRetries).same r r'
      (r.owns_nil collection) (r'.owns_nil collection) hsame
    have hnext := (rightful_begin collection limit maxRetries r).settle hr
    have hnext' := (rightful_begin collection limit maxRetries r').settle hr'
    change (PushPass.run remote fuel (p.settle r).1 (p.settle r).2 s).2.1.part collection =
      (PushPass.run remote fuel (p.settle r').1 (p.settle r').2 s').2.1.part collection
    rw [← hout] at hnext' ⊢
    exact PushPass.same_run h fuel hnext hnext'
      ((confined_begin collection limit maxRetries r).sole hr)
      ((confined_begin collection limit maxRetries r').sole hr') hpart hs

theorem spares_run (e : Errand) (h : remote.Spares e.collection part) (r : Replica) (s : σ) :
    part (e.run remote r s).2 = part s := by
  cases e with
  | pull collection limit fuel =>
    have hp : (r.beginPull collection limit).collection = collection := rfl
    exact PullPass.spares_run h fuel hp r s
  | push collection limit maxRetries fuel =>
    have hp := (PushPass.begin collection limit maxRetries).collection_settle r
    exact PushPass.spares_run h fuel hp _ s

end Errand

/-! ## Errands of two collections -/

/-- Failures to come: which attempts to write meet a lock, and which writes of documents are
refused, both counted from when they begin to come. -/
structure Trouble where
  locked : Nat → Bool := fun _ => false
  refusal : Nat → String → String → Option String := fun _ _ _ => none

namespace Replica

/-- The replica where these failures are to come. -/
def facing (r : Replica) (t : Trouble) : Replica :=
  { r with
    database := { r.database with locked := fun n => t.locked (n - r.database.attempts) }
    documents := { r.documents with refusal := fun n => t.refusal (n - r.documents.writes) } }

/-- Replicas with the same rows, checkpoints and documents. -/
structure Agrees (r r' : Replica) : Prop where
  rows : r.rows? = r'.rows?
  kept : ∀ collection, r.persisted? collection = r'.persisted? collection
  handed : ∀ collection, r.checkpoint? collection = r'.checkpoint? collection
  documents : ∀ collection document,
    r.documents.get? collection document = r'.documents.get? collection document

theorem share_facing (r : Replica) (t : Trouble) (collection : String) :
    (r.facing t).share collection = r.share collection := rfl

/-- What is to come for a collection's part depends on the share of the collection only. -/
theorem part_facing {r r' : Replica} {collection : String}
    (h : r.share collection = r'.share collection) (t : Trouble) :
    (r.facing t).part collection = (r'.facing t).part collection := by
  unfold part
  rw [share_facing, share_facing, h]
  simp [facing]

theorem Confined.of_facing {collection : String} {ids : List String} {r r' : Replica} {t : Trouble}
    (h : (r.facing t).Confined collection ids r') : r.Confined collection ids r' :=
  ⟨h.others, h.rest, h.fewer⟩

end Replica

/-- Rows that are left of the same table are the same if those of each collection are. -/
theorem Rows.eq_of_parts {base rows rows' : Rows} (hu : base.Unique)
    (h : (rows.map Row.queued).Sublist (base.map Row.queued))
    (h' : (rows'.map Row.queued).Sublist (base.map Row.queued))
    (hof : ∀ collection, rows.of collection = rows'.of collection) : rows = rows' := by
  have hids {rows : Rows} (h : (rows.map Row.queued).Sublist (base.map Row.queued)) :
      (rows.map Row.id).Sublist (base.map Row.id) := by
    have hq := h.map Row.id
    rw [List.map_map, List.map_map] at hq
    exact hq
  have hmem : ∀ row, row ∈ rows ↔ row ∈ rows' := by
    intro row
    have hrow : row ∈ rows.of row.collection ↔ row ∈ rows'.of row.collection := by rw [hof]
    simpa only [Rows.mem_of, and_true] using hrow
  have hnodup {rows : Rows} (h : (rows.map Row.queued).Sublist (base.map Row.queued)) :
      rows.Nodup := ((hids h).nodup hu).of_map
  refine (Writers.eq_of_not_swapped ((List.perm_ext_iff_of_nodup (hnodup h) (hnodup h')).2 hmem)
    (hnodup h) ?_).symm
  rintro ⟨a, b, hab, hba⟩
  exact Writers.not_sublist_swap hu ((hab.map Row.id).trans (hids h))
    ((hba.map Row.id).trans (hids h'))

namespace Errand

variable {σ τ τ' : Type}

/-- The replica after two errands, one after the other, each with failures of its own. -/
def inTurn (remote : Remote σ) (e f : Errand) (t u : Trouble) (r : Replica) (s : σ) : Replica :=
  let (r, s) := e.run remote (r.facing t) s
  (f.run remote (r.facing u) s).1

section inTurn

variable {remote : Remote σ} {e f : Errand} {r : Replica} (t u : Trouble) (s : σ)

theorem confined_facing (remote : Remote σ) (e : Errand) (hr : r.Sole) :
    r.Confined e.collection (e.sent remote (r.facing t) s) (e.run remote (r.facing t) s).1 := by
  have hfacing : (r.facing t).Sole := hr
  exact (e.confined_run remote hfacing s).of_facing

/-- An errand leaves its collection the same share before and after one of another collection. -/
theorem share_inTurn {part : σ → τ} (he : remote.Own e.collection part)
    (hf : remote.Spares f.collection part) (hne : e.collection ≠ f.collection) (hr : r.Sole) :
    (inTurn remote e f t u r s).share e.collection =
      (inTurn remote f e u t r s).share e.collection := by
  have hfirst := confined_facing u s remote f hr
  have hpart := Replica.part_facing (hfirst.others _ hne).symm t
  have hserver := (f.spares_run hf (r.facing u) s).symm
  have hsole : (r.facing t).Sole := hr
  have hsole' : ((f.run remote (r.facing u) s).1.facing t).Sole := hfirst.sole hr
  have hsame := e.same_run he hsole hsole' hpart hserver
  have hlast := confined_facing u (e.run remote (r.facing t) s).2 remote f
    ((confined_facing t s remote e hr).sole hr)
  exact (hlast.others _ hne).trans (congrArg (·.toShare) hsame)

/-- Two errands leave of a third collection what there was. -/
theorem share_inTurn_elsewhere (remote : Remote σ) {collection : String}
    (he : collection ≠ e.collection) (hf : collection ≠ f.collection) (hr : r.Sole) :
    (inTurn remote e f t u r s).share collection = r.share collection := by
  have hfirst := confined_facing t s remote e hr
  have hlast := confined_facing u (e.run remote (r.facing t) s).2 remote f (hfirst.sole hr)
  exact (hlast.others _ hf).trans (hfirst.others _ he)

/-- After two errands the table is there if it was, and has only rows that it had. -/
theorem fewer_inTurn (remote : Remote σ) (hr : r.Sole) :
    (inTurn remote e f t u r s).rows?.isSome = r.rows?.isSome ∧
      (((inTurn remote e f t u r s).rows?.getD []).map Row.queued).Sublist
        ((r.rows?.getD []).map Row.queued) := by
  have hfirst := confined_facing t s remote e hr
  have hlast := confined_facing u (e.run remote (r.facing t) s).2 remote f (hfirst.sole hr)
  have hthere {collection : String} {ids : List String} {r r' : Replica}
      (h : r.Confined collection ids r') : r'.rows?.isSome = r.rows?.isSome := by
    simpa using congrArg Option.isSome h.rest
  exact ⟨(hthere hlast).trans (hthere hfirst), hlast.fewer.trans hfirst.fewer⟩

end inTurn

/-- Replicas that have the same of each collection agree, if their rows are left of one table. -/
theorem agrees_of_shares {r r₁ r₂ : Replica} (hr : r.Sole)
    (hthere : r₁.rows?.isSome = r.rows?.isSome) (hthere' : r₂.rows?.isSome = r.rows?.isSome)
    (h : ((r₁.rows?.getD []).map Row.queued).Sublist ((r.rows?.getD []).map Row.queued))
    (h' : ((r₂.rows?.getD []).map Row.queued).Sublist ((r.rows?.getD []).map Row.queued))
    (hshare : ∀ collection, r₁.share collection = r₂.share collection) : r₁.Agrees r₂ where
  rows := by
    cases hrows : r.rows? with
    | none =>
      rw [hrows, Option.isSome_none, Option.isSome_eq_false_iff, Option.isNone_iff_eq_none]
        at hthere hthere'
      rw [hthere, hthere']
    | some base =>
      rw [hrows] at hthere hthere' h h'
      obtain ⟨rows, hrows₁⟩ := Option.isSome_iff_exists.1 hthere
      obtain ⟨rows', hrows₂⟩ := Option.isSome_iff_exists.1 hthere'
      rw [hrows₁] at h ⊢
      rw [hrows₂] at h' ⊢
      refine congrArg some (Rows.eq_of_parts (hr base hrows) h h' fun collection => ?_)
      have hof : r₁.rows?.map (·.of collection) = r₂.rows?.map (·.of collection) :=
        congrArg (·.rows) (hshare collection)
      rw [hrows₁, hrows₂] at hof
      exact Option.some.inj hof
  kept collection := by
    have hkept : r₁.database.tables.checkpoints.map (·.get? collection) =
      r₂.database.tables.checkpoints.map (·.get? collection) :=
        congrArg (·.kept) (hshare collection)
    have hbind := congrArg (·.bind id) hkept
    simp only [Option.bind_map] at hbind
    exact hbind
  handed collection := congrArg (·.handed) (hshare collection)
  documents collection := congrFun (congrArg (·.documents) (hshare collection))

/-- A pass of a collection, whatever the server answers and whichever writes fail, changes nothing
of other collections and no row but those of mutations that it sends. So two passes of different
collections, each with failures of its own, leave the same rows, checkpoints and documents in
either order, if the server's answers to each collection depend on the requests of that collection
only. -/
theorem collections_apart (remote : Remote σ) (e f : Errand) (r : Replica) (s : σ) (hr : r.Sole) :
    r.Confined e.collection (e.sent remote r s) (e.run remote r s).1 ∧
      ∀ (part : σ → τ) (part' : σ → τ') (t u : Trouble), e.collection ≠ f.collection →
        remote.Own e.collection part → remote.Own f.collection part' →
        remote.Spares e.collection part' → remote.Spares f.collection part →
        (inTurn remote e f t u r s).Agrees (inTurn remote f e u t r s) := by
  refine ⟨e.confined_run remote hr s, fun part part' t u hne he hf he' hf' => ?_⟩
  obtain ⟨hthere, hfewer⟩ := fewer_inTurn (e := e) (f := f) t u s remote hr
  obtain ⟨hthere', hfewer'⟩ := fewer_inTurn (e := f) (f := e) u t s remote hr
  refine agrees_of_shares hr hthere hthere' hfewer hfewer' fun collection => ?_
  by_cases hce : collection = e.collection
  · rw [hce]
    exact share_inTurn t u s he hf' hne hr
  by_cases hcf : collection = f.collection
  · rw [hcf]
    exact (share_inTurn u t s hf he' hne.symm hr).symm
  · rw [share_inTurn_elsewhere t u s remote hce hcf hr,
      share_inTurn_elsewhere u t s remote hcf hce hr]

/-- A push of notes of which the first is taken and the second is not answered, and a pull of a
task, with a server that names a mutation of the other collection: the order does not matter, and of
the rows only that of the first note leaves. -/
theorem notes_and_tasks_apart :
    let m (id collection : String) : Mutation := ⟨id, collection, .delete, id, none, 0, 0⟩
    let rows : Rows := [m "n1" "notes", m "t1" "tasks", m "n2" "notes"].map Row.ofMutation
    let r : Replica := { database := { tables := { outbox := some rows } } }
    let task : Change := ⟨"t2", "tasks", [], false, .ofNat 7⟩
    let s (collection : String) : Script :=
      if collection = "notes" then
        { replies := [⟨false, .answer ⟨["n1", "t1"], [⟨"t1", "no"⟩], []⟩⟩] }
      else { pages := [⟨false, .ok { Page.empty with changes := [task] }⟩] }
    let e : Errand := .push "notes" 10 5 3
    let f : Errand := .pull "tasks" 10 3
    let after := inTurn Script.remote.each e f {} {} r s
    r.Confined "notes" ["n1", "n2"] (e.run Script.remote.each r s).1 ∧
      after.Agrees (inTurn Script.remote.each f e {} {} r s) ∧
      (after.rows?.map fun rows => rows.map fun row => (row.id, row.retries)) =
        some [("t1", 0), ("n2", 1)] ∧
      after.checkpoint? "tasks" = some (.ofNat 7) := by
  intro m rows r task s e f after
  have hr : r.Sole := by
    rintro _ ⟨rfl⟩
    have hids : (rows.map Row.id).Nodup := by decide
    exact hids
  have hne : e.collection ≠ f.collection := by decide
  have hsent : e.sent Script.remote.each r s = ["n1", "n2"] := by decide +kernel
  obtain ⟨hconfined, hagrees⟩ := collections_apart Script.remote.each e f r s hr
  rw [hsent] at hconfined
  exact ⟨hconfined,
    hagrees (fun s => s "notes") (fun s => s "tasks") {} {} hne (Script.remote.own_each _)
      (Script.remote.own_each _) (Script.remote.spares_each (by decide))
      (Script.remote.spares_each (by decide)),
    by decide +kernel, by decide +kernel⟩

end Errand

end Replication
