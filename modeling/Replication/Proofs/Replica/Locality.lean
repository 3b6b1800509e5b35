import Replication.Proofs.Replica.Checkpoints
import Replication.Proofs.Replica.Outbox
import Replication.Proofs.Tables.Parts

/-!
# What an action of one collection sees and changes

A collection has its share of a replica: its rows, its checkpoint and its documents. What an action
of a collection does depends on the share and on the writes that will fail (`Replica.Part`), and it
leaves the shares of all other collections and the rows of other mutations (`Replica.Confined`). An
action of which both is true is local (`Local`); actions that are built of local ones are.
-/

namespace Replication

namespace Replica

/-- What a collection has of a replica. -/
@[ext]
structure Share where
  closed : Bool
  rows : Option Rows
  kept : Option (Option Checkpoint)
  handed : Option Checkpoint
  documents : String → Option Object

/-- The share of a collection. -/
def share (r : Replica) (collection : String) : Share where
  closed := r.database.closed
  rows := r.rows?.map (·.of collection)
  kept := r.database.tables.checkpoints.map (·.get? collection)
  handed := r.checkpoint? collection
  documents := r.documents.get? collection

/-- The share of a collection with what is to come: the attempts to write that meet a lock and the
writes of documents that are refused, both counted from now. -/
@[ext]
structure Part extends Share where
  locked : Nat → Bool
  refusal : Nat → String → Option String

/-- The share of a collection with what is to come. -/
def part (r : Replica) (collection : String) : Part where
  toShare := r.share collection
  locked n := r.database.locked (r.database.attempts + n)
  refusal n := r.documents.refusal (r.documents.writes + n) collection

/-- The mutations have rows in one collection only. -/
def Owns (collection : String) (ids : List String) (r : Replica) : Prop :=
  ∀ rows, r.rows? = some rows → rows.Owns collection ids

/-- No two rows are of one mutation. -/
def Sole (r : Replica) : Prop := ∀ rows, r.rows? = some rows → rows.Unique

/-- Nothing of other collections is changed, nor any row but those of some mutations of a
collection; and no row is new. -/
structure Confined (collection : String) (ids : List String) (r r' : Replica) : Prop where
  others : ∀ other, other ≠ collection → r'.share other = r.share other
  rest : r'.rows?.map (·.apart collection ids) = r.rows?.map (·.apart collection ids)
  fewer : ((r'.rows?.getD []).map Row.queued).Sublist ((r.rows?.getD []).map Row.queued)

variable {collection : String} {ids : List String} {r r' r'' : Replica}

theorem owns_nil (collection : String) (r : Replica) : r.Owns collection [] :=
  fun _ _ _ _ hid => nomatch hid

theorem confined_refl (collection : String) (ids : List String) (r : Replica) :
    r.Confined collection ids r := ⟨fun _ _ => rfl, rfl, .refl _⟩

theorem Confined.trans (h : r.Confined collection ids r') (h' : r'.Confined collection ids r'') :
    r.Confined collection ids r'' where
  others other hne := (h'.others other hne).trans (h.others other hne)
  rest := h'.rest.trans h.rest
  fewer := h'.fewer.trans h.fewer

theorem Confined.mono {ids' : List String} (h : r.Confined collection ids r') (hs : ids ⊆ ids') :
    r.Confined collection ids' r' where
  others := h.others
  rest := by
    have hrest := congrArg (Option.map (·.apart collection ids')) h.rest
    simpa only [Option.map_map, Function.comp_def, Rows.apart_apart hs] using hrest
  fewer := h.fewer

/-- A row that is there was there, as far as it speaks of its mutation. -/
theorem Confined.exists_row (h : r.Confined collection ids r') {rows' : Rows}
    (hrows' : r'.rows? = some rows') {row' : Row} (hrow' : row' ∈ rows') :
    ∃ rows, r.rows? = some rows ∧ ∃ row ∈ rows, row.queued = row'.queued := by
  have hq := h.fewer.subset (List.mem_map_of_mem (f := Row.queued) (by rwa [hrows']))
  obtain ⟨row, hrow, hq⟩ := List.mem_map.1 hq
  cases hrows : r.rows? with
  | none =>
    rw [hrows] at hrow
    cases hrow
  | some rows =>
    rw [hrows] at hrow
    exact ⟨rows, rfl, row, hrow, hq⟩

theorem Confined.owns {ids' : List String} (h : r.Confined collection ids r')
    (ho : r.Owns collection ids') : r'.Owns collection ids' := by
  intro rows' hrows' row' hrow' hid
  obtain ⟨rows, hrows, row, hrow, hq⟩ := h.exists_row hrows' hrow'
  rw [← Row.collection_of_queued hq]
  exact ho rows hrows row hrow (Row.id_of_queued hq ▸ hid)

theorem Confined.sole (h : r.Confined collection ids r') (hs : r.Sole) : r'.Sole := by
  intro rows' hrows'
  have hids := h.fewer.map Row.id
  rw [List.map_map, List.map_map, hrows'] at hids
  cases hrows : r.rows? with
  | none =>
    rw [hrows] at hids
    obtain rfl : rows' = [] := by simpa using hids
    exact List.nodup_nil
  | some rows =>
    rw [hrows] at hids
    exact hids.nodup (hs rows hrows)

end Replica

/-! ## Local steps -/

open Replica (Owns Confined)

/-- A step that gives something depends on one collection's part of the replica only, and is
confined to the share of that collection and to some mutations. -/
structure Local {β : Type} (collection : String) (ids : List String)
    (f : Replica → β × Replica) : Prop where
  same : ∀ r s : Replica, r.Owns collection ids → s.Owns collection ids →
    r.part collection = s.part collection →
    (f r).1 = (f s).1 ∧ (f r).2.part collection = (f s).2.part collection
  confined : ∀ r : Replica, r.Owns collection ids → r.Confined collection ids (f r).2

namespace Local

variable {α β : Type} {collection : String} {ids : List String}

theorem of_pure (x : β) : Local collection ids fun r => (x, r) where
  same _ _ _ _ h := ⟨rfl, h⟩
  confined r _ := r.confined_refl collection ids

theorem of_still {f : Replica → β × Replica} {x : β} (h : ∀ r, f r = (x, r)) :
    Local collection ids f := by
  rw [funext h]
  exact of_pure x

theorem andThen {f : Replica → α × Replica} {g : α → Replica → β × Replica}
    (hf : Local collection ids f) (hg : ∀ r, Local collection ids (g (f r).1)) :
    Local collection ids fun r => g (f r).1 (f r).2 where
  same r s hr hs h := by
    obtain ⟨hout, hpart⟩ := hf.same r s hr hs h
    rw [← hout]
    exact (hg r).same _ _ ((hf.confined r hr).owns hr) ((hf.confined s hs).owns hs) hpart
  confined r hr :=
    (hf.confined r hr).trans ((hg r).confined _ ((hf.confined r hr).owns hr))

/-- What begins with a local step is local, if it goes on with a local step for each thing that this
gives. -/
theorem followed {f : Replica → α × Replica} {h : Replica → β × Replica}
    (hf : Local collection ids f)
    (hg : ∀ x, ∃ g, Local collection ids g ∧ ∀ r r', f r = (x, r') → h r = g r') :
    Local collection ids h := by
  choose g hlocal heq using hg
  have he : h = fun r => g (f r).1 (f r).2 := funext fun r => heq _ r _ rfl
  rw [he]
  exact hf.andThen fun r => hlocal _

/-- What changes the counters and the notices only is local. -/
theorem of_kept {f : Replica → Replica} (x : β)
    (h : ∀ r, (f r).database = r.database ∧ (f r).documents = r.documents ∧
      (f r).checkpoints = r.checkpoints) : Local collection ids fun r => (x, f r) where
  same r s _ _ hpart := by
    obtain ⟨hrb, hrd, hrc⟩ := h r
    obtain ⟨hsb, hsd, hsc⟩ := h s
    refine ⟨rfl, ?_⟩
    simpa only [Replica.part, Replica.share, Replica.rows?, Replica.checkpoint?, hrb, hrd, hrc,
      hsb, hsd, hsc] using hpart
  confined r _ := by
    obtain ⟨hb, hd, hc⟩ := h r
    refine ⟨fun other _ => ?_, ?_, ?_⟩
    · simp only [Replica.share, Replica.rows?, Replica.checkpoint?, hb, hd, hc]
    · simp only [Replica.rows?, hb]
    · simp only [Replica.rows?, hb]
      exact .refl _

/-- Something that the collection's part of the replica determines is read. -/
theorem read {f : Replica → α}
    (h : ∀ r s : Replica, r.part collection = s.part collection → f r = f s) :
    Local collection ids fun r => (f r, r) where
  same r s _ _ hpart := ⟨h r s hpart, hpart⟩
  confined r _ := r.confined_refl collection ids

/-! ## Actions -/

theorem pure (x : α) : Local collection ids (Pure.pure x : Action α).exec := of_pure (Except.ok x)

theorem throw (e : SyncError) : Local collection ids (throw e : Action α).exec :=
  of_pure (Except.error e)

theorem bind {a : Action α} {f : α → Action β} (ha : Local collection ids a.exec)
    (hf : ∀ x, Local collection ids (f x).exec) : Local collection ids (a >>= f).exec := by
  refine ha.followed fun out => ?_
  cases out with
  | error e => exact ⟨_, of_pure (.error e), fun r r' hr => by rw [Action.exec_bind, hr]⟩
  | ok x => exact ⟨_, hf x, fun r r' hr => by rw [Action.exec_bind, hr]⟩

theorem attempt {a : Action α} (ha : Local collection ids a.exec) :
    Local collection ids (Action.attempt a).exec :=
  ha.andThen (g := fun out r => (Except.ok out, r)) fun r => of_pure (Except.ok (a.exec r).1)

theorem ite {p : Prop} [Decidable p] {a b : Action α} (ha : Local collection ids a.exec)
    (hb : Local collection ids b.exec) : Local collection ids (if p then a else b).exec := by
  split
  · exact ha
  · exact hb

theorem measure (f : Metrics → Metrics) : Local collection ids (Action.measure f).exec :=
  of_kept (Except.ok ()) fun _ => ⟨rfl, rfl, rfl⟩

theorem lift (x : Except SyncError α) : Local collection ids (Replica.lift x).exec := by
  cases x with
  | ok x => exact pure x
  | error e => exact throw e

theorem query_rows {f : Rows → α} (hf : ∀ rows, f rows = f (rows.of collection)) :
    Local collection ids (Action.query fun t => t.outbox.map f).exec := by
  have he : (Action.query fun t => t.outbox.map f).exec =
      fun r => (((Action.query fun t => t.outbox.map f).exec r).1, r) := by
    funext r
    rw [Action.exec_query]
  rw [he]
  refine read fun r s h => ?_
  have hclosed : r.database.closed = s.database.closed := congrArg (·.closed) h
  have hrows : r.database.tables.outbox.map (·.of collection) =
    s.database.tables.outbox.map (·.of collection) := congrArg (·.rows) h
  have hf' : r.database.tables.outbox.map f = s.database.tables.outbox.map f := by
    have hmap := congrArg (Option.map f) hrows
    simpa only [Option.map_map, Function.comp_def, ← hf] using hmap
  rw [Action.exec_query, Action.exec_query, hclosed, hf']

end Local

/-! ## Writes -/

/-- Whether a write gets through depends on the attempts that it makes. -/
theorem Database.acquire_congr {l l' : Nat → Bool} {m m' : Nat} (h : ∀ k, l (m + k) = l' (m' + k))
    (left : Nat) : acquire l left m = acquire l' left m' := by
  induction left generalizing m m' with
  | zero => rfl
  | succ left ih =>
    have hnext : ∀ k, l (m + 1 + k) = l' (m' + 1 + k) := fun k => by
      simpa only [Nat.add_assoc] using h (1 + k)
    have hfirst : l m = l' m' := h 0
    unfold acquire
    rw [hfirst, ih hnext]

/-- The tables as one collection has them. -/
def Tables.share (t : Tables) (collection : String) : Option Rows × Option (Option Checkpoint) :=
  (t.outbox.map (·.of collection), t.checkpoints.map (·.get? collection))

/-- What follows an attempt to write a checkpoint: it is handed out if it was written. -/
def Replica.handOut (collection : String) (next : Checkpoint) (written : Except SyncError Unit)
    (r : Replica) : Except SyncError Unit × Replica :=
  match written with
  | .ok () => (.ok (),
    { r with
      checkpoints := r.checkpoints.set collection next
      metrics := r.metrics.checkpointPersist collection true })
  | .error e => (.error e, { r with metrics := r.metrics.checkpointPersist collection false })

namespace Local

variable {α : Type} {collection : String} {ids : List String}

/-- After an attempt to write the collection's part has the new tables, and what is to come of the
lock. -/
theorem part_written {r s : Replica} (h : r.part collection = s.part collection) {t t' : Tables}
    (ht : t.share collection = t'.share collection) (k : Nat) (m m' : Metrics) :
    (r.written t (r.database.attempts + k + 1) m).part collection =
      (s.written t' (s.database.attempts + k + 1) m').part collection := by
  obtain ⟨hrows, hkept⟩ := Prod.mk.inj ht
  refine Replica.Part.ext (congrArg (·.closed) h) hrows hkept (congrArg (·.handed) h)
    (congrArg (·.documents) h) (funext fun n => ?_) (congrArg (·.refusal) h)
  have hlocked := congrFun (congrArg (·.locked) h) (k + (1 + n))
  simpa only [Replica.part, Replica.written, Nat.add_assoc] using hlocked

/-- A write is local if what it makes of the tables is. -/
theorem write (operation : String) {f : Tables → Option (α × Tables)}
    (hsame : ∀ r s : Replica, r.Owns collection ids → s.Owns collection ids →
      r.part collection = s.part collection →
        (f r.database.tables).map (fun x => (x.1, x.2.share collection)) =
          (f s.database.tables).map fun x => (x.1, x.2.share collection))
    (hconfined : ∀ (r : Replica) (x : α) (t : Tables), r.Owns collection ids →
      f r.database.tables = some (x, t) → ∀ n m, r.Confined collection ids (r.written t n m)) :
    Local collection ids (Action.write operation f).exec where
  same r s hr hs h := by
    obtain ⟨m, he⟩ := Action.exec_write_eq operation f r
    obtain ⟨m', he'⟩ := Action.exec_write_eq operation f s
    have hclosed : r.database.closed = s.database.closed := congrArg (·.closed) h
    have hacquire : Database.acquire r.database.locked Database.maxAttempts r.database.attempts =
        Database.acquire s.database.locked Database.maxAttempts s.database.attempts :=
      Database.acquire_congr (congrFun (congrArg (·.locked) h)) _
    have htables := hsame r s hr hs h
    rw [he, he', hclosed]
    split
    · exact ⟨rfl, h⟩
    cases hf : f r.database.tables with
    | none =>
      rw [hf] at htables
      rw [Option.map_eq_none_iff.1 htables.symm]
      exact ⟨rfl, h⟩
    | some xt =>
      rw [hf] at htables
      obtain ⟨xt', hf', hx⟩ := Option.map_eq_some_iff.1 htables.symm
      obtain ⟨hx, ht⟩ := Prod.mk.inj hx
      have hold : r.database.tables.share collection = s.database.tables.share collection :=
        Prod.ext (congrArg (·.rows) h) (congrArg (·.kept) h)
      rw [hf']
      dsimp only
      rw [hacquire]
      split
      · exact ⟨congrArg Except.ok hx.symm, part_written h ht.symm _ m m'⟩
      · exact ⟨rfl, part_written h hold _ m m'⟩
  confined r hr := by
    rcases Action.exec_write operation f r with ⟨n, m, he⟩ | ⟨x, t, n, m, hf, he⟩
    · rw [he]
      exact ⟨fun _ _ => rfl, rfl, .refl _⟩
    · rw [he]
      exact hconfined r x t hr hf n m

/-- A statement that is local to the rows of a collection is. -/
theorem write_rows (operation : String) {f : Rows → α × Rows} (hf : Rows.Local collection ids f) :
    Local collection ids (Action.write operation (Replica.change f)).exec := by
  refine write operation (fun r s hr hs h => ?_) fun r x t hr hx n m => ?_
  · have hrows : r.rows?.map (·.of collection) = s.rows?.map (·.of collection) :=
      congrArg (·.rows) h
    have hkept : r.database.tables.checkpoints.map (·.get? collection) =
      s.database.tables.checkpoints.map (·.get? collection) := congrArg (·.kept) h
    unfold Replica.change
    rw [Option.map_map, Option.map_map]
    change r.rows?.map _ = s.rows?.map _
    cases hr' : r.rows? with
    | none =>
      rw [hr'] at hrows
      rw [Option.map_eq_none_iff.1 hrows.symm]
      rfl
    | some rows =>
      rw [hr'] at hrows
      obtain ⟨rows', hs', hof⟩ := Option.map_eq_some_iff.1 hrows.symm
      have hgiven := (hf.given rows (hr rows hr')).trans
        (hof ▸ (hf.given rows' (hs rows' hs')).symm)
      have hleft := (hf.left rows (hr rows hr')).trans
        (hof ▸ (hf.left rows' (hs rows' hs')).symm)
      rw [hs']
      simp only [Option.map_some, Function.comp_apply, Tables.share, hgiven, hleft, hkept]
  · obtain ⟨rows, hrows, hx⟩ := Option.map_eq_some_iff.1 hx
    obtain ⟨-, rfl⟩ := Prod.mk.inj hx
    have hold : r.rows? = some rows := hrows
    refine ⟨fun other hne => ?_, ?_, ?_⟩
    · have hof : Rows.of (f rows).2 other = Rows.of rows other := by
        have hof (rows : Rows) : Rows.of (rows.apart collection ids) other = rows.of other :=
          Rows.of_apart hne
        rw [← hof, hf.rest rows (hr rows hold), hof]
      refine Replica.Share.ext rfl ?_ rfl rfl rfl
      simp only [Replica.share, hold, Option.map_some, ← hof]
      rfl
    · rw [hold]
      exact congrArg some (hf.rest rows (hr rows hold))
    · rw [hold]
      exact hf.fewer rows

/-- The checkpoint of the collection is written. -/
theorem write_checkpoint (operation : String) (next : Checkpoint) :
    Local collection ids (Action.write operation (Replica.keep collection next)).exec := by
  refine write operation (fun r s hr hs h => ?_) fun r x t hr hx n m => ?_
  · have hrows : r.database.tables.outbox.map (·.of collection) =
      s.database.tables.outbox.map (·.of collection) := congrArg (·.rows) h
    have hkept : r.database.tables.checkpoints.map (·.get? collection) =
      s.database.tables.checkpoints.map (·.get? collection) := congrArg (·.kept) h
    unfold Replica.keep
    rw [Option.map_map, Option.map_map]
    cases hr' : r.database.tables.checkpoints with
    | none =>
      rw [hr'] at hkept
      rw [Option.map_eq_none_iff.1 hkept.symm]
      rfl
    | some kept =>
      rw [hr'] at hkept
      obtain ⟨kept', hs', -⟩ := Option.map_eq_some_iff.1 hkept.symm
      rw [hs']
      simp only [Option.map_some, Function.comp_apply, Tables.share, hrows, KeyMap.get?_set,
        if_true]
  · obtain ⟨kept, hkept, rfl⟩ := Replica.keep_eq_some hx
    refine ⟨fun other hne => ?_, rfl, .refl _⟩
    refine Replica.Share.ext rfl rfl ?_ rfl rfl
    simp only [Replica.share, Replica.written_tables, hkept, Option.map_some, KeyMap.get?_set,
      if_neg hne.symm]

/-! ## Operations of the replica -/

theorem acknowledge {taken : List String} (ht : taken ⊆ ids) :
    Local collection ids (Replica.acknowledge taken).exec := by
  rw [Replica.acknowledge_eq]
  exact ite (pure 0) (write_rows _ (Rows.local_acknowledge ht))

theorem requeue {id : String} (hid : id ∈ ids) (reason : String) :
    Local collection ids (Replica.requeue id reason).exec := by
  rw [Replica.requeue_eq]
  refine (write_rows _ (Rows.local_requeue hid reason)).bind fun row => ?_
  cases row with
  | none => exact pure none
  | some row => exact ite (pure _) (throw _)

theorem markFailed {id : String} (hid : id ∈ ids) (reason : String) :
    Local collection ids (Replica.markFailed id reason).exec := by
  rw [Replica.markFailed_eq]
  exact (write_rows _ (Rows.local_markFailed hid reason)).bind fun row =>
    (lift _).bind fun _ => pure _

theorem pending (limit : Nat) : Local collection ids (Replica.pending collection limit).exec :=
  (query_rows fun rows => by rw [Rows.pending_of]).bind fun _ => lift _

theorem pendingCount : Local collection ids (Replica.pendingCount collection).exec :=
  query_rows fun rows => by rw [Rows.pending_of]

theorem handOut (next : Checkpoint) (out : Except SyncError Unit) :
    Local collection ids (Replica.handOut collection next out) := by
  cases out with
  | error e => exact of_kept (Except.error e) fun _ => ⟨rfl, rfl, rfl⟩
  | ok u =>
    refine ⟨fun r s _ _ h => ?_, fun r _ => ?_⟩
    · refine ⟨rfl, Replica.Part.ext (congrArg (·.closed) h) (congrArg (·.rows) h)
        (congrArg (·.kept) h) ?_ (congrArg (·.documents) h) (congrArg (·.locked) h)
        (congrArg (·.refusal) h)⟩
      simp only [Replica.handOut, Replica.part, Replica.share, Replica.checkpoint?,
        KeyMap.get?_set, if_true]
    · refine ⟨fun other hne => Replica.Share.ext rfl rfl rfl ?_ rfl, rfl, .refl _⟩
      simp only [Replica.handOut, Replica.share, Replica.checkpoint?, KeyMap.get?_set,
        if_neg hne.symm]

theorem setCheckpoint (next : Checkpoint) :
    Local collection ids (Replica.setCheckpoint collection next).exec := by
  have hread : Local collection ids fun r =>
      (Replica.settled (r.checkpoint? collection) next, r) := by
    refine read fun r s h => ?_
    have hhanded : r.checkpoint? collection = s.checkpoint? collection := congrArg (·.handed) h
    rw [hhanded]
  refine hread.followed fun settled => ?_
  rcases settled with e | _ | _
  · refine ⟨_, of_pure (.error e), fun r r' hr => ?_⟩
    obtain ⟨hs, rfl⟩ := Prod.mk.inj hr
    rw [Replica.exec_setCheckpoint_eq, hs]
  · refine ⟨_, (write_checkpoint "checkpoint_set" next).andThen fun r => handOut next _,
      fun r r' hr => ?_⟩
    obtain ⟨hs, rfl⟩ := Prod.mk.inj hr
    rw [Replica.exec_setCheckpoint_eq, hs]
    dsimp only
    rcases (Action.write "checkpoint_set" (Replica.keep collection next)).exec r with ⟨_ | _, _⟩
    · rfl
    · rfl
  · refine ⟨_, of_pure (.ok ()), fun r r' hr => ?_⟩
    obtain ⟨hs, rfl⟩ := Prod.mk.inj hr
    rw [Replica.exec_setCheckpoint_eq, hs]

theorem applyChange (c : Change) : Local collection ids (Action.applyChange collection c).exec where
  same r s _ _ h := by
    obtain ⟨m, he⟩ := Action.exec_applyChange collection c r
    obtain ⟨m', he'⟩ := Action.exec_applyChange collection c s
    have hget : r.documents.get? collection = s.documents.get? collection :=
      congrArg (·.documents) h
    have hrefusal := fun n => congrFun (congrArg (·.refusal) h) n
    have hout : (r.documents.apply collection c).1 = (s.documents.apply collection c).1 := by
      rw [Documents.fst_apply, Documents.fst_apply]
      exact congrFun (hrefusal 0) c.document
    rw [he, he']
    refine ⟨congrArg Except.ok hout, ?_⟩
    refine Replica.Part.ext (congrArg (·.closed) h) (congrArg (·.rows) h) (congrArg (·.kept) h)
      (congrArg (·.handed) h) (funext fun document => ?_) (congrArg (·.locked) h)
      (funext fun n => ?_)
    · simp only [Replica.part, Replica.share, Documents.get?_apply, hout, hget]
    · simp only [Replica.part, Documents.refusal_apply, Documents.writes_apply, Nat.add_assoc]
      exact hrefusal (1 + n)
  confined r _ := by
    obtain ⟨m, he⟩ := Action.exec_applyChange collection c r
    rw [he]
    refine ⟨fun other hne => Replica.Share.ext rfl rfl rfl rfl ?_, rfl, .refl _⟩
    exact r.documents.get?_apply_elsewhere collection hne c

end Local

end Replication
