import Replication.Coordinator.Basic
import Replication.Proofs.Collection.Queueing
import Replication.Proofs.Collection.Stop
import Replication.Proofs.Replica.Outbox

/-!
# The collections of a coordinator are sites

Whatever a coordinator does is, for each of its collections, a sequence of events of a site.

1. A call that starts the collection is a start. One that stops it is the fence and the request to
   the tasks, and then one step after the other of the wait.
2. A mutation is queued by both halves of queueing.
3. What is done to other collections goes on elsewhere.

So what holds of a site after any events holds of each collection of each coordinator that comes
about (`Coordinator.Reached.exists_events`).
-/

namespace Replication

theorem KeyMap.get?_map {κ α β : Type} [DecidableEq κ] (m : KeyMap κ α) (f : α → β) (key : κ) :
    KeyMap.get? (m.map fun e => (e.1, f e.2)) key = (m.get? key).map f := by
  induction m with
  | nil => rfl
  | cons e m ih =>
    rw [List.map_cons, get?_cons, get?_cons, ih]
    split <;> rfl

namespace Collection

variable {c c' : Collection} {s s' : Surroundings}

/-- Only a run that is being stopped has steps of a stop. -/
theorem isSome_of_stepStop? (h : c.stepStop? s = some (c', s')) :
    c.run.isSome = true ∧ c.stop.isSome = true := by
  cases hr : c.run with
  | none => simp [stepStop?, hr] at h
  | some run =>
    cases hs : c.stop with
    | none => simp [stepStop?, hr, hs] at h
    | some stage => exact ⟨rfl, rfl⟩

/-! ## Collections say nothing of queued mutations -/

theorem enqueued_start (c : Collection) (s : Surroundings) :
    (c.start s).2.2.replica.enqueued = s.replica.enqueued := by
  cases hr : c.run with
  | some run => rw [start_of_run hr]
  | none =>
    obtain ⟨run, s', he, hc, -⟩ := start_of_none hr s
    rw [he]
    exact hc

theorem enqueued_syncNow (c : Collection) (s : Surroundings) :
    (c.syncNow s).2.2.replica.enqueued = s.replica.enqueued := by
  unfold syncNow
  split <;> rfl

theorem enqueued_step? {t : RunTask} (h : c.step? t s = some (c', s')) :
    s'.replica.enqueued = s.replica.enqueued := by
  obtain ⟨run, hr, h⟩ := Option.bind_eq_some_iff.1 h
  cases t with
  | lane l =>
    obtain ⟨t', w', hm, rfl, rfl⟩ := stepLane?_cases h
    exact hm.enqueued
  | enqueues =>
    obtain ⟨run', rfl, hc, -⟩ := stepEnqueues?_cases h
    exact hc
  | listener => exact (kin_stepListener? hr h).2
  | notices => exact (kin_stepNotices? hr h).2

theorem enqueued_stepStop? (h : c.stepStop? s = some (c', s')) :
    s'.replica.enqueued = s.replica.enqueued := by
  obtain ⟨run, hr⟩ := Option.isSome_iff_exists.1 (isSome_of_stepStop? h).1
  rcases stepStop?_cases hr h with ⟨-, -, -, hc, -⟩ | ⟨-, -, he⟩ | ⟨-, -, -, -, rfl, -⟩
  · exact hc
  · cases he
    rfl
  · rfl

end Collection

namespace Site

variable {c c' : Collection} {s s' : Surroundings} {h : List Deed}

/-- The site comes about. -/
def Reached (t : Site) : Prop :=
  ∃ path script source shared es, t = (fresh path script source shared).run es

theorem run_append (t : Site) (es es' : List Event) : t.run (es ++ es') = (t.run es).run es' :=
  List.foldl_append

theorem Reached.run {t : Site} (ht : t.Reached) (es : List Event) : (t.run es).Reached := by
  obtain ⟨path, script, source, shared, es', rfl⟩ := ht
  exact ⟨path, script, source, shared, es' ++ es, (run_append _ es' es).symm⟩

theorem Reached.sound {t : Site} (ht : t.Reached) : t.Sound := by
  obtain ⟨path, script, source, shared, es, rfl⟩ := ht
  exact (sound_fresh path script source shared).run es

theorem Reached.noticed {t : Site} (ht : t.Reached) : t.Noticed := by
  obtain ⟨path, script, source, shared, es, rfl⟩ := ht
  exact (noticed_fresh path script source shared).run es

/-! ## What is done to one collection -/

/-- Events of the site lead from one state of the collection and what is shared to another one. -/
def Leads (c : Collection) (s : Surroundings) (c' : Collection) (s' : Surroundings) : Prop :=
  ∀ h, Reached ⟨c, s, h⟩ → ∃ es h', run ⟨c, s, h⟩ es = ⟨c', s', h'⟩

theorem leads_elsewhere (c : Collection)
    (hc : s'.replica.enqueued = s.replica.enqueued) : Leads c s c s' := by
  intro h _
  refine ⟨[.elsewhere s'], h ++ [], ?_⟩
  show elsewhere ⟨c, s, h⟩ s' = _
  rw [elsewhere, ← hc]
  rfl

theorem Leads.trans {c'' : Collection} {s'' : Surroundings} (hl : Leads c s c' s')
    (hl' : Leads c' s' c'' s'') : Leads c s c'' s'' := by
  intro h hr
  obtain ⟨es, h', he⟩ := hl h hr
  obtain ⟨es', h'', he'⟩ := hl' h' (he ▸ hr.run es)
  exact ⟨es ++ es', h'', by rw [run_append, he, he']⟩

theorem leads_task {t : RunTask} (hstep : c.step? t s = some (c', s')) : Leads c s c' s' := by
  intro h _
  refine ⟨[.task t], h ++ taskDeeds t c c', ?_⟩
  show task ⟨c, s, h⟩ t = _
  simp only [task, hstep]
  rfl

theorem leads_start (c : Collection) (s : Surroundings) :
    Leads c s (c.start s).2.1 (c.start s).2.2 := by
  cases hr : c.run with
  | some run =>
    rw [Collection.start_of_run hr]
    exact leads_elsewhere c rfl
  | none =>
    intro h _
    obtain ⟨run, s', he, -⟩ := Collection.start_of_none hr s
    refine ⟨[.start], h ++ [.started], ?_⟩
    show start ⟨c, s, h⟩ = _
    simp only [start, isStopping, hr, he, Option.isSome_none, Bool.false_and, Bool.false_eq_true,
      if_false]
    rfl

/-- The fence changes only what the request to the tasks changes as well. -/
theorem beginStop_halt (c : Collection) (s : Surroundings) (hr : c.run.isSome = true)
    (hs : c.stop = none) :
    Collection.beginStop { c with progress := c.progress.halt } s = c.beginStop s := by
  obtain ⟨run, hr⟩ := Option.isSome_iff_exists.1 hr
  simp [Collection.beginStop, Collection.session?, hr, hs, Progress.halt]

theorem leads_beginStop (hr : c.run.isSome = true) (hs : c.stop = none) :
    Leads c s (c.beginStop s) s := by
  intro h _
  have hsome : c.run.isNone = false := by rw [← Option.not_isSome, hr]; rfl
  cases hstopped : c.progress.status.stopped with
  | true =>
    refine ⟨[.drain], h ++ [], ?_⟩
    show drain ⟨c, s, h⟩ = _
    simp only [drain, isStopping, hr, hstopped, hs, Bool.and_self, if_true, Option.isNone_none]
    rfl
  | false =>
    refine ⟨[.fence, .drain], h ++ [.fenced] ++ [], ?_⟩
    have hfence : fence ⟨c, s, h⟩ =
        ⟨{ c with progress := c.progress.halt }, s, h ++ [.fenced]⟩ := by
      simp only [fence, isStopping, hsome, hr, hstopped, Bool.and_false, Bool.false_eq_true,
        if_false]
      rfl
    show drain (fence ⟨c, s, h⟩) = _
    rw [hfence, ← beginStop_halt c s hr hs]
    simp only [drain, isStopping, hr, hs, Progress.halt, Bool.and_self, if_true,
      Option.isNone_none]
    rfl

theorem leads_stepStop? (hstep : c.stepStop? s = some (c', s')) : Leads c s c' s' := by
  intro h hreached
  obtain ⟨hrun, hstop⟩ := Collection.isSome_of_stepStop? hstep
  have hstopped : c.progress.status.stopped = true := hreached.sound.fit.halted hstop
  have hsome : c.stop.isNone = false := by rw [← Option.not_isSome, hstop]; rfl
  refine ⟨[.drain], h ++ drainDeeds c, ?_⟩
  show drain ⟨c, s, h⟩ = _
  simp only [drain, isStopping, hrun, hstopped, hsome, hstep, Bool.and_self, if_true,
    Bool.false_eq_true, if_false]
  rfl

theorem leads_syncNow (c : Collection) (s : Surroundings) :
    Leads c s (c.syncNow s).2.1 (c.syncNow s).2.2 := by
  unfold Collection.syncNow
  cases hsession : c.session? with
  | none => exact leads_elsewhere c rfl
  | some run =>
    have hr : c.run = some run := by
      unfold Collection.session? at hsession
      split at hsession
      · exact hsession
      · cases hsession
    have htrigger : Leads c s { c with run := some ((run.notify .pull).notify .push) } s := by
      intro h _
      refine ⟨[.trigger .pull, .trigger .push], h ++ [] ++ [], ?_⟩
      show trigger (trigger ⟨c, s, h⟩ .pull) .push = _
      simp only [trigger, put, hr, Option.map_some]
    exact htrigger.trans (leads_elsewhere _ rfl)

theorem leads_release (c : Collection) (l : Lane) (s : Surroundings) :
    Leads c s (c.release l).2 s :=
  fun h _ => ⟨[.release l], h ++ [], rfl⟩

theorem leads_feed (c : Collection) (more : List Incoming) (s : Surroundings) :
    Leads c s (c.feed more).2 s :=
  fun h _ => ⟨[.feed more], h ++ [], rfl⟩

theorem leads_supply (c : Collection) (script : Script) (source : EventSource)
    (s : Surroundings) : Leads c s { c with script, source } s :=
  fun h _ => ⟨[.supply script source], h ++ [], rfl⟩

/-- Both halves of queueing, one directly after the other. -/
theorem leads_enqueue (c : Collection) (s : Surroundings) (m : Mutation) :
    Leads c s c { s with replica := ((Replica.enqueue m).exec s.replica).2 } := by
  intro h hreached
  rw [Replica.enqueue_eq_storeMutation, Action.exec_bind]
  have hqueue : run ⟨c, s, h⟩ [.queue m] = queue ⟨c, s, h⟩ m := rfl
  unfold queue at hqueue
  rcases he : (Replica.storeMutation m).exec s.replica with ⟨e | inserted, r⟩
  · refine ⟨[.queue m], h ++ [], hqueue.trans ?_⟩
    simp only [he]
    rfl
  · cases inserted with
    | false =>
      refine ⟨[.queue m], h ++ [], hqueue.trans ?_⟩
      simp only [he]
      rfl
    | true =>
      have hqueued : run ⟨c, s, h⟩ [.queue m] =
          ⟨c, { s with replica := r }, h ++ [.queued m.collection]⟩ := by
        rw [hqueue]
        simp only [he]
        rfl
      have hplace : (h ++ [Deed.queued m.collection])[h.length]? = some (.queued m.collection) :=
        List.getElem?_concat_length
      have hno : Deed.returned h.length ∉ h ++ [Deed.queued m.collection] := by
        rw [List.mem_append, List.mem_singleton, not_or]
        exact ⟨fun hmem => Nat.lt_irrefl _ (hreached.noticed.returned _ hmem), nofun⟩
      refine ⟨[.queue m] ++ [.tell h.length], h ++ [.queued m.collection] ++ [.returned h.length],
        ?_⟩
      rw [run_append, hqueued]
      show tell ⟨c, { s with replica := r }, h ++ [.queued m.collection]⟩ h.length = _
      simp only [tell, hplace, hno, if_false]
      rfl

/-- A local write is the write of the document, and then both halves of queueing, unless the
document was refused. -/
theorem leads_writeLocally (c : Collection) (s : Surroundings) (m : Mutation) :
    Leads c s c { s with replica := ((Replica.writeLocally m).exec s.replica).2 } := by
  have hquiet : ((Replica.writeDocument m).exec s.replica).2.enqueued = s.replica.enqueued := by
    rw [Replica.exec_writeDocument]
  rw [Replica.writeLocally, Action.exec_bind]
  rcases he : (Replica.writeDocument m).exec s.replica with ⟨e | x, r⟩
  · rw [he] at hquiet
    exact leads_elsewhere c hquiet
  · rw [he] at hquiet
    have hwrite : Leads c s c { s with replica := r } := leads_elsewhere c hquiet
    exact hwrite.trans (leads_enqueue c _ m)

end Site

namespace Coordinator

/-! ## The steps of a coordinator -/

/-- What can happen to a coordinator: a call is made, a task or a call takes a step, or the world
outside does something. -/
inductive Step (k : Coordinator) : Coordinator → Prop where
  | call (c : LifecycleCall) : Step k { k with calls := k.calls ++ [c] }
  | task {t : Task} {k' : Coordinator} : k.step? t = some k' → Step k k'
  | sync (path : String) : Step k (k.syncNow path).2
  | wait (span : Span) : Step k (k.wait span)
  | release (path : String) (l : Lane) : Step k (k.release path l).2
  | feed (path : String) (more : List Incoming) : Step k (k.feed path more).2
  | alterScript (path : String) (f : Script → Script) : Step k (k.alterScript path f)
  | setSource (path : String) (source : EventSource) : Step k (k.setSource path source)
  | enqueue (m : Mutation) : Step k (k.act (Replica.enqueue m)).2
  | writeLocally (m : Mutation) : Step k (k.act (Replica.writeLocally m)).2
  | act {α : Type} (a : Action α) : a.Quiet → Step k (k.act a).2

/-- What comes of a coordinator by steps. -/
inductive Reached (k : Coordinator) : Coordinator → Prop where
  | refl : Reached k k
  | step {k' k'' : Coordinator} : Reached k k' → Step k' k'' → Reached k k''

/-- No collection was started yet. -/
def Untouched (k : Coordinator) : Prop :=
  ∀ path, ∃ script source, k.collection path = { path, script, source }

theorem untouched_fresh (settings : Settings) (listens : Bool) :
    (fresh settings listens).Untouched := fun _ => ⟨{}, [], rfl⟩

section

variable {k k' : Coordinator} {path : String}

@[simp] theorem collection_setCollection (k : Coordinator) (c : Collection) (path : String) :
    (k.setCollection c).collection path = if c.path = path then c else k.collection path := by
  unfold collection setCollection
  rw [KeyMap.get?_set]
  split <;> rfl

/-- The collections are sites that came about, each from a collection of its path that was never
started. -/
def Shown (shared : Surroundings) (k : Coordinator) : Prop :=
  ∀ path, ∃ script source es history,
    (Site.fresh path script source shared).run es = ⟨k.collection path, k.shared, history⟩

variable {shared : Surroundings}

theorem Untouched.shown (h : k.Untouched) : Shown k.shared k := by
  intro path
  obtain ⟨script, source, he⟩ := h path
  exact ⟨script, source, [], [], by rw [he]; rfl⟩

theorem Shown.leads (hk : Shown shared k)
    (hl : ∀ path, Site.Leads (k.collection path) k.shared (k'.collection path) k'.shared) :
    Shown shared k' := by
  intro path
  obtain ⟨script, source, es, h, he⟩ := hk path
  obtain ⟨es', h', he'⟩ := hl path h ⟨path, script, source, shared, es, he.symm⟩
  exact ⟨script, source, es ++ es', h', by rw [Site.run_append, he, he']⟩

theorem Shown.path_eq (hk : Shown shared k) {c : Collection} {s : Surroundings}
    (hl : Site.Leads (k.collection path) k.shared c s) : c.path = path := by
  obtain ⟨script, source, es, h, he⟩ := hk path
  obtain ⟨es', h', he'⟩ := hl h ⟨path, script, source, shared, es, he.symm⟩
  have hpath := Site.path_run (Site.fresh path script source shared) (es ++ es')
  rw [Site.run_append, he, he'] at hpath
  exact hpath

/-- One collection changes; for all others something goes on elsewhere. -/
theorem Shown.put (hk : Shown shared k) {c : Collection} {s : Surroundings}
    (hl : Site.Leads (k.collection path) k.shared c s)
    (hc : s.replica.enqueued = k.shared.replica.enqueued) : Shown shared (k.put c s) := by
  refine hk.leads fun other => ?_
  show Site.Leads _ _ ((k.setCollection c).collection other) s
  rw [collection_setCollection, hk.path_eq hl]
  split
  · rename_i heq
    rw [← heq]
    exact hl
  · exact Site.leads_elsewhere _ hc

theorem Shown.elsewhere (hk : Shown shared k) {s : Surroundings}
    (hc : s.replica.enqueued = k.shared.replica.enqueued) :
    Shown shared { k with shared := s } :=
  hk.leads fun _ => Site.leads_elsewhere _ hc

theorem Shown.start (hk : Shown shared k) (path : String) : Shown shared (k.start path).2 := by
  unfold Coordinator.start
  split
  · exact hk
  · exact hk.put (Site.leads_start _ _) (Collection.enqueued_start _ _)

theorem Shown.advance? (hk : Shown shared k) {call call' : LifecycleCall}
    (h : k.advance? call = some (call', k')) : Shown shared k' := by
  unfold Coordinator.advance? at h
  split at h
  · split at h
    · cases h
    · cases h
      exact hk.start _
  · cases h
    split
    · exact hk.elsewhere rfl
    · exact hk
  · rename_i path rest closes
    dsimp only at h
    split at h
    · cases h
    · rename_i hstop
      split at h
      · cases h
        exact hk
      · rename_i hrun
        cases h
        have hl : Site.Leads (k.collection path) k.shared _ k.shared :=
          Site.leads_beginStop (Option.isSome_iff_ne_none.2 (mt Option.isNone_iff_eq_none.2 hrun))
            (by simpa using hstop)
        exact hk.put hl rfl
  · obtain ⟨⟨c, s⟩, hstep, he⟩ := Option.map_eq_some_iff.1 h
    cases he
    exact hk.put (Site.leads_stepStop? hstep) (Collection.enqueued_stepStop? hstep)
  · cases h

theorem Shown.step (hk : Shown shared k) (h : Step k k') : Shown shared k' := by
  cases h with
  | call c => exact hk
  | @task t k' h =>
    cases t with
    | run path t =>
      obtain ⟨⟨c, s⟩, hstep, rfl⟩ := Option.map_eq_some_iff.1 h
      exact hk.put (Site.leads_task hstep) (Collection.enqueued_step? hstep)
    | call ticket =>
      obtain ⟨call, -, h⟩ := Option.bind_eq_some_iff.1 h
      obtain ⟨⟨call', k''⟩, hcall, he⟩ := Option.map_eq_some_iff.1 h
      have hshown : Shown shared k'' := hk.advance? hcall
      cases he
      exact hshown
  | sync path => exact hk.put (Site.leads_syncNow _ _) (Collection.enqueued_syncNow _ _)
  | wait span => exact hk.elsewhere rfl
  | release path l => exact hk.put (Site.leads_release _ l _) rfl
  | feed path more => exact hk.put (Site.leads_feed _ more _) rfl
  | alterScript path f => exact hk.put (Site.leads_supply _ _ _ _) rfl
  | setSource path source => exact hk.put (Site.leads_supply _ _ _ _) rfl
  | enqueue m => exact hk.leads fun path => Site.leads_enqueue _ _ m
  | writeLocally m => exact hk.leads fun path => Site.leads_writeLocally _ _ m
  | act a ha => exact hk.elsewhere (ha _)

end

/-- Whatever happens to a coordinator, each of its collections and what all share is as it is after
some events of the collection's site. -/
theorem Reached.exists_events {k k' : Coordinator} (h : Reached k k') (hk : k.Untouched)
    (path : String) :
    ∃ script source es history, (Site.fresh path script source k.shared).run es =
      ⟨k'.collection path, k'.shared, history⟩ := by
  have hshown : Shown k.shared k' := by
    induction h with
    | refl => exact hk.shown
    | step _ hs ih => exact ih.step hs
  exact hshown path

section

variable {k k' : Coordinator}

/-- The collections of a coordinator are in order, whatever happens to it. -/
theorem Reached.fit (h : Reached k k') (hk : k.Untouched) (path : String) :
    (k'.collection path).Fit := by
  obtain ⟨script, source, es, history, he⟩ := h.exists_events hk path
  have hsound := (Site.sound_fresh path script source k.shared).run es
  rw [he] at hsound
  exact hsound.fit

theorem Reached.path_eq (h : Reached k k') (hk : k.Untouched) (path : String) :
    (k'.collection path).path = path := by
  obtain ⟨script, source, es, history, he⟩ := h.exists_events hk path
  have hpath := Site.path_run (Site.fresh path script source k.shared) es
  rw [he] at hpath
  exact hpath

/-- In a new process no collection was started yet. -/
theorem Reached.untouched_reopened (h : Reached k k') (hk : k.Untouched) (tables : Tables) :
    (k'.reopened tables).Untouched := by
  intro path
  have hpath := h.path_eq hk path
  unfold collection at hpath
  let restarted (c : Collection) : Collection :=
    { path := c.path, script := c.script, source := c.source }
  have hget : (k'.reopened tables).collections.get? path =
      (k'.collections.get? path).map restarted :=
    KeyMap.get?_map k'.collections restarted path
  unfold collection
  rw [hget]
  cases hc : k'.collections.get? path with
  | none => exact ⟨{}, [], rfl⟩
  | some c =>
    rw [hc] at hpath
    refine ⟨c.script, c.source, ?_⟩
    simp only [Option.getD_some] at hpath
    simp [restarted, hpath]

end

end Coordinator

end Replication
