import Replication.Collection.Run
import Replication.Proofs.Collection.Lane
import Replication.Replica.Outbox

/-!
# A collection and all that can happen to it

A site is one collection with its surroundings and the history of what others can see of it. Its
events come in any order.

1. A start, and the steps of a stop: the fence, which halts the progress, and then the request to
   the tasks and the wait for them. Starts and stops exclude each other, so a start does nothing
   while a stop is under way.
2. A step of a task of the run, and triggers, replies and news for it.
3. The two halves of queueing a mutation, which other calls may come between: the row is inserted,
   and then the channel is told.
4. Whatever goes on elsewhere. It changes the surroundings as it likes, but for the channel of
   queued mutations.
-/

namespace Replication

namespace Replica

/-- Puts a mutation into the outbox; says whether its identifier was not there yet. -/
def storeMutation (m : Mutation) : Action Bool :=
  Action.write "outbox_enqueue" fun t => t.outbox.map fun rows =>
    let (inserted, rows) := rows.insert (Row.ofMutation m)
    (inserted, { t with outbox := some rows })

/-- Says that a mutation of a collection was queued. -/
def tellQueued (collection : String) : Action Unit := do
  Action.measure (·.outboxEnqueued collection)
  modify fun r => { r with enqueued := r.enqueued.send collection }

/-- A mutation is queued by these two, the second of which only follows if a row was inserted. -/
theorem enqueue_eq_storeMutation (m : Mutation) :
    enqueue m = storeMutation m >>= fun inserted =>
      if inserted then tellQueued m.collection else pure () := rfl

end Replica

/-! ## Collections that differ in little -/

namespace LaneTask

/-- Lanes that differ at most in their triggers and in a reply that came. -/
structure Abides (t t' : LaneTask) : Prop where
  lane : t'.lane = t.lane
  epoch : t'.epoch = t.epoch
  reported : t'.reported = t.reported
  ended : t'.isOver = t.isOver
  pass : t'.pass? = none → t.pass? = none
  gated : t'.phase ≠ .gated → t.phase ≠ .gated
  owes : t.owes = true → t'.owes = true

theorem abides_refl (t : LaneTask) : t.Abides t := ⟨rfl, rfl, rfl, rfl, id, id, id⟩

theorem Abides.trans {t t' t'' : LaneTask} (h : t.Abides t') (h' : t'.Abides t'') :
    t.Abides t'' where
  lane := h'.lane.trans h.lane
  epoch := h'.epoch.trans h.epoch
  reported := h'.reported.trans h.reported
  ended := h'.ended.trans h.ended
  pass hp := h.pass (h'.pass hp)
  gated hp := h.gated (h'.gated hp)
  owes ho := h'.owes (h.owes ho)

theorem abides_notify (t : LaneTask) : t.Abides t.notify := by
  have hpass : t.notify.pass? = none → t.pass? = none := fun h => t.pass?_notify.symm.trans h
  have howes : t.owes = true → t.notify.owes = true := fun _ => t.owes_notify
  rcases t.notify_cases with ⟨due, hp, he⟩ | ⟨-, he⟩
  · rw [he] at hpass howes ⊢
    exact ⟨rfl, rfl, rfl, by simp [isOver, go, hp], hpass, fun _ => by simp [hp], howes⟩
  · rw [he] at hpass howes ⊢
    exact ⟨rfl, rfl, rfl, rfl, hpass, id, howes⟩

theorem abides_release {t t' : LaneTask} (h : t.release? = some t') : t.Abides t' := by
  obtain ⟨pass, reply, reply', hp, rfl⟩ := release?_cases h
  exact ⟨rfl, rfl, rfl, by simp [isOver, go, hp], nofun, fun _ => by simp [hp],
    by simp [LaneTask.owes, go, hp]⟩

end LaneTask

namespace Run

@[simp] theorem lane_setLane (run : Run) (l : Lane) (t : LaneTask) :
    (run.setLane l t).lane l = t := by
  cases l <;> rfl

theorem lane_setLane_of_ne (run : Run) {l l' : Lane} (h : l' ≠ l) (t : LaneTask) :
    (run.setLane l t).lane l' = run.lane l' := by
  cases l <;> cases l' <;> first | rfl | exact absurd rfl h

@[simp] theorem stopping_setLane (run : Run) (l : Lane) (t : LaneTask) :
    (run.setLane l t).stopping = run.stopping := by
  cases l <;> rfl

@[simp] theorem enqueues_setLane (run : Run) (l : Lane) (t : LaneTask) :
    (run.setLane l t).enqueues = run.enqueues := by
  cases l <;> rfl

theorem lane_abort (run : Run) (t : RunTask) (l : Lane) :
    (run.abort t).lane l = if t = .lane l then (run.lane l).go .ended else run.lane l := by
  cases t with
  | lane l' =>
    by_cases hl : l = l'
    · subst hl
      simp [abort]
    · rw [abort, lane_setLane_of_ne run hl, if_neg]
      rintro ⟨⟩
      exact hl rfl
  | _ => rfl

theorem place_abort (run : Run) (t : RunTask) :
    (run.abort t).enqueues.place = run.enqueues.place := by
  cases t <;> first | rfl | simp [abort]

/-- Runs whose lanes differ at most in their triggers and in replies that came. The reader of
queued mutations is at the same place. -/
structure Kin (run run' : Run) : Prop where
  stopping : run'.stopping = run.stopping
  lane : ∀ l, (run.lane l).Abides (run'.lane l)
  place : run'.enqueues.place = run.enqueues.place

theorem kin_refl (run : Run) : run.Kin run := ⟨rfl, fun _ => LaneTask.abides_refl _, rfl⟩

theorem Kin.trans {run run' run'' : Run} (h : run.Kin run') (h' : run'.Kin run'') :
    run.Kin run'' :=
  ⟨h'.stopping.trans h.stopping, fun l => (h.lane l).trans (h'.lane l), h'.place.trans h.place⟩

theorem kin_beside (run : Run) (listener : Option Listener) (notices : NoticeReader) :
    run.Kin { run with listener, notices } :=
  ⟨rfl, fun l => by cases l <;> exact LaneTask.abides_refl _, rfl⟩

theorem kin_setLane {run : Run} {l : Lane} {t : LaneTask} (h : (run.lane l).Abides t) :
    run.Kin (run.setLane l t) where
  stopping := stopping_setLane run l t
  lane l' := by
    by_cases hl : l' = l
    · subst hl
      rw [lane_setLane]
      exact h
    · rw [lane_setLane_of_ne run hl]
      exact LaneTask.abides_refl _
  place := by rw [enqueues_setLane]

theorem kin_notify (run : Run) (l : Lane) : run.Kin (run.notify l) :=
  kin_setLane (LaneTask.abides_notify _)

/-- The run after the reader of queued mutations got something. -/
def heard (run : Run) (news : EnqueueNews) (enqueues : EnqueueReader) : Run :=
  match news with
  | .foreign => { run with enqueues }
  | .own | .missed => notify { run with enqueues } .push

end Run

namespace Collection

/-- Collections that differ at most in what is beside the progress and the lanes. -/
structure Kin (c c' : Collection) : Prop where
  path : c'.path = c.path
  progress : c'.progress = c.progress
  stop : c'.stop = c.stop
  idle : c'.run = none → c.run = none
  running : ∀ run', c'.run = some run' → ∃ run, c.run = some run ∧ run.Kin run'

theorem kin_refl (c : Collection) : c.Kin c :=
  ⟨rfl, rfl, rfl, id, fun run h => ⟨run, h, run.kin_refl⟩⟩

theorem kin_of_run {c : Collection} {run run' : Run} (hr : c.run = some run) (hk : run.Kin run')
    (source : EventSource) : c.Kin { c with source, run := some run' } :=
  ⟨rfl, rfl, rfl, nofun, fun _ h => ⟨run, hr, Option.some.inj h ▸ hk⟩⟩

theorem kin_release (c : Collection) (l : Lane) : c.Kin (c.release l).2 := by
  unfold release
  split
  · rename_i run' hrelease
    obtain ⟨run, hr, hmap⟩ := Option.bind_eq_some_iff.1 hrelease
    obtain ⟨t, ht, rfl⟩ := Option.map_eq_some_iff.1 hmap
    exact kin_of_run hr (Run.kin_setLane (LaneTask.abides_release ht)) c.source
  · exact c.kin_refl

theorem kin_feed (c : Collection) (more : List Incoming) : c.Kin (c.feed more).2 := by
  unfold feed
  split
  · exact c.kin_refl
  · rename_i run hr
    split
    · exact c.kin_refl
    · exact kin_of_run hr (run.kin_beside _ _) c.source

end Collection

/-! ## What one step of a collection can do -/

namespace Collection

variable {c c' : Collection} {run : Run} {s s' : Surroundings} {l : Lane}

theorem start_of_run (hrun : c.run = some run) (s : Surroundings) :
    c.start s = (.error (.invalidState "stopped" c.progress.published.name), c, s) := by
  unfold start
  rw [hrun]
  rfl

/-- A start of a collection without a run opens an epoch, and a run of that. -/
theorem start_of_none (hrun : c.run = none) (s : Surroundings) :
    ∃ run s', c.start s = (.ok (), { c with progress := c.progress.begin, run := some run }, s') ∧
      s'.replica.enqueued = s.replica.enqueued ∧ run.stopping = false ∧
      (∀ l, run.lane l = .start l c.progress.begin.status.epoch) ∧
      run.enqueues.place = s.replica.enqueued.latest := by
  unfold start
  rw [hrun]
  refine ⟨_, _, rfl, rfl, rfl, fun l => ?_, rfl⟩
  cases l <;> rfl

theorem stepLane?_cases (h : c.stepLane? run l s = some (c', s')) :
    ∃ t' w',
      (run.lane l).Move (run.context c.path s) ⟨c.progress, s.replica, c.script⟩
        ((run.lane l).phase.deed t'.phase) t' w' ∧
      c' = { c with
        progress := w'.progress, script := w'.script, run := some (run.setLane l t') } ∧
      s' = { s with replica := w'.replica } := by
  obtain ⟨⟨t', w'⟩, hstep, he⟩ := Option.map_eq_some_iff.1 h
  cases he
  exact ⟨t', w', LaneTask.move_of_step hstep, rfl, rfl⟩

theorem stepEnqueues?_cases (h : c.stepEnqueues? run s = some (c', s')) :
    ∃ run', c' = { c with run := some run' } ∧ s'.replica.enqueued = s.replica.enqueued ∧
      (run' = run.abort .enqueues ∨
        ∃ news enqueues, run.enqueues.read? c.path s.replica.enqueued = some (news, enqueues) ∧
          run' = run.heard news enqueues) := by
  unfold stepEnqueues? at h
  split at h
  · cases h
  · split at h
    · cases h
      exact ⟨_, rfl, rfl, .inl rfl⟩
    · obtain ⟨⟨news, enqueues⟩, hread, he⟩ := Option.map_eq_some_iff.1 h
      cases news <;> cases he <;> exact ⟨_, rfl, rfl, .inr ⟨_, _, hread, rfl⟩⟩

theorem kin_stepListener? (hr : c.run = some run) (h : c.stepListener? run s = some (c', s')) :
    c.Kin c' ∧ s'.replica.enqueued = s.replica.enqueued := by
  obtain ⟨listener, -, hstep⟩ := Option.bind_eq_some_iff.1 h
  obtain ⟨⟨⟨listener', effects⟩, source⟩, -, he⟩ := Option.map_eq_some_iff.1 hstep
  cases he
  exact ⟨kin_of_run hr (run.kin_beside _ _) source, rfl⟩

theorem kin_stepNotices? (hr : c.run = some run) (h : c.stepNotices? run s = some (c', s')) :
    c.Kin c' ∧ s'.replica.enqueued = s.replica.enqueued := by
  unfold stepNotices? at h
  split at h
  · cases h
  · split at h
    · cases h
      exact ⟨kin_of_run hr (run.kin_beside _ _) c.source, rfl⟩
    · obtain ⟨⟨action, notices, tokens⟩, -, he⟩ := Option.map_eq_some_iff.1 h
      cases action with
      | skip =>
        cases he
        exact ⟨kin_of_run hr (run.kin_beside _ _) c.source, rfl⟩
      | trigger source =>
        cases he
        exact ⟨kin_of_run hr ((run.kin_beside _ _).trans (Run.kin_notify _ .pull)) c.source, rfl⟩

/-- A step of a stop: it lets go of the listener, is complete, or goes on to the next task, with the
present one over or let go of. -/
theorem stepStop?_cases (hrun : c.run = some run) (h : c.stepStop? s = some (c', s')) :
    (∃ run' due, run.Kin run' ∧ s'.replica.enqueued = s.replica.enqueued ∧
        c.stop = some (.disconnecting due) ∧
        c' = { c with run := some run', stop := some (drainFrom (drained run') s') }) ∨
      (∃ due, c.stop = some (.draining [] due) ∧ (c', s') = c.endStop s) ∨
      ∃ t rest due, c.stop = some (.draining (t :: rest) due) ∧ s' = s ∧
        (run.isOver t = true ∧ c' = { c with stop := some (drainFrom rest s) } ∨
          run.isOver t = false ∧
            c' = { c with run := some (run.abort t), stop := some (drainFrom rest s) }) := by
  unfold stepStop? at h
  rw [hrun] at h
  cases hstop : c.stop with
  | none =>
    rw [hstop] at h
    cases h
  | some stage =>
    rw [hstop] at h
    cases stage with
    | disconnecting due =>
      dsimp only at h
      split at h
      · have hlet : ∃ run' s'', c.releaseListener run s = (run', s'') ∧ run.Kin run' ∧
            s''.replica.enqueued = s.replica.enqueued := by
          unfold releaseListener
          split
          · exact ⟨_, _, rfl, run.kin_refl, rfl⟩
          · exact ⟨_, _, rfl, run.kin_beside _ _, rfl⟩
        obtain ⟨run', s'', he, hkin, henq⟩ := hlet
        rw [he] at h
        cases h
        exact .inl ⟨run', due, hkin, henq, rfl, rfl⟩
      · cases h
    | draining tasks due =>
      cases tasks with
      | nil => exact .inr (.inl ⟨due, rfl, (Option.some.inj h).symm⟩)
      | cons t rest =>
        refine .inr (.inr ⟨t, rest, due, rfl, ?_⟩)
        dsimp only at h
        split at h
        · rename_i hover
          cases h
          exact ⟨rfl, .inl ⟨hover, by rw [hrun]⟩⟩
        · rename_i hover
          split at h
          · cases h
            exact ⟨rfl, .inr ⟨by simpa using hover, rfl⟩⟩
          · cases h

end Collection

/-! ## The machine -/

/-- What others see of a collection. -/
inductive Deed where
  | started
  /-- A stop took the run: its progress is halted. -/
  | fenced
  /-- A stop returned. -/
  | stopped
  | lane (l : Lane) (d : LaneDeed)
  /-- A lane was not over in time and was let go of. -/
  | abandoned (l : Lane)
  /-- A mutation of a collection came into the outbox. -/
  | queued (collection : String)
  /-- The call returned whose mutation came into the outbox at this place in the history. -/
  | returned (place : Nat)
  deriving DecidableEq, Repr

/-- A collection, its surroundings, and what happened so far. -/
structure Site where
  collection : Collection
  shared : Surroundings := {}
  history : List Deed := []

namespace Site

/-- What can happen. -/
inductive Event where
  | start
  /-- A stop takes the run and halts its progress. -/
  | fence
  /-- The next step of a stop that halted the progress. -/
  | drain
  | trigger (l : Lane)
  | task (t : RunTask)
  | release (l : Lane)
  | feed (more : List Incoming)
  /-- The first half of queueing a mutation. -/
  | queue (m : Mutation)
  /-- The second half of the call that inserted its mutation at this place in the history. -/
  | tell (place : Nat)
  | elsewhere (shared : Surroundings)
  | supply (script : Script) (source : EventSource)

/-- The site with another state of the collection and what is shared, and more deeds. -/
def put (s : Site) (c : Collection) (shared : Surroundings) (deeds : List Deed) : Site :=
  ⟨c, shared, s.history ++ deeds⟩

/-- Whether a stop is under way. -/
def isStopping (s : Site) : Bool := s.collection.run.isSome && s.collection.progress.status.stopped

/-- A start waits while a stop is under way. -/
def start (s : Site) : Site :=
  if s.isStopping then s
  else match s.collection.start s.shared with
    | (.ok (), c, shared) => s.put c shared [.started]
    | (.error _, c, shared) => s.put c shared []

/-- A stop has nothing to do without a run, and waits for another stop. -/
def fence (s : Site) : Site :=
  if s.collection.run.isNone then s.put s.collection s.shared [.stopped]
  else if s.isStopping then s
  else s.put { s.collection with progress := s.collection.progress.halt } s.shared [.fenced]

/-- What others see of the end of a task that a stop lets go of. -/
def abandonment : RunTask → List Deed
  | .lane l => [.abandoned l]
  | _ => []

/-- What others see of the next step of a stop. -/
def drainDeeds (c : Collection) : List Deed :=
  match c.run, c.stop with
  | some _, some (.draining [] _) => [.stopped]
  | some run, some (.draining (t :: _) _) => if run.isOver t then [] else abandonment t
  | _, _ => []

/-- After the fence a stop asks the tasks to stop, and then waits for them. -/
def drain (s : Site) : Site :=
  if s.isStopping then
    if s.collection.stop.isNone then s.put (s.collection.beginStop s.shared) s.shared []
    else match s.collection.stepStop? s.shared with
      | some (c, shared) => s.put c shared (drainDeeds s.collection)
      | none => s
  else s

/-- What others see of a step of a task: the deeds of lanes. -/
def taskDeeds (t : RunTask) (c c' : Collection) : List Deed :=
  match t, c.run, c'.run with
  | .lane l, some run, some run' => [.lane l ((run.lane l).phase.deed (run'.lane l).phase)]
  | _, _, _ => []

def task (s : Site) (t : RunTask) : Site :=
  match s.collection.step? t s.shared with
  | some (c, shared) => s.put c shared (taskDeeds t s.collection c)
  | none => s

/-- A trigger is lost on a collection without a run. -/
def trigger (s : Site) (l : Lane) : Site :=
  s.put { s.collection with run := s.collection.run.map (·.notify l) } s.shared []

def queue (s : Site) (m : Mutation) : Site :=
  match (Replica.storeMutation m).exec s.shared.replica with
  | (.ok true, replica) => s.put s.collection { s.shared with replica } [.queued m.collection]
  | (_, replica) => s.put s.collection { s.shared with replica } []

/-- A call returns once. -/
def tell (s : Site) (place : Nat) : Site :=
  match s.history[place]? with
  | some (.queued collection) =>
    if .returned place ∈ s.history then s
    else
      let (_, replica) := (Replica.tellQueued collection).exec s.shared.replica
      s.put s.collection { s.shared with replica } [.returned place]
  | _ => s

def elsewhere (s : Site) (shared : Surroundings) : Site :=
  let replica := { shared.replica with enqueued := s.shared.replica.enqueued }
  s.put s.collection { shared with replica } []

/-- The site after an event. -/
def step (s : Site) : Event → Site
  | .start => s.start
  | .fence => s.fence
  | .drain => s.drain
  | .trigger l => s.trigger l
  | .task t => s.task t
  | .release l => s.put (s.collection.release l).2 s.shared []
  | .feed more => s.put (s.collection.feed more).2 s.shared []
  | .queue m => s.queue m
  | .tell place => s.tell place
  | .elsewhere shared => s.elsewhere shared
  | .supply script source => s.put { s.collection with script, source } s.shared []

/-- The site after events. -/
def run (s : Site) (es : List Event) : Site := es.foldl step s

/-- A collection that was never started. -/
def fresh (path : String) (script : Script) (source : EventSource) (shared : Surroundings) : Site :=
  ⟨{ path, script, source }, shared, []⟩

/-! ## What an event can do -/

/-- What an event can make of a site. -/
inductive Change (s : Site) : Site → Prop where
  | aside {c : Collection} {shared : Surroundings} : s.collection.Kin c →
      shared.replica.enqueued = s.shared.replica.enqueued → Change s ⟨c, shared, s.history⟩
  | heard {run : Run} {news : EnqueueNews} {enqueues : EnqueueReader} {shared : Surroundings} :
      s.collection.run = some run →
      run.enqueues.read? s.collection.path s.shared.replica.enqueued = some (news, enqueues) →
      shared.replica.enqueued = s.shared.replica.enqueued →
      Change s ⟨{ s.collection with run := some (run.heard news enqueues) }, shared, s.history⟩
  | moved {run : Run} {l : Lane} {d : LaneDeed} {t' : LaneTask} {w' : LaneWork} :
      s.collection.run = some run →
      (run.lane l).Move (run.context s.collection.path s.shared)
        ⟨s.collection.progress, s.shared.replica, s.collection.script⟩ d t' w' →
      Change s
        ⟨{ s.collection with
            progress := w'.progress, script := w'.script, run := some (run.setLane l t') },
          { s.shared with replica := w'.replica }, s.history ++ [.lane l d]⟩
  | started {run : Run} {shared : Surroundings} : s.collection.run = none →
      run.stopping = false →
      (∀ l, run.lane l = .start l s.collection.progress.begin.status.epoch) →
      run.enqueues.place = s.shared.replica.enqueued.latest →
      shared.replica.enqueued = s.shared.replica.enqueued →
      Change s
        ⟨{ s.collection with progress := s.collection.progress.begin, run := some run }, shared,
          s.history ++ [.started]⟩
  | idle : s.collection.run = none → Change s ⟨s.collection, s.shared, s.history ++ [.stopped]⟩
  | fenced {run : Run} : s.collection.run = some run →
      Change s ⟨{ s.collection with progress := s.collection.progress.halt }, s.shared,
        s.history ++ [.fenced]⟩
  | asked {run : Run} : s.collection.run = some run → s.collection.stop = none →
      s.collection.progress.status.stopped = true →
      Change s ⟨s.collection.beginStop s.shared, s.shared, s.history⟩
  | disconnected {run run' : Run} {due : Nat} {shared : Surroundings} :
      s.collection.run = some run → s.collection.stop = some (.disconnecting due) →
      run.Kin run' → shared.replica.enqueued = s.shared.replica.enqueued →
      Change s
        ⟨{ s.collection with
            run := some run'
            stop := some (Collection.drainFrom (Collection.drained run') shared) },
          shared, s.history⟩
  | awaited {run : Run} {t : RunTask} {rest : List RunTask} {due : Nat} :
      s.collection.run = some run → s.collection.stop = some (.draining (t :: rest) due) →
      run.isOver t = true →
      Change s
        ⟨{ s.collection with
            run := some run, stop := some (Collection.drainFrom rest s.shared) },
          s.shared, s.history⟩
  | abandoned {run : Run} {t : RunTask} {rest : List RunTask} {due : Nat} :
      s.collection.run = some run → s.collection.stop = some (.draining (t :: rest) due) →
      Change s
        ⟨{ s.collection with
            run := some (run.abort t), stop := some (Collection.drainFrom rest s.shared) },
          s.shared, s.history ++ abandonment t⟩
  | ended {run : Run} {due : Nat} : s.collection.run = some run →
      s.collection.stop = some (.draining [] due) →
      Change s ⟨(s.collection.endStop s.shared).1, (s.collection.endStop s.shared).2,
        s.history ++ [.stopped]⟩
  | queued {collection : String} {replica : Replica} :
      replica.enqueued = s.shared.replica.enqueued →
      Change s ⟨s.collection, { s.shared with replica }, s.history ++ [.queued collection]⟩
  | told {place : Nat} {collection : String} {replica : Replica} :
      s.history[place]? = some (.queued collection) → Deed.returned place ∉ s.history →
      replica.enqueued = s.shared.replica.enqueued.send collection →
      Change s ⟨s.collection, { s.shared with replica }, s.history ++ [.returned place]⟩

section

variable (s : Site)

theorem put_nil (c : Collection) (shared : Surroundings) :
    s.put c shared [] = ⟨c, shared, s.history⟩ := by
  simp [put]

theorem Change.put {c : Collection} {shared : Surroundings} (hk : s.collection.Kin c)
    (hc : shared.replica.enqueued = s.shared.replica.enqueued) :
    Change s (s.put c shared []) := by
  rw [put_nil]
  exact .aside hk hc

theorem change_refl : Change s s := .aside s.collection.kin_refl rfl

theorem change_start : Change s s.start := by
  unfold start
  split
  · exact change_refl s
  · cases hr : s.collection.run with
    | none =>
      obtain ⟨run, shared, he, hc, hs, hl, hp⟩ := Collection.start_of_none hr s.shared
      rw [he]
      exact .started hr hs hl hp hc
    | some run =>
      rw [Collection.start_of_run hr]
      exact .put s s.collection.kin_refl rfl

theorem change_fence : Change s s.fence := by
  unfold fence
  split
  · rename_i hr
    exact .idle (Option.isNone_iff_eq_none.1 hr)
  · split
    · exact change_refl s
    · rename_i hr _
      obtain ⟨run, hr⟩ := Option.ne_none_iff_exists'.1 (mt Option.isNone_iff_eq_none.2 hr)
      exact .fenced hr

theorem change_drain : Change s s.drain := by
  unfold drain
  split
  · rename_i hstopping
    obtain ⟨hsome, hs⟩ := Bool.and_eq_true_iff.1 hstopping
    obtain ⟨run, hr⟩ := Option.isSome_iff_exists.1 hsome
    split
    · rename_i hnone
      rw [put_nil]
      exact .asked hr (Option.isNone_iff_eq_none.1 hnone) hs
    · cases hstep : s.collection.stepStop? s.shared with
      | none => exact change_refl s
      | some cs =>
        obtain ⟨c, shared⟩ := cs
        rcases Collection.stepStop?_cases hr hstep with
          ⟨run', due, hkin, hc, hstop, rfl⟩ | ⟨due, hstop, he⟩ |
          ⟨t, rest, due, hstop, rfl, ⟨hover, rfl⟩ | ⟨hover, rfl⟩⟩
        · simp only [put, drainDeeds, hr, hstop, List.append_nil]
          exact .disconnected hr hstop hkin hc
        · cases he
          simp only [put, drainDeeds, hr, hstop]
          exact .ended hr hstop
        · simp only [put, drainDeeds, hr, hstop, hover, if_true, List.append_nil]
          simpa [hr] using Change.awaited hr hstop hover
        · simp only [put, drainDeeds, hr, hstop, hover, Bool.false_eq_true, if_false]
          exact .abandoned hr hstop
  · exact change_refl s

theorem change_task (t : RunTask) : Change s (s.task t) := by
  unfold task
  cases hstep : s.collection.step? t s.shared with
  | none => exact change_refl s
  | some cs =>
    obtain ⟨c, shared⟩ := cs
    obtain ⟨run, hr, hstep⟩ := Option.bind_eq_some_iff.1 hstep
    cases t with
    | lane l =>
      obtain ⟨t', w', hm, rfl, rfl⟩ := Collection.stepLane?_cases hstep
      simp only [put, taskDeeds, hr, Run.lane_setLane]
      exact .moved hr hm
    | enqueues =>
      obtain ⟨run', rfl, hc, rfl | ⟨news, enqueues, hread, rfl⟩⟩ :=
        Collection.stepEnqueues?_cases hstep
      · have hkin : run.Kin (run.abort .enqueues) :=
          ⟨rfl, fun l => LaneTask.abides_refl (run.lane l), rfl⟩
        exact .put s (Collection.kin_of_run hr hkin s.collection.source) hc
      · simp only [put, taskDeeds, List.append_nil]
        exact .heard hr hread hc
    | listener =>
      obtain ⟨hkin, hc⟩ := Collection.kin_stepListener? hr hstep
      simpa only [taskDeeds] using Change.put s hkin hc
    | notices =>
      obtain ⟨hkin, hc⟩ := Collection.kin_stepNotices? hr hstep
      simpa only [taskDeeds] using Change.put s hkin hc

theorem change_queue (m : Mutation) : Change s (s.queue m) := by
  have hquiet := Action.quiet_write "outbox_enqueue" (fun t => t.outbox.map fun rows =>
    let (inserted, rows) := rows.insert (Row.ofMutation m)
    (inserted, { t with outbox := some rows })) s.shared.replica
  unfold queue
  split
  · rename_i replica he
    refine .queued ?_
    rw [← hquiet]
    exact congrArg (fun x => x.2.enqueued) he.symm
  · rename_i out replica _ he
    refine .put s s.collection.kin_refl ?_
    rw [← hquiet]
    exact congrArg (fun x => x.2.enqueued) he.symm

theorem change_tell (place : Nat) : Change s (s.tell place) := by
  unfold tell
  split
  · rename_i collection hplace
    split
    · exact change_refl s
    · rename_i hno
      exact .told hplace hno rfl
  · exact change_refl s

/-- Whatever happens changes the site in one of these ways. -/
theorem change_step (e : Event) : Change s (s.step e) := by
  cases e with
  | start => exact change_start s
  | fence => exact change_fence s
  | drain => exact change_drain s
  | trigger l =>
    refine .put s ?_ rfl
    cases hr : s.collection.run with
    | none => exact ⟨rfl, rfl, rfl, fun _ => hr, fun run' h => by cases h⟩
    | some run => exact Collection.kin_of_run hr (run.kin_notify l) s.collection.source
  | task t => exact change_task s t
  | release l => exact .put s (s.collection.kin_release l) rfl
  | feed more => exact .put s (s.collection.kin_feed more) rfl
  | queue m => exact change_queue s m
  | tell place => exact change_tell s place
  | elsewhere shared => exact .put s s.collection.kin_refl rfl
  | supply script source =>
    exact .put s ⟨rfl, rfl, rfl, id, fun run h => ⟨run, h, run.kin_refl⟩⟩ rfl

end

end Site

end Replication
