import Replication.Proofs.Collection.Site
import Replication.Proofs.Listener.Task

/-!
# A pull after every subscription

An event session brings what changes from its subscription on. What changed before is found by a
pull pass that begins after it, so a vigil notes when the present session was established.

1. `Run.Stir` says what an event can make of the run of a collection, as far as the listener, the
   notices and the pull lane are concerned.
2. A pull pass begins after the subscription, or is on its way: a notice that the session is resumed
   is to be read, or a trigger is held back, or the lane owes a pass (`Awaits`). Only a session that
   is the first of its run is not followed by a pass on its own account.
3. So when all notices are read and the pull lane waits, a pass began after the subscription, or the
   session is the first and nothing triggered the lane since (`Vigil.pulled_since_subscription`).
-/

namespace Replication

namespace ListenerTask

/-- Whether a task holds an established session. -/
def inSession (t : ListenerTask) : Bool :=
  match t.phase with
  | .receiving _ | .closing _ _ => true
  | _ => false

end ListenerTask

/-- How a listener stands: its published state, whether its task was ever connected, and whether it
holds an established session. -/
structure Standing where
  state : ListenerState
  everConnected : Bool
  inSession : Bool
  deriving DecidableEq, Repr

def Listener.standing (l : Listener) : Standing :=
  ⟨l.state, l.task.any (·.hasConnected), l.task.any (·.inSession)⟩

def Run.standing? (r : Run) : Option Standing := r.listener.map Listener.standing

/-- What a step of a listener that is heard makes of its standing, and what it tells: a session is
established, or it is connected only if it was before. -/
inductive Standing.Step (x : Standing) : Standing → List Notice → Prop where
  | establish : x.inSession = false →
      Step x ⟨.connected, true, true⟩ [.connected x.everConnected]
  | keep {x' : Standing} {told : List Notice} : x'.everConnected = x.everConnected →
      (x'.state = .connected → x.state = .connected ∧ (x.inSession = true → x'.inSession = true)) →
      Step x x' told

theorem ListenerTask.standing_move {p : RetryPolicy} {now : Nat} {t : ListenerTask}
    {source source' : EventSource} {r : ListenerTask × List ListenerEffect}
    (h : Move ⟨p, true⟩ now t source r source') (state : ListenerState) :
    Standing.Step ⟨state, t.hasConnected, t.inSession⟩
      ⟨r.2.foldl ListenerEffect.state state, r.1.hasConnected, r.1.inSession⟩
      (Listening.notices r.2) := by
  cases h with
  | establish hp => exact .establish (by simp [inSession, hp])
  | drop =>
    rename_i reason _
    rcases drop_cases ⟨p, true⟩ now t reason with ⟨due, -, heq⟩ | ⟨-, heq⟩ <;> rw [heq] <;>
      exact .keep rfl nofun
  | unheard _ _ _ hx => cases hx
  | begin | leave | released => exact .keep rfl nofun
  | refuse hp | again hp =>
    exact .keep rfl fun hs => ⟨hs, fun h => by simp [inSession, hp] at h⟩
  | hear | lose | release => exact .keep rfl fun hs => ⟨hs, fun _ => rfl⟩

theorem Listener.standing_step {l l' : Listener} {now : Nat} {source source' : EventSource}
    {effects : List ListenerEffect} (hl : l.heard = true)
    (h : l.step? now source = some ((l', effects), source')) :
    l.standing.Step l'.standing (Listening.notices effects) := by
  obtain ⟨t, ht, hstep⟩ := Option.bind_eq_some_iff.1 h
  obtain ⟨⟨⟨t', effects'⟩, source''⟩, hstep, he⟩ := Option.map_eq_some_iff.1 hstep
  cases he
  rw [hl] at hstep
  unfold standing
  rw [ht]
  exact ListenerTask.standing_move (ListenerTask.move_of_step hstep) l.state

theorem Listener.standing_feed (l : Listener) (more : List Incoming) :
    (l.feed more).2.standing = l.standing := by
  unfold feed standing
  cases ht : l.task with
  | none => simp [ht]
  | some t =>
    unfold ListenerTask.feed
    cases hp : t.phase <;>
      simp [ListenerTask.session?, ListenerTask.inSession, ListenerTask.go, hp]

/-! ## What an event makes of a run -/

/-- What an event can make of a run, with the deeds that it does and whether it triggers the pull
lane, as far as the listener, the notices and that lane are concerned. -/
inductive Run.Stir (run run' : Run) : List Deed → Bool → Prop where
  /-- The pull lane may go on. -/
  | beside {deeds : List Deed} : run'.standing? = run.standing? → run'.notices = run.notices →
      (run.pull.owes = true →
        .lane .pull .began ∈ deeds ∨ run'.pull.isOver = true ∨ run'.pull.owes = true) →
      (run.pull.isOver = true → run'.pull.isOver = true) → Stir run run' deeds false
  | triggered : run'.standing? = run.standing? → run'.notices.ended = run.notices.ended →
      run'.pull.owes = true → Stir run run' [] true
  /-- A notice is read. -/
  | read (notice : Notice) (queue : List Notice) (collection : String) :
      run'.standing? = run.standing? → run.notices.held = none →
      run.notices.queue = notice :: queue →
      run'.notices = { run.notices with queue, held := notice.source? collection } →
      run'.pull = run.pull → Stir run run' [] false
  /-- The listener takes a step. -/
  | listened (x x' : Standing) (told : List Notice) : run.standing? = some x →
      run'.standing? = some x' → (run.notices.ended = false → x.Step x' told) →
      run'.notices = { run.notices with queue := run.notices.queue ++ told } →
      run'.pull = run.pull → Stir run run' [] false
  /-- The reader of notices leaves, as it is asked to. -/
  | left (triggers : Bool) : run.stopping = true → Stir run run' [] triggers

namespace Site

/-- Whether an event triggers the pull lane: a call does, and the reader of notices with a trigger
that it held back. -/
def triggersPull (s : Site) : Event → Bool
  | .trigger .pull => true
  | .task .notices =>
    match s.collection.session?, (s.task .notices).collection.session? with
    | some run, some run' => run.notices.held.isSome && run'.notices.held.isNone
    | _, _ => false
  | _ => false

/-- What an event can make of a site: there is no run that calls reach, a run begins, or it goes
on. -/
inductive Stir (s s' : Site) (triggers : Bool) : Prop where
  | unreached : s'.collection.session? = none → Stir s s' triggers
  | began {run' : Run} : s.collection.session? = none → s'.collection.session? = some run' →
      run'.stopping = false →
      run'.notices.ended = run'.standing?.isNone →
      (∀ x, run'.standing? = some x → x = ⟨.connecting, false, false⟩) → Stir s s' triggers
  | ran {run run' : Run} {deeds : List Deed} : s.collection.session? = some run →
      s'.collection.session? = some run' → run'.stopping = run.stopping →
      s'.history = s.history ++ deeds → run.Stir run' deeds triggers → Stir s s' triggers

theorem session?_eq_some_iff {c : Collection} {run : Run} :
    c.session? = some run ↔ c.stop = none ∧ c.run = some run := by
  unfold Collection.session?
  cases c.stop <;> simp

section

variable {s s' : Site} {run run' : Run} {deeds : List Deed} {triggers : Bool}

theorem stir_same (hs : s'.collection.session? = s.collection.session?)
    (hh : s'.history = s.history ++ deeds) : Stir s s' false := by
  cases hr : s.collection.session? with
  | none => exact .unreached (hs.trans hr)
  | some run =>
    exact .ran hr (hs.trans hr) rfl hh (.beside rfl rfl (fun ho => .inr (.inr ho)) id)

theorem stir_of_run (hr : s.collection.run = some run) (hr' : s'.collection.run = some run')
    (hstop : s'.collection.stop = s.collection.stop) (hstopping : run'.stopping = run.stopping)
    (hh : s'.history = s.history ++ deeds)
    (h : s.collection.session? = some run → s'.collection.session? = some run' →
      run.Stir run' deeds triggers) : Stir s s' triggers := by
  cases hnone : s.collection.stop with
  | some stage =>
    refine .unreached ?_
    simp [Collection.session?, hstop, hnone]
  | none =>
    have hsession := session?_eq_some_iff.2 ⟨hnone, hr⟩
    have hsession' := session?_eq_some_iff.2 ⟨hstop.trans hnone, hr'⟩
    exact .ran hsession hsession' hstopping hh (h hsession hsession')

theorem standing_newRun (c : Collection) (shared : Surroundings) :
    (c.newRun shared).1.notices.ended = (c.newRun shared).1.standing?.isNone ∧
      ∀ x, (c.newRun shared).1.standing? = some x → x = ⟨.connecting, false, false⟩ := by
  unfold Collection.newRun
  cases shared.listens && shared.settings.realtime.enabled with
  | false => exact ⟨rfl, nofun⟩
  | true => exact ⟨rfl, fun x hx => (Option.some.inj hx).symm⟩

theorem stir_start (s : Site) : Stir s s.start false := by
  unfold start
  split
  · exact stir_same rfl (List.append_nil _).symm
  · cases hr : s.collection.run with
    | some run =>
      rw [Collection.start_of_run hr]
      exact stir_same rfl rfl
    | none =>
      unfold Collection.start
      rw [hr]
      simp only [Option.isSome_none, Bool.false_eq_true, if_false]
      cases hstop : s.collection.stop with
      | some stage => exact .unreached rfl
      | none =>
        refine .began ?_ (session?_eq_some_iff.2 ⟨rfl, rfl⟩) rfl (standing_newRun _ _).1
          (standing_newRun _ _).2
        simp [Collection.session?, hr]

theorem session?_beginStop (c : Collection) (shared : Surroundings) :
    (c.beginStop shared).session? = none := by
  unfold Collection.beginStop
  cases hs : c.session? with
  | none => exact hs
  | some run => rfl

theorem session?_stepStop? {c c' : Collection} {shared shared' : Surroundings}
    (h : c.stepStop? shared = some (c', shared')) : c'.session? = none := by
  cases hr : c.run with
  | none =>
    unfold Collection.stepStop? at h
    rw [hr] at h
    cases h
  | some run =>
    rcases Collection.stepStop?_cases hr h with
      ⟨run', due, -, -, -, rfl⟩ | ⟨due, -, he⟩ | ⟨t, rest, due, -, -, ⟨-, rfl⟩ | ⟨-, rfl⟩⟩
    · rfl
    · cases he
      rfl
    · rfl
    · rfl

theorem stir_drain (s : Site) : Stir s s.drain false := by
  unfold drain
  split
  · split
    · exact .unreached (session?_beginStop _ _)
    · cases hstep : s.collection.stepStop? s.shared with
      | none => exact stir_same rfl (List.append_nil _).symm
      | some r => exact .unreached (session?_stepStop? hstep)
  · exact stir_same rfl (List.append_nil _).symm

theorem stir_trigger (s : Site) (l : Lane) : Stir s (s.trigger l) (s.triggersPull (.trigger l)) := by
  cases hr : s.collection.run with
  | none => exact .unreached (by simp [trigger, put, Collection.session?, hr])
  | some run =>
    have hr' : (s.trigger l).collection.run = some (run.notify l) := by simp [trigger, put, hr]
    refine stir_of_run hr hr' rfl (Run.stopping_setLane run l _) rfl fun _ _ => ?_
    cases l with
    | pull => exact .triggered rfl rfl run.pull.owes_notify
    | push => exact .beside rfl rfl (fun ho => .inr (.inr ho)) id

/-- A step of a lane leaves the listener and the notices alone. -/
theorem stir_lane {x : LaneContext} {w w' : LaneWork} {l : Lane} {d : LaneDeed} {t' : LaneTask}
    (h : (run.lane l).Move x w d t' w') :
    run.Stir (run.setLane l t') [.lane l d] false := by
  cases l with
  | push => exact .beside rfl rfl (fun ho => .inr (.inr ho)) id
  | pull =>
    refine .beside rfl rfl (fun ho => ?_) fun hover => ?_
    · rcases h.owes ho with rfl | hover | ho'
      · exact .inl (List.mem_singleton_self _)
      · exact .inr (.inl hover)
      · exact .inr (.inr ho')
    · have hno := h.isOver_eq_false
      exact absurd hover (by simp [show run.pull.isOver = false from hno])

theorem triggersPull_of_same {t : RunTask} (hs : s.task t = s) :
    s.triggersPull (.task t) = false := by
  cases t with
  | notices =>
    simp only [triggersPull, hs]
    cases s.collection.session? with
    | none => rfl
    | some run => cases hheld : run.notices.held <;> simp [hheld]
  | _ => rfl

theorem triggersPull_notices (hr : s.collection.session? = some run)
    (hr' : (s.task .notices).collection.session? = some run') :
    s.triggersPull (.task .notices) = (run.notices.held.isSome && run'.notices.held.isNone) := by
  simp only [triggersPull, hr, hr']

/-- The reader of notices gives the trigger that it held back, or reads a notice. -/
theorem read?_cases {n n' : NoticeReader} {collection : String} {tokens tokens' : Option Nat}
    {action : NoticeReader.Action}
    (h : n.read? collection tokens = some (action, n', tokens')) :
    (∃ source, n.held = some source ∧ action = .trigger source ∧ n' = { n with held := none }) ∨
      ∃ notice queue, n.held = none ∧ n.queue = notice :: queue ∧ action = .skip ∧
        n' = { n with queue, held := notice.source? collection } := by
  unfold NoticeReader.read? at h
  cases hheld : n.held with
  | some source =>
    rw [hheld] at h
    left
    rcases tokens with - | - | k
    · cases h
      exact ⟨source, rfl, rfl, rfl⟩
    · cases h
    · cases h
      exact ⟨source, rfl, rfl, rfl⟩
  | none =>
    rw [hheld] at h
    right
    cases hqueue : n.queue with
    | nil =>
      rw [hqueue] at h
      cases h
    | cons notice queue =>
      rw [hqueue] at h
      cases h
      exact ⟨notice, queue, rfl, rfl, rfl, rfl⟩

theorem stepNotices?_cases {c c' : Collection} {shared shared' : Surroundings}
    (h : c.stepNotices? run shared = some (c', shared')) :
    ∃ run', c' = { c with run := some run' } ∧ run'.stopping = run.stopping ∧
      run.Stir run' [] (run.notices.held.isSome && run'.notices.held.isNone) := by
  unfold Collection.stepNotices? at h
  split at h
  · cases h
  · split at h
    · cases h
      exact ⟨_, rfl, rfl, .left _ ‹_›⟩
    · obtain ⟨⟨action, notices, tokens⟩, hread, he⟩ := Option.map_eq_some_iff.1 h
      rcases read?_cases hread with ⟨source, hheld, rfl, rfl⟩ | ⟨notice, queue, hheld, hq, rfl, rfl⟩
      · cases he
        refine ⟨_, rfl, Run.stopping_setLane _ _ _, ?_⟩
        simp only [hheld]
        exact .triggered rfl rfl run.pull.owes_notify
      · cases he
        refine ⟨_, rfl, rfl, ?_⟩
        simp only [hheld]
        exact .read notice queue c.path rfl hheld hq rfl rfl

theorem stir_task (s : Site) (t : RunTask) : Stir s (s.task t) (s.triggersPull (.task t)) := by
  cases hstep : s.collection.step? t s.shared with
  | none =>
    have hsame : s.task t = s := by simp only [task, hstep]
    rw [triggersPull_of_same hsame]
    exact stir_same (congrArg (·.collection.session?) hsame)
      ((congrArg history hsame).trans (List.append_nil _).symm)
  | some r =>
    obtain ⟨c, shared⟩ := r
    have htask : s.task t = s.put c shared (taskDeeds t s.collection c) := by
      simp only [task, hstep]
    obtain ⟨run, hr, hstep⟩ := Option.bind_eq_some_iff.1 hstep
    cases t with
    | lane l =>
      obtain ⟨t', w', hm, rfl, rfl⟩ := Collection.stepLane?_cases hstep
      rw [htask]
      refine stir_of_run hr rfl rfl (Run.stopping_setLane run l _) rfl fun _ _ => ?_
      simp only [taskDeeds, hr, Run.lane_setLane]
      exact stir_lane hm
    | enqueues =>
      obtain ⟨run', rfl, hc, rfl | ⟨news, enqueues, hread, rfl⟩⟩ :=
        Collection.stepEnqueues?_cases hstep
      · rw [htask]
        exact stir_of_run hr rfl rfl rfl rfl fun _ _ =>
          .beside rfl rfl (fun ho => .inr (.inr ho)) id
      · rw [htask]
        refine stir_of_run hr rfl rfl ?_ rfl fun _ _ => ?_
        · cases news <;> rfl
        · cases news <;> exact .beside rfl rfl (fun ho => .inr (.inr ho)) id
    | listener =>
      rw [htask]
      obtain ⟨l, hl, hstep⟩ := Option.bind_eq_some_iff.1 hstep
      obtain ⟨⟨⟨l', effects⟩, source⟩, hmove, he⟩ := Option.map_eq_some_iff.1 hstep
      cases he
      refine stir_of_run hr rfl rfl rfl rfl fun _ _ => ?_
      refine .listened l.standing l'.standing _ (by rw [Run.standing?, hl]; rfl) rfl
        (fun hended => ?_) rfl rfl
      have hheard : (!run.notices.ended) = true := by rw [hended]; rfl
      have hstanding := Listener.standing_step hheard hmove
      exact hstanding
    | notices =>
      obtain ⟨run', rfl, hstopping, hstir⟩ := stepNotices?_cases hstep
      have hr' : (s.task .notices).collection.run = some run' := by rw [htask]; rfl
      have hhistory : (s.task .notices).history = s.history ++ [] := by rw [htask]; rfl
      refine stir_of_run hr hr' (by rw [htask]; rfl) hstopping hhistory fun hsession hsession' => ?_
      rw [triggersPull_notices hsession hsession']
      exact hstir

theorem stir_release (s : Site) (l : Lane) :
    Stir s (s.put (s.collection.release l).2 s.shared []) false := by
  unfold Collection.release
  split
  · rename_i run' hrelease
    obtain ⟨run, hr, hmap⟩ := Option.bind_eq_some_iff.1 hrelease
    obtain ⟨t, ht, rfl⟩ := Option.map_eq_some_iff.1 hmap
    have habides := LaneTask.abides_release ht
    refine stir_of_run hr rfl rfl (Run.stopping_setLane run l t) rfl fun _ _ => ?_
    cases l with
    | push => exact .beside rfl rfl (fun ho => .inr (.inr ho)) id
    | pull =>
      exact .beside rfl rfl (fun ho => .inr (.inr (habides.owes ho))) habides.ended.trans
  · exact stir_same rfl rfl

theorem stir_feed (s : Site) (more : List Incoming) :
    Stir s (s.put (s.collection.feed more).2 s.shared []) false := by
  unfold Collection.feed
  split
  · exact stir_same rfl rfl
  · rename_i run hr
    split
    · exact stir_same rfl rfl
    · rename_i l hl
      refine stir_of_run hr rfl rfl rfl rfl fun _ _ => ?_
      refine .beside ?_ rfl (fun ho => .inr (.inr ho)) id
      simp only [Run.standing?, hl]
      exact congrArg some (l.standing_feed more)

theorem stir_step (s : Site) (e : Event) : Stir s (s.step e) (s.triggersPull e) := by
  cases e with
  | start => exact stir_start s
  | fence =>
    show Stir s s.fence false
    unfold fence
    split
    · exact stir_same rfl rfl
    · split
      · exact stir_same rfl (List.append_nil _).symm
      · exact stir_same rfl rfl
  | drain => exact stir_drain s
  | trigger l => exact stir_trigger s l
  | task t => exact stir_task s t
  | release l => exact stir_release s l
  | feed more => exact stir_feed s more
  | queue m =>
    show Stir s (s.queue m) false
    unfold queue
    split <;> exact stir_same rfl rfl
  | tell place =>
    show Stir s (s.tell place) false
    unfold tell
    split
    · split
      · exact stir_same rfl (List.append_nil _).symm
      · exact stir_same rfl rfl
    · exact stir_same rfl (List.append_nil _).symm
  | elsewhere shared => exact stir_same rfl rfl
  | supply script source => exact stir_same rfl rfl

end

/-- Whether the listener of the run is connected. -/
def isConnected (s : Site) : Bool := s.collection.listenerState? == some .connected

end Site

/-! ## Vigils -/

/-- A site with the event sessions of its run: how many were established, how long the history was
when the last of them was, and whether the pull lane was triggered since. -/
structure Vigil where
  site : Site
  sessions : Nat := 0
  place : Nat := 0
  triggered : Bool := false

namespace Vigil

open Site (Event)

/-- The vigil after an event: a run may begin, or a session be established. -/
def step (v : Vigil) (e : Event) : Vigil :=
  let site := v.site.step e
  if v.site.collection.session?.isNone && site.collection.session?.isSome then { site }
  else if !v.site.isConnected && site.isConnected then
    { site, sessions := v.sessions + 1, place := v.site.history.length }
  else { v with site, triggered := v.triggered || v.site.triggersPull e }

/-- The vigil after events. -/
def run (v : Vigil) (es : List Event) : Vigil := es.foldl step v

theorem site_step (v : Vigil) (e : Event) : (v.step e).site = v.site.step e := by
  unfold step
  dsimp only
  split
  · rfl
  · split <;> rfl

theorem site_run (v : Vigil) (es : List Event) : (v.run es).site = v.site.run es := by
  induction es generalizing v with
  | nil => rfl
  | cons e es ih =>
    refine (ih (v.step e)).trans ?_
    rw [site_step]
    rfl

/-- A pull pass began since the last session was established, or is on its way, or the session is
the first of its run and nothing triggered the lane since. -/
inductive Awaits (run : Run) (since : List Deed) (sessions : Nat) (triggered : Bool) : Prop where
  | pulled : .lane .pull .began ∈ since → Awaits run since sessions triggered
  | owed : run.pull.owes = true → Awaits run since sessions triggered
  | ended : run.pull.isOver = true → Awaits run since sessions triggered
  | held : run.notices.held.isSome = true → Awaits run since sessions triggered
  | unread : .connected true ∈ run.notices.queue → Awaits run since sessions triggered
  | first : sessions = 1 → triggered = false → Awaits run since sessions triggered

/-- What holds of a vigil over a run that calls reach. -/
structure Watches (v : Vigil) (run : Run) : Prop where
  going : run.stopping = false
  reads : run.notices.ended = run.standing?.isNone
  connected : ∀ x, run.standing? = some x →
    (x.everConnected = true ↔ 0 < v.sessions) ∧
      (x.state = .connected → x.inSession = true ∧ x.everConnected = true)
  placed : v.place ≤ v.site.history.length
  awaits : 0 < v.sessions → Awaits run (v.site.history.drop v.place) v.sessions v.triggered

section

variable {v : Vigil} {run run' : Run} {deeds : List Deed} {triggers : Bool}

theorem isConnected_iff {s : Site} (hr : s.collection.session? = some run) :
    s.isConnected = true ↔ ∃ x, run.standing? = some x ∧ x.state = .connected := by
  unfold Site.isConnected Collection.listenerState? Run.standing?
  rw [hr]
  simp [Listener.standing]

theorem Awaits.beside {since : List Deed} {sessions : Nat} {triggered : Bool}
    (h : Awaits run since sessions triggered) (hnotices : run'.notices = run.notices)
    (howes : run.pull.owes = true →
      .lane .pull .began ∈ deeds ∨ run'.pull.isOver = true ∨ run'.pull.owes = true)
    (hover : run.pull.isOver = true → run'.pull.isOver = true) :
    Awaits run' (since ++ deeds) sessions triggered := by
  cases h with
  | pulled h => exact .pulled (List.mem_append_left _ h)
  | owed h =>
    rcases howes h with h | h | h
    · exact .pulled (List.mem_append_right _ h)
    · exact .ended h
    · exact .owed h
  | ended h => exact .ended (hover h)
  | held h => exact .held (hnotices ▸ h)
  | unread h => exact .unread (hnotices ▸ h)
  | first h h' => exact .first h h'

/-- A notice is read that the session is resumed: the trigger is held back. -/
theorem Awaits.read {since : List Deed} {sessions : Nat} {triggered : Bool}
    (h : Awaits run since sessions triggered) {notice : Notice} {queue : List Notice}
    {collection : String} (hheld : run.notices.held = none)
    (hqueue : run.notices.queue = notice :: queue)
    (hnotices : run'.notices = { run.notices with queue, held := notice.source? collection })
    (hpull : run'.pull = run.pull) : Awaits run' since sessions triggered := by
  cases h with
  | pulled h => exact .pulled h
  | owed h => exact .owed (hpull ▸ h)
  | ended h => exact .ended (hpull ▸ h)
  | held h =>
    rw [hheld] at h
    cases h
  | unread h =>
    rw [hqueue] at h
    rcases List.mem_cons.1 h with rfl | h
    · exact .held (by rw [hnotices]; rfl)
    · exact .unread (by rw [hnotices]; exact h)
  | first h h' => exact .first h h'

theorem Awaits.listened {since : List Deed} {sessions : Nat} {triggered : Bool}
    (h : Awaits run since sessions triggered) {told : List Notice}
    (hnotices : run'.notices = { run.notices with queue := run.notices.queue ++ told })
    (hpull : run'.pull = run.pull) : Awaits run' since sessions triggered := by
  cases h with
  | pulled h => exact .pulled h
  | owed h => exact .owed (hpull ▸ h)
  | ended h => exact .ended (hpull ▸ h)
  | held h => exact .held (by rw [hnotices]; exact h)
  | unread h => exact .unread (by rw [hnotices]; exact List.mem_append_left _ h)
  | first h h' => exact .first h h'

/-- A run that begins has no session yet. -/
theorem watches_began {run' : Run} {site : Site} (hs : run'.stopping = false)
    (hreads : run'.notices.ended = run'.standing?.isNone)
    (hfresh : ∀ x, run'.standing? = some x → x = ⟨.connecting, false, false⟩) :
    Watches { site } run' where
  going := hs
  reads := hreads
  connected x hx := by
    rw [hfresh x hx]
    exact ⟨by simp, nofun⟩
  placed := Nat.zero_le _
  awaits h := absurd h (Nat.lt_irrefl 0)

/-- Over a run that goes on a session is established, or the vigil goes on with it. -/
theorem step_of_ran {e : Event} (hr : v.site.collection.session? = some run)
    (hr' : (v.site.step e).collection.session? = some run') :
    v.step e =
      if !v.site.isConnected && (v.site.step e).isConnected then
        { site := v.site.step e, sessions := v.sessions + 1, place := v.site.history.length }
      else
        { v with site := v.site.step e, triggered := v.triggered || v.site.triggersPull e } := by
  unfold step
  simp only [hr, hr', Option.isNone_some, Bool.false_and, Bool.false_eq_true, if_false]

theorem step_of_kept {e : Event} (hr : v.site.collection.session? = some run)
    (hr' : (v.site.step e).collection.session? = some run')
    (h : (v.site.step e).isConnected = true → v.site.isConnected = true) :
    v.step e =
      { v with site := v.site.step e, triggered := v.triggered || v.site.triggersPull e } := by
  rw [step_of_ran hr hr', if_neg]
  rw [Bool.and_eq_true, Bool.not_eq_true']
  rintro ⟨hno, hyes⟩
  rw [h hyes] at hno
  cases hno

theorem isConnected_of_standing {s s' : Site} (hr : s.collection.session? = some run)
    (hr' : s'.collection.session? = some run') (h : run'.standing? = run.standing?) :
    s'.isConnected = true → s.isConnected = true := by
  rw [isConnected_iff hr, isConnected_iff hr', h]
  exact id

/-- What is kept of a vigil whose run goes on with the session that it has. -/
theorem Watches.kept (h : v.Watches run) {site : Site} {triggered : Bool}
    (hstopping : run'.stopping = run.stopping)
    (hended : run'.notices.ended = run.notices.ended)
    (hnone : run'.standing?.isNone = run.standing?.isNone)
    (hconnected : ∀ x', run'.standing? = some x' → ∃ x, run.standing? = some x ∧
      x'.everConnected = x.everConnected ∧
      (x'.state = .connected →
        x.state = .connected ∧ (x.inSession = true → x'.inSession = true)))
    (hh : site.history = v.site.history ++ deeds)
    (hawaits : Awaits run (v.site.history.drop v.place) v.sessions v.triggered →
      Awaits run' (v.site.history.drop v.place ++ deeds) v.sessions triggered) :
    Watches { v with site, triggered } run' where
  going := hstopping.trans h.going
  reads := hended.trans (h.reads.trans hnone.symm)
  connected x' hx' := by
    obtain ⟨x, hx, hever, hstate⟩ := hconnected x' hx'
    obtain ⟨hiff, hin⟩ := h.connected x hx
    rw [hever]
    refine ⟨hiff, fun hs => ?_⟩
    obtain ⟨hs, hkeeps⟩ := hstate hs
    exact ⟨hkeeps (hin hs).1, (hin hs).2⟩
  placed := by
    show v.place ≤ site.history.length
    rw [hh, List.length_append]
    exact Nat.le_add_right_of_le h.placed
  awaits hpos := by
    show Awaits run' (site.history.drop v.place) v.sessions triggered
    rw [hh, List.drop_append_of_le_length h.placed]
    exact hawaits (h.awaits hpos)

/-- A session that is established is the first of its run, or a notice says that it is resumed. -/
theorem Watches.established (h : v.Watches run) {site : Site} {x : Standing}
    (hstopping : run'.stopping = run.stopping) (hx : run.standing? = some x)
    (hx' : run'.standing? = some ⟨.connected, true, true⟩)
    (hh : site.history = v.site.history ++ deeds)
    (hnotices : run'.notices =
      { run.notices with queue := run.notices.queue ++ [.connected x.everConnected] }) :
    Watches { site, sessions := v.sessions + 1, place := v.site.history.length } run' where
  going := hstopping.trans h.going
  reads := by
    rw [hnotices, hx']
    exact h.reads.trans (by rw [hx]; rfl)
  connected y hy := by
    cases hx'.symm.trans hy
    exact ⟨by simp, fun _ => ⟨rfl, rfl⟩⟩
  placed := by
    show v.site.history.length ≤ site.history.length
    rw [hh, List.length_append]
    exact Nat.le_add_right _ _
  awaits _ := by
    by_cases hfirst : 0 < v.sessions
    · have hever := (h.connected x hx).1.2 hfirst
      exact .unread (by rw [hnotices, hever]; simp)
    · exact .first (by show v.sessions + 1 = 1; omega) rfl

theorem Watches.ran (h : v.Watches run) {e : Event} (he : v.site.triggersPull e = triggers)
    (hr : v.site.collection.session? = some run)
    (hr' : (v.site.step e).collection.session? = some run')
    (hstopping : run'.stopping = run.stopping)
    (hh : (v.site.step e).history = v.site.history ++ deeds)
    (hstir : run.Stir run' deeds triggers) : (v.step e).Watches run' := by
  have hsame : run'.standing? = run.standing? → ∀ x', run'.standing? = some x' →
      ∃ x, run.standing? = some x ∧ x'.everConnected = x.everConnected ∧
        (x'.state = .connected →
          x.state = .connected ∧ (x.inSession = true → x'.inSession = true)) :=
    fun heq x' hx' => ⟨x', heq ▸ hx', rfl, fun hs => ⟨hs, id⟩⟩
  cases hstir with
  | beside hx hnotices howes hover =>
    rw [step_of_kept hr hr' (isConnected_of_standing hr hr' hx), he, Bool.or_false]
    exact h.kept hstopping (by rw [hnotices]) (by rw [hx]) (hsame hx) hh
      fun ha => ha.beside hnotices howes hover
  | triggered hx hended howes =>
    rw [step_of_kept hr hr' (isConnected_of_standing hr hr' hx)]
    exact h.kept hstopping hended (by rw [hx]) (hsame hx) hh fun _ => .owed howes
  | read notice queue collection hx hheld hqueue hnotices hpull =>
    rw [step_of_kept hr hr' (isConnected_of_standing hr hr' hx), he, Bool.or_false]
    refine h.kept hstopping (by rw [hnotices]) (by rw [hx]) (hsame hx) hh fun ha => ?_
    rw [List.append_nil]
    exact ha.read hheld hqueue hnotices hpull
  | listened x x' told hx hx' hmove hnotices hpull =>
    have hheard : run.notices.ended = false := by
      rw [h.reads, hx]
      rfl
    cases hmove hheard with
    | establish hin =>
      obtain ⟨hiff, hconnected⟩ := h.connected x hx
      have hno : v.site.isConnected = false := by
        refine Bool.eq_false_iff.2 fun hyes => ?_
        obtain ⟨y, hy, hs⟩ := (isConnected_iff hr).1 hyes
        cases hx.symm.trans hy
        rw [hin] at hconnected
        cases (hconnected hs).1
      have hyes : (v.site.step e).isConnected = true := (isConnected_iff hr').2 ⟨_, hx', rfl⟩
      rw [step_of_ran hr hr', hno, hyes]
      exact h.established hstopping hx hx' hh hnotices
    | keep hever hstate =>
      have hkept : (v.site.step e).isConnected = true → v.site.isConnected = true := by
        rw [isConnected_iff hr, isConnected_iff hr']
        rintro ⟨y, hy, hs⟩
        cases hx'.symm.trans hy
        exact ⟨x, hx, (hstate hs).1⟩
      rw [step_of_kept hr hr' hkept, he, Bool.or_false]
      refine h.kept hstopping (by rw [hnotices]) (by rw [hx, hx']; rfl) (fun y hy => ?_) hh
        fun ha => ?_
      · cases hx'.symm.trans hy
        exact ⟨x, hx, hever, hstate⟩
      · rw [List.append_nil]
        exact ha.listened hnotices hpull
  | left _ hs =>
    rw [h.going] at hs
    cases hs

theorem watches_step (h : ∀ run, v.site.collection.session? = some run → v.Watches run)
    (e : Event) (hr' : (v.step e).site.collection.session? = some run') :
    (v.step e).Watches run' := by
  rw [site_step] at hr'
  cases v.site.stir_step e with
  | unreached hnone =>
    rw [hnone] at hr'
    cases hr'
  | @began run'' hnone hr'' hs hreads hfresh =>
    obtain rfl : run'' = run' := Option.some.inj (hr''.symm.trans hr')
    have hstep : v.step e = { site := v.site.step e } := by simp [step, hnone, hr']
    rw [hstep]
    exact watches_began hs hreads hfresh
  | @ran run run'' deeds hr hr'' hstopping hh hstir =>
    obtain rfl : run'' = run' := Option.some.inj (hr''.symm.trans hr')
    exact (h run hr).ran rfl hr hr' hstopping hh hstir

theorem watches_run (h : ∀ run, v.site.collection.session? = some run → v.Watches run)
    (es : List Event) :
    ∀ run, (v.run es).site.collection.session? = some run → (v.run es).Watches run := by
  induction es generalizing v with
  | nil => exact h
  | cons e es ih => exact ih fun _ hr => watches_step h e hr

end

/-- A vigil over a collection that was never started. -/
def fresh (path : String) (script : Script) (source : EventSource) (shared : Surroundings) :
    Vigil :=
  { site := Site.fresh path script source shared }

end Vigil

/-- Whether the listener is connected, all its notices are read, and the pull lane waits with no
trigger kept. -/
def Site.listening (s : Site) : Bool :=
  s.isConnected && s.collection.session?.any fun run =>
    run.notices.queue.isEmpty && run.notices.held.isNone && !run.pull.permit &&
      match run.pull.phase with
      | .waiting _ notified => !notified
      | _ => false

theorem Site.listening_iff {s : Site} :
    s.listening = true ↔ ∃ run, s.collection.session? = some run ∧ s.isConnected = true ∧
      run.notices.queue = [] ∧ run.notices.held = none ∧ run.pull.permit = false ∧
      ∃ due, run.pull.phase = .waiting due false := by
  have hphase : ∀ phase : LanePhase, (match phase with
      | .waiting _ notified => !notified
      | _ => false) = true ↔ ∃ due, phase = .waiting due false := by
    intro phase
    cases phase <;> simp
  unfold Site.listening
  cases s.collection.session? with
  | none => simp
  | some run =>
    simp only [Option.any_some, Bool.and_eq_true, hphase, List.isEmpty_iff,
      Option.isNone_iff_eq_none, Bool.not_eq_true', Option.some.injEq, exists_eq_left', and_assoc]

namespace Vigil

open Site (Event)

theorem watches_fresh (path : String) (script : Script) (source : EventSource)
    (shared : Surroundings) (run : Run)
    (hr : (fresh path script source shared).site.collection.session? = some run) :
    (fresh path script source shared).Watches run := by
  cases (Site.session?_eq_some_iff.1 hr).2

theorem Watches.pulled_of_listening {v : Vigil}
    (h : ∀ run, v.site.collection.session? = some run → v.Watches run)
    (hl : v.site.listening = true) :
    .lane .pull .began ∈ v.site.history.drop v.place ∨ v.sessions = 1 ∧ v.triggered = false := by
  obtain ⟨run, hr, hconnected, hqueue, hheld, hpermit, due, hphase⟩ := Site.listening_iff.1 hl
  obtain ⟨x, hx, hs⟩ := (isConnected_iff hr).1 hconnected
  obtain ⟨hiff, hin⟩ := (h run hr).connected x hx
  cases (h run hr).awaits (hiff.1 (hin hs).2) with
  | pulled hbegan => exact .inl hbegan
  | owed ho =>
    rw [LaneTask.owes_waiting hphase, hpermit] at ho
    cases ho
  | ended ho => simp [LaneTask.isOver, hphase] at ho
  | held ho =>
    rw [hheld] at ho
    cases ho
  | unread ho =>
    rw [hqueue] at ho
    cases ho
  | first hfirst htriggered => exact .inr ⟨hfirst, htriggered⟩

/-- Whatever happens to a collection, and in whatever order: when the listener is connected, all its
notices are read and the pull lane waits with no trigger kept, then a pull pass began since the
session was established, or the session is the first of its run and nothing triggered the lane
since. -/
theorem pulled_since_subscription (path : String) (script : Script) (source : EventSource)
    (shared : Surroundings) (es : List Event) :
    let v := (fresh path script source shared).run es
    v.site = (Site.fresh path script source shared).run es ∧
      (v.site.listening = true → .lane .pull .began ∈ v.site.history.drop v.place ∨
        v.sessions = 1 ∧ v.triggered = false) :=
  ⟨site_run _ es,
    Watches.pulled_of_listening (watches_run (watches_fresh path script source shared) es)⟩

/-- The pull lane waits after its first pass, and then the first session is established: nothing
pulls what changed in between. -/
theorem first_subscription_unpulled :
    let pull : Event := .task (.lane .pull)
    let listen : Event := .task .listener
    let v := (fresh "notes" {} [] { listens := true }).run
      ([.start] ++ List.replicate 6 pull ++ [listen, listen, .task .notices])
    v.site.listening = true ∧ .lane .pull (.woke .timer) ∉ v.site.history ∧
      .lane .pull .began ∉ v.site.history.drop v.place := by
  decide +kernel

/-- The second session of a run is resumed, and a pass follows. -/
theorem resumed_subscription_pulled :
    let pull : Event := .task (.lane .pull)
    let listen : Event := .task .listener
    let lost : EventSession := { incoming := [.finish] }
    let es : List Event := [.start] ++ List.replicate 6 pull ++ List.replicate 4 listen ++
      [.elsewhere { listens := true, clock := 2 * Span.perSecond }] ++ List.replicate 3 listen ++
      List.replicate 4 (.task .notices) ++ List.replicate 6 pull
    let v := (fresh "notes" {} [lost] { listens := true }).run es
    v.site.listening = true ∧ v.sessions = 2 ∧
      .lane .pull .began ∈ v.site.history.drop v.place := by
  intro pull listen lost es
  have hpulled := pulled_since_subscription "notes" {} [lost] { listens := true } es
  have hlistening :
      ((fresh "notes" {} [lost] { listens := true }).run es).site.listening = true := by
    decide +kernel
  have hsessions : ((fresh "notes" {} [lost] { listens := true }).run es).sessions = 2 := by
    decide +kernel
  -- From here on the vigil stays as it is, or its numbers would be computed again.
  generalize (fresh "notes" {} [lost] { listens := true }).run es = v
    at hpulled hlistening hsessions ⊢
  refine ⟨hlistening, hsessions, (hpulled.2 hlistening).resolve_right fun hfirst => ?_⟩
  cases hsessions.symm.trans hfirst.1

end Vigil

end Replication
