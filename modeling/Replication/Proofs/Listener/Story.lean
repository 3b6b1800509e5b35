import Mathlib.Data.List.Basic
import Replication.Proofs.Listener.Delay

/-!
# What a listener tells

A source is a script of sessions, so all that a listener's task does on it follows from the script:
which calls it makes and which notices it gives, in which order (`story`).

1. What a task showed so far and what it has still to show stay the same together
   (`ListenerTask.shown_move`). As long as nobody asks it to stop, they make up the story.
2. Asked to stop, it closes the session that it receives from, and does nothing else but tell the
   drop of a session that it was closing already (`ListenerTask.lastWords`).
3. It counts the drops since it was last connected, and is over after the one that no attempt is to
   follow (`ListenerTask.Patient`).
4. Its steps are bounded (`ListenerTask.work`), so left alone it comes to the end of its story
   (`ListenerCourse.tells_story`).
5. A listener at work gives its task turns (`Listening.settle_eq_run`).
-/

namespace Replication

/-- Whether others see an effect: a call on the source, or a notice. -/
def ListenerEffect.shows : ListenerEffect → Bool
  | .called _ | .told _ => true
  | .entered _ | .counted _ | .reconnecting => false

/-! ## The story of a script -/

namespace EventSession

/-- Whether a session opens and takes the subscription. -/
def establishes (s : EventSession) : Bool :=
  match s.opening, s.refusal with
  | .succeeds, none => true
  | _, _ => false

/-- What an established session shows: its events, and that it is closed once it is lost. -/
def received : List Incoming → List ListenerEffect
  | [] => []
  | .event e :: rest => .told (.event e) :: received rest
  | .failure _ :: _ | .finish :: _ => [.called .close]

/-- Why an established session is dropped, if it is lost and its close ends. -/
def loss? (s : EventSession) : Option String :=
  if s.closes then s.incoming.findSome? Incoming.loss? else none

/-- What an attempt shows after the call that opens its session, and why it is dropped, if it is. -/
def attempt (p : RetryPolicy) (resumed : Bool) (s : EventSession) :
    List ListenerEffect × Option String :=
  match s.opening, s.refusal with
  | .fails e, _ => ([], some e.text)
  | .hangs, _ => ([], some (ListenerTask.timeoutReason p))
  | .succeeds, some e =>
    ([.called .subscribe, .called .close],
      some (if s.closes then e.text else ListenerTask.timeoutReason p))
  | .succeeds, none =>
    ([.called .subscribe, .told (.connected resumed)] ++ received s.incoming, s.loss?)

end EventSession

/-- All that a task shows on a source that nobody stops, after some drops in a row: attempt after
attempt, up to the drop that is one too many, or a session that is not dropped. -/
def story (p : RetryPolicy) (drops : Nat) (resumed : Bool) : EventSource → List ListenerEffect
  | [] => .called .open :: (EventSession.attempt p resumed {}).1
  | s :: rest =>
    let drops := (if s.establishes then 0 else drops) + 1
    .called .open :: (s.attempt p resumed).1 ++
      match (s.attempt p resumed).2 with
      | none => []
      | some reason =>
        .told (.dropped reason) ::
          if p.retries drops then story p drops (resumed || s.establishes) rest else []

section

variable {p : RetryPolicy} {drops now : Nat} {resumed : Bool} {source source' : EventSource}

/-- The story after an attempt, from why it is dropped. -/
def onward (p : RetryPolicy) (drops : Nat) (resumed : Bool) (source : EventSource) :
    Option String → List ListenerEffect
  | none => []
  | some reason =>
    .told (.dropped reason) ::
      if p.retries (drops + 1) then story p (drops + 1) resumed source else []

theorem story_cons (p : RetryPolicy) (drops : Nat) (resumed : Bool) (s : EventSession)
    (rest : EventSource) :
    story p drops resumed (s :: rest) =
      .called .open :: (s.attempt p resumed).1 ++
        onward p (if s.establishes then 0 else drops) (resumed || s.establishes) rest
          (s.attempt p resumed).2 := by
  unfold story onward
  cases (s.attempt p resumed).2 <;> rfl

theorem story_eq (p : RetryPolicy) (drops : Nat) (resumed : Bool) (source : EventSource) :
    story p drops resumed source =
      .called .open :: (source.next.1.attempt p resumed).1 ++
        onward p (if source.next.1.establishes then 0 else drops)
          (resumed || source.next.1.establishes) source.next.2
          (source.next.1.attempt p resumed).2 := by
  cases source with
  | nil => exact (List.append_nil _).symm
  | cons s rest => exact story_cons p drops resumed s rest

namespace ListenerTask

/-- What a task that nobody stops has still to show. -/
def ahead (p : RetryPolicy) (source : EventSource) (t : ListenerTask) : List ListenerEffect :=
  match t.phase with
  | .starting | .backingOff _ => story p t.attempt t.hasConnected source
  | .opening s _ =>
    (s.attempt p t.hasConnected).1 ++
      onward p (if s.establishes then 0 else t.attempt) (t.hasConnected || s.establishes) source
        (s.attempt p t.hasConnected).2
  | .refusing s _ reason =>
    onward p t.attempt t.hasConnected source
      (some (if s.closes then reason else timeoutReason p))
  | .receiving s =>
    EventSession.received s.incoming ++ onward p t.attempt t.hasConnected source s.loss?
  | .closing s reason =>
    onward p t.attempt t.hasConnected source (if s.closes then reason else none)
  | .ended => []

/-- What a task shows once it is asked to stop. -/
def lastWords (t : ListenerTask) : List ListenerEffect :=
  match t.phase with
  | .receiving _ => [.called .close]
  | .closing s (some reason) => if s.closes then [.told (.dropped reason)] else []
  | _ => []

/-- What a task has still to show. -/
def remaining (p : RetryPolicy) (source : EventSource) (t : ListenerTask) : List ListenerEffect :=
  if t.stopping then t.lastWords else t.ahead p source

variable {t : ListenerTask} {r : ListenerTask × List ListenerEffect}

/-- The drop of an attempt is the first that its task has still to show. -/
theorem ahead_of_drops {reason : String} (h : Drops p now t reason) :
    t.ahead p source = onward p t.attempt t.hasConnected source (some reason) := by
  cases h with
  | failed hp _ ho | hung hp _ ho =>
    simp [ahead, hp, EventSession.attempt, ho, EventSession.establishes]
  | refused hp _ hc | unclosed hp _ hc | closed hp hc => simp [ahead, hp, hc]

theorem lastWords_of_drops {reason : String} (h : Drops p now t reason)
    (hs : t.stopping = true) : t.lastWords = [.told (.dropped reason)] := by
  cases h with
  | closed hp hc => simp [lastWords, hp, hc]
  | failed _ hs' | hung _ hs' | refused _ hs' | unclosed _ hs' => cases hs.symm.trans hs'

theorem lastWords_of_hearsStop (h : t.hearsStop = true) : t.lastWords = [] := by
  unfold hearsStop at h
  unfold lastWords
  cases hp : t.phase with
  | receiving | closing =>
    rw [hp] at h
    cases h
  | _ => rfl

@[simp] theorem remaining_ended (hp : t.phase = .ended) : t.remaining p source = [] := by
  simp [remaining, lastWords, ahead, hp]

/-- What a drop shows, and what is still to show after it. -/
theorem remaining_drop (t : ListenerTask) (reason : String) :
    (t.drop ⟨p, true⟩ now reason).2.filter ListenerEffect.shows ++
        (t.drop ⟨p, true⟩ now reason).1.remaining p source =
      if t.stopping then [.told (.dropped reason)]
      else onward p t.attempt t.hasConnected source (some reason) := by
  rcases drop_cases ⟨p, true⟩ now t reason with ⟨due, hr, heq⟩ | ⟨hr, heq⟩
  · have hr : p.retries (t.attempt + 1) = true := hr
    rw [heq]
    cases t.stopping <;>
      simp [remaining, lastWords, ahead, onward, hr, tell, ListenerEffect.shows, List.filter_cons]
  · have hr : p.retries (t.attempt + 1) = false := hr
    rw [heq]
    simp [onward, hr, tell, ListenerEffect.shows, List.filter_cons]

theorem stopping_drop (x : ListenerContext) (t : ListenerTask) (reason : String) :
    (t.drop x now reason).1.stopping = t.stopping := by
  rcases drop_cases x now t reason with ⟨due, -, heq⟩ | ⟨-, heq⟩ <;> rw [heq]

theorem stopping_move {x : ListenerContext} (h : Move x now t source r source') :
    r.1.stopping = t.stopping := by
  cases h with
  | drop => exact stopping_drop x t _
  | _ => rfl

/-- What a step shows is the first of what was still to show. -/
theorem shown_move (h : Move ⟨p, true⟩ now t source r source') :
    r.2.filter ListenerEffect.shows ++ r.1.remaining p source' = t.remaining p source := by
  cases h with
  | drop h =>
    rw [remaining_drop]
    unfold remaining
    cases hs : t.stopping with
    | true => exact (lastWords_of_drops h hs).symm
    | false => exact (ahead_of_drops h).symm
  | leave hh hs =>
    rw [remaining_ended rfl, remaining, hs, if_pos rfl, lastWords_of_hearsStop hh]
    rfl
  | begin due hp hs =>
    simp [remaining, ahead, hp, hs, go, story_eq, ListenerEffect.shows, List.filter_cons]
  | refuse hp hs ho hr =>
    simp [remaining, ahead, hp, hs, go, EventSession.attempt, EventSession.establishes, ho, hr,
      ListenerEffect.shows, List.filter_cons]
  | establish hp hs ho hr =>
    simp [remaining, ahead, hp, hs, tell, EventSession.attempt, EventSession.establishes, ho, hr,
      ListenerEffect.shows, List.filter_cons]
  | hear hp hs hi =>
    simp [remaining, ahead, hp, hs, go, EventSession.received, EventSession.loss?, hi,
      List.findSome?_cons, Incoming.loss?, ListenerEffect.shows, List.filter_cons]
  | unheard _ _ _ hx => cases hx
  | @lose s i rest reason hp hs hi hl =>
    have hreceived : EventSession.received (i :: rest) = [.called .close] := by
      cases i with
      | event => cases hl
      | failure | finish => rfl
    simp [remaining, ahead, hp, hs, close, go, hreceived, EventSession.loss?, hi, hl,
      ListenerEffect.shows, List.filter_cons]
  | release hp hs =>
    simp [remaining, lastWords, hp, hs, close, go, ListenerEffect.shows, List.filter_cons]
  | released hp hc =>
    rw [remaining_ended rfl]
    simp [remaining, lastWords, ahead, hp, hc, onward, finish, ListenerEffect.shows]
  | again hp hs => simp [remaining, ahead, hp, hs, go]

/-- A task waits for ever, whatever the time is. -/
def AtRest (p : RetryPolicy) (source : EventSource) (t : ListenerTask) : Prop :=
  ∀ now, t.step? ⟨p, true⟩ now source = none

theorem atRest_cases (h : t.AtRest p source) :
    t.phase = .ended ∨
      (∃ s, t.phase = .receiving s ∧ t.stopping = false ∧ s.incoming = []) ∨
      ∃ s reason, t.phase = .closing s reason ∧ s.closes = false := by
  unfold AtRest at h
  cases hp : t.phase with
  | starting =>
    have hnow := h 0
    simp [step?, hp] at hnow
    split at hnow <;> cases hnow
  | opening s due =>
    have hnow := h due
    simp only [step?, hp] at hnow
    split at hnow
    · cases hnow
    · split at hnow <;> simp at hnow
  | refusing s due reason =>
    have hnow := h due
    simp only [step?, hp, Nat.le_refl, if_true] at hnow
    split at hnow
    · cases hnow
    · split at hnow <;> cases hnow
  | receiving s =>
    have hnow := h 0
    simp only [step?, hp] at hnow
    split at hnow
    · cases hnow
    · split at hnow
      · exact .inr (.inl ⟨s, rfl, Bool.eq_false_iff.2 ‹_›, ‹_›⟩)
      · cases hnow
  | closing s reason =>
    have hnow := h 0
    simp only [step?, hp] at hnow
    split at hnow
    · rename_i hc
      exact .inr (.inr ⟨s, reason, rfl, by simpa using hc⟩)
    · split at hnow <;> cases hnow
  | backingOff due =>
    have hnow := h due
    simp only [step?, hp, Nat.le_refl, if_true] at hnow
    split at hnow <;> cases hnow
  | ended => exact .inl rfl

/-- A task that waits for ever has nothing more to show. -/
theorem remaining_of_atRest (h : t.AtRest p source) : t.remaining p source = [] := by
  rcases atRest_cases h with hp | ⟨s, hp, hs, hi⟩ | ⟨s, reason, hp, hc⟩
  · exact remaining_ended hp
  · simp [remaining, ahead, hp, hs, hi, EventSession.received, EventSession.loss?, onward]
  · cases reason <;> simp [remaining, lastWords, ahead, hp, hc, onward]

/-! ## Drops in a row -/

/-- The drops in a row after a notice. -/
def dropsAfter (drops : Nat) : Notice → Nat
  | .connected _ => 0
  | .dropped _ => drops + 1
  | .event _ => drops

theorem attempt_move (h : Move ⟨p, true⟩ now t source r source') :
    r.1.attempt = (Listening.notices r.2).foldl dropsAfter t.attempt := by
  cases h with
  | drop =>
    rename_i reason _
    rcases drop_cases ⟨p, true⟩ now t reason with ⟨due, -, heq⟩ | ⟨-, heq⟩ <;>
      rw [heq] <;> rfl
  | unheard _ _ _ hx => cases hx
  | _ => rfl

/-- What holds of a task that nobody stops: it is over exactly after a drop that the policy does not
let it go on after. -/
structure Patient (p : RetryPolicy) (t : ListenerTask) : Prop where
  done : t.isOver = true ↔ 0 < t.attempt ∧ p.retries t.attempt = false
  /-- A session is closed only once it is lost. -/
  lost : ∀ s, t.phase ≠ .closing s none

theorem phase_ne_ended_of_move {x : ListenerContext} (h : Move x now t source r source') :
    t.phase ≠ .ended := by
  intro hp
  cases h with
  | leave hh =>
    rw [hearsStop, hp] at hh
    cases hh
  | drop h => cases h <;> simp_all
  | _ => simp_all

theorem isOver_iff : t.isOver = true ↔ t.phase = .ended := by
  unfold isOver
  exact beq_iff_eq

theorem Patient.move (ht : t.Patient p) (hs : t.stopping = false)
    (h : Move ⟨p, true⟩ now t source r source') : r.1.Patient p := by
  have hgoing : ¬(0 < t.attempt ∧ p.retries t.attempt = false) := fun hdone =>
    phase_ne_ended_of_move h (isOver_iff.1 (ht.done.2 hdone))
  cases h with
  | leave _ hs' | release _ hs' => cases hs.symm.trans hs'
  | unheard _ _ _ hx => cases hx
  | released hp => exact absurd hp (ht.lost _)
  | drop =>
    rename_i reason _
    rcases drop_cases ⟨p, true⟩ now t reason with ⟨due, hr, heq⟩ | ⟨hr, heq⟩ <;> rw [heq]
    · have hr : p.retries (t.attempt + 1) = true := hr
      exact ⟨by simp [isOver_iff, hr], fun _ hp => by cases hp⟩
    · exact ⟨⟨fun _ => ⟨Nat.succ_pos _, hr⟩, fun _ => rfl⟩, fun _ hp => by cases hp⟩
  | establish => exact ⟨by simp [isOver_iff], fun _ hp => by cases hp⟩
  | begin | refuse | hear | lose | again =>
    exact ⟨by simpa [isOver_iff, go, close] using hgoing, fun _ hp => by cases hp⟩

end ListenerTask

/-! ## Work to do -/

namespace EventSession

/-- A bound for the steps on an established session, from one for those after its drop. -/
def receivingWork (incoming : List Incoming) (after : Nat) : Nat :=
  incoming.length + if (incoming.findSome? Incoming.loss?).isSome then after + 3 else 0

/-- A bound for the steps on a session that is being opened. -/
def openingWork (s : EventSession) (after : Nat) : Nat :=
  if s.establishes then receivingWork s.incoming after + 1 else after + 4

end EventSession

/-- A bound for the steps on a source. -/
def EventSource.work : EventSource → Nat
  | [] => 2
  | s :: rest => s.openingWork (work rest) + 1

namespace ListenerTask

/-- A bound for the steps of a task that nobody stops. -/
def work (source : EventSource) (t : ListenerTask) : Nat :=
  match t.phase with
  | .starting => source.work
  | .opening s _ => s.openingWork source.work
  | .refusing _ _ _ | .closing _ _ => source.work + 2
  | .receiving s => EventSession.receivingWork s.incoming source.work
  | .backingOff _ => source.work + 1
  | .ended => 0

theorem work_begin (source : EventSource) :
    source.next.1.openingWork (EventSource.work source.next.2) < source.work := by
  cases source with
  | nil => decide
  | cons s rest => exact Nat.lt_succ_self _

theorem work_drop {reason : String} (x : ListenerContext) (h : Drops p now t reason) :
    (t.drop x now reason).1.work source < t.work source := by
  have hlt : source.work + 1 < t.work source := by
    cases h with
    | failed hp _ ho | hung hp _ ho =>
      simp [work, hp, EventSession.openingWork, EventSession.establishes, ho]
    | refused hp | unclosed hp | closed hp => simp [work, hp]
  rcases drop_cases x now t reason with ⟨due, -, heq⟩ | ⟨-, heq⟩ <;> rw [heq]
  · exact hlt
  · exact Nat.zero_lt_of_lt hlt

theorem work_move (hs : t.stopping = false) (h : Move ⟨p, true⟩ now t source r source') :
    r.1.work source' < t.work source := by
  cases h with
  | leave _ hs' | release _ hs' => cases hs.symm.trans hs'
  | unheard _ _ _ hx => cases hx
  | drop h => exact work_drop ⟨p, true⟩ h
  | begin due hp =>
    have hlt := work_begin source
    simpa [work, hp, go] using hlt
  | refuse hp _ ho hr =>
    simp [work, hp, go, EventSession.openingWork, EventSession.establishes, ho, hr]
  | establish hp _ ho hr =>
    simp [work, hp, EventSession.openingWork, EventSession.establishes, ho, hr]
  | hear hp _ hi =>
    simp [work, hp, go, EventSession.receivingWork, hi, List.findSome?_cons, Incoming.loss?]
  | lose hp _ hi hl =>
    simp [work, hp, close, go, EventSession.receivingWork, hi, hl]
    omega
  | released hp => simp [work, hp, finish, go]
  | again hp => simp [work, hp, go]

/-- What a task that is asked to stop still tells, it would tell anyway. -/
theorem notices_lastWords_prefix (p : RetryPolicy) (source : EventSource) (t : ListenerTask) :
    Listening.notices t.lastWords <+: Listening.notices (t.ahead p source) := by
  cases hp : t.phase with
  | closing s reason =>
    cases reason with
    | none => simp [lastWords, hp, Listening.notices]
    | some reason => cases hc : s.closes <;> simp [lastWords, ahead, hp, hc, onward, Listening.notices]
  | _ => simp [lastWords, hp, Listening.notices]

end ListenerTask

theorem notices_shown (effects : List ListenerEffect) :
    Listening.notices (effects.filter ListenerEffect.shows) = Listening.notices effects := by
  unfold Listening.notices
  rw [List.filterMap_filter]
  refine List.filterMap_congr fun e _ => ?_
  cases e <;> rfl

/-! ## Resumed sessions -/

/-- Of a notice that tells of a session, whether it is resumed. -/
def Notice.resumed? : Notice → Option Bool
  | .connected resumed => some resumed
  | .dropped _ | .event _ => none

/-- The sessions that are told of in notices, by whether they are resumed. -/
def connections (effects : List ListenerEffect) : List Bool :=
  (Listening.notices effects).filterMap Notice.resumed?

theorem connections_append (l l' : List ListenerEffect) :
    connections (l ++ l') = connections l ++ connections l' := by
  simp [connections, Listening.notices, List.filterMap_append]

theorem connections_received (incoming : List Incoming) :
    connections (EventSession.received incoming) = [] := by
  induction incoming with
  | nil => rfl
  | cons i rest ih =>
    cases i with
    | event e => exact ih
    | failure | finish => rfl

theorem connections_attempt (p : RetryPolicy) (resumed : Bool) (s : EventSession) :
    connections (s.attempt p resumed).1 = if s.establishes then [resumed] else [] := by
  unfold EventSession.attempt EventSession.establishes
  cases s.opening with
  | fails | hangs => rfl
  | succeeds =>
    cases s.refusal with
    | some => rfl
    | none =>
      show connections ([_, _] ++ _) = _
      rw [connections_append, connections_received]
      rfl

/-- The sessions of a story are resumed, all but the first. -/
theorem connections_story (p : RetryPolicy) (drops : Nat) (resumed : Bool) (source : EventSource) :
    ∃ n, connections (story p drops resumed source) <+: resumed :: List.replicate n true := by
  induction source generalizing drops resumed with
  | nil => exact ⟨0, List.prefix_refl [resumed]⟩
  | cons s rest ih =>
    have honward : ∀ drops resumed reason, ∃ n,
        connections (onward p drops resumed rest reason) <+: resumed :: List.replicate n true := by
      intro drops resumed reason
      cases reason with
      | none => exact ⟨0, List.nil_prefix⟩
      | some reason =>
        show ∃ n, connections (if p.retries (drops + 1) then _ else []) <+: _
        split
        · exact ih _ _
        · exact ⟨0, List.nil_prefix⟩
    obtain ⟨n, hn⟩ := honward (if s.establishes then 0 else drops) (resumed || s.establishes)
      (s.attempt p resumed).2
    rw [story_cons]
    show ∃ n, connections ((s.attempt p resumed).1 ++ onward p _ _ rest _) <+: _
    rw [connections_append, connections_attempt]
    cases he : s.establishes with
    | false => exact ⟨n, by simpa [he] using hn⟩
    | true => exact ⟨n + 1, by simpa [he, List.replicate_succ] using hn⟩

end

/-! ## Courses -/

/-- What happens to a task: it gets a turn at a time, or is asked to stop. -/
inductive ListenerEvent where
  | turn (now : Nat)
  | stop
  deriving DecidableEq, Repr

/-- A task with its source, and all that it did so far. -/
structure ListenerCourse where
  task : ListenerTask := {}
  source : EventSource
  effects : List ListenerEffect := []

namespace ListenerCourse

/-- The course after an event. Its owner listens. -/
def step (p : RetryPolicy) (c : ListenerCourse) : ListenerEvent → ListenerCourse
  | .turn now =>
    match c.task.step? ⟨p, true⟩ now c.source with
    | none => c
    | some ((task, effects), source) => ⟨task, source, c.effects ++ effects⟩
  | .stop => { c with task := { c.task with stopping := true } }

/-- The course after events. -/
def run (p : RetryPolicy) (c : ListenerCourse) (es : List ListenerEvent) : ListenerCourse :=
  es.foldl (step p) c

/-- What others saw. -/
def shown (c : ListenerCourse) : List ListenerEffect := c.effects.filter ListenerEffect.shows

/-- What the owner was told. -/
def told (c : ListenerCourse) : List Notice := Listening.notices c.effects

/-- The drops since the task was last connected. -/
def dropsInARow (c : ListenerCourse) : Nat := c.told.foldl ListenerTask.dropsAfter 0

/-- What others see in the end, if nothing more is asked of the task. -/
def whole (p : RetryPolicy) (c : ListenerCourse) : List ListenerEffect :=
  c.shown ++ c.task.remaining p c.source

section

variable {p : RetryPolicy} {c : ListenerCourse} {es : List ListenerEvent}

theorem turn_cases (p : RetryPolicy) (c : ListenerCourse) (now : Nat) :
    (c.task.step? ⟨p, true⟩ now c.source = none ∧ c.step p (.turn now) = c) ∨
      ∃ r source, ListenerTask.Move ⟨p, true⟩ now c.task c.source r source ∧
        c.step p (.turn now) = ⟨r.1, source, c.effects ++ r.2⟩ := by
  cases h : c.task.step? ⟨p, true⟩ now c.source with
  | none => exact .inl ⟨rfl, by simp only [step, h]⟩
  | some r =>
    obtain ⟨⟨task, effects⟩, source⟩ := r
    exact .inr ⟨_, _, ListenerTask.move_of_step h, by simp only [step, h]⟩

theorem stop_of_stopping (h : c.task.stopping = true) : c.step p .stop = c := by
  obtain ⟨⟨phase, attempt, hasConnected, stopping⟩, source, effects⟩ := c
  cases h
  rfl

theorem whole_turn (p : RetryPolicy) (c : ListenerCourse) (now : Nat) :
    (c.step p (.turn now)).whole p = c.whole p := by
  rcases turn_cases p c now with ⟨-, heq⟩ | ⟨r, source, hmove, heq⟩
  · rw [heq]
  · rw [heq]
    unfold whole shown
    rw [List.filter_append, List.append_assoc, ListenerTask.shown_move hmove]

theorem stopping_turn (p : RetryPolicy) (c : ListenerCourse) (now : Nat) :
    (c.step p (.turn now)).task.stopping = c.task.stopping := by
  rcases turn_cases p c now with ⟨-, heq⟩ | ⟨r, source, hmove, heq⟩
  · rw [heq]
  · rw [heq]
    exact ListenerTask.stopping_move hmove

/-- What others see in the end does not change while the task takes its turns. -/
theorem whole_run (h : .stop ∉ es) :
    (c.run p es).whole p = c.whole p ∧ (c.run p es).task.stopping = c.task.stopping := by
  induction es generalizing c with
  | nil => exact ⟨rfl, rfl⟩
  | cons e es ih =>
    obtain ⟨hhead, htail⟩ := not_or.1 (mt List.mem_cons.2 h)
    cases e with
    | stop => exact absurd rfl hhead
    | turn now =>
      obtain ⟨hwhole, hstopping⟩ := ih (c := c.step p (.turn now)) htail
      exact ⟨hwhole.trans (whole_turn p c now), hstopping.trans (stopping_turn p c now)⟩

/-- Nor does it change once the task is asked to stop. -/
theorem whole_run_of_stopping (h : c.task.stopping = true) :
    (c.run p es).whole p = c.whole p := by
  induction es generalizing c with
  | nil => rfl
  | cons e es ih =>
    cases e with
    | stop =>
      show ((c.step p .stop).run p es).whole p = c.whole p
      rw [stop_of_stopping h]
      exact ih h
    | turn now =>
      exact (ih ((stopping_turn p c now).trans h)).trans (whole_turn p c now)

theorem shown_prefix_whole (p : RetryPolicy) (c : ListenerCourse) : c.shown <+: c.whole p :=
  List.prefix_append _ _

theorem whole_of_atRest (h : c.task.AtRest p c.source) : c.whole p = c.shown := by
  rw [whole, ListenerTask.remaining_of_atRest h, List.append_nil]

/-- Left alone, a task comes to where it waits for ever. -/
theorem exists_atRest (h : c.task.stopping = false) :
    ∃ times : List Nat, (c.run p (times.map .turn)).task.AtRest p
      (c.run p (times.map .turn)).source := by
  -- By induction on the bound for the steps to come, which every step makes smaller.
  induction hn : c.task.work c.source using Nat.strongRecOn generalizing c with
  | ind n ih =>
    by_cases hrest : c.task.AtRest p c.source
    · exact ⟨[], hrest⟩
    · unfold ListenerTask.AtRest at hrest
      push Not at hrest
      obtain ⟨now, hnow⟩ := hrest
      rcases turn_cases p c now with ⟨hnone, -⟩ | ⟨r, source, hmove, heq⟩
      · exact absurd hnone hnow
      · have hwork : (c.step p (.turn now)).task.work (c.step p (.turn now)).source < n := by
          rw [heq, ← hn]
          exact ListenerTask.work_move h hmove
        obtain ⟨times, htimes⟩ := ih _ hwork ((stopping_turn p c now).trans h) rfl
        exact ⟨now :: times, htimes⟩

/-- What is told so far, and what would be told even after a request to stop, belongs to a story. -/
theorem notices_whole_step (c : ListenerCourse) (e : ListenerEvent) :
    Listening.notices ((c.step p e).whole p) <+: Listening.notices (c.whole p) := by
  cases e with
  | turn now => exact whole_turn p c now ▸ List.prefix_refl _
  | stop =>
    cases hs : c.task.stopping with
    | true => exact (stop_of_stopping (p := p) hs).symm ▸ List.prefix_refl _
    | false =>
      unfold whole Listening.notices
      rw [List.filterMap_append, List.filterMap_append]
      refine (List.prefix_append_right_inj _).2 ?_
      show Listening.notices (ListenerTask.remaining p c.source { c.task with stopping := true }) <+:
        Listening.notices (c.task.remaining p c.source)
      simp only [ListenerTask.remaining, hs]
      exact ListenerTask.notices_lastWords_prefix p c.source c.task

theorem notices_whole_run (p : RetryPolicy) (c : ListenerCourse) (es : List ListenerEvent) :
    Listening.notices ((c.run p es).whole p) <+: Listening.notices (c.whole p) := by
  induction es generalizing c with
  | nil => exact List.prefix_refl _
  | cons e es ih => exact (ih (c.step p e)).trans (notices_whole_step c e)

theorem told_prefix_whole (p : RetryPolicy) (c : ListenerCourse) :
    c.told <+: Listening.notices (c.whole p) := by
  unfold whole told
  rw [← notices_shown]
  unfold Listening.notices
  rw [List.filterMap_append]
  exact List.prefix_append _ _

theorem dropsInARow_step (h : c.task.attempt = c.dropsInARow) (e : ListenerEvent) :
    (c.step p e).task.attempt = (c.step p e).dropsInARow := by
  cases e with
  | stop => exact h
  | turn now =>
    rcases turn_cases p c now with ⟨-, heq⟩ | ⟨r, source, hmove, heq⟩
    · rw [heq]
      exact h
    · rw [heq]
      unfold dropsInARow told Listening.notices at *
      rw [List.filterMap_append, List.foldl_append, ← h]
      exact ListenerTask.attempt_move hmove

theorem dropsInARow_run (h : c.task.attempt = c.dropsInARow) :
    (c.run p es).task.attempt = (c.run p es).dropsInARow := by
  induction es generalizing c with
  | nil => exact h
  | cons e es ih => exact ih (dropsInARow_step h e)

theorem patient_run (hs : c.task.stopping = false) (h : c.task.Patient p) (hes : .stop ∉ es) :
    (c.run p es).task.Patient p := by
  induction es generalizing c with
  | nil => exact h
  | cons e es ih =>
    obtain ⟨hhead, htail⟩ := not_or.1 (mt List.mem_cons.2 hes)
    cases e with
    | stop => exact absurd rfl hhead
    | turn now =>
      refine ih ((stopping_turn p c now).trans hs) ?_ htail
      rcases turn_cases p c now with ⟨-, heq⟩ | ⟨r, source, hmove, heq⟩
      · rw [heq]
        exact h
      · rw [heq]
        exact h.move hs hmove

theorem run_append (p : RetryPolicy) (c : ListenerCourse) (es es' : List ListenerEvent) :
    c.run p (es ++ es') = (c.run p es).run p es' := List.foldl_append

/-- The course of a task on a source before its first turn. -/
def opened (source : EventSource) : ListenerCourse := { source }

theorem whole_opened (p : RetryPolicy) (source : EventSource) :
    (opened source).whole p = story p 0 false source := rfl

theorem patient_opened (p : RetryPolicy) (source : EventSource) :
    (opened source).task.Patient p :=
  ⟨⟨nofun, fun h => absurd h.1 (Nat.lt_irrefl 0)⟩, fun _ h => by cases h⟩

/-- The story of a task that nobody stops. -/
theorem tells_whole (source : EventSource) (hes : .stop ∉ es) :
    let c := (opened source).run p es
    c.shown <+: story p 0 false source ∧
      (c.task.AtRest p c.source → c.shown = story p 0 false source) ∧
      (∃ times : List Nat, (c.run p (times.map .turn)).shown = story p 0 false source) ∧
      (c.task.isOver = true ↔ 0 < c.dropsInARow ∧ p.retries c.dropsInARow = false) := by
  intro c
  obtain ⟨hwhole, hstopping⟩ := whole_run (p := p) (c := opened source) hes
  have hwhole : c.whole p = story p 0 false source := hwhole
  refine ⟨hwhole ▸ shown_prefix_whole p c, fun h => ?_, ?_, ?_⟩
  · rw [← hwhole, whole_of_atRest h]
  · obtain ⟨times, htimes⟩ := exists_atRest (p := p) (c := c) hstopping
    refine ⟨times, ?_⟩
    rw [← whole_of_atRest htimes, ← hwhole]
    exact (whole_run (by simp)).1
  · have hattempt : c.task.attempt = c.dropsInARow := dropsInARow_run rfl
    rw [← hattempt]
    exact (patient_run rfl (patient_opened p source) hes).done

/-- What is left of the story of a task that is asked to stop. -/
theorem tells_cut (c : ListenerCourse) (es : List ListenerEvent) :
    let c' := (c.step p .stop).run p es
    c'.shown <+: c.shown ++ c.task.lastWords ∧
      (c'.task.AtRest p c'.source → c'.shown = c.shown ++ c.task.lastWords) := by
  intro c'
  have hwhole : c'.whole p = c.shown ++ c.task.lastWords := whole_run_of_stopping rfl
  exact ⟨hwhole ▸ shown_prefix_whole p c', fun h => by rw [← hwhole, whole_of_atRest h]⟩

end

/-- A listener's task on a script of sessions, whenever it gets its turns and whenever it is asked
to stop:

- What it tells is the beginning of the story of its script, so no event or drop is told twice, left
  out or told out of turn. Its first session is new, all others are resumed.
- If nobody stops it, all that it shows is the beginning of the story, and it is the whole story
  once the task waits for ever, which it comes to. It is over exactly after a drop that is not to
  be followed by another attempt, which the drops in a row alone decide.
- A request to stop cuts the story. The task still closes the session that it receives from, and
  tells the drop of a session that it was closing, and that is all.
- Another attempt follows exactly if the policy allows it, unless the factor is negative. -/
theorem tells_story (p : RetryPolicy) (source : EventSource) (es : List ListenerEvent) :
    let c := (opened source).run p es
    (c.told <+: Listening.notices (story p 0 false source) ∧
        ∃ n, c.told.filterMap Notice.resumed? <+: false :: List.replicate n true) ∧
      (.stop ∉ es →
        c.shown <+: story p 0 false source ∧
          (c.task.AtRest p c.source → c.shown = story p 0 false source) ∧
          (∃ times : List Nat, (c.run p (times.map .turn)).shown = story p 0 false source) ∧
          (c.task.isOver = true ↔ 0 < c.dropsInARow ∧ p.retries c.dropsInARow = false)) ∧
      (∀ before after, es = before ++ .stop :: after →
        let asked := (opened source).run p before
        c.shown <+: asked.shown ++ asked.task.lastWords ∧
          (c.task.AtRest p c.source → c.shown = asked.shown ++ asked.task.lastWords)) ∧
      (p.factor.isNegative = false → ∀ drops, p.retries drops = p.allows drops) := by
  intro c
  have htold : c.told <+: Listening.notices (story p 0 false source) :=
    (told_prefix_whole p c).trans (notices_whole_run p (opened source) es)
  refine ⟨⟨htold, ?_⟩, tells_whole source, ?_, RetryPolicy.retries_eq_allows⟩
  · obtain ⟨n, hn⟩ := connections_story p 0 false source
    exact ⟨n, (htold.filterMap _).trans hn⟩
  · rintro before after rfl asked
    have hc : c = (asked.step p .stop).run p after := run_append p _ before (.stop :: after)
    rw [hc]
    exact tells_cut asked after

end ListenerCourse

/-! ## Listeners at work -/

namespace Listening

/-- The course of a task of a listener at work. -/
def course (w : Listening) (t : ListenerTask) : ListenerCourse := ⟨t, w.source, w.effects⟩

theorem settle_of_none {w : Listening} (h : w.listener.step? w.clock w.source = none)
    (fuel : Nat) : w.settle fuel = w := by
  cases fuel with
  | zero => rfl
  | succ fuel => simp only [settle, h]

/-- A listener at work gives its task turns, all at the time of its clock. -/
theorem settle_eq_run {w : Listening} {t : ListenerTask} (ht : w.listener.task = some t)
    (hheard : w.listener.heard = true) (fuel : Nat) :
    ∃ t', (w.settle fuel).listener.task = some t' ∧ (w.settle fuel).course t' =
      (w.course t).run w.listener.policy (List.replicate fuel (.turn w.clock)) := by
  induction fuel generalizing w t with
  | zero => exact ⟨t, ht, rfl⟩
  | succ fuel ih =>
    show ∃ t', _ ∧ _ = ((w.course t).step w.listener.policy (.turn w.clock)).run _ _
    cases hstep : t.step? ⟨w.listener.policy, true⟩ w.clock w.source with
    | none =>
      have hnone : w.listener.step? w.clock w.source = none := by
        simp only [Listener.step?, ht, hheard, Option.bind_some, hstep, Option.map_none]
      have hsame : (w.course t).step w.listener.policy (.turn w.clock) = w.course t := by
        simp only [ListenerCourse.step, course, hstep]
      have hsettle : w.settle (fuel + 1) = w.settle fuel :=
        (settle_of_none hnone _).trans (settle_of_none hnone _).symm
      rw [hsame, hsettle]
      exact ih ht hheard
    | some r =>
      obtain ⟨⟨t', effects⟩, source⟩ := r
      have hsome : w.listener.step? w.clock w.source =
          some (({ w.listener with task := some t' }.after effects, effects), source) := by
        simp only [Listener.step?, ht, hheard, Option.bind_some, hstep, Option.map_some]
      have hturn : (w.course t).step w.listener.policy (.turn w.clock) =
          ⟨t', source, w.effects ++ effects⟩ := by
        simp only [ListenerCourse.step, course, hstep]
      have hsettle : w.settle (fuel + 1) = settle fuel
          ({ w with source }.record ({ w.listener with task := some t' }.after effects, effects)) := by
        simp only [settle, hsome]
      rw [hturn, hsettle]
      exact ih rfl hheard

end Listening

end Replication
