import Replication.Listener.Run

/-!
# The moves of a listener's task

`ListenerTask.Move` says all that one step of a listener's task can do, with the effects that it
has. A step that ends in a drop does so for one of the reasons of `ListenerTask.Drops`.
-/

namespace Replication

/-- Whether a task goes on after so many drops in a row: another attempt is allowed, and the wait
before it has a length. -/
def RetryPolicy.retries (p : RetryPolicy) (drops : Nat) : Bool :=
  p.allows drops && (p.delay? drops).isSome

/-- Why a session is lost, if it is, with what it brings. -/
def Incoming.loss? : Incoming → Option String
  | .event _ => none
  | .failure e => some e.text
  | .finish => some "stream ended"

namespace ListenerTask

/-- The attempt or the session of a task is over at a time, for a reason that is told. -/
inductive Drops (p : RetryPolicy) (now : Nat) (t : ListenerTask) : String → Prop where
  | failed {s : EventSession} {due : Nat} {e : SyncError} : t.phase = .opening s due →
      t.stopping = false → s.opening = .fails e → Drops p now t e.text
  | hung {s : EventSession} {due : Nat} : t.phase = .opening s due → t.stopping = false →
      s.opening = .hangs → due ≤ now → Drops p now t (timeoutReason p)
  | refused {s : EventSession} {due : Nat} {reason : String} :
      t.phase = .refusing s due reason → t.stopping = false → s.closes = true →
      Drops p now t reason
  | unclosed {s : EventSession} {due : Nat} {reason : String} :
      t.phase = .refusing s due reason → t.stopping = false → s.closes = false → due ≤ now →
      Drops p now t (timeoutReason p)
  | closed {s : EventSession} {reason : String} : t.phase = .closing s (some reason) →
      s.closes = true → Drops p now t reason

/-- Whether a task hears a request to stop at its next step, and is over with it. -/
def hearsStop (t : ListenerTask) : Bool :=
  match t.phase with
  | .starting | .opening .. | .refusing .. | .backingOff _ => true
  | _ => false

/-- A step of a task at a time, on a source: the task with its effects, and the source, after it. -/
inductive Move (x : ListenerContext) (now : Nat) (t : ListenerTask) (source : EventSource) :
    ListenerTask × List ListenerEffect → EventSource → Prop where
  | leave : t.hearsStop = true → t.stopping = true → Move x now t source t.finish source
  | begin (due : Nat) : t.phase = .starting → t.stopping = false →
      Move x now t source
        (t.go (.opening source.next.1 due), [.entered .connecting, .called .open]) source.next.2
  | refuse {s : EventSession} {due : Nat} {e : SyncError} : t.phase = .opening s due →
      t.stopping = false → s.opening = .succeeds → s.refusal = some e →
      Move x now t source (t.go (.refusing s due e.text), [.called .subscribe, .called .close])
        source
  | establish {s : EventSession} {due : Nat} : t.phase = .opening s due → t.stopping = false →
      s.opening = .succeeds → s.refusal = none →
      Move x now t source
        ({ t with phase := .receiving s, attempt := 0, hasConnected := true },
          [.called .subscribe, .entered .connected] ++ tell x (.connected t.hasConnected)) source
  | drop {reason : String} : Drops x.policy now t reason →
      Move x now t source (t.drop x now reason) source
  | hear {s : EventSession} {e : ChangeEvent} {rest : List Incoming} : t.phase = .receiving s →
      t.stopping = false → s.incoming = .event e :: rest → x.heard = true →
      Move x now t source
        (t.go (.receiving { s with incoming := rest }), [.counted e.collection, .told (.event e)])
        source
  | unheard {s : EventSession} {e : ChangeEvent} {rest : List Incoming} :
      t.phase = .receiving s → t.stopping = false → s.incoming = .event e :: rest →
      x.heard = false →
      Move x now t source
        (t.go (.closing { s with incoming := rest } none), [.counted e.collection, .called .close])
        source
  | lose {s : EventSession} {i : Incoming} {rest : List Incoming} {reason : String} :
      t.phase = .receiving s → t.stopping = false → s.incoming = i :: rest →
      i.loss? = some reason →
      Move x now t source (t.close { s with incoming := rest } (some reason)) source
  | release {s : EventSession} : t.phase = .receiving s → t.stopping = true →
      Move x now t source (t.close s none) source
  | released {s : EventSession} : t.phase = .closing s none → s.closes = true →
      Move x now t source t.finish source
  | again {due : Nat} : t.phase = .backingOff due → t.stopping = false → due ≤ now →
      Move x now t source (t.go .starting, []) source

section

variable {x : ListenerContext} {now : Nat} {t : ListenerTask} {source source' : EventSource}
  {r : ListenerTask × List ListenerEffect}

theorem move_of_receive {s : EventSession} (hp : t.phase = .receiving s) (hs : t.stopping = false)
    {i : Incoming} {rest : List Incoming} (hi : s.incoming = i :: rest) :
    Move x now t source (t.receive x { s with incoming := rest } i) source := by
  cases i with
  | event e =>
    unfold receive
    cases hx : x.heard with
    | true => exact .hear hp hs hi hx
    | false => exact .unheard hp hs hi hx
  | failure e => exact .lose hp hs hi rfl
  | finish => exact .lose hp hs hi rfl

theorem move_of_opening {s : EventSession} {due : Nat} (hp : t.phase = .opening s due)
    (hs : t.stopping = false) (h : t.step? x now source = some (r, source')) :
    Move x now t source r source' := by
  simp only [step?, hp, hs, Bool.false_eq_true, if_false] at h
  cases ho : s.opening with
  | succeeds =>
    rw [ho] at h
    cases h
    unfold subscribe
    cases hr : s.refusal with
    | some e => exact .refuse hp hs ho hr
    | none => exact .establish hp hs ho hr
  | fails e =>
    rw [ho] at h
    cases h
    exact .drop (.failed hp hs ho)
  | hangs =>
    rw [ho] at h
    dsimp only at h
    split at h
    · cases h
      exact .drop (.hung hp hs ho ‹_›)
    · cases h

theorem move_of_refusing {s : EventSession} {due : Nat} {reason : String}
    (hp : t.phase = .refusing s due reason) (hs : t.stopping = false)
    (h : t.step? x now source = some (r, source')) : Move x now t source r source' := by
  simp only [step?, hp, hs, Bool.false_eq_true, if_false] at h
  cases hc : s.closes with
  | true =>
    rw [hc] at h
    cases h
    exact .drop (.refused hp hs hc)
  | false =>
    rw [hc] at h
    simp only [Bool.false_eq_true, if_false] at h
    split at h
    · cases h
      exact .drop (.unclosed hp hs hc ‹_›)
    · cases h

theorem move_of_closing {s : EventSession} {reason : Option String}
    (hp : t.phase = .closing s reason) (h : t.step? x now source = some (r, source')) :
    Move x now t source r source' := by
  simp only [step?, hp] at h
  cases hc : s.closes with
  | false =>
    rw [hc] at h
    cases h
  | true =>
    rw [hc] at h
    cases reason with
    | none =>
      cases h
      exact .released hp hc
    | some reason =>
      cases h
      exact .drop (.closed hp hc)

/-- After a drop the task waits, or it is over. -/
theorem drop_cases (x : ListenerContext) (now : Nat) (t : ListenerTask) (reason : String) :
    (∃ due, x.policy.retries (t.attempt + 1) = true ∧
        t.drop x now reason = ({ t with attempt := t.attempt + 1, phase := .backingOff due },
          [.entered .disconnected, .reconnecting] ++ tell x (.dropped reason))) ∨
      x.policy.retries (t.attempt + 1) = false ∧
        t.drop x now reason = ({ t with attempt := t.attempt + 1, phase := .ended },
          [.entered .disconnected, .reconnecting] ++ tell x (.dropped reason) ++
            [.entered .disconnected]) := by
  cases ha : x.policy.allows (t.attempt + 1) with
  | false => exact .inr ⟨by simp only [RetryPolicy.retries, ha, Bool.false_and],
      by simp only [drop, ha]; rfl⟩
  | true =>
    cases hd : x.policy.delay? (t.attempt + 1) with
    | none => exact .inr ⟨by simp only [RetryPolicy.retries, hd, Option.isSome_none, Bool.and_false],
        by simp only [drop, ha, hd]; rfl⟩
    | some delay => exact .inl ⟨now + delay.nanos,
        by simp only [RetryPolicy.retries, ha, hd, Option.isSome_some, Bool.and_true],
        by simp only [drop, ha, hd]; rfl⟩

/-- A task that hears a request to stop has no other step. -/
theorem step?_of_hearsStop (hh : t.hearsStop = true) (hs : t.stopping = true) :
    t.step? x now source = some (t.finish, source) := by
  unfold hearsStop at hh
  unfold step?
  cases hp : t.phase with
  | starting | opening | refusing | backingOff => simp only [hs, if_true]
  | receiving | closing | ended =>
    rw [hp] at hh
    cases hh

theorem move_of_step (h : t.step? x now source = some (r, source')) :
    Move x now t source r source' := by
  by_cases hleave : t.hearsStop = true ∧ t.stopping = true
  · rw [step?_of_hearsStop hleave.1 hleave.2] at h
    cases h
    exact .leave hleave.1 hleave.2
  · have hgo : t.hearsStop = true → t.stopping = false := fun hh =>
      Bool.eq_false_iff.2 fun hs => hleave ⟨hh, hs⟩
    cases hp : t.phase with
    | starting =>
      have hs := hgo (by rw [hearsStop, hp])
      simp only [step?, hp, hs, Bool.false_eq_true, if_false] at h
      cases h
      exact .begin _ hp hs
    | opening s due => exact move_of_opening hp (hgo (by rw [hearsStop, hp])) h
    | refusing s due reason => exact move_of_refusing hp (hgo (by rw [hearsStop, hp])) h
    | receiving s =>
      simp only [step?, hp] at h
      cases hs : t.stopping with
      | true =>
        simp only [hs, if_true] at h
        cases h
        exact .release hp hs
      | false =>
        simp only [hs, Bool.false_eq_true, if_false] at h
        cases hi : s.incoming with
        | nil =>
          rw [hi] at h
          cases h
        | cons i rest =>
          rw [hi] at h
          cases h
          exact move_of_receive hp hs hi
    | closing s reason => exact move_of_closing hp h
    | backingOff due =>
      have hs := hgo (by rw [hearsStop, hp])
      simp only [step?, hp, hs, Bool.false_eq_true, if_false] at h
      split at h
      · cases h
        exact .again hp hs ‹_›
      · cases h
    | ended =>
      simp only [step?, hp] at h
      cases h

end

end ListenerTask

end Replication
