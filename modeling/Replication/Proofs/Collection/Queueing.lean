import Replication.Proofs.Collection.Site

/-!
# No queued mutation goes unnoticed

A mutation that came into the outbox of a running collection is on its way to a push pass
(`Site.Due`): the call that queued it has yet to tell the channel, or the channel holds a message
for the collection that is to be read, or the push lane owes a pass, until a push pass begins. A
reader that falls behind misses messages, but is told so and then triggers the lane as well.

So when everything is read and the push lane waits, a push pass began after each mutation whose call
returned (`Site.queued_noticed`).
-/

namespace Replication.Site

/-- The mutation that came into the outbox at a place in the history was followed by a push pass, or
is on its way to one. -/
inductive Due (path : String) (sent : List String) (history : List Deed) (place : Nat)
    (push : LaneTask) (i : Nat) : Prop where
  | pushed : Deed.lane .push .began ∈ history.drop (i + 1) → Due path sent history place push i
  | untold : Deed.returned i ∉ history → Due path sent history place push i
  | unread (k : Nat) : place ≤ k → sent[k]? = some path → Due path sent history place push i
  | owed : push.owes = true → Due path sent history place push i
  | ended : push.isOver = true → Due path sent history place push i

section

variable {path : String} {sent : List String} {h : List Deed} {place i : Nat}
  {push push' : LaneTask} {d : Deed}

theorem Due.abides (hd : Due path sent h place push i) (hp : push.Abides push') :
    Due path sent h place push' i := by
  cases hd with
  | pushed hd => exact .pushed hd
  | untold hd => exact .untold hd
  | unread k hk hm => exact .unread k hk hm
  | owed ho => exact .owed (hp.owes ho)
  | ended ho => exact .ended (hp.ended.trans ho)

/-- One more message stands behind those that are to be read. -/
theorem Due.told (hd : Due path sent h place push i) (m : String) :
    Due path (sent ++ [m]) h place push i := by
  cases hd with
  | pushed hd => exact .pushed hd
  | untold hd => exact .untold hd
  | unread k hk hm =>
    refine .unread k hk ?_
    rw [List.getElem?_append_left (List.getElem?_eq_some_iff.1 hm).1]
    exact hm
  | owed ho => exact .owed ho
  | ended ho => exact .ended ho

/-- One more deed, which does not tell the channel of this mutation. -/
theorem Due.concat (hd : Due path sent h place push i) (hi : i < h.length)
    (hne : d ≠ .returned i)
    (howes : push.owes = true → d = .lane .push .began ∨ push'.isOver = true ∨ push'.owes = true)
    (hover : push.isOver = true → push'.isOver = true) :
    Due path sent (h ++ [d]) place push' i := by
  have hdrop : (h ++ [d]).drop (i + 1) = h.drop (i + 1) ++ [d] := List.drop_append_of_le_length hi
  cases hd with
  | pushed hd =>
    refine .pushed ?_
    rw [hdrop]
    exact List.mem_append_left _ hd
  | untold hd =>
    refine .untold ?_
    rw [List.mem_append, List.mem_singleton, not_or]
    exact ⟨hd, hne.symm⟩
  | unread k hk hm => exact .unread k hk hm
  | owed ho =>
    rcases howes ho with rfl | ho' | ho'
    · refine .pushed ?_
      rw [hdrop]
      simp
    · exact .ended ho'
    · exact .owed ho'
  | ended ho => exact .ended (hover ho)

/-- A message that the reader got was for another collection, or the reader triggers the lane. -/
theorem Due.heard {run : Run} {news : EnqueueNews} {enqueues : EnqueueReader}
    {c : Channel String}
    (hd : Due path c.sent h run.enqueues.place run.push i)
    (hread : run.enqueues.read? path c = some (news, enqueues)) :
    Due path c.sent h (run.heard news enqueues).enqueues.place (run.heard news enqueues).push
      i := by
  cases news with
  | own => exact .owed (LaneTask.owes_notify _)
  | missed => exact .owed (LaneTask.owes_notify _)
  | foreign =>
    show Due path c.sent h enqueues.place run.push i
    cases hd with
    | unread k hk hm =>
      refine .unread k ?_ hm
      unfold EnqueueReader.read? Channel.receive at hread
      by_cases hlag : Channel.capacity < c.sent.length - run.enqueues.place
      · simp [hlag] at hread
      · cases hp : c.sent[run.enqueues.place]? with
        | none => simp [hlag, hp] at hread
        | some m =>
          simp only [hlag, hp, if_false, Option.some.injEq, Prod.mk.injEq] at hread
          obtain ⟨hnews, rfl⟩ := hread
          have hne : k ≠ run.enqueues.place := by
            rintro rfl
            rw [hp] at hm
            simp [Option.some.inj hm] at hnews
          exact Nat.lt_of_le_of_ne hk hne.symm
    | pushed hd => exact .pushed hd
    | untold hd => exact .untold hd
    | owed ho => exact .owed ho
    | ended ho => exact .ended ho

/-- The reader never gets ahead of the channel. -/
theorem place_read? {e e' : EnqueueReader} {c : Channel String} {news : EnqueueNews}
    (h : e.read? path c = some (news, e')) : e'.place ≤ c.latest := by
  unfold EnqueueReader.read? Channel.receive at h
  by_cases hlag : Channel.capacity < c.sent.length - e.place
  · simp only [hlag, if_true, Option.some.injEq, Prod.mk.injEq] at h
    rw [← h.2]
    exact Nat.sub_le _ _
  · cases hp : c.sent[e.place]? with
    | none => simp [hlag, hp] at h
    | some m =>
      simp only [hlag, hp, if_false, Option.some.injEq, Prod.mk.injEq] at h
      rw [← h.2]
      exact (List.getElem?_eq_some_iff.1 hp).1

/-- A deed that is no mutation coming in is not taken for one. -/
theorem queued_of_concat {collection : String} (hd : ∀ collection, d ≠ .queued collection)
    (hi : (h ++ [d])[i]? = some (.queued collection)) :
    i < h.length ∧ h[i]? = some (.queued collection) := by
  rcases Nat.lt_trichotomy i h.length with hlt | rfl | hgt
  · rw [List.getElem?_append_left hlt] at hi
    exact ⟨hlt, hi⟩
  · rw [List.getElem?_concat_length] at hi
    exact absurd (Option.some.inj hi) (hd collection)
  · rw [List.getElem?_eq_none (by rw [List.length_append]; exact hgt)] at hi
    cases hi

end

/-- What holds of queued mutations after any events. -/
structure Noticed (s : Site) : Prop where
  returned : ∀ i, Deed.returned i ∈ s.history → i < s.history.length
  behind : ∀ run, s.collection.run = some run →
    run.enqueues.place ≤ s.shared.replica.enqueued.latest
  due : ∀ run, s.collection.run = some run → ∀ i,
    s.history[i]? = some (.queued s.collection.path) →
      Due s.collection.path s.shared.replica.enqueued.sent s.history run.enqueues.place run.push i

section

variable {s s' : Site} {c : Collection} {shared : Surroundings}

theorem noticed_fresh (path : String) (script : Script) (source : EventSource)
    (shared : Surroundings) : (fresh path script source shared).Noticed where
  returned i hi := by cases hi
  behind run hr := by cases hr
  due run hr := by cases hr

/-- Nothing is done: the run that there may be is where it was. -/
theorem Noticed.same (h : s.Noticed) (hpath : c.path = s.collection.path)
    (hc : shared.replica.enqueued = s.shared.replica.enqueued)
    (hrun : ∀ run', c.run = some run' → ∃ run, s.collection.run = some run ∧
      run'.enqueues.place = run.enqueues.place ∧ run.push.Abides run'.push) :
    Noticed ⟨c, shared, s.history⟩ where
  returned := h.returned
  behind run' hr' := by
    obtain ⟨run, hr, hplace, -⟩ := hrun run' hr'
    rw [hplace, hc]
    exact h.behind run hr
  due run' hr' i hi := by
    obtain ⟨run, hr, hplace, hpush⟩ := hrun run' hr'
    rw [hpath] at hi ⊢
    rw [hplace, hc]
    exact (h.due run hr i hi).abides hpush

/-- Something else is done than queueing a mutation. -/
theorem Noticed.concat (h : s.Noticed) {d : Deed} (hd : ∀ collection, d ≠ .queued collection)
    (hd' : ∀ i, d ≠ .returned i) (hpath : c.path = s.collection.path)
    (hc : shared.replica.enqueued = s.shared.replica.enqueued)
    (hrun : ∀ run', c.run = some run' → ∃ run, s.collection.run = some run ∧
      run'.enqueues.place = run.enqueues.place ∧
      (run.push.owes = true →
        d = .lane .push .began ∨ run'.push.isOver = true ∨ run'.push.owes = true) ∧
      (run.push.isOver = true → run'.push.isOver = true)) :
    Noticed ⟨c, shared, s.history ++ [d]⟩ where
  returned i hi := by
    rw [List.mem_append, List.mem_singleton] at hi
    rw [List.length_append]
    exact Nat.lt_succ_of_lt (h.returned i (hi.resolve_right fun heq => hd' i heq.symm))
  behind run' hr' := by
    obtain ⟨run, hr, hplace, -⟩ := hrun run' hr'
    rw [hplace, hc]
    exact h.behind run hr
  due run' hr' i hi := by
    obtain ⟨run, hr, hplace, howes, hover⟩ := hrun run' hr'
    rw [hpath] at hi ⊢
    rw [hplace, hc]
    obtain ⟨hlt, hi⟩ := queued_of_concat hd hi
    exact (h.due run hr i hi).concat hlt (hd' i) howes hover

theorem Noticed.moved (h : s.Noticed) {run : Run} {l : Lane} {d : LaneDeed} {t' : LaneTask}
    {w' : LaneWork} (hr : s.collection.run = some run)
    (hm : (run.lane l).Move (run.context s.collection.path s.shared)
      ⟨s.collection.progress, s.shared.replica, s.collection.script⟩ d t' w') :
    Noticed
      ⟨{ s.collection with
          progress := w'.progress, script := w'.script, run := some (run.setLane l t') },
        { s.shared with replica := w'.replica }, s.history ++ [.lane l d]⟩ := by
  refine h.concat nofun nofun rfl hm.enqueued fun run' hr' => ⟨run, hr, ?_⟩
  cases hr'
  refine ⟨by rw [Run.enqueues_setLane], ?_⟩
  cases l with
  | pull => exact ⟨fun ho => .inr (.inr ho), id⟩
  | push =>
    refine ⟨fun ho => ?_, fun hover => ?_⟩
    · rcases hm.owes ho with rfl | hover | ho'
      · exact .inl rfl
      · exact .inr (.inl hover)
      · exact .inr (.inr ho')
    · have := hm.isOver_eq_false
      exact absurd hover (by simp [show run.push.isOver = false from this])

/-- A push lane that starts owes a pass, so nothing that came before can go unnoticed. -/
theorem Noticed.started (h : s.Noticed) {run : Run} {p : Progress} {epoch : Nat}
    (hl : ∀ l, run.lane l = .start l epoch)
    (hplace : run.enqueues.place = s.shared.replica.enqueued.latest)
    (hc : shared.replica.enqueued = s.shared.replica.enqueued) :
    Noticed ⟨{ s.collection with progress := p, run := some run }, shared,
      s.history ++ [.started]⟩ where
  returned i hi := by
    have hi' : Deed.returned i ∈ s.history := by simpa using hi
    rw [List.length_append]
    exact Nat.lt_succ_of_lt (h.returned i hi')
  behind run' hr' := by
    cases hr'
    rw [hplace, hc]
  due run' hr' i _ := by
    cases hr'
    have hpush : run.push = .start .push epoch := hl .push
    exact .owed (by rw [hpush]; rfl)

theorem Noticed.abandoned (h : s.Noticed) {run : Run} (hr : s.collection.run = some run)
    (t : RunTask) (stop : Option StopStage) :
    Noticed ⟨{ s.collection with run := some (run.abort t), stop }, s.shared,
      s.history ++ abandonment t⟩ := by
  have hplace := run.place_abort t
  have hpush := run.lane_abort t .push
  change (run.abort t).push = _ at hpush
  cases t with
  | lane l =>
    refine h.concat nofun nofun rfl rfl fun run' hr' => ⟨run, hr, ?_⟩
    cases hr'
    refine ⟨hplace, ?_⟩
    rw [hpush]
    split
    · exact ⟨fun _ => .inr (.inl rfl), fun _ => rfl⟩
    · exact ⟨fun ho => .inr (.inr ho), id⟩
  | _ =>
    simp only [abandonment, List.append_nil]
    refine h.same rfl rfl fun run' hr' => ⟨run, hr, ?_⟩
    cases hr'
    exact ⟨hplace, LaneTask.abides_refl run.push⟩

/-- The call that inserted a mutation has yet to tell the channel. -/
theorem Noticed.queued (h : s.Noticed) {replica : Replica} (collection : String)
    (hc : replica.enqueued = s.shared.replica.enqueued) :
    Noticed ⟨s.collection, { s.shared with replica }, s.history ++ [.queued collection]⟩ where
  returned i hi := by
    have hi' : Deed.returned i ∈ s.history := by simpa using hi
    rw [List.length_append]
    exact Nat.lt_succ_of_lt (h.returned i hi')
  behind run hr := by
    show _ ≤ replica.enqueued.latest
    rw [hc]
    exact h.behind run hr
  due run hr i hi := by
    show Due s.collection.path replica.enqueued.sent _ _ _ i
    rw [hc]
    by_cases hlt : i < s.history.length
    · rw [List.getElem?_append_left hlt] at hi
      exact (h.due run hr i hi).concat hlt nofun (fun ho => .inr (.inr ho)) id
    · refine .untold fun hmem => hlt (h.returned i ?_)
      simpa using hmem

/-- The channel is told, behind all that its reader read. -/
theorem Noticed.told (h : s.Noticed) {place : Nat} {collection : String} {replica : Replica}
    (hplace : s.history[place]? = some (.queued collection))
    (hc : replica.enqueued = s.shared.replica.enqueued.send collection) :
    Noticed ⟨s.collection, { s.shared with replica }, s.history ++ [.returned place]⟩ where
  returned i hi := by
    rw [List.length_append]
    rw [List.mem_append, List.mem_singleton] at hi
    rcases hi with hi | hi
    · exact Nat.lt_succ_of_lt (h.returned i hi)
    · rw [Deed.returned.inj hi]
      exact Nat.lt_succ_of_lt (List.getElem?_eq_some_iff.1 hplace).1
  behind run hr := by
    show _ ≤ replica.enqueued.latest
    rw [hc]
    refine Nat.le_trans (h.behind run hr) ?_
    simp [Channel.latest, Channel.send]
  due run hr i hi := by
    show Due s.collection.path replica.enqueued.sent _ _ _ i
    obtain ⟨hlt, hi⟩ := queued_of_concat (d := .returned place) nofun hi
    rw [hc]
    by_cases hne : i = place
    · subst hne
      rw [hi] at hplace
      cases hplace
      refine .unread s.shared.replica.enqueued.sent.length (h.behind run hr) ?_
      simp [Channel.send]
    · exact ((h.due run hr i hi).told _).concat hlt
        (fun heq => hne (Deed.returned.inj heq).symm) (fun ho => .inr (.inr ho)) id

theorem Noticed.change (h : s.Noticed) (hc : Change s s') : s'.Noticed := by
  cases hc with
  | aside hk hc =>
    refine h.same hk.path hc fun run' hr' => ?_
    obtain ⟨run, hr, hrun⟩ := hk.running run' hr'
    exact ⟨run, hr, hrun.place, hrun.lane .push⟩
  | @heard run news enqueues shared hr hread hc =>
    refine ⟨h.returned, fun run' hr' => ?_, fun run' hr' i hi => ?_⟩
    · cases hr'
      show _ ≤ shared.replica.enqueued.latest
      rw [hc]
      cases news <;> exact place_read? hread
    · cases hr'
      show Due s.collection.path shared.replica.enqueued.sent _ _ _ i
      rw [hc]
      exact (h.due run hr i hi).heard hread
  | moved hr hm => exact h.moved hr hm
  | started hr hs hl hplace hc => exact h.started hl hplace hc
  | idle hr => exact h.concat nofun nofun rfl rfl fun run' hr' => by simp [hr] at hr'
  | @fenced run hr =>
    refine h.concat nofun nofun rfl rfl fun run' hr' => ⟨run', hr', rfl, ?_, id⟩
    exact fun ho => .inr (.inr ho)
  | @asked run hr hnone hs =>
    have hsession : s.collection.session? = some run := by
      simp [Collection.session?, hnone, hr]
    unfold Collection.beginStop
    rw [hsession]
    refine h.same rfl rfl fun run' hr' => ⟨run, hr, ?_⟩
    cases hr'
    exact ⟨rfl, LaneTask.abides_refl run.push⟩
  | @disconnected run run' due shared hr hstop hk hc =>
    refine h.same rfl hc fun run'' hr'' => ⟨run, hr, ?_⟩
    cases hr''
    exact ⟨hk.place, hk.lane .push⟩
  | @awaited run t rest due hr hstop hover =>
    refine h.same rfl rfl fun run' hr' => ⟨run, hr, ?_⟩
    cases hr'
    exact ⟨rfl, LaneTask.abides_refl run.push⟩
  | abandoned hr hstop => exact h.abandoned hr _ _
  | ended hr hstop => exact h.concat nofun nofun rfl rfl fun run' hr' => by cases hr'
  | queued hc => exact h.queued _ hc
  | told hplace _ hc => exact h.told hplace hc

theorem Change.path_eq (hc : Change s s') : s'.collection.path = s.collection.path := by
  cases hc with
  | aside hk _ => exact hk.path
  | asked =>
    unfold Collection.beginStop
    split <;> rfl
  | _ => rfl

theorem path_run (s : Site) (es : List Event) :
    (s.run es).collection.path = s.collection.path := by
  induction es generalizing s with
  | nil => rfl
  | cons e es ih => exact (ih (s.step e)).trans (change_step s e).path_eq

theorem Noticed.run (h : s.Noticed) (es : List Event) : (s.run es).Noticed := by
  induction es generalizing s with
  | nil => exact h
  | cons e es ih => exact ih (h.change (change_step s e))

end

/-- Whether the collection has a run whose reader of queued mutations read everything, and whose
push lane waits, with no trigger kept. -/
def settled (s : Site) : Bool :=
  s.collection.run.any fun run =>
    run.enqueues.place == s.shared.replica.enqueued.latest && !run.push.permit &&
      match run.push.phase with
      | .waiting _ notified => !notified
      | _ => false

theorem settled_iff {s : Site} :
    s.settled = true ↔ ∃ run, s.collection.run = some run ∧
      run.enqueues.place = s.shared.replica.enqueued.latest ∧ run.push.permit = false ∧
      ∃ due, run.push.phase = .waiting due false := by
  have hphase : ∀ phase : LanePhase, (match phase with
      | .waiting _ notified => !notified
      | _ => false) = true ↔ ∃ due, phase = .waiting due false := by
    intro phase
    cases phase <;> simp
  simp only [settled, Option.any_eq_true, Bool.and_eq_true, beq_iff_eq, Bool.not_eq_true', hphase,
    and_assoc]

/-- Whatever happens to a collection, and in whatever order: when the reader of queued mutations has
read everything and the push lane waits with no trigger kept, then a push pass began after each
mutation of the collection that came into the outbox and whose call returned. -/
theorem queued_noticed (path : String) (script : Script) (source : EventSource)
    (shared : Surroundings) (es : List Event) :
    let s := (fresh path script source shared).run es
    s.settled = true → ∀ i, s.history[i]? = some (.queued path) → Deed.returned i ∈ s.history →
      Deed.lane .push .began ∈ s.history.drop (i + 1) := by
  intro s hsettled i hi hreturned
  obtain ⟨run, hr, hplace, hpermit, due, hphase⟩ := settled_iff.1 hsettled
  have h : s.Noticed := (noticed_fresh path script source shared).run es
  have hpath : s.collection.path = path := path_run _ es
  cases h.due run hr i (by rw [hpath]; exact hi) with
  | pushed hd => exact hd
  | untold hd => exact absurd hreturned hd
  | unread k hk hm =>
    have hlt := (List.getElem?_eq_some_iff.1 hm).1
    rw [hplace] at hk
    exact absurd hlt (Nat.not_lt_of_le hk)
  | owed ho =>
    rw [LaneTask.owes_waiting hphase, hpermit] at ho
    cases ho
  | ended ho => simp [LaneTask.isOver, hphase] at ho

/-- A mutation is queued while both lanes wait, and the push lane sends it. -/
theorem queued_noticed_once :
    let m : Mutation := ⟨"m1", "notes", .create, "a", none, 0, 0⟩
    let pull : Event := .task (.lane .pull)
    let push : Event := .task (.lane .push)
    let s := (fresh "notes" {} [] {}).run
      ([.start] ++ List.replicate 6 pull ++ List.replicate 7 push ++
        [.queue m, .tell 14, .task .enqueues] ++ List.replicate 8 push)
    s.settled = true ∧ s.history[14]? = some (.queued "notes") ∧
      Deed.returned 14 ∈ s.history ∧ Deed.lane .push .began ∈ s.history.drop 15 := by
  intro m pull push s
  have hsettled : s.settled = true := by decide +kernel
  have hi : s.history[14]? = some (.queued "notes") := by decide +kernel
  have hreturned : Deed.returned 14 ∈ s.history := by decide +kernel
  exact ⟨hsettled, hi, hreturned,
    queued_noticed "notes" {} [] {} _ hsettled 14 hi hreturned⟩

end Replication.Site
