import Mathlib.Data.List.Perm.Basic
import Replication.Proofs.Sync.World

/-!
# Local writes at the same time

A local write has two steps: it writes its document and then queues its mutation. Several callers
may make their steps in any order between each other (`Writers.Interleaving`).

1. When all of them succeed, the outbox has their mutations in the order in which they were queued,
   and each document is as the last mutation of it that was written says (`Writers.exec_run`).
2. A server where the last write wins has of a document what the mutation says that was delivered
   last (`Authority.live?_takeAll`).
3. The two orders agree for a document unless two calls cross: the one that wrote first queues last
   (`Writers.queued_as_written_iff`).
-/

namespace Replication

namespace Mutation

/-- Whether a mutation is about a document of a collection. -/
def about (collection document : String) (m : Mutation) : Bool :=
  m.collection == collection && m.document == document

/-- The body of a document after mutations of it: the last one says it. -/
def lastBody (before : Option Object) (ms : List Mutation) : Option Object :=
  ms.getLast?.elim before body

theorem lastBody_cons (before : Option Object) (m : Mutation) (ms : List Mutation) :
    lastBody before (m :: ms) = lastBody m.body ms := by
  unfold lastBody
  rw [List.getLast?_cons]
  cases ms.getLast? <;> rfl

/-- What was before some mutations of a document does not matter after them. -/
theorem lastBody_append (before before' : Option Object) (old : List Mutation) {ms : List Mutation}
    (h : ms ≠ []) : lastBody before (old ++ ms) = lastBody before' ms := by
  unfold lastBody
  rw [List.getLast?_append_of_ne_nil _ h]
  cases hl : ms.getLast? with
  | none => exact absurd (List.getLast?_eq_none_iff.1 hl) h
  | some m => rfl

end Mutation

/-- A write that is not refused leaves its document as the mutation says, and touches no other. -/
theorem Documents.get?_write {d : Documents} {m : Mutation} (h : (d.write m).1 = none)
    (collection document : String) :
    (d.write m).2.get? collection document =
      if m.about collection document then m.body else d.get? collection document := by
  unfold write upsert remove Mutation.about Mutation.body at *
  cases ho : m.operation <;> simp only [ho] at h ⊢ <;> split at h <;> simp_all [get?]

/-- The server has of a document what the last mutation of it says. -/
theorem Authority.live?_takeAll (s : Authority) (ms : List Mutation) (document : String) :
    (s.takeAll ms).live? document =
      Mutation.lastBody (s.live? document) (ms.filter (·.document == document)) := by
  induction ms generalizing s with
  | nil => rfl
  | cons m ms ih =>
    rw [takeAll, List.foldl_cons, ← takeAll, ih]
    by_cases hd : m.document = document
    · subst hd
      rw [List.filter_cons_of_pos (by simp), Mutation.lastBody_cons]
      exact congrArg (Mutation.lastBody · _) (s.live?_put_self m.document m.body)
    · rw [List.filter_cons_of_neg (by simpa using hd)]
      exact congrArg (Mutation.lastBody · _) (s.live?_put_of_ne m.body hd)

/-- A step of a local write. -/
inductive WriteStep where
  /-- The document is written. -/
  | write (m : Mutation)
  /-- The mutation is queued. -/
  | queue (m : Mutation)

namespace WriteStep

/-- The mutation of a step that writes a document. -/
def written? : WriteStep → Option Mutation
  | .write m => some m
  | .queue _ => none

/-- The mutation of a step that queues it. -/
def queued? : WriteStep → Option Mutation
  | .write _ => none
  | .queue m => some m

/-- What a step does. -/
def action : WriteStep → Action Unit
  | .write m => Replica.writeDocument m
  | .queue m => Replica.enqueue m

end WriteStep

namespace Writers

/-- Steps one after the other. -/
def run : List WriteStep → Action Unit
  | [] => pure ()
  | step :: steps => do
    step.action
    run steps

/-- The mutations in the order in which their documents are written. -/
def writes (steps : List WriteStep) : List Mutation := steps.filterMap WriteStep.written?

/-- The mutations in the order in which they are queued. -/
def queues (steps : List WriteStep) : List Mutation := steps.filterMap WriteStep.queued?

section orders

variable (m : Mutation) (steps : List WriteStep)

@[simp] theorem writes_write : writes (.write m :: steps) = m :: writes steps := rfl
@[simp] theorem writes_queue : writes (.queue m :: steps) = writes steps := rfl
@[simp] theorem queues_write : queues (.write m :: steps) = queues steps := rfl
@[simp] theorem queues_queue : queues (.queue m :: steps) = m :: queues steps := rfl

end orders

/-- The steps are those of some calls: both steps of each call, its document written first. -/
structure Interleaving (calls : List Mutation) (steps : List WriteStep) : Prop where
  all : steps.Perm (calls.flatMap fun m => [.write m, .queue m])
  inOrder : ∀ m ∈ calls, [WriteStep.write m, .queue m].Sublist steps

/-- Of two calls about a document, the one that wrote it first queued its mutation last. -/
def Crossed (collection document : String) (steps : List WriteStep) : Prop :=
  ∃ a b, a.about collection document = true ∧ b.about collection document = true ∧
    [a, b].Sublist (writes steps) ∧ [b, a].Sublist (queues steps)

/-- Of two calls about a document one is over before the other begins. -/
def Apart (collection document : String) (calls : List Mutation) (steps : List WriteStep) : Prop :=
  ∀ a ∈ calls, ∀ b ∈ calls, a.about collection document = true →
    b.about collection document = true → a ≠ b →
    [WriteStep.write a, .queue a, .write b, .queue b].Sublist steps ∨
      [WriteStep.write b, .queue b, .write a, .queue a].Sublist steps

/-- A call on its own is a local write. -/
theorem exec_run_call (m : Mutation) (r : Replica) :
    (run [.write m, .queue m]).exec r = (Replica.writeLocally m).exec r := by
  unfold Replica.writeLocally
  simp only [run, WriteStep.action, Action.exec_bind]
  rcases (Replica.writeDocument m).exec r with ⟨e | x, r₁⟩
  · rfl
  · dsimp only
    rcases (Replica.enqueue m).exec r₁ with ⟨e | y, r₂⟩ <;> rfl

/-! ## What the steps do -/

/-- Steps that succeed leave the new mutations in the order in which they were queued, and each
document as the last mutation of it that was written says. -/
theorem exec_run {steps : List WriteStep} {r r' : Replica} {rows : Rows}
    (hrows : r.rows? = some rows) (hnew : ∀ m ∈ queues steps, m.id ∉ rows.map Row.id)
    (hfresh : ((queues steps).map Mutation.id).Nodup)
    (hok : (run steps).exec r = (.ok (), r')) :
    r'.rows? = some (rows ++ (queues steps).map Row.ofMutation) ∧
      ∀ c d, r'.documents.get? c d =
        Mutation.lastBody (r.documents.get? c d) ((writes steps).filter (·.about c d)) := by
  induction steps generalizing r rows with
  | nil =>
    obtain rfl := (Prod.mk.inj hok).2
    exact ⟨by simpa [queues] using hrows, fun c d => rfl⟩
  | cons step steps ih =>
    obtain ⟨_, r₁, hstep, hrest⟩ := Action.exec_bind_eq_ok hok
    cases step with
    | write m =>
      obtain ⟨hw, rfl⟩ := Replica.exec_writeDocument_ok hstep
      obtain ⟨hrows', hdocs⟩ :=
        ih (r := { r with documents := (r.documents.write m).2 }) hrows hnew hfresh hrest
      refine ⟨hrows', fun c d => (hdocs c d).trans ?_⟩
      dsimp only
      rw [Documents.get?_write hw, writes_write, List.filter_cons]
      split
      · rw [Mutation.lastBody_cons]
      · rfl
    | queue m =>
      rw [queues_queue] at hnew hfresh
      rw [List.map_cons, List.nodup_cons] at hfresh
      obtain ⟨hm, hnew⟩ := List.forall_mem_cons.1 hnew
      obtain ⟨hr₁, hrows₁⟩ := Replica.exec_enqueue_ok hrows hm hstep
      have hnew₁ : ∀ m' ∈ queues steps, m'.id ∉ (rows ++ [Row.ofMutation m]).map Row.id := by
        intro m' hm' hin
        rw [List.map_append, List.mem_append] at hin
        rcases hin with hin | hin
        · exact hnew m' hm' hin
        · obtain hid : m'.id = m.id := List.mem_singleton.1 hin
          exact hfresh.1 (hid ▸ List.mem_map_of_mem hm')
      obtain ⟨hrows', hdocs⟩ := ih hrows₁ hnew₁ hfresh.2 hrest
      refine ⟨?_, fun c d => ?_⟩
      · rw [hrows', List.append_assoc]
        rfl
      · rw [hdocs, hr₁.documents, writes_queue]

/-! ## The two orders -/

/-- Of two members of a list without repetitions each stands before the other at most once. -/
theorem not_sublist_swap {α : Type} {l : List α} (hl : l.Nodup) {a b : α}
    (hab : [a, b].Sublist l) : ¬[b, a].Sublist l := by
  intro hba
  induction l with
  | nil => cases hab
  | cons x l ih =>
    rw [List.nodup_cons] at hl
    cases hab with
    | cons _ hab =>
      cases hba with
      | cons _ hba => exact ih hl.2 hab hba
      | cons_cons _ hba => exact hl.1 (hab.subset (by simp))
    | cons_cons _ hab =>
      cases hba with
      | cons _ hba => exact hl.1 (hba.subset (by simp))
      | cons_cons _ hba => exact hl.1 (hab.subset (by simp))

/-- Of two members of a list one stands before the other. -/
theorem sublist_or_swap {α : Type} {l : List α} {a b : α} (ha : a ∈ l) (hb : b ∈ l) (hne : a ≠ b) :
    [a, b].Sublist l ∨ [b, a].Sublist l := by
  induction l with
  | nil => cases ha
  | cons x l ih =>
    rcases List.mem_cons.1 ha with rfl | hal
    · have hbl : b ∈ l := (List.mem_cons.1 hb).resolve_left (Ne.symm hne)
      exact .inl ((List.singleton_sublist.2 hbl).cons_cons a)
    · rcases List.mem_cons.1 hb with rfl | hbl
      · exact .inr ((List.singleton_sublist.2 hal).cons_cons b)
      · exact (ih hal hbl).imp (.cons x) (.cons x)

/-- Two orders of the same things are one if no two of them are the other way round. -/
theorem eq_of_not_swapped {α : Type} {l l' : List α} (hp : l.Perm l') (hl : l.Nodup)
    (hno : ¬∃ a b, [a, b].Sublist l ∧ [b, a].Sublist l') : l' = l := by
  have hkept : l'.Pairwise fun a b => [a, b].Sublist l := by
    refine List.pairwise_iff_forall_sublist.2 fun {a b} hab => ?_
    have hne : a ≠ b := by
      have hpair := hab.nodup (hp.nodup hl)
      simpa using hpair
    have hmem {x : α} (hx : x ∈ [a, b]) : x ∈ l := hp.mem_iff.2 (hab.subset hx)
    rcases sublist_or_swap (hmem (by simp)) (hmem (by simp)) hne with h | h
    · exact h
    · exact absurd ⟨b, a, h, hab⟩ hno
  have hself : l.Pairwise fun a b => [a, b].Sublist l :=
    List.pairwise_iff_forall_sublist.2 fun h => h
  refine List.Perm.eq_of_pairwise ?_ hkept hself hp.symm
  intro a b _ _ hab hba
  exact absurd hba (not_sublist_swap hl hab)

/-- Two things that are the other way round have keys that are. -/
theorem not_swapped_of_map_eq {α β : Type} {f : α → β} {l l' : List α} (hl : (l.map f).Nodup)
    (h : l'.map f = l.map f) : ¬∃ a b, [a, b].Sublist l ∧ [b, a].Sublist l' := by
  rintro ⟨a, b, hab, hba⟩
  have hba := hba.map f
  rw [h] at hba
  exact not_sublist_swap hl (hab.map f) hba

theorem pair_sublist_filter {α : Type} {l : List α} {p : α → Bool} {a b : α} :
    [a, b].Sublist (l.filter p) ↔ p a = true ∧ p b = true ∧ [a, b].Sublist l := by
  constructor
  · intro h
    have hp {x : α} (hx : x ∈ [a, b]) : p x = true := (List.mem_filter.1 (h.subset hx)).2
    exact ⟨hp (by simp), hp (by simp), h.trans List.filter_sublist⟩
  · rintro ⟨ha, hb, h⟩
    simpa [ha, hb] using h.filter p

section interleaving

variable {calls : List Mutation} {steps : List WriteStep} (h : Interleaving calls steps)

include h

theorem Interleaving.writes_perm : (writes steps).Perm calls := by
  have hp := h.all.filterMap WriteStep.written?
  rw [List.filterMap_flatMap] at hp
  exact hp.trans (.of_eq (List.flatMap_singleton' calls))

theorem Interleaving.queues_perm : (queues steps).Perm calls := by
  have hp := h.all.filterMap WriteStep.queued?
  rw [List.filterMap_flatMap] at hp
  exact hp.trans (.of_eq (List.flatMap_singleton' calls))

/-- If no two calls cross, the mutations of a document are queued as they are written. -/
theorem Interleaving.queues_eq_writes (hd : calls.Nodup) {c d : String}
    (hno : ¬Crossed c d steps) :
    (queues steps).filter (·.about c d) = (writes steps).filter (·.about c d) := by
  have hp := (h.writes_perm.trans h.queues_perm.symm).filter (·.about c d)
  refine eq_of_not_swapped hp ((h.writes_perm.symm.nodup hd).filter _) fun hcross => hno ?_
  obtain ⟨a, b, hab, hba⟩ := hcross
  obtain ⟨ha, hb, hab⟩ := pair_sublist_filter.1 hab
  exact ⟨a, b, ha, hb, hab, (pair_sublist_filter.1 hba).2.2⟩

/-- If two calls cross, the mutations of their document are queued otherwise than they are
written. -/
theorem Interleaving.not_crossed (hd : (calls.map Mutation.id).Nodup) {c d : String}
    (he : ((queues steps).filter (·.about c d)).map Mutation.id =
      ((writes steps).filter (·.about c d)).map Mutation.id) : ¬Crossed c d steps := by
  have hn : (((writes steps).filter (·.about c d)).map Mutation.id).Nodup :=
    (List.filter_sublist.map Mutation.id).nodup ((h.writes_perm.map Mutation.id).symm.nodup hd)
  rintro ⟨a, b, ha, hb, hab, hba⟩
  exact not_swapped_of_map_eq hn he
    ⟨a, b, pair_sublist_filter.2 ⟨ha, hb, hab⟩, pair_sublist_filter.2 ⟨hb, ha, hba⟩⟩

/-- Calls about a document that do not overlap do not cross. -/
theorem Interleaving.not_crossed_of_apart (hd : calls.Nodup) {c d : String}
    (ha : Apart c d calls steps) : ¬Crossed c d steps := by
  rintro ⟨a, b, hac, hbc, hab, hba⟩
  have hwrites : (writes steps).Nodup := h.writes_perm.symm.nodup hd
  have hqueues : (queues steps).Nodup := h.queues_perm.symm.nodup hd
  have hmem {x : Mutation} (hx : x ∈ [a, b]) : x ∈ calls := h.writes_perm.mem_iff.1 (hab.subset hx)
  have hne : a ≠ b := by simpa using hab.nodup hwrites
  rcases ha a (hmem (by simp)) b (hmem (by simp)) hac hbc hne with hs | hs
  · exact not_sublist_swap hqueues (hs.filterMap WriteStep.queued?) hba
  · exact not_sublist_swap hwrites (hs.filterMap WriteStep.written?) hab

end interleaving

/-- The rows of a document that wait to be delivered. -/
def waiting (rows : Rows) (collection document : String) : List Row :=
  (rows.pending collection).filter (·.document == document)

theorem waiting_append (rows : Rows) (ms : List Mutation) (c d : String) :
    waiting (rows ++ ms.map Row.ofMutation) c d =
      waiting rows c d ++ (ms.filter (·.about c d)).map Row.ofMutation := by
  unfold waiting Rows.pending
  simp only [List.filter_filter, List.filter_append, List.filter_map]
  refine congrArg (fun l => _ ++ List.map Row.ofMutation l) (List.filter_congr fun m _ => ?_)
  simp [Mutation.about, Row.ofMutation, Row.pending, Bool.and_comm]

/-- Local writes with new identifiers that all succeed, whatever the order of their steps. The rows
of a document that wait are those that waited and then those of the calls, in the order in which the
calls wrote the document just when no two of them cross. The local document is as the call that
wrote it last says. If none cross and a server where the last write wins gets the mutations of the
document in the order of the outbox, it has of the document what the client has. -/
theorem queued_as_written_iff {calls : List Mutation} {steps : List WriteStep}
    (h : Interleaving calls steps) (hfresh : (calls.map Mutation.id).Nodup) {r r' : Replica}
    {rows : Rows} (hrows : r.rows? = some rows) (hnew : ∀ m ∈ calls, m.id ∉ rows.map Row.id)
    (hok : (run steps).exec r = (.ok (), r')) (c d : String) :
    ∃ rows', r'.rows? = some rows' ∧
      waiting rows' c d =
        waiting rows c d ++ ((queues steps).filter (·.about c d)).map Row.ofMutation ∧
      ((waiting rows' c d).map Row.id = (waiting rows c d).map Row.id ++
          ((writes steps).filter (·.about c d)).map Mutation.id ↔ ¬Crossed c d steps) ∧
      r'.documents.get? c d =
        Mutation.lastBody (r.documents.get? c d) ((writes steps).filter (·.about c d)) ∧
      (¬Crossed c d steps → ∀ m ∈ calls, m.about c d → ∀ (s : Authority) (old ms : List Mutation),
        ms.filter (·.document == d) = old ++ (queues steps).filter (·.about c d) →
          (s.takeAll ms).live? d = r'.documents.get? c d) := by
  have hids : ((queues steps).map Mutation.id).Nodup :=
    (h.queues_perm.map Mutation.id).symm.nodup hfresh
  have hqueued : ∀ m ∈ queues steps, m.id ∉ rows.map Row.id :=
    fun m hm => hnew m (h.queues_perm.mem_iff.1 hm)
  obtain ⟨hrows', hdocs⟩ := exec_run hrows hqueued hids hok
  have hwaiting := waiting_append rows (queues steps) c d
  have horder := h.queues_eq_writes (.of_map Mutation.id hfresh) (c := c) (d := d)
  refine ⟨_, hrows', hwaiting, ?_, hdocs c d, ?_⟩
  · rw [hwaiting, List.map_append, List.map_map, List.append_cancel_left_eq]
    exact ⟨h.not_crossed hfresh, fun hno => congrArg (List.map Mutation.id) (horder hno)⟩
  · intro hno m hm ha s old ms hms
    have hne : (writes steps).filter (·.about c d) ≠ [] := by
      refine List.ne_nil_of_mem (a := m) (List.mem_filter.2 ⟨?_, ha⟩)
      exact h.writes_perm.mem_iff.2 hm
    rw [Authority.live?_takeAll, hms, horder hno, hdocs c d]
    exact Mutation.lastBody_append _ _ old hne

/-- Two calls write a document one after the other and queue their mutations in that order: the
server gets from the outbox what the client has. -/
theorem queued_as_written :
    let m (id : String) (operation : Operation) : Mutation :=
      ⟨id, "notes", operation, "d", none, 0, 0⟩
    let steps := [.write (m "a" .update), .write (m "b" .delete), .queue (m "a" .update),
      .queue (m "b" .delete)]
    let r := ({} : Replica).opened {}
    let r' := ((run steps).exec r).2
    Interleaving [m "a" .update, m "b" .delete] steps ∧
      (r'.rows?.map fun rows => (waiting rows "notes" "d").map Row.id) = some ["a", "b"] ∧
      (({} : Authority).takeAll [m "a" .update, m "b" .delete]).live? "d" =
        r'.documents.get? "notes" "d" := by
  intro m steps r r'
  have hi : Interleaving [m "a" .update, m "b" .delete] steps := by
    refine ⟨.cons _ (.swap _ _ _), fun x hx => ?_⟩
    rcases List.mem_pair.1 hx with rfl | rfl
    · exact .cons_cons _ (.cons _ (.cons_cons _ (.cons _ .slnil)))
    · exact .cons _ (.cons_cons _ (.cons _ (.cons_cons _ .slnil)))
  have hok : (run steps).exec r = (.ok (), r') := by
    have hdone : ((run steps).exec r).1.isOk = true := by decide +kernel
    refine Prod.ext ?_ rfl
    generalize ((run steps).exec r).1 = out at hdone ⊢
    cases out with
    | ok x => rfl
    | error e => cases hdone
  have hids : (r'.rows?.map fun rows => (waiting rows "notes" "d").map Row.id) =
      some ["a", "b"] := by decide +kernel
  have hnone : r.rows? = some [] := rfl
  obtain ⟨rows', hrows', -, horder, -, hserver⟩ := queued_as_written_iff hi (by decide +kernel)
    hnone (fun _ _ h => by cases h) hok "notes" "d"
  have hkept : ¬Crossed "notes" "d" steps := by
    rw [hrows'] at hids
    exact horder.1 (Option.some.inj hids)
  refine ⟨hi, hids, hserver hkept (m "a" .update) List.mem_cons_self (by decide) {} [] _ ?_⟩
  have hqueues : queues steps = [m "a" .update, m "b" .delete] := rfl
  rw [hqueues]
  simp [m, Mutation.about]

/-- Two calls cross: the one that writes the document first queues its mutation last. All their
steps succeed, and the outbox has the mutations the other way round. The client has what the later
write says, and the server, after a push pass, what the earlier one says. -/
theorem crossed_writers :
    let m (id : String) (operation : Operation) : Mutation :=
      ⟨id, "notes", operation, "d", none, 0, 0⟩
    let steps := [.write (m "a" .delete), .write (m "b" .update), .queue (m "b" .update),
      .queue (m "a" .delete)]
    let r := ({} : Replica).opened {}
    let r' := ((run steps).exec r).2
    let w := (World.push { replica := r', server := {} } "notes" 10 5 3).2
    Interleaving [m "a" .delete, m "b" .update] steps ∧
      ((run steps).exec r).1.isOk = true ∧
      (writes steps).map Mutation.id = ["a", "b"] ∧
      (r'.rows?.map fun rows => (waiting rows "notes" "d").map Row.id) = some ["b", "a"] ∧
      w.server.received = ["b", "a"] ∧
      (w.replica.documents.get? "notes" "d").isSome = true ∧
      (w.server.live? "d").isNone = true := by
  intro m steps r r' w
  have hi : Interleaving [m "a" .delete, m "b" .update] steps := by
    refine ⟨.cons _ (.trans (.cons _ (.swap _ _ _)) (.swap _ _ _)), fun x hx => ?_⟩
    rcases List.mem_pair.1 hx with rfl | rfl
    · exact .cons_cons _ (.cons _ (.cons _ (.cons_cons _ .slnil)))
    · exact .cons _ (.cons_cons _ (.cons_cons _ (.cons _ .slnil)))
  refine ⟨hi, by decide +kernel, by decide +kernel, by decide +kernel, by decide +kernel,
    by decide +kernel, by decide +kernel⟩

end Writers

end Replication
