import Replication.Proofs.Sync.Calm

/-!
# Convergence

Whatever happened to a client and its server, once nothing fails any more a push pass and then a
pull pass bring them together: everything written locally is on the server, and the local documents
are those of the server. The one thing that stands in the way is a mutation in the outbox that
cannot be read back (`World.converged_iff_readable`). There can be one: a payload is stored however
deep it is nested, but a deep one cannot be read.
-/

namespace Replication.World

/-- Every event keeps what holds of a world. -/
theorem Reachable.consistent {collection : String} {w : World} (h : w.Reachable collection) :
    w.Consistent collection := by
  induction h with
  | start hs => exact .start collection hs
  | remoteWrite document body _ ih => exact ih.remoteWrite document body
  | localWrite _ hc hn hm hok ih => exact ih.localWrite hc hn hm hok
  | reset _ ih => exact ih.reset
  | restart _ ih => exact ih.restart
  | pull limit fuel _ ih => exact ih.pull limit fuel
  | push limit maxRetries fuel _ ih => exact ih.push limit maxRetries fuel
  | trouble locked refusal fetchFault sendFault _ ih =>
    exact ih.trouble locked refusal fetchFault sendFault

/-- A client and its server after a push pass and then a pull pass, when they agree: both passes
were complete, nothing waits, the checkpoint covers every record, the documents are the same, and
the server has every mutation that was written locally. -/
structure Converged (collection : String) (push : PushPass) (pull : PullPass) (w : World) :
    Prop where
  pushed : ∃ report, push.result? = some (.ok report)
  pulled : ∃ report, pull.result? = some (.ok report)
  drained : w.rows = []
  covered : ∀ x ∈ w.server.records,
    ∃ q, w.replica.persisted? collection = some q ∧ x.position ≤ q
  same : ∀ document, w.replica.documents.get? collection document = w.server.live? document
  received : ∀ id ∈ w.written, id ∈ w.server.received

section

variable {collection : String} {w : World}

/-- Passes that nothing disturbs bring together a client and a server if every row can be read. -/
theorem Consistent.converged (h : w.Consistent collection) (hc : w.Calm)
    (hread : ∀ row ∈ w.rows, row.Readable) (limit maxRetries page : Nat) {n k : Nat}
    (hn : w.rows.length ≤ n)
    (hk : (w.push collection limit maxRetries n).2.server.records.length < k) :
    Converged collection (w.push collection limit maxRetries n).1
      ((w.push collection limit maxRetries n).2.pull collection page k).1
      ((w.push collection limit maxRetries n).2.pull collection page k).2 := by
  obtain ⟨hpushed, hnil⟩ := h.push_calm hc hread limit maxRetries hn
  have hw' := h.push limit maxRetries n
  have hc' := hc.push h limit maxRetries n
  generalize (w.push collection limit maxRetries n).1 = push at *
  generalize (w.push collection limit maxRetries n).2 = w' at *
  obtain ⟨hpulled, habove⟩ := hw'.pull_calm hc' page hk
  have hrows := (hw'.rows_pull page k).trans hnil
  have hw'' := hw'.pull page k
  have hcovered := Authority.above_eq_nil_iff.1 habove
  refine ⟨hpushed, hpulled, hrows, hcovered, fun d => ?_, fun id hid => ?_⟩
  · rcases hw''.tracked d with hl | ⟨x, hx, -, hlt⟩ | ⟨row, hrow, -⟩
    · exact hl
    · obtain ⟨q, hq, hle⟩ := hcovered x hx
      exact absurd hle (not_le_of_gt (hlt q hq))
    · simp [hrows] at hrow
  · simpa [hrows] using hw''.received id hid

/-- A row that cannot be read stays through both passes. -/
theorem Consistent.readable_of_drained (h : w.Consistent collection)
    (limit maxRetries page n k : Nat)
    (hd : ((w.push collection limit maxRetries n).2.pull collection page k).2.rows = []) :
    ∀ row ∈ w.rows, row.Readable := by
  intro row hrow
  by_contra hread
  have hstuck := (h.sends limit maxRetries n).stuck row hrow hread
  rw [← (h.push limit maxRetries n).rows_pull page k, hd] at hstuck
  cases hstuck

/-- Once nothing fails any more, a push pass and then a pull pass bring together a client and its
server, whatever happened to them, exactly if every mutation that waits can be read back. -/
theorem converged_iff_readable (h : w.Reachable collection) (hc : w.Calm)
    (limit maxRetries page n k : Nat) (hn : w.rows.length ≤ n)
    (hk : (w.push collection limit maxRetries n).2.server.records.length < k) :
    Converged collection (w.push collection limit maxRetries n).1
        ((w.push collection limit maxRetries n).2.pull collection page k).1
        ((w.push collection limit maxRetries n).2.pull collection page k).2 ↔
      ∀ row ∈ w.rows, row.Readable :=
  ⟨fun hconv => h.consistent.readable_of_drained limit maxRetries page n k hconv.drained,
    fun hread => h.consistent.converged hc hread limit maxRetries page hn hk⟩

end

/-! ## Two worlds -/

/-- The world where from now on nothing fails. -/
def calmed (w : World) : World :=
  w.disturbed (fun _ => false) (fun _ _ _ => none) (fun _ => none) fun _ => none

theorem calm_calmed {w : World} (h : w.replica.database.closed = false) : w.calmed.Calm :=
  ⟨⟨h, fun _ => rfl⟩, fun _ _ _ => rfl, fun _ => rfl, fun _ => rfl⟩

/-- A client that wrote one document, and a server that has it and another one: the answer to the
push was lost. -/
def unheard : World :=
  let m : Mutation := ⟨"m1", "notes", .create, "b", some [("title", .str "draft")], 0, 0⟩
  let w : World := { initial {} with server := ({} : Authority).put "a" (some []) }
  let lost : Nat → Option (SyncError × Bool) := fun n =>
    if n = 0 then some (.connection "push", true) else none
  let w := (w.write m).disturbed (fun _ => false) (fun _ _ _ => none) (fun _ => none) lost
  (w.push "notes" 10 5 1).2.calmed

theorem wellKept_empty : ({} : Authority).WellKept :=
  ⟨List.Pairwise.nil, (fun _ hx => by cases hx), List.nodup_nil⟩

theorem reachable_unheard : unheard.Reachable "notes" :=
  .trouble _ _ _ _ (.push 10 5 1 (.trouble _ _ _ _ (.localWrite
    (.remoteWrite "a" (some []) (.start wellKept_empty)) rfl (by decide) (by decide) rfl)))

/-- The push is sent again. -/
theorem converged_after_lost_answer :
    unheard.Reachable "notes" ∧ unheard.Calm ∧ unheard.rows.map Row.id = ["m1"] ∧
      Converged "notes" (unheard.push "notes" 10 5 1).1
        ((unheard.push "notes" 10 5 1).2.pull "notes" 10 3).1
        ((unheard.push "notes" 10 5 1).2.pull "notes" 10 3).2 := by
  have h := reachable_unheard
  have hc : unheard.Calm := calm_calmed (by decide +kernel)
  have hread : ∀ row ∈ unheard.rows, row.Readable := by decide +kernel
  refine ⟨h, hc, by decide +kernel, ?_⟩
  exact (converged_iff_readable h hc 10 5 10 1 3 (by decide +kernel) (by decide +kernel)).2 hread

/-- A value of lists, so many of them in each other. -/
def nested : Nat → Json
  | 0 => .null
  | n + 1 => .arr [nested n]

/-- A mutation with a value too deep to be read back. -/
def tooDeep : Mutation :=
  ⟨"m1", "notes", .create, "a", some [("outline", nested 127)], 0, 0⟩

/-- A client that wrote it. -/
def deep : World := (initial {}).write tooDeep

theorem rows_deep : deep.rows = [Row.ofMutation tooDeep] := rfl

theorem not_readable_tooDeep : ¬(Row.ofMutation tooDeep).Readable := by
  refine Row.not_readable_of_payload rfl ?_
  rw [Row.payloadOf?_render]
  exact Option.isNone_iff_eq_none.1 (by decide +kernel)

/-- The local write succeeded, and yet no push will ever send it. -/
theorem deep_never_converges :
    deep.Reachable "notes" ∧ deep.Calm ∧ deep.rows = [Row.ofMutation tooDeep] ∧
      ¬∃ limit maxRetries page n k, Converged "notes" (deep.push "notes" limit maxRetries n).1
        ((deep.push "notes" limit maxRetries n).2.pull "notes" page k).1
        ((deep.push "notes" limit maxRetries n).2.pull "notes" page k).2 := by
  have h : deep.Reachable "notes" :=
    .localWrite (.start wellKept_empty) rfl (by decide) (by decide) rfl
  have hc : deep.Calm := ⟨⟨rfl, fun _ => rfl⟩, fun _ _ _ => rfl, fun _ => rfl, fun _ => rfl⟩
  refine ⟨h, hc, rows_deep, ?_⟩
  rintro ⟨limit, maxRetries, page, n, k, hconv⟩
  have hread := h.consistent.readable_of_drained limit maxRetries page n k hconv.drained
  rw [rows_deep] at hread
  exact not_readable_tooDeep (hread _ (List.mem_singleton_self _))

end Replication.World
