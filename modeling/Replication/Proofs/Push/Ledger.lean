import Mathlib.Data.List.Induction
import Replication.Proofs.Push.Desk

/-!
# No mutation is lost

A ledger has one entry for every mutation that came into the outbox, in the order in which they
came, with what became of it. After any events there is a ledger that accounts for all of them
(`Desk.Accounts`): an entry changes its fate only for a reason, and those that wait or were given up
are row by row the rows of the outbox. Given up mutations can be read, since their rows were read
before they were sent (`Desk.Legible`).
-/

namespace Replication

/-- What became of a mutation that came into the outbox. -/
inductive Fate where
  /-- It waits to be delivered. -/
  | waiting
  /-- It was given up, and is kept. -/
  | givenUp
  /-- It left because the server took it. -/
  | taken
  /-- It left because it was dropped after it was given up. -/
  | dropped
  deriving DecidableEq

/-- An entry of a ledger. -/
structure Entry where
  mutation : Mutation
  fate : Fate

/-- The mutations that came into the outbox, oldest first. -/
abbrev Ledger := List Entry

namespace Entry

/-- What may become of an entry, and why. -/
inductive Turn (c : Row.Causes) : Entry → Entry → Prop where
  | same (x : Entry) : Turn c x x
  | taken {m : Mutation} : m.id ∈ c.taken → Turn c ⟨m, .waiting⟩ ⟨m, .taken⟩
  | givenUp {m : Mutation} : m.id ∈ c.struck → m.id ∉ c.taken →
      Turn c ⟨m, .waiting⟩ ⟨m, .givenUp⟩
  | marked {m : Mutation} : m.id ∈ c.marked → Turn c ⟨m, .waiting⟩ ⟨m, .givenUp⟩
  | dropped {m : Mutation} : m.id ∈ c.dropped → Turn c ⟨m, .givenUp⟩ ⟨m, .dropped⟩

theorem Turn.mutation {c : Row.Causes} {x x' : Entry} (h : x.Turn c x') :
    x'.mutation = x.mutation := by
  cases h <;> rfl

theorem Turn.waiting {c : Row.Causes} {x x' : Entry} (h : x.Turn c x') (hx' : x'.fate = .waiting) :
    x.fate = .waiting := by
  cases h <;> first | exact hx' | cases hx'

/-- A row is the row of an entry. -/
def Live (x : Entry) (row : Row) : Prop :=
  row.Holds x.mutation ∧ x.fate = if row.failed then .givenUp else .waiting

/-- An entry without a row. -/
def Gone (x : Entry) : Prop := x.fate = .taken ∨ x.fate = .dropped

/-- What becomes of a row becomes of its entry. -/
theorem Live.turn {c : Row.Causes} {x : Entry} {row : Row} (h : x.Live row) {o : Option Row}
    (ht : row.Turn c o) :
    ∃ x', x.Turn c x' ∧ (o = none → x'.Gone) ∧ ∀ row', o = some row' → x'.Live row' := by
  obtain ⟨m, fate⟩ := x
  obtain ⟨hm, hfate⟩ := h
  dsimp only at hm hfate
  have hsame : ∀ {row' : Row}, some row = some row' → Live ⟨m, fate⟩ row' := by
    rintro _ ⟨rfl⟩
    exact ⟨hm, hfate⟩
  cases ht with
  | same => exact ⟨_, .same _, (fun h => by cases h), fun _ => hsame⟩
  | taken hf hid =>
    obtain rfl : fate = .waiting := by simpa [hf] using hfate
    exact ⟨_, .taken (hm.id ▸ hid), (fun _ => .inl rfl), fun _ h => by cases h⟩
  | dropped hf hid =>
    obtain rfl : fate = .givenUp := by simpa [hf] using hfate
    exact ⟨_, .dropped (hm.id ▸ hid), (fun _ => .inr rfl), fun _ h => by cases h⟩
  | missed n e hf _ _ =>
    obtain rfl : fate = .waiting := by simpa [hf] using hfate
    refine ⟨_, .same _, (fun h => by cases h), ?_⟩
    rintro _ ⟨rfl⟩
    exact ⟨hm, by simp [hf]⟩
  | givenUp n e hf hs ht _ =>
    obtain rfl : fate = .waiting := by simpa [hf] using hfate
    refine ⟨_, .givenUp (hm.id ▸ hs) (hm.id ▸ ht), (fun h => by cases h), ?_⟩
    rintro _ ⟨rfl⟩
    exact ⟨hm, rfl⟩
  | marked e hf hid =>
    obtain rfl : fate = .waiting := by simpa [hf] using hfate
    refine ⟨_, .marked (hm.id ▸ hid), (fun h => by cases h), ?_⟩
    rintro _ ⟨rfl⟩
    exact ⟨hm, rfl⟩

end Entry

namespace Ledger

/-- The entries that are not gone are, one by one, those of the rows. -/
inductive Matches : Ledger → Rows → Prop where
  | nil : Matches [] []
  | gone {x : Entry} {l : Ledger} {rows : Rows} : x.Gone → Matches l rows → Matches (x :: l) rows
  | live {x : Entry} {row : Row} {l : Ledger} {rows : Rows} : x.Live row → Matches l rows →
      Matches (x :: l) (row :: rows)

theorem Matches.append {l l' : Ledger} {rows rows' : Rows} (h : Matches l rows)
    (h' : Matches l' rows') : Matches (l ++ l') (rows ++ rows') := by
  induction h with
  | nil => exact h'
  | gone hx _ ih => exact .gone hx ih
  | live hx _ ih => exact .live hx ih

theorem matches_inserted (m : Mutation) : Matches [⟨m, .waiting⟩] [Row.ofMutation m] :=
  .live ⟨Row.holds_ofMutation m, rfl⟩ .nil

/-- A step on the rows is one on the ledger. -/
theorem Matches.turned {c : Row.Causes} {l : Ledger} {rows rows' : Rows} (h : Matches l rows)
    (ht : Rows.Turned c rows rows') :
    ∃ l', List.Forall₂ (Entry.Turn c) l l' ∧ Matches l' rows' := by
  obtain ⟨f, rfl, hf⟩ := ht
  induction h with
  | nil => exact ⟨[], .nil, .nil⟩
  | @gone x l rows hx _ ih =>
    obtain ⟨l', hl', hm⟩ := ih hf
    exact ⟨x :: l', .cons (.same x) hl', .gone hx hm⟩
  | @live x row l rows hx _ ih =>
    obtain ⟨hrow, hrows⟩ := List.forall_mem_cons.1 hf
    obtain ⟨l', hl', hm⟩ := ih hrows
    obtain ⟨x', hx', hnone, hsome⟩ := hx.turn hrow
    refine ⟨x' :: l', .cons hx' hl', ?_⟩
    cases he : f row with
    | none =>
      rw [List.filterMap_cons_none he]
      exact .gone (hnone he) hm
    | some row' =>
      rw [List.filterMap_cons_some he]
      exact .live (hsome row' he) hm

/-- The given up rows of a collection are those of its given up entries. -/
theorem Matches.failed {l : Ledger} {rows : Rows} (h : Matches l rows) (collection : String) :
    (rows.failed collection).map Row.id =
      (l.filter fun x => x.mutation.collection == collection && x.fate == .givenUp).map
        fun x => x.mutation.id := by
  unfold Rows.failed
  induction h with
  | nil => rfl
  | @gone x l rows hx _ ih =>
    have hne : (x.fate == .givenUp) = false := by
      rcases hx with hx | hx <;> rw [hx] <;> rfl
    rw [List.filter_cons_of_neg (by simp [hne])]
    exact ih
  | @live x row l rows hx _ ih =>
    obtain ⟨hm, hfate⟩ := hx
    have he : (x.fate == .givenUp) = row.failed := by
      rw [hfate]
      cases row.failed <;> rfl
    rw [List.filter_cons, List.filter_cons, hm.collection, he]
    split
    · rw [List.map_cons, List.map_cons, ih, hm.id]
    · exact ih

end Ledger

namespace Desk

/-- A ledger accounts for all that happened: an event turns entries for its causes, and appends one
for a mutation that it brings into the outbox; and after each event the ledger agrees with the
rows. -/
inductive Accounts (start : Desk) : List Event → Ledger → Prop where
  | nil : Accounts start [] []
  | concat {es : List Event} {l l' : Ledger} (e : Event) : Accounts start es l →
      List.Forall₂ (Entry.Turn ((start.run es).causes e)) l l' →
      Ledger.Matches
        (l' ++ ((start.run es).inserted? e).toList.map fun m => ⟨m, .waiting⟩)
        (start.run (es ++ [e])).rows →
      Accounts start (es ++ [e])
        (l' ++ ((start.run es).inserted? e).toList.map fun m => ⟨m, .waiting⟩)

theorem Accounts.matches {es : List Event} {l : Ledger} (h : Accounts opened es l) :
    Ledger.Matches l (opened.run es).rows := by
  cases h with
  | nil => exact .nil
  | concat e _ _ hm => exact hm

theorem inserted?_of_append {d : Desk} {m : Mutation} (hm : m.id ∉ d.rows.map Row.id)
    (hrows : (d.step (.enqueue m)).rows = d.rows ++ [Row.ofMutation m]) :
    d.inserted? (.enqueue m) = some m := by
  have hin : m.id ∈ (d.step (.enqueue m)).rows.map Row.id := by
    rw [hrows]
    simp [Row.ofMutation]
  rw [inserted?, if_pos ⟨hm, hin⟩]

theorem inserted?_of_turned {d : Desk} {e : Event}
    (ht : Rows.Turned (d.causes e) d.rows (d.step e).rows) : d.inserted? e = none := by
  cases e with
  | enqueue m =>
    rw [inserted?, if_neg]
    rintro ⟨hm, hin⟩
    exact hm (ht.ids_sublist.subset hin)
  | _ => rfl

/-- Whatever happens, there is a ledger that accounts for it. -/
theorem exists_accounts (es : List Event) : ∃ l, Accounts opened es l := by
  induction es using List.reverseRecOn with
  | nil => exact ⟨[], .nil⟩
  | append_singleton es e ih =>
    obtain ⟨l, hl⟩ := ih
    obtain ⟨-, ⟨m, rfl, hm, hrows⟩ | ht⟩ := (orderly_opened.run es).step e
    · have hi := inserted?_of_append hm hrows
      refine ⟨_, .concat _ hl (List.forall₂_same.2 fun x _ => .same x) ?_⟩
      rw [hi, run_concat, hrows]
      exact hl.matches.append (Ledger.matches_inserted m)
    · have hi := inserted?_of_turned ht
      obtain ⟨l', hl', hm⟩ := hl.matches.turned ht
      refine ⟨_, .concat e hl hl' ?_⟩
      rw [hi, run_concat]
      simpa using hm

/-! ## Given up mutations can be read -/

/-- Given up mutations can be read, and those that were sent wait and can be read. -/
structure Legible (d : Desk) : Prop where
  failed : ∀ row ∈ d.rows, row.failed = true → row.Readable ∧ Row.countable row.retries = true
  asked : ∀ c batch, d.request? c = some batch → ∀ m ∈ batch,
    ∃ row ∈ d.rows, row.failed = false ∧ row.collection = c ∧ row.id = m.id ∧ row.Readable

theorem legible_opened : opened.Legible where
  failed _ h := by cases h
  asked _ _ h := by cases h

/-- A request under way is for mutations of its collection only, so what happens to other
collections does not touch them. -/
theorem Legible.not_caused {d : Desk} (ho : d.Orderly) (h : d.Legible) {e : Event} {c : String}
    (hne : ∀ a, e ≠ .answer c a) {row : Row} (hrow : row ∈ d.rows) (hc : row.collection = c) :
    ¬(row.id ∈ (d.causes e).taken ∨ row.id ∈ (d.causes e).struck) := by
  intro hid
  obtain ⟨c', a, batch, rfl, hb, hm⟩ := mem_batch_of_causes hid
  obtain ⟨m, hm, hmid⟩ := List.mem_map.1 hm
  obtain ⟨row', hrow', -, hc', hid', -⟩ := h.asked c' batch hb m hm
  obtain rfl := ho.unique.eq hrow' hrow (hid'.trans hmid)
  exact hne (.ok a) (by rw [← hc, ← hc'])

theorem Legible.step {d : Desk} (ho : d.Orderly) (h : d.Legible) {e : Event}
    (he : ∀ id reason, e ≠ .giveUp id reason) : (d.step e).Legible := by
  obtain ⟨-, hrows⟩ := ho.step e
  have hmarked := causes_marked (d := d) he
  constructor
  · intro row hrow hf
    rcases hrows with ⟨m, -, -, hr⟩ | ht
    · rw [hr, List.mem_append, List.mem_singleton] at hrow
      rcases hrow with hrow | rfl
      · exact h.failed row hrow hf
      · cases hf
    · obtain ⟨row₀, hrow₀, hturn⟩ := ht.exists_of_mem hrow
      cases hturn with
      | same => exact h.failed row hrow₀ hf
      | missed n e' hf' _ _ => simp [hf'] at hf
      | marked e' _ hid => simp [hmarked] at hid
      | givenUp n e' _ hs _ hn =>
        -- It was sent, so it was read.
        obtain ⟨c, a, batch, -, hb, hm⟩ := mem_batch_of_causes (.inr hs)
        obtain ⟨m, hm, hmid⟩ := List.mem_map.1 hm
        obtain ⟨row', hrow', -, -, hid', hread⟩ := h.asked c batch hb m hm
        obtain rfl := ho.unique.eq hrow' hrow₀ (hid'.trans hmid)
        exact ⟨Row.Readable.of_queued (by rfl) hread, hn⟩
  · intro c batch hb m hm
    rcases request?_step ho hb with ⟨hb', hne⟩ | ⟨p, rfl, -, -, hreads⟩
    · obtain ⟨row, hrow, hf, hc, hid, hread⟩ := h.asked c batch hb' m hm
      refine ⟨row, ?_, hf, hc, hid, hread⟩
      rcases hrows with ⟨m, -, -, hr⟩ | ht
      · rw [hr]
        exact List.mem_append_left _ hrow
      · have hnot := h.not_caused ho hne hrow hc
        exact ht.mem_of_not_mem hrow hf (fun h => hnot (.inl h)) (fun h => hnot (.inr h))
          (by simp [hmarked])
    · obtain ⟨row, hrow, hf, hc, hread⟩ :=
        PushPass.exists_row_of_reads hreads hm
      refine ⟨row, ?_, hf, hc, (Row.mutation_eq_ok hread).1.symm, m, hread⟩
      rcases hrows with ⟨m, hm, -⟩ | ht
      · cases hm
      · exact ht.mem_of_not_mem hrow hf (by simp [causes]) (by simp [causes]) (by simp [causes])

theorem Legible.run (es : List Event) (he : ∀ e ∈ es, ∀ id reason, e ≠ .giveUp id reason) :
    (opened.run es).Legible := by
  induction es using List.reverseRecOn with
  | nil => exact legible_opened
  | append_singleton es e ih =>
    rw [run_concat]
    refine (ih fun e' he' => he e' (List.mem_append_left _ he')).step (orderly_opened.run es) ?_
    exact he e (by simp)

/-- The mutations of a legible desk that were given up are read as one list. -/
theorem Legible.failedMutations {d : Desk} (ho : d.Orderly) (h : d.Legible) (c : String) :
    ∃ fs, (Replica.failedMutations c).exec d.replica = (.ok fs, d.replica) ∧
      fs.map (fun f => f.entry.id) = (d.rows.failed c).map Row.id := by
  have hread : ∀ row ∈ d.rows.failed c, row.Readable ∧ Row.countable row.retries = true := by
    intro row hrow
    simp only [Rows.failed, List.mem_filter, Bool.and_eq_true] at hrow
    exact h.failed row hrow.1 hrow.2.2
  rw [Replica.exec_failedMutations ho.opened ho.there]
  generalize d.rows.failed c = rows at hread
  obtain ⟨fs, hfs, hids⟩ : ∃ fs : List FailedMutation,
      List.Forall₂ (fun row f => row.failure = .ok f) rows fs ∧
        fs.map (fun f => f.entry.id) = rows.map Row.id := by
    induction rows with
    | nil => exact ⟨[], .nil, rfl⟩
    | cons row rows ih =>
      obtain ⟨⟨⟨m, hm⟩, -⟩, hrows⟩ := List.forall_mem_cons.1 hread
      obtain ⟨fs, hfs, hids⟩ := ih hrows
      refine ⟨_ :: fs, .cons (Row.failure_of_mutation hm) hfs, ?_⟩
      rw [List.map_cons, List.map_cons, hids, (Row.mutation_eq_ok hm).1]
  exact ⟨fs, by rw [Replica.decode_eq_ok.2 ⟨fun r hr => (hread r hr).2, hfs⟩], hids⟩

/-! ## The account -/

/-- Whatever happens, every mutation that came into the outbox is accounted for: it waits in a
row, it was given up and is kept in a row, it was taken by an answer to a request that held it, or
it was dropped by name after it was given up. Unless a call gave mutations up, the given up ones
are read with the others of their collection. -/
theorem no_mutation_lost (es : List Event) :
    ∃ l, Accounts opened es l ∧ Ledger.Matches l (opened.run es).rows ∧
      ((∀ e ∈ es, ∀ id reason, e ≠ .giveUp id reason) → ∀ c, ∃ fs,
        (Replica.failedMutations c).exec (opened.run es).replica =
            (.ok fs, (opened.run es).replica) ∧
          fs.map (fun f => f.entry.id) =
            (l.filter fun x => x.mutation.collection == c && x.fate == .givenUp).map
              fun x => x.mutation.id) := by
  obtain ⟨l, hl⟩ := exists_accounts es
  refine ⟨l, hl, hl.matches, fun he c => ?_⟩
  obtain ⟨fs, hfs, hids⟩ := (Legible.run es he).failedMutations (orderly_opened.run es) c
  exact ⟨fs, hfs, hids.trans (hl.matches.failed c)⟩

end Desk

end Replication
