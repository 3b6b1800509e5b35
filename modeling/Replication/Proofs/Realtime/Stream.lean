import Replication.Proofs.Realtime.Records
import Replication.Realtime.Stream

/-!
# What an event stream brings

Three parts with a state of their own lie on top of each other: the decoder with its open line and
its open record, the records that wait, and the scope. What a stream is still to bring is a
function of all three and of the bytes to come (`EventStream.remaining`), however those are cut.
A call for the next notice takes the first of what remains, and only when nothing remains it tells
of the end of the body (`EventStream.next_of_remaining`, `EventStream.next_of_nothing`).
-/

namespace Replication

/-- The change notice that a record is, if it can be read and is one. -/
def Frame.notice? (record : List Char) : Option ChangeEvent :=
  match Frame.decode (String.ofList record) with
  | .ok (.event e) => some e
  | _ => none

/-- The change notices of a collection in a whole body. -/
def StreamBody.notices (bytes : List UInt8) (collection : String) : List ChangeEvent :=
  ((({} : RecordDecoder).feed bytes).2.filterMap Frame.notice?).filter (·.collection = collection)

namespace EventStream

/-- What the end of a body answers. -/
def ending (broken : Bool) : Except SyncError (Option ChangeEvent) :=
  if broken then .error (.connection "realtime") else .ok none

/-- The notices that a stream is still to bring. -/
def remaining (s : EventStream) : List ChangeEvent :=
  (s.pending ++ (s.decoder.feed s.body.chunks.flatten).2).filterMap (noticeOf? s.scope)

/-- The answers to a number of calls for the next notice, one after the other. -/
def answers : Nat → EventStream → List (Except SyncError (Option ChangeEvent))
  | 0, _ => []
  | n + 1, s => s.next.2 :: answers n s.next.1

theorem noticeOf?_some (collection : String) (record : List Char) :
    noticeOf? (some collection) record =
      (Frame.notice? record).filter (·.collection = collection) := by
  unfold noticeOf? Frame.notice?
  rcases Frame.decode (String.ofList record) with error | _ | e | _ | _
  · rfl
  · rfl
  · simp [Option.filter]
  · rfl
  · rfl

/-- A stream that was just opened and subscribed is to bring what its body has for the scope. -/
theorem remaining_subscribe (body : StreamBody) (collection : String) :
    (subscribe { body } collection).remaining =
      StreamBody.notices body.chunks.flatten collection := by
  show (([] ++ _ : List (List Char)).filterMap (noticeOf? (some collection))) = _
  rw [List.nil_append, StreamBody.notices, List.filter_filterMap]
  congr 1
  funext record
  exact noticeOf?_some collection record

/-- The first notice among records is the first of all their notices, and the records after it have
the others. -/
theorem firstNotice_cases (scope : Option String) (records : List (List Char)) :
    (∃ rest, firstNotice scope records = (none, rest) ∧
        records.filterMap (noticeOf? scope) = []) ∨
      ∃ e rest, firstNotice scope records = (some e, rest) ∧
        records.filterMap (noticeOf? scope) = e :: rest.filterMap (noticeOf? scope) := by
  induction records with
  | nil => exact .inl ⟨[], rfl, rfl⟩
  | cons r records ih =>
    unfold firstNotice
    cases hr : noticeOf? scope r with
    | some e => exact .inr ⟨e, records, rfl, List.filterMap_cons_some hr⟩
    | none =>
      rw [List.filterMap_cons_none hr]
      exact ih

/-- Reading chunks gives the first notice of all that they bring, and leaves the others; if they
bring none it gives the end of the body. -/
theorem pump_cases (scope : Option String) (broken : Bool) (decoder : RecordDecoder)
    (chunks : List (List UInt8)) :
    ((decoder.feed chunks.flatten).2.filterMap (noticeOf? scope) = [] ∧
        ∃ decoder', pump scope broken decoder chunks =
          (⟨⟨[], false⟩, decoder', [], scope⟩, ending broken)) ∨
      ∃ e s, pump scope broken decoder chunks = (s, .ok (some e)) ∧
        s.body.broken = broken ∧ s.scope = scope ∧
        (decoder.feed chunks.flatten).2.filterMap (noticeOf? scope) = e :: s.remaining := by
  induction chunks generalizing decoder with
  | nil => exact .inl ⟨rfl, decoder, rfl⟩
  | cons chunk rest ih =>
    unfold pump
    rw [RecordDecoder.records_flatten_cons, List.filterMap_append]
    dsimp only
    rcases firstNotice_cases scope (decoder.feed chunk).2 with
      ⟨left, hfirst, hnone⟩ | ⟨e, left, hfirst, hsome⟩
    · rw [hfirst, hnone, List.nil_append]
      exact ih _
    · rw [hfirst, hsome]
      refine .inr ⟨e, _, rfl, rfl, rfl, ?_⟩
      rw [remaining, List.filterMap_append]
      rfl

/-- A call takes the first notice of those that remain. -/
theorem next_of_remaining {s : EventStream} {e : ChangeEvent} {es : List ChangeEvent}
    (h : s.remaining = e :: es) :
    s.next.2 = .ok (some e) ∧ s.next.1.remaining = es ∧
      s.next.1.body.broken = s.body.broken := by
  unfold next
  rw [remaining, List.filterMap_append] at h
  rcases firstNotice_cases s.scope s.pending with
    ⟨left, hfirst, hnone⟩ | ⟨e', left, hfirst, hsome⟩
  · rw [hnone, List.nil_append] at h
    rw [hfirst]
    rcases pump_cases s.scope s.body.broken s.decoder s.body.chunks with
      ⟨hnil, -⟩ | ⟨e', s', hpump, hbroken, -, hcons⟩
    · rw [h] at hnil
      cases hnil
    · rw [h] at hcons
      cases hcons
      dsimp only
      rw [hpump]
      exact ⟨rfl, rfl, hbroken⟩
  · rw [hsome, List.cons_append] at h
    cases h
    rw [hfirst]
    refine ⟨rfl, ?_, rfl⟩
    rw [remaining, List.filterMap_append]

/-- Once nothing remains a call tells of the end of the body, and there is nothing behind it. -/
theorem next_of_nothing {s : EventStream} (h : s.remaining = []) :
    s.next.2 = ending s.body.broken ∧ s.next.1.remaining = [] ∧
      s.next.1.body.broken = false := by
  unfold next
  rw [remaining, List.filterMap_append, List.append_eq_nil_iff] at h
  obtain ⟨hpending, hbody⟩ := h
  rcases firstNotice_cases s.scope s.pending with
    ⟨left, hfirst, -⟩ | ⟨e, left, -, hsome⟩
  · rw [hfirst]
    rcases pump_cases s.scope s.body.broken s.decoder s.body.chunks with
      ⟨-, decoder', hpump⟩ | ⟨e, s', -, -, -, hcons⟩
    · dsimp only
      rw [hpump]
      exact ⟨rfl, rfl, rfl⟩
    · rw [hbody] at hcons
      cases hcons
  · rw [hpending] at hsome
    cases hsome

/-- Calls answer with what remains, then with the end of the body, and from then on with nothing. -/
theorem answers_eq (n : Nat) (s : EventStream) :
    s.answers n =
      (s.remaining.map (fun e => Except.ok (some e)) ++ [ending s.body.broken]).take n ++
        List.replicate (n - (s.remaining.length + 1)) (.ok none) := by
  induction n generalizing s with
  | zero => simp [answers]
  | succ n ih =>
    unfold answers
    rw [ih]
    cases hs : s.remaining with
    | nil =>
      obtain ⟨hanswer, hnil, hbroken⟩ := next_of_nothing hs
      rw [hanswer, hnil, hbroken]
      cases n <;> simp [ending, List.replicate_succ]
    | cons e es =>
      obtain ⟨hanswer, hrest, hbroken⟩ := next_of_remaining hs
      rw [hanswer, hrest, hbroken]
      simp

/-- However a body is cut, the calls on a stream that is subscribed to a collection answer with the
notices of the collection in the whole body, each once and in order, and then with the end of the
body: nothing, or the failure of a body that breaks. Records that cannot be read, and messages that
are no notice of the collection, are passed over. -/
theorem brings_what_is_in_scope (chunks : List (List UInt8)) (broken : Bool)
    (collection : String) :
    let opened (chunks : List (List UInt8)) : EventStream :=
      subscribe { body := ⟨chunks, broken⟩ } collection
    let notices := StreamBody.notices chunks.flatten collection
    (opened chunks).answers (notices.length + 1) =
        notices.map (fun e => Except.ok (some e)) ++
          [if broken then .error (.connection "realtime") else .ok none] ∧
      ∀ chunks' n, chunks'.flatten = chunks.flatten →
        (opened chunks').answers n = (opened chunks).answers n := by
  intro opened notices
  have hremaining : ∀ chunks', chunks'.flatten = chunks.flatten →
      (opened chunks').remaining = notices := by
    intro chunks' hcut
    rw [remaining_subscribe, hcut]
  refine ⟨?_, fun chunks' n hcut => ?_⟩
  · rw [answers_eq, hremaining chunks rfl, Nat.sub_self, List.replicate_zero, List.append_nil]
    exact List.take_of_length_le (by simp)
  · rw [answers_eq, answers_eq, hremaining chunks rfl, hremaining chunks' hcut]
    rfl

end EventStream

end Replication
