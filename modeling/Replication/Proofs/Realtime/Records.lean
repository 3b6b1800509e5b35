import Replication.Proofs.Text.Split
import Replication.Realtime.Records

/-!
# A body in chunks

The decoder takes one byte at a time, so it reads a body that comes in chunks like the whole body
(`RecordDecoder.feed_append`). A call may just as well put its chunk behind the bytes that it holds
and then take one line after the other off the front, for as long as there is one
(`RecordDecoder.Scan.round?`): this ends after as many rounds as the chunk has line feeds, with the
records and the state of the call (`RecordDecoder.rounds_feed`).
-/

namespace Replication.RecordDecoder

/-- Two chunks one after the other are read like one: the second goes on where the first ended. -/
theorem feed_append (d : RecordDecoder) (a b : List UInt8) :
    d.feed (a ++ b) = (((d.feed a).1.feed b).1, (d.feed a).2 ++ ((d.feed a).1.feed b).2) := by
  induction a generalizing d with
  | nil => rfl
  | cons x a ih => simp only [List.cons_append, feed_cons, ih, List.append_assoc]

/-- The records of a body are those of its first chunk and then those of the rest. -/
theorem records_flatten_cons (d : RecordDecoder) (chunk : List UInt8) (rest : List (List UInt8)) :
    (d.feed (chunk :: rest).flatten).2 =
      (d.feed chunk).2 ++ ((d.feed chunk).1.feed rest.flatten).2 := by
  rw [List.flatten_cons, feed_append]

/-- Chunks one after the other: the state after them, and for each the records that it completes. -/
def feedAll (d : RecordDecoder) : List (List UInt8) → RecordDecoder × List (List (List Char))
  | [] => (d, [])
  | chunk :: rest =>
    let (d, records) := d.feed chunk
    let (d, more) := feedAll d rest
    (d, records :: more)

theorem feedAll_cons (d : RecordDecoder) (chunk : List UInt8) (rest : List (List UInt8)) :
    d.feedAll (chunk :: rest) =
      (((d.feed chunk).1.feedAll rest).1, (d.feed chunk).2 :: ((d.feed chunk).1.feedAll rest).2) :=
  rfl

theorem feedAll_flatten (d : RecordDecoder) (chunks : List (List UInt8)) :
    (d.feedAll chunks).1 = (d.feed chunks.flatten).1 ∧
      (d.feedAll chunks).2.flatten = (d.feed chunks.flatten).2 := by
  induction chunks generalizing d with
  | nil => exact ⟨rfl, rfl⟩
  | cons chunk rest ih =>
    obtain ⟨hstate, hrecords⟩ := ih (d.feed chunk).1
    rw [feedAll_cons, List.flatten_cons, List.flatten_cons, feed_append]
    exact ⟨hstate, congrArg _ hrecords⟩

/-! ## Whole lines -/

/-- What the bytes of a line make of the data of the open record, and the record that they end. -/
def readLine (data : Option (List Char)) (line : List UInt8) :
    Option (List Char) × Option (List Char) :=
  takeLine data (stripReturn (Utf8.decode line))

/-- Bytes without a line feed only make the open line longer. -/
theorem feed_open {d : RecordDecoder} {bs : List UInt8} (h : 0x0A ∉ bs) :
    d.feed bs = (⟨bs.reverse ++ d.held, d.data⟩, []) := by
  induction bs generalizing d with
  | nil => rfl
  | cons b bs ih =>
    rw [List.mem_cons, not_or] at h
    rw [feed_cons, step, if_neg (Ne.symm h.1), ih h.2]
    simp

/-- A line feed completes the line that the bytes before it and those that were held make up. -/
theorem feed_line {d : RecordDecoder} {bs : List UInt8} (h : 0x0A ∉ bs) (rest : List UInt8) :
    d.feed (bs ++ 0x0A :: rest) =
      ((feed ⟨[], (readLine d.data (d.held.reverse ++ bs)).2⟩ rest).1,
        (readLine d.data (d.held.reverse ++ bs)).1.toList ++
          (feed ⟨[], (readLine d.data (d.held.reverse ++ bs)).2⟩ rest).2) := by
  have hheld : (bs.reverse ++ d.held).reverse = d.held.reverse ++ bs := by simp
  rw [feed_append, feed_open h, feed_cons, step, if_pos rfl, ← hheld]
  rfl

/-- The bytes that are held have no line feed. -/
def Held (d : RecordDecoder) : Prop := 0x0A ∉ d.held

theorem Held.feed {d : RecordDecoder} (h : d.Held) (bs : List UInt8) : (d.feed bs).1.Held := by
  induction bs generalizing d with
  | nil => exact h
  | cons b bs ih =>
    rw [feed_cons]
    refine ih ?_
    unfold step
    split
    · exact List.not_mem_nil
    · next hb => exact fun hmem => (List.mem_cons.1 hmem).elim (fun heq => hb heq.symm) h

theorem Held.feedAll {d : RecordDecoder} (h : d.Held) (chunks : List (List UInt8)) :
    (d.feedAll chunks).1.Held := by
  rw [(d.feedAll_flatten chunks).1]
  exact h.feed _

/-! ## Rounds of a call -/

/-- Where a call stands that takes lines off the front of a buffer: the bytes that are left, the
data of the open record, and the records that were completed. -/
structure Scan where
  buffer : List UInt8
  data : Option (List Char)
  records : List (List Char)

/-- One round takes the first line with its line feed. Without a line feed there is none. -/
def Scan.round? (s : Scan) : Option Scan :=
  if 0x0A ∈ s.buffer then
    let (record, data) := readLine s.data (s.buffer.takeWhile (· != 0x0A))
    some ⟨(s.buffer.dropWhile (· != 0x0A)).drop 1, data, s.records ++ record.toList⟩
  else none

/-- A number of rounds, after which there is none. -/
inductive Scan.Rounds : Nat → Scan → Scan → Prop where
  | over {s : Scan} (h : s.round? = none) : Rounds 0 s s
  | more {n : Nat} {s next last : Scan} (h : s.round? = some next) (hrest : Rounds n next last) :
      Rounds (n + 1) s last

/-- A call before its first round: the chunk stands behind the bytes that were held. -/
def scan (d : RecordDecoder) (chunk : List UInt8) : Scan := ⟨d.held.reverse ++ chunk, d.data, []⟩

/-- The decoder after the rounds of a call. -/
def Scan.decoder (s : Scan) : RecordDecoder := ⟨s.buffer.reverse, s.data⟩

theorem Scan.round?_of_line (line rest : List UInt8) (h : 0x0A ∉ line) (data : Option (List Char))
    (records : List (List Char)) :
    Scan.round? ⟨line ++ 0x0A :: rest, data, records⟩ =
      some ⟨rest, (readLine data line).2, records ++ (readLine data line).1.toList⟩ := by
  rw [Scan.round?, if_pos (by simp), takeWhile_append_cons h, dropWhile_append_cons h]
  rfl

/-- A call ends after as many rounds as its chunk has line feeds, with the state and the records
that the bytes one by one lead to. -/
theorem rounds_feed {d : RecordDecoder} (hd : d.Held) (chunk : List UInt8)
    (records : List (List Char)) :
    Scan.Rounds (chunk.count 0x0A) ⟨d.held.reverse ++ chunk, d.data, records⟩
      ⟨(d.feed chunk).1.held.reverse, (d.feed chunk).1.data, records ++ (d.feed chunk).2⟩ := by
  have hheld : 0x0A ∉ d.held.reverse := fun h => hd (List.mem_reverse.1 h)
  -- The induction is on the line feeds of the chunk, so on the lines that it completes.
  induction hn : chunk.count 0x0A generalizing d chunk records with
  | zero =>
    have hnone : 0x0A ∉ chunk := List.count_eq_zero.1 hn
    have hstop : 0x0A ∉ d.held.reverse ++ chunk := fun h =>
      (List.mem_append.1 h).elim hheld hnone
    rw [feed_open hnone]
    simpa using Scan.Rounds.over (s := ⟨d.held.reverse ++ chunk, d.data, records⟩) (if_neg hstop)
  | succ n ih =>
    have hmem : 0x0A ∈ chunk := List.count_pos_iff.1 (by omega)
    obtain ⟨bs, rest, rfl, hbs⟩ := List.eq_append_cons_of_mem hmem
    have hline : 0x0A ∉ d.held.reverse ++ bs := fun h => (List.mem_append.1 h).elim hheld hbs
    have hrest : rest.count 0x0A = n := by
      simpa [List.count_append, List.count_eq_zero.2 hbs] using hn
    rw [feed_line hbs, ← List.append_assoc, ← List.append_assoc]
    exact .more (Scan.round?_of_line _ rest hline _ _)
      (ih (d := ⟨[], _⟩) List.not_mem_nil rest _ List.not_mem_nil hrest)

/-- The decoder that has read chunks from the start. -/
def reached (chunks : List (List UInt8)) : RecordDecoder := (feedAll {} chunks).1

/-- However a body is cut into chunks, and whatever was read before it: the records of the chunks
put together are those of the whole body, and the decoder ends in the same state. And each call
ends: it takes as many lines off its buffer as its chunk has line feeds. -/
theorem chunks_read_as_whole (before chunks : List (List UInt8)) :
    ((reached before).feedAll chunks).2.flatten = ((reached before).feed chunks.flatten).2 ∧
      ((reached before).feedAll chunks).1 = ((reached before).feed chunks.flatten).1 ∧
      ∀ chunk, ∃ last, Scan.Rounds (chunk.count 0x0A) ((reached before).scan chunk) last ∧
        last.records = ((reached before).feed chunk).2 ∧
        last.decoder = ((reached before).feed chunk).1 := by
  have hheld : (reached before).Held := Held.feedAll (d := {}) List.not_mem_nil before
  obtain ⟨hstate, hrecords⟩ := (reached before).feedAll_flatten chunks
  refine ⟨hrecords, hstate, fun chunk => ⟨_, rounds_feed hheld chunk [], rfl, ?_⟩⟩
  rw [Scan.decoder, List.reverse_reverse]

end Replication.RecordDecoder
