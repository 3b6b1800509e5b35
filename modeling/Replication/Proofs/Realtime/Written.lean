import Replication.Proofs.Realtime.Records
import Replication.Proofs.Text.Utf8

/-!
# Texts that are written as records are read back

A text is written as one record: each of its lines as a `data` line, and an empty line behind them.
Every line ends as it likes, comments and fields of other names may stand anywhere between the
lines, and further empty lines between the records (`RecordDecoder.Writes`). A new decoder reads just
these texts from it and holds nothing back (`RecordDecoder.written_read_back`).

The lines that are no part of a text need not even be text: only those bytes of them matter that
say where the line ends and what its field is called.
-/

namespace Replication.RecordDecoder

/-! ## What is written -/

/-- How a line ends: with a line feed, or with a carriage return before it. -/
inductive LineEnd where
  | lf
  | crlf

/-- What stands before the line feed. -/
def LineEnd.carriage : LineEnd → List UInt8
  | .lf => []
  | .crlf => [0x0D]

def LineEnd.bytes (e : LineEnd) : List UInt8 := e.carriage ++ [0x0A]

/-- The line of a record for one line of its text. -/
def dataLine (piece : List Char) : List UInt8 := Utf8.encode ("data: ".toList ++ piece)

/-- A line that is no part of a text: a comment, or a field of another name. -/
inductive Foreign : List UInt8 → Prop where
  | comment {line : List UInt8} (hlf : 0x0A ∉ line) : Foreign (0x3A :: line)
  | field {line : List UInt8} (hne : line ≠ []) (hlf : 0x0A ∉ line) (hcr : 0x0D ∉ line)
      (hname : line.takeWhile (· != 0x3A) ≠ Utf8.encode "data".toList) : Foreign line

/-- The lines of one text, and foreign lines before, between and behind them. -/
inductive WritesLines : List (List Char) → List UInt8 → Prop where
  | nil : WritesLines [] []
  | data {pieces : List (List Char)} {body : List UInt8} (piece : List Char) (e : LineEnd)
      (h : WritesLines pieces body) :
      WritesLines (piece :: pieces) (dataLine piece ++ (e.bytes ++ body))
  | foreign {pieces : List (List Char)} {line body : List UInt8} (hline : Foreign line)
      (e : LineEnd) (h : WritesLines pieces body) :
      WritesLines pieces (line ++ (e.bytes ++ body))

/-- Texts, each as a record with an empty line behind it, and foreign and empty lines before,
between and behind the records. -/
inductive Writes : List (List Char) → List UInt8 → Prop where
  | nil : Writes [] []
  | record {text : List Char} {texts : List (List Char)} {body bytes : List UInt8}
      (hbody : WritesLines (text.splitOn '\n') body) (e : LineEnd) (h : Writes texts bytes) :
      Writes (text :: texts) (body ++ (e.bytes ++ bytes))
  | blank {texts : List (List Char)} {bytes : List UInt8} (e : LineEnd) (h : Writes texts bytes) :
      Writes texts (e.bytes ++ bytes)
  | foreign {texts : List (List Char)} {line bytes : List UInt8} (hline : Foreign line)
      (e : LineEnd) (h : Writes texts bytes) : Writes texts (line ++ (e.bytes ++ bytes))

theorem exists_writesLines (pieces : List (List Char)) : ∃ body, WritesLines pieces body := by
  induction pieces with
  | nil => exact ⟨[], .nil⟩
  | cons piece pieces ih =>
    obtain ⟨body, h⟩ := ih
    exact ⟨_, h.data piece .lf⟩

theorem exists_writes (texts : List (List Char)) : ∃ bytes, Writes texts bytes := by
  induction texts with
  | nil => exact ⟨[], .nil⟩
  | cons text texts ih =>
    obtain ⟨bytes, h⟩ := ih
    obtain ⟨body, hbody⟩ := exists_writesLines (text.splitOn '\n')
    exact ⟨_, .record hbody .lf h⟩

/-! ## One line -/

theorem stripReturn_concat (line : List Char) : stripReturn (line ++ ['\r']) = line := by
  simp [stripReturn]

theorem stripReturn_of_not_mem {line : List Char} (h : '\r' ∉ line) : stripReturn line = line :=
  if_neg fun hlast => h (List.mem_of_getLast? hlast)

theorem decode_concat_return (line : List UInt8) :
    Utf8.decode (line ++ [0x0D]) = Utf8.decode line ++ ['\r'] :=
  Utf8.decode_append_cons line (by decide) []

/-- However a line ends, it is read without its end. -/
theorem stripReturn_decode {line : List UInt8} (h : 0x0D ∉ line) (e : LineEnd) :
    stripReturn (Utf8.decode (line ++ e.carriage)) = Utf8.decode line := by
  cases e with
  | lf =>
    rw [LineEnd.carriage, List.append_nil]
    exact stripReturn_of_not_mem (mt (Utf8.mem_decode_iff (b := 0x0D) (by decide)).1 h)
  | crlf => rw [LineEnd.carriage, decode_concat_return, stripReturn_concat]

theorem readLine_blank (data : Option (List Char)) (e : LineEnd) :
    readLine data e.carriage = (data, none) := by
  have h : stripReturn (Utf8.decode ([] ++ e.carriage)) = Utf8.decode [] :=
    stripReturn_decode List.not_mem_nil e
  rw [List.nil_append] at h
  rw [readLine, h]
  rfl

theorem takeLine_data (data : Option (List Char)) (piece : List Char) :
    takeLine data ("data: ".toList ++ piece) = (none, addLine data piece) := by
  rfl

theorem readLine_data (data : Option (List Char)) {piece : List Char} (h : '\r' ∉ piece)
    (e : LineEnd) : readLine data (dataLine piece ++ e.carriage) = (none, addLine data piece) := by
  have hreturn : 0x0D ∉ dataLine piece := by
    rw [dataLine, Utf8.mem_encode_iff (by decide)]
    exact List.not_mem_append (by decide) h
  rw [readLine, stripReturn_decode hreturn, dataLine, Utf8.decode_encode, takeLine_data]

/-- The field of a line is called what its bytes before the first colon say. -/
theorem takeWhile_decode (line : List UInt8) :
    (Utf8.decode line).takeWhile (· != ':') = Utf8.decode (line.takeWhile (· != 0x3A)) := by
  have hcolon : ∀ {bs : List UInt8}, 0x3A ∉ bs → ':' ∉ Utf8.decode bs := fun h =>
    mt (Utf8.mem_decode_iff (b := 0x3A) (by decide)).1 h
  by_cases h : 0x3A ∈ line
  · obtain ⟨name, value, rfl, hname⟩ := List.eq_append_cons_of_mem h
    rw [Utf8.decode_append_cons name (by decide), takeWhile_append_cons hname]
    exact takeWhile_append_cons (hcolon hname) _
  · rw [takeWhile_of_not_mem h, takeWhile_of_not_mem (hcolon h)]

theorem takeLine_of_ne {data : Option (List Char)} {line : List Char} (hne : line ≠ [])
    (hname : line.takeWhile (· != ':') ≠ "data".toList) : takeLine data line = (none, data) := by
  have hfield : (splitField line).1 ≠ ['d', 'a', 't', 'a'] := hname
  rw [takeLine, if_neg (by simpa using hne)]
  dsimp only
  rw [if_neg hfield]

/-- A foreign line says nothing. -/
theorem Foreign.readLine {line : List UInt8} (h : Foreign line) (data : Option (List Char))
    (e : LineEnd) : readLine data (line ++ e.carriage) = (none, data) := by
  cases h with
  | @comment line hlf =>
    have hfirst : Utf8.decode (0x3A :: line ++ e.carriage) =
        ':' :: Utf8.decode (line ++ e.carriage) :=
      Utf8.decode_append_cons [] (b := 0x3A) (by decide) _
    obtain ⟨rest, hrest⟩ : ∃ rest, stripReturn (':' :: Utf8.decode (line ++ e.carriage)) =
        ':' :: rest := by
      cases hcs : Utf8.decode (line ++ e.carriage) with
      | nil => exact ⟨[], rfl⟩
      | cons c cs =>
        unfold stripReturn
        split
        · exact ⟨(c :: cs).dropLast, rfl⟩
        · exact ⟨c :: cs, rfl⟩
    rw [RecordDecoder.readLine, hfirst, hrest]
    rfl
  | field hne hlf hcr hname =>
    rw [RecordDecoder.readLine, stripReturn_decode hcr]
    refine takeLine_of_ne (mt Utf8.decode_eq_nil_iff.1 hne) ?_
    rw [takeWhile_decode]
    intro hdata
    have hplain : ∀ c ∈ Utf8.decode (line.takeWhile (· != 0x3A)), c.toNat < 0x80 := by
      rw [hdata]
      simp
    have hbytes := Utf8.eq_map_of_decode hplain
    rw [hdata] at hbytes
    exact hname hbytes

/-! ## All lines -/

/-- The bytes of a whole line are read as that line, and what comes after it goes on with the data
that it leaves. -/
theorem feed_whole_line {line : List UInt8} (h : 0x0A ∉ line) (data : Option (List Char))
    (e : LineEnd) (rest : List UInt8) {record left : Option (List Char)}
    (hread : readLine data (line ++ e.carriage) = (record, left)) :
    feed ⟨[], data⟩ (line ++ (e.bytes ++ rest)) =
      ((feed ⟨[], left⟩ rest).1, record.toList ++ (feed ⟨[], left⟩ rest).2) := by
  have hline : 0x0A ∉ line ++ e.carriage := List.not_mem_append h (by cases e <;> decide)
  have hbytes : line ++ (e.bytes ++ rest) = (line ++ e.carriage) ++ 0x0A :: rest := by
    simp [LineEnd.bytes]
  rw [hbytes, feed_line hline]
  simp only [List.reverse_nil, List.nil_append, hread]

theorem not_mem_dataLine {piece : List Char} (h : '\n' ∉ piece) : 0x0A ∉ dataLine piece := by
  rw [dataLine, Utf8.mem_encode_iff (by decide)]
  exact List.not_mem_append (by decide) h

theorem Foreign.not_mem {line : List UInt8} (h : Foreign line) : 0x0A ∉ line := by
  cases h with
  | comment hlf => exact fun hmem => (List.mem_cons.1 hmem).elim (by decide) hlf
  | field _ hlf _ _ => exact hlf

/-- The lines of a text leave their pieces in the open record. -/
theorem feed_writesLines {pieces : List (List Char)} {body : List UInt8}
    (h : WritesLines pieces body) (hlf : ∀ piece ∈ pieces, '\n' ∉ piece)
    (hcr : ∀ piece ∈ pieces, '\r' ∉ piece) (data : Option (List Char)) (rest : List UInt8) :
    feed ⟨[], data⟩ (body ++ rest) = feed ⟨[], pieces.foldl addLine data⟩ rest := by
  induction h generalizing data with
  | nil => rfl
  | data piece e h ih =>
    rw [List.forall_mem_cons] at hlf hcr
    rw [List.append_assoc, List.append_assoc, feed_whole_line (not_mem_dataLine hlf.1) data e _
      (readLine_data data hcr.1 e), ih hlf.2 hcr.2]
    rfl
  | foreign hline e h ih =>
    rw [List.append_assoc, List.append_assoc, feed_whole_line hline.not_mem data e _
      (hline.readLine data e), ih hlf hcr]
    rfl

/-! ## Texts and their lines -/

theorem intercalate_append (sep a b : List Char) (pieces : List (List Char)) :
    sep.intercalate ((a ++ b) :: pieces) = a ++ sep.intercalate (b :: pieces) := by
  cases pieces with
  | nil => simp
  | cons piece pieces => simp [List.intercalate_cons_cons]

theorem foldl_addLine_some (text : List Char) (pieces : List (List Char)) :
    pieces.foldl addLine (some text) = some (['\n'].intercalate (text :: pieces)) := by
  induction pieces generalizing text with
  | nil => simp
  | cons piece pieces ih =>
    have hadd : addLine (some text) piece = some (text ++ ['\n'] ++ piece) := by
      rw [List.append_assoc]
      rfl
    rw [List.foldl_cons, hadd, ih, intercalate_append, List.intercalate_cons_cons]

/-- The lines of a text put together again are the text. -/
theorem foldl_addLine_splitOn (text : List Char) :
    (text.splitOn '\n').foldl addLine none = some text := by
  obtain ⟨first, others, hsplit⟩ := List.exists_cons_of_ne_nil (List.splitOn_ne_nil '\n' text)
  rw [hsplit, List.foldl_cons, addLine, foldl_addLine_some, ← hsplit, List.intercalate_splitOn]

/-! ## All records -/

theorem Writes.feed {texts : List (List Char)} {bytes : List UInt8} (h : Writes texts bytes)
    (hcr : ∀ text ∈ texts, '\r' ∉ text) : ({} : RecordDecoder).feed bytes = ({}, texts) := by
  induction h with
  | nil => rfl
  | @record text texts body bytes hbody e h ih =>
    rw [List.forall_mem_cons] at hcr
    rw [feed_writesLines hbody (fun piece hp => (of_mem_splitOn hp).1)
      (fun piece hp hmem => hcr.1 ((of_mem_splitOn hp).2 hmem)), foldl_addLine_splitOn,
      ← List.nil_append (e.bytes ++ bytes),
      feed_whole_line List.not_mem_nil (some text) e bytes (readLine_blank _ e), ih hcr.2]
    rfl
  | blank e h ih =>
    rw [← List.nil_append (e.bytes ++ _),
      feed_whole_line List.not_mem_nil none e _ (readLine_blank _ e), ih hcr]
    rfl
  | foreign hline e h ih =>
    rw [feed_whole_line hline.not_mem none e _ (hline.readLine none e), ih hcr]
    rfl

/-- Every list of texts without carriage returns can be written as records, and however it is
written, a new decoder reads just these texts in their order. It then holds no bytes, and no record
is open. -/
theorem written_read_back (texts : List (List Char)) (h : ∀ text ∈ texts, '\r' ∉ text) :
    (∃ bytes, Writes texts bytes) ∧
      ∀ bytes, Writes texts bytes → ({} : RecordDecoder).feed bytes = ({}, texts) :=
  ⟨exists_writes texts, fun _ hbytes => hbytes.feed h⟩

/-- A comment, a text of two lines with a field between them, and an empty text. -/
theorem two_written_read_back :
    let texts := ["a\n:b".toList, []]
    (∀ text ∈ texts, '\r' ∉ text) ∧
      ({} : RecordDecoder).feed
        (Utf8.encode ":hi\r\ndata: a\nid: 7\r\ndata: :b\n\r\n\ndata: \n\n".toList) =
          ({}, texts) := by
  intro texts
  have h : ∀ text ∈ texts, '\r' ∉ text := by decide
  have hcomment : Foreign (0x3A :: Utf8.encode "hi".toList) := .comment (by decide)
  have hid : Foreign (Utf8.encode "id: 7".toList) :=
    .field (by decide) (by decide) (by decide) (by decide)
  have hfirst : WritesLines ("a\n:b".toList.splitOn '\n') _ :=
    .data ['a'] .lf (.foreign hid .crlf (.data [':', 'b'] .lf .nil))
  have hsecond : WritesLines (([] : List Char).splitOn '\n') _ := .data [] .lf .nil
  have hbytes : Writes texts _ :=
    .foreign hcomment .crlf (.record hfirst .crlf (.blank .lf (.record hsecond .lf .nil)))
  exact ⟨h, (written_read_back texts h).2 _ hbytes⟩

end Replication.RecordDecoder
