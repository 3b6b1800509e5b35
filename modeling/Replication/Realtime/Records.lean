import Replication.Text.Utf8

/-!
# Records of an event stream

Server-sent events: lines of text, grouped into records by empty lines. The decoder takes one byte
at a time and gives the data of every completed record: its `data` lines joined by line feeds.
Comments and other fields are skipped.
-/

namespace Replication

/-- The state between two bytes: the bytes of the open line, last first, and the data of the open
record. -/
structure RecordDecoder where
  held : List UInt8 := []
  data : Option (List Char) := none
  deriving DecidableEq, Repr

namespace RecordDecoder

/-- A line without a carriage return at its end. -/
def stripReturn (line : List Char) : List Char :=
  if line.getLast? = some '\r' then line.dropLast else line

/-- The field and the value of a line: what stands before and after its first colon, of which one
space after the colon is no part. -/
def splitField (line : List Char) : List Char × List Char :=
  let value := (line.dropWhile (· != ':')).drop 1
  (line.takeWhile (· != ':'), if value.head? = some ' ' then value.drop 1 else value)

/-- The data of a record with one more line. -/
def addLine (data : Option (List Char)) (value : List Char) : Option (List Char) :=
  match data with
  | none => some value
  | some d => some (d ++ '\n' :: value)

/-- A completed line: the record that it ends, and the data that stays open. A comment starts with
a colon, so its field is empty. -/
def takeLine (data : Option (List Char)) (line : List Char) :
    Option (List Char) × Option (List Char) :=
  if line.isEmpty then (data, none)
  else
    let (field, value) := splitField line
    (none, if field = ['d', 'a', 't', 'a'] then addLine data value else data)

/-- One byte: the state after it and the record that it completes. -/
def step (d : RecordDecoder) (b : UInt8) : RecordDecoder × Option (List Char) :=
  if b = 0x0A then
    let line := stripReturn (Utf8.decode d.held.reverse)
    let (record, data) := takeLine d.data line
    (⟨[], data⟩, record)
  else (⟨b :: d.held, d.data⟩, none)

/-- A chunk of bytes: the state after it and the records that it completes. -/
def feed (d : RecordDecoder) : List UInt8 → RecordDecoder × List (List Char)
  | [] => (d, [])
  | b :: rest =>
    let (d, record) := step d b
    let (d, records) := feed d rest
    (d, record.toList ++ records)

/-- The number of bytes that wait for the end of their line. -/
def buffered (d : RecordDecoder) : Nat := d.held.length

@[simp] theorem feed_nil (d : RecordDecoder) : d.feed [] = (d, []) := rfl

theorem feed_cons (d : RecordDecoder) (b : UInt8) (rest : List UInt8) :
    d.feed (b :: rest) =
      (((d.step b).1.feed rest).1, (d.step b).2.toList ++ ((d.step b).1.feed rest).2) := rfl

end RecordDecoder

end Replication
