import Mathlib.Tactic
import Gpsxdb.Library.Records
import Gpsxdb.Library.Word

/-!
The reader of COPY-binary streams (`PgCopyBinary.cpp`).

* `Ending`, `Reader`: what the connection still delivers, and the buffer with `pos_`
  and `mark_`;
* `fill`: chunks are pulled until enough bytes are there, and the buffer is compacted;
* `openReader`, `finish`, `next`: the constructor, the end of a stream, one row;
* `drain`: the loop `while (auto row = reader.next())`.

`none` stands for a thrown exception.
-/

namespace Gpsxdb

namespace PgCopyBinary

/-! ### Rows -/

/-- `Field`: the offset of its bytes in the row, and its length. -/
structure Field where
  data : Option ℕ
  len : ℤ
deriving DecidableEq

/-- `Row`. -/
structure Row where
  raw : List UInt8
  fields : List Field
deriving DecidableEq

/-- The bytes a field shows, nothing for NULL. -/
def Row.view (row : Row) (f : Field) : Option (List UInt8) :=
  f.data.map fun offset => (row.raw.drop offset).take f.len.toNat

/-- An `int16_t` in network byte order. -/
def i16be (p : List UInt8) : ℤ := Int.bmod (leValue p.reverse) (2 ^ 16)

/-- An `int32_t` in network byte order. -/
def i32be (p : List UInt8) : ℤ := wrapInt32 (leValue p.reverse)

/-! ### The reader -/

/-- What `PQgetCopyData` and `PQgetResult` report once all chunks are delivered. -/
inductive Ending where
  /-- `-1`, then `PGRES_COMMAND_OK` -/
  | ok
  /-- `-1`, then another status -/
  | failed
  /-- `-2` -/
  | error
deriving DecidableEq

/-- `Reader`, with the chunks the connection has still to deliver. -/
structure Reader where
  wire : List (List UInt8)
  ending : Ending
  buf : List UInt8
  pos : ℕ
  mark : ℕ
  eof : Bool

namespace Reader

/-- `fill`: what lies before the mark is dropped with every chunk. -/
def fillFrom (need : ℕ) (r : Reader) : List (List UInt8) → Option Reader
  | [] => if need ≤ r.buf.length - r.pos then some r else none
  | chunk :: wire =>
      if need ≤ r.buf.length - r.pos then some r
      else
        fillFrom need
          { r with
            wire := wire
            buf := r.buf.drop r.mark ++ chunk
            pos := r.pos - r.mark
            mark := 0 } wire

def fill (need : ℕ) (r : Reader) : Option Reader := fillFrom need r r.wire

/-- The bytes at `pos_`. -/
def peek (r : Reader) (n : ℕ) : List UInt8 := (r.buf.drop r.pos).take n

/-- `kSignature`. -/
def kSignature : List UInt8 :=
  [0x50, 0x47, 0x43, 0x4F, 0x50, 0x59, 0x0A, 0xFF, 0x0D, 0x0A, 0x00]

/-- The constructor, once the command has started. -/
def openReader (wire : List (List UInt8)) (ending : Ending) : Option Reader := do
  let r ← fill 19 ⟨wire, ending, [], 0, 0, false⟩
  if r.peek kSignature.length ≠ kSignature then none else some { r with pos := r.pos + 19 }

/-- `finish`: the rest of the stream is drained. -/
def finish (r : Reader) : Option Reader :=
  if r.eof then some r
  else if r.ending = .ok then some { r with wire := [], eof := true }
  else none

/-- What stands behind the length of a field. -/
def readData (flen : ℤ) (r : Reader) : Option (Field × Reader) :=
  if flen = -1 then some (⟨none, -1⟩, r)
  else if flen < 0 then none
  else (r.fill flen.toNat).map fun r =>
    (⟨some (r.pos - r.mark), flen⟩, { r with pos := r.pos + flen.toNat })

/-- One turn of the loop over the fields of a row. -/
def readOne (r : Reader) : Option (Field × Reader) := do
  let r ← r.fill 4
  readData (i32be (r.peek 4)) { r with pos := r.pos + 4 }

/-- The loop over the fields of a row. -/
def readFields : ℕ → Reader → Option (List Field × Reader)
  | 0, r => some ([], r)
  | n + 1, r => do
      let (field, r) ← r.readOne
      let (fields, r) ← readFields n r
      some (field :: fields, r)

/-- What stands behind the number of fields: the fields, or the end of the stream. -/
def readBody (field_count : ℤ) (r : Reader) : Option (Option Row × Reader) :=
  if field_count = -1 then r.finish.map fun r => (none, r)
  else if field_count < 0 then none
  else (readFields field_count.toNat r).map fun p =>
    (some ⟨(p.2.buf.take p.2.pos).drop p.2.mark, p.1⟩, p.2)

/-- `next`: the next row, or nothing behind the trailer. -/
def next (r : Reader) : Option (Option Row × Reader) := do
  let r ← fill 2 { r with mark := r.pos }
  readBody (i16be (r.peek 2)) { r with pos := r.pos + 2 }

/-- How the loop over the rows ends: behind the trailer, with an exception, or not yet. -/
inductive Outcome where
  | complete
  | threw
  | running
deriving DecidableEq

/-- `while (auto row = reader.next())`, so many turns. -/
def drain : ℕ → Reader → List Row × Outcome
  | 0, _ => ([], .running)
  | turns + 1, r =>
      match r.next with
      | none => ([], .threw)
      | some (none, _) => ([], .complete)
      | some (some row, r) => (row :: (drain turns r).1, (drain turns r).2)

end Reader

end PgCopyBinary

end Gpsxdb
