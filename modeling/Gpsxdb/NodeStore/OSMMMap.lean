import Mathlib.Data.UInt
import Mathlib.Tactic
import Gpsxdb.Library.Word
import Gpsxdb.Library.MappedFile

/-!
The merged node store of `OSMMMap.cpp` as delta and poll mode use it: the flat
file `nodes.dat` of 16-byte coordinate records at offset `id * 16` and its
bitmap `nodes.dat.bmp`, one bit per id.

* `createFile`, `growFileIfNeeded`, `OSMMMap.openFiles`: the two files on disk,
  blank at import and grown independently at every reopening (the constructor
  with `open_shards_for_write = false`);
* `select`, `update`, `remove`, `growMergedIfNeeded`: access by id, with the
  offsets in `size_t` arithmetic and the growth rule of the live grow;
* `forEachPopulatedRange`, `highestPopulatedId`: the scans of the bitmap.

`none` stands for a thrown exception.  The shard files of the node phase play
no part once the store is merged and are left out.
-/

namespace Gpsxdb

/-- A `double`, as its bit pattern. -/
abbrev Double := UInt64

/-- A stored coordinate pair. -/
structure Coord where
  lon_m : Double
  lat_m : Double
deriving DecidableEq, Repr

/-- `REC_SIZE`: the id is not stored, the offset is the id. -/
def recSize : ℕ := 16

/-- `kMaxSaneNodeId`: growth past this id is refused. -/
def kMaxSaneNodeId : ℤ := 100000000000

/-- The pair of files of a merged node store: `.dat` in 8-byte cells, two to a
record, and `.bmp` in bytes. -/
structure NodeFiles where
  dat : MappedFile Double
  bmp : MappedFile UInt8

/-- An open node store: the mapped pair and the configured largest id. -/
structure OSMMMap extends NodeFiles where
  max_id : ℤ

/-! ### The bitmap helpers -/

/-- `bitmapSet`: an id past the bitmap is ignored. -/
def bitmapSet (bm : MappedFile UInt8) (id : ℤ) : MappedFile UInt8 :=
  let byte := toSize id / 8
  if bm.size ≤ byte then bm else bm.store byte (setBit (bm.cell byte) (toSize id % 8))

/-- `bitmapGet`: an id past the bitmap reads as unset. -/
def bitmapGet (bm : MappedFile UInt8) (id : ℤ) : Bool :=
  let byte := toSize id / 8
  if bm.size ≤ byte then false else bitOf (bm.cell byte) (toSize id % 8)

/-! ### Creating and opening the files -/

/-- The length of `.dat` for ids up to `max_id`. -/
def dataSize (max_id : ℤ) : ℕ := wrapSize (wrapSize (toSize max_id + 1) * recSize)

/-- The length of `.bmp` for ids up to `max_id`. -/
def bitmapSize (max_id : ℤ) : ℕ := wrapSize (wrapSize (toSize max_id + 1) + 7) / 8

/-- `createBlank`. -/
def createBlank {α : Type} [Zero α] (sz : ℕ) : Option (MappedFile α) :=
  if sz < 2 ^ 63 then some (MappedFile.blank sz) else none

/-- `createFile`, the merged pair. -/
def createFile (max_id : ℤ) : Option NodeFiles := do
  let dat ← createBlank (dataSize max_id)
  let bmp ← createBlank (bitmapSize max_id)
  some ⟨dat, bmp⟩

/-- `growFileIfNeeded`: the file is extended to `sz` bytes unless it is already
that long; its true length is what gets mapped. -/
def growFileIfNeeded {α : Type} [Zero α] (w : ℕ) (f : MappedFile α) (sz : ℕ) :
    Option (MappedFile α) :=
  let final_sz := max sz f.size
  if f.size < final_sz then f.ftruncate w final_sz else some f

/-- The constructor with `open_shards_for_write = false`: both files are grown
for `max_id`, each by its own length, and mapped (a mapping of length zero
fails). -/
def OSMMMap.openFiles (d : NodeFiles) (max_id : ℤ) : Option OSMMMap := do
  let dat ← growFileIfNeeded 8 d.dat (dataSize max_id)
  let bmp ← growFileIfNeeded 1 d.bmp (bitmapSize max_id)
  if dat.size = 0 ∨ bmp.size = 0 then none else some ⟨⟨dat, bmp⟩, max_id⟩

namespace OSMMMap

/-! ### Access by id -/

/-- The two doubles at a byte offset of `.dat`. -/
def readCoord (s : OSMMMap) (offset : ℕ) : Coord :=
  ⟨s.dat.cell (offset / 8), s.dat.cell (offset / 8 + 1)⟩

/-- `.dat` with two doubles written at a byte offset. -/
def writeCoord (dat : MappedFile Double) (offset : ℕ) (c : Coord) : MappedFile Double :=
  (dat.store (offset / 8) c.lon_m).store (offset / 8 + 1) c.lat_m

/-- The byte offset of the record of an id. -/
def recOffset (id : ℤ) : ℕ := wrapSize (toSize id * recSize)

/-- `offset + REC_SIZE > merged_size_`, the bounds test of every access. -/
def pastEnd (s : OSMMMap) (offset : ℕ) : Bool := s.dat.size < wrapSize (offset + recSize)

/-- `select`. -/
def select (s : OSMMMap) (id : ℤ) : Option Coord :=
  if !bitmapGet s.bmp id then none
  else if s.pastEnd (recOffset id) then none
  else some (s.readCoord (recOffset id))

/-- `needed_data` of the live grow. -/
def neededData (id : ℤ) : ℕ := wrapSize (wrapSize (toSize id + 1) * recSize)

/-- `new_data_sz` of the live grow: the needed length, a quarter more than the
old one, or room for a million more records. -/
def newDataSize (s : OSMMMap) (id : ℤ) : ℕ :=
  max (neededData id)
    (max (wrapSize (s.dat.size + s.dat.size / 4)) (wrapSize (s.dat.size + 1000000 * recSize)))

/-- `new_bm_sz` of the live grow. -/
def newBmSize (s : OSMMMap) (id : ℤ) : ℕ := (s.newDataSize id / recSize + 7) / 8

/-- The first half of a live grow: `.dat` is extended and mapped again. -/
def growDat (s : OSMMMap) (id : ℤ) : Option OSMMMap := do
  let dat ← s.dat.ftruncate 8 (s.newDataSize id)
  some { s with dat := dat }

/-- The second half of a live grow: `.bmp` is set to the length computed
before the first half began, and the configured largest id follows. -/
def growBmp (s : OSMMMap) (new_bm_sz : ℕ) (id : ℤ) : Option OSMMMap := do
  let bmp ← s.bmp.ftruncate 1 new_bm_sz
  some { s with bmp := bmp, max_id := max s.max_id id }

/-- The ids for which `growMergedIfNeeded` grows the files. -/
def needsGrow (s : OSMMMap) (id : ℤ) : Bool := id ≤ kMaxSaneNodeId && s.dat.size < neededData id

/-- `growMergedIfNeeded`: `.dat` before `.bmp`. -/
def growMergedIfNeeded (s : OSMMMap) (id : ℤ) : Option OSMMMap :=
  if s.needsGrow id then do
    let s' ← s.growDat id
    s'.growBmp (s.newBmSize id) id
  else some s

/-- `update`. -/
def update (s : OSMMMap) (id : ℤ) (c : Coord) : Option OSMMMap :=
  if id < 0 then some s
  else do
    let s ← s.growMergedIfNeeded id
    -- the drop of an id above the sanity ceiling happens here
    if s.pastEnd (recOffset id) then some s
    else some { s with dat := writeCoord s.dat (recOffset id) c, bmp := bitmapSet s.bmp id }

/-- `remove`: the record is zeroed and its bit cleared. -/
def remove (s : OSMMMap) (id : ℤ) : OSMMMap :=
  if id < 0 then s
  else if s.pastEnd (recOffset id) then s
  else
    let byte := toSize id / 8
    { s with
      dat := writeCoord s.dat (recOffset id) ⟨0, 0⟩
      bmp := if byte < s.bmp.size
        then s.bmp.store byte (clearBit (s.bmp.cell byte) (toSize id % 8)) else s.bmp }

/-! ### Scans -/

/-- The records `forEachPopulatedRange` visits in one byte of the bitmap. -/
def visitByte (s : OSMMMap) (byte : ℕ) : List (ℤ × Coord) :=
  let b := s.bmp.cell byte
  if b = 0 then []
  else (List.range 8).filterMap fun bit =>
    if !bitOf b bit then none
    else
      let id : ℤ := byte * 8 + bit
      if s.pastEnd (recOffset id) then none else some (id, s.readCoord (recOffset id))

/-- `forEachPopulatedRange`: the records passed to the callback, in order. -/
def forEachPopulatedRange (s : OSMMMap) (byte_start byte_end : ℕ) : List (ℤ × Coord) :=
  (List.range' byte_start (min byte_end s.bmp.size - byte_start)).flatMap s.visitByte

/-- `forEachPopulated`. -/
def forEachPopulated (s : OSMMMap) : List (ℤ × Coord) := s.forEachPopulatedRange 0 s.bmp.size

/-- The highest set bit of a byte, the scan of `highestPopulatedId` from bit 7. -/
def highestBit (b : UInt8) : Option ℕ := [7, 6, 5, 4, 3, 2, 1, 0].find? fun bit => bitOf b bit

/-- The backward scan of `highestPopulatedId` from byte `byte - 1`. -/
def highestBelow (s : OSMMMap) : ℕ → ℤ
  | 0 => -1
  | byte + 1 =>
      let b := s.bmp.cell byte
      if b = 0 then s.highestBelow byte
      else match highestBit b with
        | some bit => byte * 8 + bit
        | none => s.highestBelow byte

/-- `highestPopulatedId`. -/
def highestPopulatedId (s : OSMMMap) : ℤ := s.highestBelow s.bmp.size

end OSMMMap

end Gpsxdb
