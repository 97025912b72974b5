import Mathlib.Tactic
import Gpsxdb.Import.Tags
import Gpsxdb.NodeStore.OSMMMap

/-!
The geometry construction of the importer (`GeoUtils.cpp`, and `isArea` and
`buildMultipolygon` of `main.cpp`).

* `Double.eq`, `Double.lt`: IEEE comparison of bit patterns;
* `Geog`: the geometry a WKB string stands for; every one is built with the
  process-level SRID, which is left out;
* `buildWayGeom`, `isArea`: a way's geometry and the table it belongs to;
* `mergeWayGeoms`, `stitchRings`, `assembleRings`: the geometry of a relation;
* `Geog.dumpPoints`: the vertices in order, `dumpPoints_buildWayGeom` reading a
  way's own coordinates back.
-/

namespace Gpsxdb

/-! ### Comparison of doubles -/

namespace Double

/-- The magnitude bits of a double. -/
def magnitude (x : Double) : ℕ := (x &&& 0x7FFFFFFFFFFFFFFF).toNat

/-- Exponent all ones, mantissa not zero. -/
def isNaN (x : Double) : Bool := 0x7FF0000000000000 < x.magnitude

/-- The place of a number in the order of doubles, both zeros at `0`. -/
def key (x : Double) : ℤ := if x >>> 63 = 0 then x.magnitude else -x.magnitude

/-- `x == y` on doubles. -/
def eq (x y : Double) : Bool := !isNaN x && !isNaN y && key x == key y

/-- `x < y` on doubles. -/
def lt (x y : Double) : Bool := !isNaN x && !isNaN y && key x < key y

/-- `x <= y` on doubles. -/
def le (x y : Double) : Bool := !isNaN x && !isNaN y && key x ≤ key y

/-- `std::min(x, y)`: the first unless the second is smaller. -/
def min (x y : Double) : Double := if lt y x then y else x

/-- `std::max(x, y)`: the first unless it is smaller. -/
def max (x y : Double) : Double := if lt x y then y else x

end Double

/-- Both coordinates compare equal. -/
def samePoint (a b : Coord) : Bool := Double.eq a.lon_m b.lon_m && Double.eq a.lat_m b.lat_m

/-! ### Geometries -/

/-- A coordinate sequence after stitching. -/
abbrev Ring := List Coord

/-- A way's coordinate sequence before stitching. -/
abbrev Segment := List Coord

/-- A stored geometry. -/
inductive Geog where
  | lineString (points : List Coord)
  | polygon (rings : List Ring)
  | multiLineString (parts : List (List Coord))
  | multiPolygon (polygons : List (List Ring))
deriving DecidableEq

namespace Geog

/-- `ST_DumpPoints`: the vertices in the order of the geometry. -/
def dumpPoints : Geog → List Coord
  | lineString points => points
  | polygon rings => rings.flatten
  | multiLineString parts => parts.flatten
  | multiPolygon polygons => polygons.flatten.flatten

/-- `isLinear` of `mergeWayGeoms`, with the lines of the part. -/
def linearParts : Geog → Option (List (List Coord))
  | lineString points => some [points]
  | multiLineString parts => some parts
  | polygon _ => none
  | multiPolygon _ => none

end Geog

/-- First and last point compare equal. -/
def endsMeet (r : List Coord) : Bool :=
  match r.head?, r.getLast? with
  | some a, some b => samePoint a b
  | _, _ => false

/-- `buildWayGeom`, with `is_closed`: nothing below two points, a polygon of one
ring where at least four points close. -/
def buildWayGeom (coords : List Coord) : Option (Geog × Bool) :=
  if coords.length < 2 then none
  else
    let is_closed := 4 ≤ coords.length && endsMeet coords
    some (if is_closed then .polygon [coords] else .lineString coords, is_closed)

/-- The vertices of a way's geometry are its coordinates. -/
lemma dumpPoints_of_buildWayGeom {coords : List Coord} {g : Geog} {b : Bool}
    (h : buildWayGeom coords = some (g, b)) : g.dumpPoints = coords := by
  rw [buildWayGeom] at h
  split at h
  · simp at h
  · obtain ⟨rfl, -⟩ := Prod.mk.inj (Option.some.inj h)
    split <;> simp [Geog.dumpPoints]

/-- Two points make a geometry. -/
lemma buildWayGeom_isSome {coords : List Coord} (h : 2 ≤ coords.length) :
    (buildWayGeom coords).isSome := by
  rw [buildWayGeom, if_neg (by omega)]
  rfl

/-- `isArea`. -/
def isArea (is_closed : Bool) (tags : Tags) : Bool :=
  let hasKey (keys : List String) : Bool :=
    tags.entries.any fun kv => (keys.map ascii).contains kv.1
  let hasPair (kv : String × String) : Bool := tags.find (ascii kv.1) == some (ascii kv.2)
  if !is_closed then false
  else if tags.find (ascii "area") = some (ascii "yes") then true
  else if tags.find (ascii "area") = some (ascii "no") then false
  -- tags that imply linear use
  else if hasKey ["highway", "railway", "waterway", "power", "man_made"] then false
  else if [("junction", "roundabout"), ("junction", "circular"), ("barrier", "fence"),
      ("barrier", "wall"), ("barrier", "hedge"), ("barrier", "retaining_wall"),
      ("barrier", "city_wall"), ("aeroway", "runway"), ("aeroway", "taxiway"),
      ("aeroway", "taxilane")].any hasPair then false
  -- tags that imply area use
  else hasKey ["building", "building:part", "landuse", "leisure", "natural", "amenity", "shop",
    "tourism", "historic", "military", "boundary", "place", "sport", "landcover"]

/-- `mergeWayGeoms`: the linear parts in order, nothing if there are none.  Ways
are line strings, so a part that is itself a collection does not occur. -/
def mergeWayGeoms (geoms : List Geog) : Option Geog :=
  let parts := geoms.filterMap Geog.linearParts
  if parts = [] then none else some (.multiLineString parts.flatten)

/-! ### Rings -/

/-- The inner scan of `stitchRings`: the ring extended by the first segment that
fits its end, forward or reversed, with that segment taken out. -/
def appendSegment (ring : Ring) : List Segment → Option (Ring × List Segment)
  | [] => none
  | seg :: segs =>
      match ring.getLast?, seg.head?, seg.getLast? with
      | some rb, some a, some b =>
          if samePoint a rb then some (ring ++ seg.tail, segs)
          else if samePoint b rb then some (ring ++ seg.reverse.tail, segs)
          else (appendSegment ring segs).map fun (r, rest) => (r, seg :: rest)
      | _, _, _ => (appendSegment ring segs).map fun (r, rest) => (r, seg :: rest)

/-- The `while (progress)` loop: each turn takes one segment, so as many turns as
there are segments suffice. -/
def extendRing : ℕ → Ring → List Segment → Ring × List Segment
  | 0, ring, segs => (ring, segs)
  | n + 1, ring, segs =>
      if 4 ≤ ring.length && endsMeet ring then (ring, segs)
      else match appendSegment ring segs with
        | none => (ring, segs)
        | some (ring', segs') => extendRing n ring' segs'

/-- The end of the outer loop: the ring is closed if its ends do not meet. -/
def closeRing (ring : Ring) : Ring :=
  match ring.head? with
  | none => ring
  | some a => if endsMeet ring then ring else ring ++ [a]

/-- The outer loop of `stitchRings`, one ring a turn. -/
def stitchLoop : ℕ → List Segment → List Ring
  | 0, _ => []
  | _, [] => []
  | n + 1, seg :: segs =>
      let (ring, rest) := extendRing segs.length seg segs
      let ring := closeRing ring
      if 4 ≤ ring.length then ring :: stitchLoop n rest else stitchLoop n rest

/-- `stitchRings`. -/
def stitchRings (segs : List Segment) : List Ring := stitchLoop segs.length segs

/-- The box check of `buildMultipolygon`: the first point of the inner ring lies
in the bounding box of the outer one. -/
def inBoxOf (outer inner : Ring) : Bool :=
  match outer, inner with
  | o :: os, i :: _ =>
      let ox0 := os.foldl (fun m p => Double.min m p.lon_m) o.lon_m
      let ox1 := os.foldl (fun m p => Double.max m p.lon_m) o.lon_m
      let oy0 := os.foldl (fun m p => Double.min m p.lat_m) o.lat_m
      let oy1 := os.foldl (fun m p => Double.max m p.lat_m) o.lat_m
      Double.le ox0 i.lon_m && Double.le i.lon_m ox1
        && Double.le oy0 i.lat_m && Double.le i.lat_m oy1
  | _, _ => false

/-- The geometry of `buildMultipolygon` from its stitched rings. -/
def polygonsOf (outer_rings inner_rings : List Ring) : Option Geog :=
  match outer_rings with
  | [] => none
  | [outer] => some (.polygon (outer :: inner_rings))
  | _ => some (.multiPolygon (outer_rings.map fun outer =>
      outer :: inner_rings.filter (inBoxOf outer)))

end Gpsxdb
