import Mathlib.Tactic
import Gpsxdb.Delta.PointWKB
import Gpsxdb.Library.Word
import Gpsxdb.Wkb.RoundTrip

/-!
The writers of stored geometries (`GeoUtils.cpp`, `buildMultipolygon` of `main.cpp`,
`AirspaceLoader.cpp`).

* `Geog.ewkb`: a geometry with the headers the importer gives it, the SRID in each;
  `decode_ewkb`: it is decoded as it is;
* `fromHex`, `fromHex_toHex`: bytes out of their text;
* `buildWayWKB`, `mergeWayWKB`, `writeWkbPolygon`, `multipolygonBytes`: the bytes of a way
  and of a relation; `buildWayWKB_eq`, `mergeWayWKB_eq`, `multipolygonBytes_eq`;
* `AirspaceLoader.multiPolygonWKB`, `AirspaceLoader.lineStringWKB`: polygons without an
  SRID inside one with an SRID.
-/

namespace Gpsxdb

open WkbDecode

/-! ### Geometries of the importer -/

/-- A header of the importer. -/
def sridHeader (g_srid type : UInt32) : Header := ⟨type ||| 0x20000000, some g_srid.toInt32⟩

lemma write_sridHeader (g_srid type : UInt32) :
    (sridHeader g_srid type).write = 0x01 :: (wu32 (type ||| 0x20000000) ++ wu32 g_srid) := rfl

/-- What follows the header of a geometry. -/
def Geog.body (g_srid : UInt32) : Geog → Body
  | .lineString points => .lineString points
  | .polygon rings => .polygon rings
  | .multiLineString parts =>
      .multiLineString (parts.map fun points => (sridHeader g_srid 2, points))
  | .multiPolygon polygons => .multiPolygon (polygons.map fun rings => (sridHeader g_srid 3, rings))

/-- A geometry as the importer stores it. -/
def Geog.ewkb (g_srid : UInt32) (geog : Geog) : Ewkb :=
  ⟨sridHeader g_srid (geog.body g_srid).type, geog.body g_srid⟩

/-- The counts of a geometry are 32 bits wide. -/
def Geog.Counted : Geog → Prop
  | .lineString points => WkbDecode.Counted points
  | .polygon rings => WkbDecode.Counted rings ∧ ∀ ring ∈ rings, WkbDecode.Counted ring
  | .multiLineString parts => WkbDecode.Counted parts ∧ ∀ points ∈ parts, WkbDecode.Counted points
  | .multiPolygon polygons => WkbDecode.Counted polygons
      ∧ ∀ rings ∈ polygons, WkbDecode.Counted rings ∧ ∀ ring ∈ rings, WkbDecode.Counted ring

lemma counted_map {α γ : Type} {f : α → γ} {as : List α} (h : Counted as) : Counted (as.map f) := by
  rw [Counted, List.length_map]
  exact h

/-- The headers of the importer are documented. -/
lemma documented_ewkb (g_srid : UInt32) {geog : Geog} (h : geog.Counted) :
    (geog.ewkb g_srid).Documented := by
  refine ⟨rfl, ?_⟩
  cases geog with
  | lineString points => exact h
  | polygon rings => exact h
  | multiLineString parts =>
      refine ⟨counted_map h.1, fun part hpart => ?_⟩
      obtain ⟨points, hpoints, rfl⟩ := List.mem_map.mp hpart
      exact ⟨rfl, h.2 points hpoints⟩
  | multiPolygon polygons =>
      refine ⟨counted_map h.1, fun part hpart => ?_⟩
      obtain ⟨rings, hrings, rfl⟩ := List.mem_map.mp hpart
      exact ⟨rfl, h.2 rings hrings⟩

/-- **What the importer stores is decoded** as it is, with its SRID. -/
theorem decode_ewkb {g_srid : UInt32} {geog : Geog} (h : geog.Counted) :
    decode (geog.ewkb g_srid).write = some ⟨(geog.body g_srid).geom, g_srid.toInt32⟩ := by
  have hdecode := decode_write_append _ (documented_ewkb g_srid h) []
  rw [List.append_nil] at hdecode
  exact hdecode

lemma pointWKB_eq (g_srid : UInt32) (x y : Double) :
    pointWKB g_srid x y = toHex (Ewkb.write ⟨sridHeader g_srid 1, .point ⟨x, y⟩⟩) := by
  simp [pointWKB, Ewkb.write, Header.write, sridHeader, Body.write, writePoint]
  rfl

/-! ### Text -/

/-- `n` of `fromHex`: the value of a digit. -/
def hexValue (c : UInt8) : UInt8 :=
  if 0x30 ≤ c ∧ c ≤ 0x39 then c - 0x30
  else if 0x41 ≤ c ∧ c ≤ 0x46 then c - 0x41 + 10
  else if 0x61 ≤ c ∧ c ≤ 0x66 then c - 0x61 + 10
  else 0

/-- `fromHex`: the bytes of a text, two digits each. -/
def fromHex : Text → List UInt8
  | a :: b :: hex => (hexValue a <<< 4 ||| hexValue b) :: fromHex hex
  | _ => []

lemma hexValue_digits (b : UInt8) :
    hexValue (hexDigit (b >>> 4)) <<< 4 ||| hexValue (hexDigit (b &&& 0xf)) = b :=
  forall_byte (p := fun b => hexValue (hexDigit (b >>> 4)) <<< 4
    ||| hexValue (hexDigit (b &&& 0xf)) = b) (by decide +kernel) b

/-- **The bytes out of their text.** -/
lemma fromHex_toHex (buf : List UInt8) : fromHex (toHex buf) = buf := by
  induction buf with
  | nil => rfl
  | cons b buf ih =>
      have hcons : toHex (b :: buf) = hexDigit (b >>> 4) :: hexDigit (b &&& 0xf) :: toHex buf := rfl
      rw [hcons, fromHex, hexValue_digits, ih]

/-! ### Ways -/

/-- `buildWayGeom`, the text; `buildLineWKB` of the delta appliers writes the same. -/
def buildWayWKB (g_srid : UInt32) (coords : List Coord) : Text :=
  if coords.length < 2 then []
  else
    let is_closed := 4 ≤ coords.length && endsMeet coords
    toHex (0x01 :: ((if is_closed then wu32 0x20000003 ++ wu32 g_srid ++ wu32 1
        else wu32 0x20000002 ++ wu32 g_srid)
      ++ wu32 (UInt32.ofNat coords.length) ++ coords.flatMap fun p => wf64 p.lon_m ++ wf64 p.lat_m))

/-- **The text of a way** is that of its geometry. -/
lemma buildWayWKB_eq (g_srid : UInt32) (coords : List Coord) :
    buildWayWKB g_srid coords
      = (buildWayGeom coords).elim [] fun r => toHex (r.1.ewkb g_srid).write := by
  rw [buildWayWKB, buildWayGeom]
  split
  · rfl
  · have hpoints : coords.flatMap writePoint
        = coords.flatMap fun p => wf64 p.lon_m ++ wf64 p.lat_m := rfl
    by_cases hclosed : (decide (4 ≤ coords.length) && endsMeet coords) = true
    · simp [hclosed, Geog.ewkb, Geog.body, Ewkb.write, Header.write, Body.write, Body.type,
        sridHeader, writeCounted, hpoints]
      rfl
    · simp [hclosed, Geog.ewkb, Geog.body, Ewkb.write, Header.write, Body.write, Body.type,
        sridHeader, writeCounted, hpoints]
      rfl

/-- `isLinear`: the type code of a buffer is that of a line or of lines. -/
def isLinear (b : List UInt8) : Bool :=
  if b.length < 5 then false
  else
    let gtype := ru32 ((b.drop 1).take 4) &&& 0xFFFF
    gtype == 2 || gtype == 5

/-- `mergeWayGeoms`, the text: the linear parts as they are, behind one header. -/
def mergeWayWKB (g_srid : UInt32) (wkb_hexes : List Text) : Text :=
  let parts := ((wkb_hexes.filter (· ≠ [])).map fromHex).filter isLinear
  if parts = [] then []
  else toHex (0x01 :: (wu32 0x20000005 ++ wu32 g_srid ++ wu32 (UInt32.ofNat parts.length)
    ++ parts.flatten))

lemma isLinear_ewkb (g_srid : UInt32) (geog : Geog) :
    isLinear (geog.ewkb g_srid).write = geog.linearParts.isSome := by
  have hword : ru32 (((geog.ewkb g_srid).write.drop 1).take 4)
      = (geog.body g_srid).type ||| 0x20000000 := ru32_wu32 _
  have hlen : ¬ (geog.ewkb g_srid).write.length < 5 := by
    simp [Ewkb.write, Header.write, Geog.ewkb, wu32]
  rw [isLinear, if_neg hlen, hword]
  cases geog <;> simp only [Geog.body, Body.type, Geog.linearParts, Option.isSome] <;> decide

/-- The points of a line string. -/
def Geog.lineString? : Geog → Option (List Coord)
  | .lineString points => some points
  | _ => none

/-- The linear parts of ways are their line strings. -/
lemma linearParts_of_ways {geoms : List Geog}
    (hways : ∀ geog ∈ geoms, ∀ parts, geog ≠ .multiLineString parts) :
    geoms.filterMap Geog.linearParts
      = (geoms.filterMap Geog.lineString?).map fun points => [points] := by
  rw [List.map_filterMap]
  refine List.filterMap_congr fun geog hgeog => ?_
  cases geog with
  | lineString points => rfl
  | polygon rings => rfl
  | multiLineString parts => exact absurd rfl (hways _ hgeog parts)
  | multiPolygon polygons => rfl

/-- The bytes of the linear parts. -/
lemma linear_of_ways (g_srid : UInt32) {geoms : List Geog}
    (hways : ∀ geog ∈ geoms, ∀ parts, geog ≠ .multiLineString parts) :
    (((geoms.map fun geog => toHex (geog.ewkb g_srid).write).filter (· ≠ [])).map
        fromHex).filter isLinear
      = (geoms.filterMap Geog.lineString?).map fun points =>
        (Geog.ewkb g_srid (.lineString points)).write := by
  have htext : ∀ geog : Geog, toHex (geog.ewkb g_srid).write ≠ [] := by
    intro geog h
    have hnil := congrArg fromHex h
    rw [fromHex_toHex] at hnil
    exact List.cons_ne_nil _ _ hnil
  induction geoms with
  | nil => rfl
  | cons geog geoms ih =>
      obtain ⟨hgeog, hgeoms⟩ := List.forall_mem_cons.mp hways
      rw [List.map_cons, List.filter_cons_of_pos (by simpa using htext geog), List.map_cons,
        fromHex_toHex]
      cases geog with
      | lineString points =>
          rw [List.filter_cons_of_pos (by rw [isLinear_ewkb]; rfl), ih hgeoms]
          rfl
      | polygon rings =>
          rw [List.filter_cons_of_neg (by rw [isLinear_ewkb]; simp [Geog.linearParts]), ih hgeoms]
          rfl
      | multiLineString parts => exact absurd rfl (hgeog parts)
      | multiPolygon polygons =>
          rw [List.filter_cons_of_neg (by rw [isLinear_ewkb]; simp [Geog.linearParts]), ih hgeoms]
          rfl

/-- **The text of a relation** made of ways is that of its geometry. -/
lemma mergeWayWKB_eq (g_srid : UInt32) {geoms : List Geog}
    (hways : ∀ geog ∈ geoms, ∀ parts, geog ≠ .multiLineString parts) :
    mergeWayWKB g_srid (geoms.map fun geog => toHex (geog.ewkb g_srid).write)
      = (mergeWayGeoms geoms).elim [] fun geog => toHex (geog.ewkb g_srid).write := by
  rw [mergeWayWKB, mergeWayGeoms, linear_of_ways g_srid hways, linearParts_of_ways hways]
  generalize geoms.filterMap Geog.lineString? = lines
  cases lines with
  | nil => rfl
  | cons points lines =>
      have hflatten : ((points :: lines).map fun points => [points]).flatten = points :: lines := by
        rw [← List.flatMap_def, List.flatMap_singleton']
      have hparts : ((points :: lines).map fun points =>
            (Geog.ewkb g_srid (.lineString points)).write).flatten
          = ((points :: lines).map fun points => (sridHeader g_srid 2, points)).flatMap
            (writePart (writeCounted writePoint)) := by
        rw [List.flatMap_map, ← List.flatMap_def]
        rfl
      rw [if_neg (by simp), if_neg (by simp), hflatten, Option.elim_some, hparts, List.length_map]
      have hword : (5 ||| 0x20000000 : UInt32) = 0x20000005 := rfl
      simp only [Ewkb.write, write_sridHeader, Geog.ewkb, Geog.body, Body.type, Body.write,
        writeCounted, List.length_map, List.append_assoc, List.cons_append, hword]

/-! ### Polygons -/

/-- `writeWkbRing`, behind what is in the buffer. -/
def writeWkbRing (ring : Ring) : List UInt8 :=
  wu32 (UInt32.ofNat ring.length) ++ ring.flatMap fun p => wf64 p.lon_m ++ wf64 p.lat_m

/-- `writeWkbPolygon`, behind what is in the buffer. -/
def writeWkbPolygon (g_srid : UInt32) (outer : Ring) (inners : List Ring) : List UInt8 :=
  0x01 :: (wu32 0x20000003 ++ wu32 g_srid ++ wu32 (1 + UInt32.ofNat inners.length)
    ++ writeWkbRing outer ++ inners.flatMap writeWkbRing)

/-- The end of `buildMultipolygon`: the bytes for its rings. -/
def multipolygonBytes (g_srid : UInt32) (outer_rings inner_rings : List Ring) : List UInt8 :=
  match outer_rings with
  | [] => []
  | [outer] => writeWkbPolygon g_srid outer inner_rings
  | _ => 0x01 :: (wu32 0x20000006 ++ wu32 g_srid ++ wu32 (UInt32.ofNat outer_rings.length)
      ++ outer_rings.flatMap fun outer =>
        writeWkbPolygon g_srid outer (inner_rings.filter (inBoxOf outer)))

lemma writeWkbPolygon_eq (g_srid : UInt32) (outer : Ring) (inners : List Ring) :
    writeWkbPolygon g_srid outer inners
      = writePart (writeCounted (writeCounted writePoint))
        (sridHeader g_srid 3, outer :: inners) := by
  have hcount :
      (1 + UInt32.ofNat inners.length : UInt32) = UInt32.ofNat (outer :: inners).length := by
    rw [List.length_cons, Nat.add_comm]
    exact (UInt32.ofNat_add ..).symm
  rw [writeWkbPolygon, hcount]
  simp only [writePart, Header.write, sridHeader, writeCounted, List.flatMap_cons,
    List.append_assoc, List.cons_append]
  rfl

/-- **The bytes of a multipolygon** are those of its geometry. -/
lemma multipolygonBytes_eq (g_srid : UInt32) (outer_rings inner_rings : List Ring) :
    multipolygonBytes g_srid outer_rings inner_rings
      = (polygonsOf outer_rings inner_rings).elim [] fun geog => (geog.ewkb g_srid).write := by
  match outer_rings with
  | [] => rfl
  | [outer] => exact writeWkbPolygon_eq g_srid outer inner_rings
  | outer :: outer' :: outer_rings =>
      have hword : (6 ||| 0x20000000 : UInt32) = 0x20000006 := rfl
      simp only [multipolygonBytes, polygonsOf, Option.elim_some, writeWkbPolygon_eq, Geog.ewkb,
        Geog.body, Ewkb.write, Body.type, Body.write, write_sridHeader, writeCounted,
        List.length_map, List.map_map, List.flatMap_map, List.append_assoc, List.cons_append,
        Function.comp_apply, hword]

/-! ### Airspaces -/

namespace AirspaceLoader

/-- `multiPolygonWKB`, the bytes. -/
def multiPolygonWKB (g_srid : UInt32) (polygons : List (List Ring)) : List UInt8 :=
  0x01 :: (wu32 0x20000006 ++ wu32 g_srid ++ wu32 (UInt32.ofNat polygons.length)
    ++ polygons.flatMap fun rings => 0x01 :: (wu32 0x00000003 ++ wu32 (UInt32.ofNat rings.length)
      ++ rings.flatMap fun ring => wu32 (UInt32.ofNat ring.length)
        ++ ring.flatMap fun p => wf64 p.lon_m ++ wf64 p.lat_m))

/-- `lineStringWKB`, the bytes. -/
def lineStringWKB (g_srid : UInt32) (pts : List Coord) : List UInt8 :=
  0x01 :: (wu32 0x20000002 ++ wu32 g_srid ++ wu32 (UInt32.ofNat pts.length)
    ++ pts.flatMap fun p => wf64 p.lon_m ++ wf64 p.lat_m)

/-- **The polygons of an airspace** have no SRID of their own, and are decoded as they
are. -/
theorem decode_multiPolygonWKB {g_srid : UInt32} {polygons : List (List Ring)}
    (h : Geog.Counted (.multiPolygon polygons)) :
    decode (multiPolygonWKB g_srid polygons)
      = some ⟨.multiPolygon (polygons.map .ofRings), g_srid.toInt32⟩ := by
  let e : Ewkb :=
    ⟨sridHeader g_srid 6, .multiPolygon (polygons.map fun rings => (⟨3, none⟩, rings))⟩
  have hwrite : multiPolygonWKB g_srid polygons = e.write := by
    simp only [e, multiPolygonWKB, Ewkb.write, Header.write, sridHeader, Body.write, writeCounted,
      List.length_map, List.flatMap_map, List.append_assoc, List.cons_append]
    rfl
  have hdoc : e.Documented := by
    refine ⟨rfl, counted_map h.1, fun part hpart => ?_⟩
    obtain ⟨rings, hrings, rfl⟩ := List.mem_map.mp hpart
    exact ⟨rfl, h.2 rings hrings⟩
  have hdecode := decode_write_append e hdoc []
  rw [List.append_nil] at hdecode
  rw [hwrite, hdecode]
  simp [e, Ewkb.decoded, Body.geom, sridHeader]

/-- **A training route** is decoded as it is. -/
theorem decode_lineStringWKB {g_srid : UInt32} {pts : List Coord} (h : Counted pts) :
    decode (lineStringWKB g_srid pts) = some ⟨.lineString pts, g_srid.toInt32⟩ := by
  have hwrite : lineStringWKB g_srid pts = (Geog.ewkb g_srid (.lineString pts)).write := by
    have hword : (2 ||| 0x20000000 : UInt32) = 0x20000002 := rfl
    simp only [lineStringWKB, Geog.ewkb, Geog.body, Ewkb.write, write_sridHeader, Body.type,
      Body.write, writeCounted, List.append_assoc, List.cons_append, hword]
    rfl
  rw [hwrite]
  exact decode_ewkb h

end AirspaceLoader

end Gpsxdb
