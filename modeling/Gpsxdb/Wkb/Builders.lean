import Mathlib.Tactic
import Gpsxdb.Library.Word
import Gpsxdb.Wkb.Writers

/-!
The three copies of the code that writes ways and merges their lines.

* `SameHex`: hexadecimal texts up to the case of their digits;
* `GeoUtils`, `DeltaApplier`, `RegionalDeltaApplier`: the copies, each with its own
  digits, guards and reading of hexadecimal text;
* `hexToBytes_eq`, `parts_eq`: the copies read the same bytes and pick the same parts;
* `mergedBytes_of_encoded`, `decode_mergedBytes`: what is merged out of encodings is the
  encoding of their lines, as far as the count of 32 bits reaches;
* `copies_agree`: **the copies agree**, and what they merge is decoded.

`GeoUtils` writes the digits in upper case, the others in lower case.
-/

namespace Gpsxdb

open WkbDecode

/-! ### Text -/

/-- `toupper`. -/
def upperCase (c : UInt8) : UInt8 := if 0x61 ≤ c ∧ c ≤ 0x7A then c - 0x20 else c

/-- Hexadecimal texts that differ in the case of their digits only. -/
def SameHex (a b : Text) : Prop := a.map upperCase = b.map upperCase

instance (a b : Text) : Decidable (SameHex a b) := inferInstanceAs (Decidable (_ = _))

/-! ### The copies -/

namespace GeoUtils

/-- `buildWayGeom`: below two points `is_closed` stays what it was. -/
def buildWayGeom (g_srid : UInt32) (coords : List Coord) (is_closed : Bool) : Text × Bool :=
  (buildWayWKB g_srid coords,
    if coords.length < 2 then is_closed else 4 ≤ coords.length && endsMeet coords)

end GeoUtils

namespace DeltaApplier

/-- The digits of `std::hex`. -/
def lowerDigit (n : UInt8) : UInt8 := (ascii "0123456789abcdef").getD n.toNat 0

/-- `toHexLocal`. -/
def toHexLocal (b : List UInt8) : Text :=
  b.flatMap fun c : UInt8 => [lowerDigit (c >>> 4), lowerDigit (c &&& 0xf)]

/-- `buildLineWKB`, the text. -/
def buildLineWKB (g_srid : UInt32) (pts : List Coord) (closed : Bool) : Text :=
  if pts.length < 2 then []
  else
    toHexLocal (0x01 ::
      ((if closed && 4 ≤ pts.length then
          wu32 0x20000003 ++ wu32 g_srid ++ wu32 1 ++ wu32 (UInt32.ofNat pts.length)
        else wu32 0x20000002 ++ wu32 g_srid ++ wu32 (UInt32.ofNat pts.length))
      ++ pts.flatMap fun p => wf64 p.lon_m ++ wf64 p.lat_m))

/-- `buildWayGeom` from the coordinates of the refs. -/
def buildWayGeom (g_srid : UInt32) (coords : List Coord) : Text × Bool :=
  if coords.length < 2 then ([], false)
  else
    let is_closed := endsMeet coords && 4 ≤ coords.length
    (buildLineWKB g_srid coords is_closed, is_closed)

/-- `fromHexChar`. -/
def fromHexChar (c : UInt8) : UInt8 :=
  if 0x30 ≤ c ∧ c ≤ 0x39 then c - 0x30
  else if 0x61 ≤ c ∧ c ≤ 0x66 then c - 0x61 + 10
  else if 0x41 ≤ c ∧ c ≤ 0x46 then c - 0x41 + 10
  else 0

/-- `byte`: the byte at an index of a text. -/
def byteAt (h : Text) (i : ℕ) : UInt8 :=
  fromHexChar (h.getD (i * 2) 0) <<< 4 ||| fromHexChar (h.getD (i * 2 + 1) 0)

/-- `gtype`: the type code of a text. -/
def gtype (h : Text) : UInt32 := ru32 [byteAt h 1, byteAt h 2, byteAt h 3, byteAt h 4] &&& 0xFFFF

/-- The texts `mergeLinestrings` does not pass over. -/
def merges (h : Text) : Bool := !(h.length < 10) && !(gtype h != 2 && gtype h != 5)

/-- `mergeLinestrings`. -/
def mergeLinestrings (g_srid : UInt32) (hexes : List Text) : Text :=
  if hexes = [] then []
  else
    let parts := (hexes.filter merges).map fun h => (List.range (h.length / 2)).map fun i =>
      fromHexChar (h.getD (i * 2) 0) <<< 4 ||| fromHexChar (h.getD (i * 2 + 1) 0)
    if parts = [] then []
    else toHexLocal (0x01 :: (wu32 0x20000005 ++ wu32 g_srid ++ wu32 (UInt32.ofNat parts.length)
      ++ parts.flatten))

end DeltaApplier

namespace RegionalDeltaApplier

open DeltaApplier (toHexLocal fromHexChar merges)

/-- `buildLineWKB`, the text. -/
def buildLineWKB (g_srid : UInt32) (pts : List Coord) (closed : Bool) : Text :=
  if pts.length < 2 then []
  else
    toHexLocal (0x01 ::
      ((if closed && 4 ≤ pts.length then
          wu32 0x20000003 ++ wu32 g_srid ++ wu32 1 ++ wu32 (UInt32.ofNat pts.length)
        else wu32 0x20000002 ++ wu32 g_srid ++ wu32 (UInt32.ofNat pts.length))
      ++ pts.flatMap fun p => wf64 p.lon_m ++ wf64 p.lat_m))

/-- `buildWayGeom` from the coordinates of the refs. -/
def buildWayGeom (g_srid : UInt32) (coords : List Coord) : Text × Bool :=
  if coords.length < 2 then ([], false)
  else
    let is_closed := endsMeet coords && 4 ≤ coords.length
    (buildLineWKB g_srid coords is_closed, is_closed)

/-- `hexToBytes`. -/
def hexToBytes (h : Text) : List UInt8 :=
  (List.range (h.length / 2)).map fun i =>
    fromHexChar (h.getD (i * 2) 0) <<< 4 ||| fromHexChar (h.getD (i * 2 + 1) 0)

/-- `mergeLinestrings`. -/
def mergeLinestrings (g_srid : UInt32) (hexes : List Text) : Text :=
  if hexes = [] then []
  else
    let parts := (hexes.filter merges).map hexToBytes
    if parts = [] then []
    else toHexLocal (0x01 :: (wu32 0x20000005 ++ wu32 g_srid ++ wu32 (UInt32.ofNat parts.length)
      ++ parts.flatten))

end RegionalDeltaApplier

/-! ### The same bytes -/

open DeltaApplier (toHexLocal fromHexChar byteAt merges)
open RegionalDeltaApplier (hexToBytes)

lemma fromHexChar_eq (c : UInt8) : fromHexChar c = hexValue c :=
  forall_byte (p := fun c => fromHexChar c = hexValue c) (by decide +kernel) c

/-- A digit in lower case and in upper case. -/
lemma upperCase_lowerDigit (n : UInt8) :
    upperCase (DeltaApplier.lowerDigit n) = upperCase (hexDigit n) :=
  forall_byte (p := fun n => upperCase (DeltaApplier.lowerDigit n) = upperCase (hexDigit n))
    (by decide +kernel) n

/-- Lower case and upper case. -/
lemma sameHex_toHexLocal (b : List UInt8) : SameHex (toHexLocal b) (toHex b) := by
  rw [SameHex, toHexLocal, toHex, List.map_flatMap, List.map_flatMap]
  refine List.flatMap_congr fun c _ => ?_
  rw [List.map_cons, List.map_cons, List.map_cons, List.map_cons, upperCase_lowerDigit,
    upperCase_lowerDigit]

/-- The two ways to read hexadecimal text. -/
lemma hexToBytes_eq (h : Text) : hexToBytes h = fromHex h := by
  induction h using fromHex.induct with
  | case1 a b hex ih =>
      have hlen : (a :: b :: hex).length / 2 = hex.length / 2 + 1 := by
        rw [List.length_cons, List.length_cons]
        omega
      rw [hexToBytes, hlen, List.range_succ_eq_map, List.map_cons, List.map_map, fromHex, ← ih]
      refine congrArg₂ List.cons ?_ ?_
      · simp [fromHexChar_eq]
      · refine List.map_congr_left fun i _ => ?_
        have hi : (i + 1) * 2 = i * 2 + 1 + 1 := by ring
        simp [Function.comp_apply, hi]
  | case2 hex hnot =>
      cases hex with
      | nil => rfl
      | cons a hex =>
          cases hex with
          | nil => simp [hexToBytes, fromHex]
          | cons b hex => exact absurd rfl (hnot a b hex)

/-- A byte of a text. -/
lemma byteAt_eq {h : Text} {i : ℕ} (hi : i < h.length / 2) :
    byteAt h i = (fromHex h).getD i 0 := by
  rw [← hexToBytes_eq, hexToBytes, List.getD_eq_getElem?_getD, List.getElem?_map,
    List.getElem?_range hi]
  rfl

lemma length_fromHex (h : Text) : (fromHex h).length = h.length / 2 := by
  rw [← hexToBytes_eq, hexToBytes, List.length_map, List.length_range]

/-- The two tests for a linear part. -/
lemma merges_eq (h : Text) : merges h = isLinear (fromHex h) := by
  rw [merges, isLinear, length_fromHex]
  by_cases hlen : h.length < 10
  · have hshort : h.length / 2 < 5 := by omega
    simp [hlen, hshort]
  · have hlong : ¬ h.length / 2 < 5 := by omega
    have hbytes : ((fromHex h).drop 1).take 4
        = [byteAt h 1, byteAt h 2, byteAt h 3, byteAt h 4] := by
      rw [byteAt_eq (by omega), byteAt_eq (by omega), byteAt_eq (by omega), byteAt_eq (by omega)]
      have hb : 5 ≤ (fromHex h).length := by
        rw [length_fromHex]
        omega
      generalize fromHex h = b at hb
      obtain ⟨b0, b, rfl⟩ := List.exists_cons_of_length_pos (l := b) (by omega)
      obtain ⟨b1, b, rfl⟩ := List.exists_cons_of_length_pos (l := b) (by simp at hb; omega)
      obtain ⟨b2, b, rfl⟩ := List.exists_cons_of_length_pos (l := b) (by simp at hb; omega)
      obtain ⟨b3, b, rfl⟩ := List.exists_cons_of_length_pos (l := b) (by simp at hb; omega)
      obtain ⟨b4, b, rfl⟩ := List.exists_cons_of_length_pos (l := b) (by simp at hb; omega)
      rfl
    rw [if_neg hlong, hbytes, ← DeltaApplier.gtype]
    simp [hlen, bne]

/-- The copies pick the same parts. -/
lemma parts_eq (hexes : List Text) : ((hexes.filter (· ≠ [])).map fromHex).filter isLinear
    = (hexes.filter merges).map hexToBytes := by
  have hmap : hexToBytes = fromHex := funext hexToBytes_eq
  rw [hmap, List.filter_map, List.filter_filter]
  refine congrArg _ (List.filter_congr fun h _ => ?_)
  rw [Function.comp_apply, ← merges_eq]
  cases h with
  | nil => rfl
  | cons c h => simp

/-- The parts that are merged. -/
def linearParts (hexes : List Text) : List (List UInt8) := (hexes.filter merges).map hexToBytes

/-- The bytes of a merger. -/
def mergedBytes (g_srid : UInt32) (hexes : List Text) : List UInt8 :=
  if linearParts hexes = [] then []
  else 0x01 :: (wu32 0x20000005 ++ wu32 g_srid ++ wu32 (UInt32.ofNat (linearParts hexes).length)
    ++ (linearParts hexes).flatten)

lemma mergeWayWKB_eq_toHex (g_srid : UInt32) (hexes : List Text) :
    mergeWayWKB g_srid hexes = toHex (mergedBytes g_srid hexes) := by
  rw [mergeWayWKB, mergedBytes, parts_eq, linearParts]
  split <;> rfl

lemma mergeLinestrings_eq_toHexLocal (g_srid : UInt32) (hexes : List Text) :
    DeltaApplier.mergeLinestrings g_srid hexes = toHexLocal (mergedBytes g_srid hexes) := by
  have hparts : ((hexes.filter merges).map fun h => (List.range (h.length / 2)).map fun i =>
      fromHexChar (h.getD (i * 2) 0) <<< 4 ||| fromHexChar (h.getD (i * 2 + 1) 0))
        = linearParts hexes := rfl
  rw [DeltaApplier.mergeLinestrings, hparts, mergedBytes]
  by_cases hnil : hexes = []
  · rw [if_pos hnil, hnil]
    rfl
  · rw [if_neg hnil]
    by_cases hlinear : linearParts hexes = []
    · rw [if_pos hlinear, if_pos hlinear]
      rfl
    · rw [if_neg hlinear, if_neg hlinear]

/-- The regional copy of the merger is that of the global applier. -/
lemma regional_mergeLinestrings_eq (g_srid : UInt32) (hexes : List Text) :
    RegionalDeltaApplier.mergeLinestrings g_srid hexes
      = DeltaApplier.mergeLinestrings g_srid hexes := rfl

/-! ### Ways -/

/-- Text is empty where there are no bytes. -/
lemma toHex_eq_nil {b : List UInt8} : toHex b = [] ↔ b = [] := by
  constructor
  · intro h
    rw [← fromHex_toHex b, h]
    rfl
  · rintro rfl
    rfl

/-- **The texts of a way** are the same, up to case. -/
lemma sameHex_buildWayGeom (g_srid : UInt32) (coords : List Coord) :
    SameHex (DeltaApplier.buildWayGeom g_srid coords).1
        (GeoUtils.buildWayGeom g_srid coords false).1
      ∧ (DeltaApplier.buildWayGeom g_srid coords).2
        = (GeoUtils.buildWayGeom g_srid coords false).2 := by
  rw [DeltaApplier.buildWayGeom, GeoUtils.buildWayGeom, buildWayWKB]
  by_cases hshort : coords.length < 2
  · simp only [if_pos hshort]
    exact ⟨rfl, trivial⟩
  · simp only [if_neg hshort, DeltaApplier.buildLineWKB]
    rw [Bool.and_comm (endsMeet coords)]
    refine ⟨?_, rfl⟩
    generalize hclosed : (decide (4 ≤ coords.length) && endsMeet coords) = is_closed
    cases is_closed with
    | true =>
        obtain ⟨hlong, -⟩ := Bool.and_eq_true_iff.mp hclosed
        rw [if_pos (by simpa using hlong), if_pos rfl]
        exact sameHex_toHexLocal _
    | false =>
        rw [if_neg (by simp), if_neg (by simp)]
        exact sameHex_toHexLocal _

/-- The regional copy for ways is that of the global applier. -/
lemma regional_buildWayGeom_eq (g_srid : UInt32) (coords : List Coord) :
    RegionalDeltaApplier.buildWayGeom g_srid coords = DeltaApplier.buildWayGeom g_srid coords := rfl

/-! ### Relations -/

lemma hexValue_upperCase (c : UInt8) : hexValue (upperCase c) = hexValue c :=
  forall_byte (p := fun c => hexValue (upperCase c) = hexValue c) (by decide +kernel) c

/-- The case of the digits makes no difference. -/
lemma fromHex_upperCase (h : Text) : fromHex (h.map upperCase) = fromHex h := by
  induction h using fromHex.induct with
  | case1 a b hex ih =>
      rw [List.map_cons, List.map_cons, fromHex, fromHex, hexValue_upperCase,
        hexValue_upperCase, ih]
  | case2 hex hnot =>
      cases hex with
      | nil => rfl
      | cons a hex =>
          cases hex with
          | nil => rfl
          | cons b hex => exact absurd rfl (hnot a b hex)

lemma SameHex.fromHex_eq {a b : Text} (h : SameHex a b) : fromHex a = fromHex b := by
  rw [← fromHex_upperCase a, h, fromHex_upperCase]

lemma SameHex.eq_nil_iff {a b : Text} (h : SameHex a b) : a = [] ↔ b = [] := by
  rw [← List.map_eq_nil_iff (f := upperCase), h, List.map_eq_nil_iff]

/-- A text that encodes a geometry: a point, a line, a polygon or polygons. -/
def EncodedBy (h : Text) (e : Ewkb) : Prop :=
  fromHex h = e.write ∧ e.Documented ∧ e.body.type ≠ 5

/-- The line with its header, where there is one. -/
def WkbDecode.Ewkb.line? (e : Ewkb) : Option (Header × List Coord) :=
  match e.body with
  | .lineString points => some (e.header, points)
  | _ => none

/-- The lines among geometries. -/
def linesOf (es : List Ewkb) : List (List Coord) := es.filterMap fun e => e.line?.map Prod.snd

lemma isLinear_write {e : Ewkb} (h : e.Documented) (htype : e.body.type ≠ 5) :
    isLinear e.write = e.line?.isSome := by
  obtain ⟨⟨raw_type, srid⟩, body⟩ := e
  have hword : ru32 (((Ewkb.write ⟨⟨raw_type, srid⟩, body⟩).drop 1).take 4) = raw_type :=
    ru32_wu32 _
  have hlen : ¬ (Ewkb.write ⟨⟨raw_type, srid⟩, body⟩).length < 5 := by
    simp [Ewkb.write, Header.write, wu32]
  have hraw : raw_type &&& 0xFFFF = body.type := (header_of_documented body.type_mem h.1).2
  rw [isLinear, if_neg hlen, hword, hraw]
  cases body with
  | multiLineString parts => exact absurd rfl htype
  | _ => rfl

/-- The parts that are merged are the encodings of the lines. -/
lemma linearParts_of_encoded {hexes : List Text} {es : List Ewkb}
    (h : List.Forall₂ EncodedBy hexes es) :
    linearParts hexes
      = (es.filterMap Ewkb.line?).map (writePart (writeCounted writePoint)) := by
  induction h with
  | nil => rfl
  | @cons h e hexes es hhead htail ih =>
      obtain ⟨hwrite, hdoc, htype⟩ := hhead
      have hmerges : merges h = e.line?.isSome := by
        rw [merges_eq, hwrite, isLinear_write hdoc htype]
      rw [linearParts] at ih ⊢
      obtain ⟨header, body⟩ := e
      cases body with
      | lineString points =>
          rw [List.filter_cons_of_pos hmerges, List.map_cons, hexToBytes_eq, hwrite, ih]
          rfl
      | _ =>
          rw [List.filter_cons_of_neg (by rw [hmerges]; exact Bool.false_ne_true), ih]
          rfl

/-- **What is merged out of encodings** is the encoding of their lines. -/
lemma mergedBytes_of_encoded (g_srid : UInt32) {hexes : List Text} {es : List Ewkb}
    (h : List.Forall₂ EncodedBy hexes es) (hsome : es.filterMap Ewkb.line? ≠ []) :
    mergedBytes g_srid hexes
      = Ewkb.write ⟨sridHeader g_srid 5, .multiLineString (es.filterMap Ewkb.line?)⟩ := by
  have hparts : linearParts hexes ≠ [] := by
    rw [linearParts_of_encoded h]
    simpa using hsome
  have hword : (5 ||| 0x20000000 : UInt32) = 0x20000005 := rfl
  rw [mergedBytes, if_neg hparts, linearParts_of_encoded h]
  simp only [Ewkb.write, write_sridHeader, Body.write, writeCounted, List.length_map,
    List.flatMap_def, List.append_assoc, List.cons_append, hword]

lemma linesOf_eq (es : List Ewkb) : linesOf es = (es.filterMap Ewkb.line?).map Prod.snd := by
  rw [linesOf, List.map_filterMap]

/-- The lines of documented encodings are documented. -/
lemma documented_of_line {hexes : List Text} {es : List Ewkb}
    (h : List.Forall₂ EncodedBy hexes es) :
    ∀ part ∈ es.filterMap Ewkb.line?, part.1.Documented 2 ∧ Counted part.2 := by
  intro part hpart
  obtain ⟨e, he, hline⟩ := List.mem_filterMap.mp hpart
  obtain ⟨i, hi, rfl⟩ := List.mem_iff_getElem.mp he
  obtain ⟨-, hdoc, -⟩ := h.get (h.length_eq ▸ hi) hi
  rw [List.get_eq_getElem] at hdoc
  generalize es[i] = e at hdoc hline
  obtain ⟨header, body⟩ := e
  cases body with
  | lineString points =>
      obtain rfl := Option.some.inj hline
      exact hdoc
  | _ => exact absurd hline (Option.some_ne_none part).symm

/-- The count has 32 bits: what is decoded is as many lines as are left of it. -/
lemma decode_mergedBytes (g_srid : UInt32) {hexes : List Text} {es : List Ewkb}
    (h : List.Forall₂ EncodedBy hexes es) (hsome : linesOf es ≠ []) :
    decode (mergedBytes g_srid hexes)
      = some ⟨.multiLineString ((linesOf es).take ((linesOf es).length % 2 ^ 32)),
        g_srid.toInt32⟩ := by
  have hdoc := documented_of_line h
  rw [linesOf_eq] at hsome ⊢
  rw [mergedBytes_of_encoded g_srid h (by simpa using hsome), List.length_map, ← List.map_take]
  generalize es.filterMap Ewkb.line? = parts at hdoc
  let count := parts.length % 2 ^ 32
  have hlength : (parts.take count).length = count := by
    rw [List.length_take]
    exact min_eq_left (Nat.mod_le _ _)
  have hcount : UInt32.ofNat parts.length = UInt32.ofNat (parts.take count).length := by
    rw [hlength]
    exact (UInt32.ofNat_mod_size (x := parts.length)).symm
  have hwrite : Ewkb.write ⟨sridHeader g_srid 5, .multiLineString parts⟩
      = Ewkb.write ⟨sridHeader g_srid 5, .multiLineString (parts.take count)⟩
        ++ (parts.drop count).flatMap (writePart (writeCounted writePoint)) := by
    simp only [Ewkb.write, Body.write, writeCounted, hcount, List.append_assoc,
      ← List.flatMap_append, List.take_append_drop]
  rw [hwrite, decode_write_append]
  · rfl
  · refine ⟨rfl, ?_, fun part hpart => hdoc part (List.mem_of_mem_take hpart)⟩
    rw [Counted, hlength]
    exact Nat.mod_lt _ (by decide)

/-- Nothing is merged where there is no line. -/
lemma mergedBytes_eq_nil_iff (g_srid : UInt32) {hexes : List Text} {es : List Ewkb}
    (h : List.Forall₂ EncodedBy hexes es) : mergedBytes g_srid hexes = [] ↔ linesOf es = [] := by
  have hparts : linearParts hexes = [] ↔ linesOf es = [] := by
    rw [linearParts_of_encoded h, linesOf_eq, List.map_eq_nil_iff, List.map_eq_nil_iff]
  rw [← hparts, mergedBytes]
  split
  · exact iff_of_true rfl ‹_›
  · exact iff_of_false (List.cons_ne_nil _ _) ‹_›

/-- The three texts of a merger. -/
def mergers (g_srid : UInt32) (hexes : List Text) : List Text :=
  [mergeWayWKB g_srid hexes, DeltaApplier.mergeLinestrings g_srid hexes,
    RegionalDeltaApplier.mergeLinestrings g_srid hexes]

lemma sameHex_mergers {g_srid : UInt32} {hexes : List Text} {text : Text}
    (h : text ∈ mergers g_srid hexes) : SameHex text (toHex (mergedBytes g_srid hexes)) := by
  simp only [mergers, List.mem_cons, List.not_mem_nil, or_false] at h
  obtain rfl | rfl | rfl := h
  · rw [mergeWayWKB_eq_toHex]
    rfl
  · rw [mergeLinestrings_eq_toHexLocal]
    exact sameHex_toHexLocal _
  · rw [regional_mergeLinestrings_eq, mergeLinestrings_eq_toHexLocal]
    exact sameHex_toHexLocal _

/-- **The copies agree.**  For any coordinates the texts of a way are the same up to the
case of their digits, and so is `is_closed`; for any texts the mergers give the same text
up to case.  Out of encodings of points, lines and polygons they merge nothing where
there is no line, and otherwise, below 2^32 lines, what is decoded as the lines in
order. -/
theorem copies_agree (g_srid : UInt32) :
    (∀ coords : List Coord,
        ∀ way ∈ [DeltaApplier.buildWayGeom g_srid coords,
            RegionalDeltaApplier.buildWayGeom g_srid coords],
          way.2 = (GeoUtils.buildWayGeom g_srid coords false).2
            ∧ SameHex way.1 (GeoUtils.buildWayGeom g_srid coords false).1)
      ∧ (∀ hexes : List Text,
        ∀ text ∈ mergers g_srid hexes, SameHex text (mergeWayWKB g_srid hexes))
      ∧ ∀ (hexes : List Text) (es : List Ewkb), List.Forall₂ EncodedBy hexes es →
        ∀ text ∈ mergers g_srid hexes, (text = [] ↔ linesOf es = [])
          ∧ (linesOf es ≠ [] → Counted (linesOf es) →
            decode (fromHex text) = some ⟨.multiLineString (linesOf es), g_srid.toInt32⟩) := by
  refine ⟨fun coords way hway => ?_, fun hexes text htext => ?_, fun hexes es h text htext => ?_⟩
  · obtain ⟨htext, hclosed⟩ := sameHex_buildWayGeom g_srid coords
    simp only [regional_buildWayGeom_eq, List.mem_cons, List.not_mem_nil, or_false, or_self] at hway
    rw [hway]
    exact ⟨hclosed, htext⟩
  · rw [mergeWayWKB_eq_toHex]
    exact sameHex_mergers htext
  · have hsame := sameHex_mergers htext
    refine ⟨?_, fun hsome hcounted => ?_⟩
    · rw [hsame.eq_nil_iff, toHex_eq_nil, mergedBytes_eq_nil_iff g_srid h]
    · rw [hsame.fromHex_eq, fromHex_toHex, decode_mergedBytes g_srid h hsome,
        Nat.mod_eq_of_lt hcounted, List.take_length]

/-- A line of two points. -/
def shortLine : Ewkb := ⟨sridHeader 3857 2, .lineString [⟨1, 2⟩, ⟨3, 4⟩]⟩

lemma documented_shortLine : shortLine.Documented := by
  refine ⟨rfl, ?_⟩
  change Counted _
  decide

/-- A line in lower case with a digit too many, and a point without an SRID. -/
theorem copies_agree_line_and_point :
    (mergers 3857 [toHexLocal shortLine.write ++ [0x37],
        toHex (Ewkb.write ⟨⟨1, none⟩, .point ⟨1, 2⟩⟩)]).map (fun text => decode (fromHex text))
      = .replicate 3 (some ⟨.multiLineString [[⟨1, 2⟩, ⟨3, 4⟩]], 3857⟩) := by
  have hencoded : List.Forall₂ EncodedBy [toHexLocal shortLine.write ++ [0x37],
      toHex (Ewkb.write ⟨⟨1, none⟩, .point ⟨1, 2⟩⟩)]
      [shortLine, ⟨⟨1, none⟩, .point ⟨1, 2⟩⟩] := by
    refine .cons ⟨by decide +kernel, documented_shortLine, by decide⟩ (.cons ?_ .nil)
    exact ⟨fromHex_toHex _, ⟨rfl, trivial⟩, by decide⟩
  refine List.eq_replicate_iff.mpr ⟨rfl, fun d hd => ?_⟩
  obtain ⟨text, htext, rfl⟩ := List.mem_map.mp hd
  exact (((copies_agree 3857).2.2 _ _ hencoded) text htext).2 (by decide) (by decide)

/-- As many lines as make the count of 32 bits zero. -/
lemma decode_replicated {n : ℕ} (hn : n ≠ 0) (hcount : n % 2 ^ 32 = 0) :
    List.Forall₂ EncodedBy (.replicate n (toHex shortLine.write)) (.replicate n shortLine)
      ∧ linesOf (.replicate n shortLine) ≠ []
      ∧ ∀ text ∈ mergers 3857 (.replicate n (toHex shortLine.write)),
        decode (fromHex text) = some ⟨.multiLineString [], 3857⟩ := by
  have hencoded : List.Forall₂ EncodedBy (.replicate n (toHex shortLine.write))
      (.replicate n shortLine) := by
    refine List.forall₂_iff_get.mpr ⟨by simp, fun i _ _ => ?_⟩
    rw [List.get_eq_getElem, List.get_eq_getElem, List.getElem_replicate, List.getElem_replicate]
    exact ⟨fromHex_toHex _, documented_shortLine, by decide⟩
  have hline : shortLine.line?.map Prod.snd = some [⟨1, 2⟩, ⟨3, 4⟩] := rfl
  have hlines : linesOf (.replicate n shortLine) = .replicate n [⟨1, 2⟩, ⟨3, 4⟩] := by
    rw [linesOf, List.filterMap_replicate, hline]
  have hsome : linesOf (.replicate n shortLine) ≠ [] := by
    rw [hlines]
    simpa using hn
  refine ⟨hencoded, hsome, fun text htext => ?_⟩
  rw [(sameHex_mergers htext).fromHex_eq, fromHex_toHex, decode_mergedBytes 3857 hencoded hsome,
    hlines, List.length_replicate, hcount, List.take_zero]
  rfl

/-- **A count that does not fit**: 2^32 lines are merged, and none is decoded. -/
theorem mergers_lose_lines :
    List.Forall₂ EncodedBy (.replicate (2 ^ 32) (toHex shortLine.write))
        (.replicate (2 ^ 32) shortLine)
      ∧ linesOf (.replicate (2 ^ 32) shortLine) ≠ []
      ∧ ∀ text ∈ mergers 3857 (.replicate (2 ^ 32) (toHex shortLine.write)),
        decode (fromHex text) = some ⟨.multiLineString [], 3857⟩ :=
  decode_replicated (by decide) (by decide)

end Gpsxdb
