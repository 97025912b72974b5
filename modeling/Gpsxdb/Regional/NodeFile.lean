import Mathlib.Tactic
import Gpsxdb.Library.Records
import Gpsxdb.Delta.PointWKB
import Gpsxdb.Regional.NodeMap

/-!
The bytes of a regional node file (`RegionalNodeMap.cpp`).

* `nodeRecordFormat`, `coordFormat`: records of 24 and of 16 bytes;
* `NodeFileWriter`: `RegionalNodeMap::Writer`, with the header that `finalize` fills in;
* `OpenNodeMap`: `parseHeader`, and `select` by bisection on the mapped bytes;
* `openNodeMap_writeNodeFile`: **what was written can be opened**, and its count is
  the number of records; `OpenNodeMap.select_eq`: **the search on the bytes** is the
  search in the records.

A `float` is its bit pattern.
-/

namespace Gpsxdb

/-! ### Records -/

/-- An `int64_t` as it lies in memory. -/
def wi64 (x : ℤ) : List UInt8 := wf64 (UInt64.ofNat (toSize x))

/-- An `int64_t` read from memory. -/
def ri64 (bs : List UInt8) : ℤ := wrapInt64 (leValue bs)

/-- A double read from memory. -/
def rf64 (bs : List UInt8) : Double := UInt64.ofNat (leValue bs)

lemma leValue_wu32 (v : UInt32) : leValue (wu32 v) = v.toNat := by
  have hv := v.toNat_lt
  simp only [wu32, leValue, UInt32.toNat_toUInt8, UInt32.toNat_shiftRight, UInt32.reduceToNat,
    Nat.reduceMod, Nat.shiftRight_eq_div_pow, Nat.reducePow]
  omega

lemma leValue_wf64 (u : Double) : leValue (wf64 u) = u.toNat := by
  have hu := u.toNat_lt
  simp only [wf64, leValue, UInt64.toNat_toUInt8, UInt64.toNat_shiftRight, UInt64.reduceToNat,
    Nat.reduceMod, Nat.shiftRight_eq_div_pow, Nat.reducePow]
  omega

@[simp] lemma rf64_wf64 (u : Double) : rf64 (wf64 u) = u := by
  rw [rf64, leValue_wf64, UInt64.ofNat_toNat]

lemma ri64_wi64 {x : ℤ} (hx : IsInt64 x) : ri64 (wi64 x) = x := by
  obtain ⟨hlo, hhi⟩ := hx
  have hlt : toSize x < 2 ^ 64 := by
    rw [toSize]
    omega
  rw [ri64, wi64, leValue_wf64, UInt64.toNat_ofNat', Nat.mod_eq_of_lt hlt, toSize, wrapInt64,
    Int.toNat_of_nonneg (by omega)]
  exact (Int.emod_bmod x (2 ^ 64)).trans (Int.bmod_eq_of_le (by omega) (by omega))

lemma isInt64_ri64 (bs : List UInt8) : IsInt64 (ri64 bs) := by
  have hle := Int.le_bmod (x := (leValue bs : ℤ)) (m := 2 ^ 64) (by norm_num)
  have hlt := Int.bmod_lt (x := (leValue bs : ℤ)) (m := 2 ^ 64) (by norm_num)
  rw [ri64, wrapInt64, IsInt64]
  norm_num at hle hlt ⊢
  exact ⟨hle, hlt⟩

/-- A record of a regional node file, and of its scratch files. -/
def nodeRecordFormat : RecordFormat UInt8 NodeRecord where
  width := 24
  encode r := wi64 r.id ++ (wf64 r.coord.lon_m ++ wf64 r.coord.lat_m)
  decode bs := ⟨ri64 (bs.take 8), rf64 ((bs.drop 8).take 8), rf64 ((bs.drop 16).take 8)⟩
  valid r := IsInt64 r.id
  width_pos := by decide
  length_encode _ := rfl
  decode_encode := by
    intro r hr
    have hid : (wi64 r.id ++ (wf64 r.coord.lon_m ++ wf64 r.coord.lat_m)).take 8 = wi64 r.id :=
      List.take_left' rfl
    have hlon : ((wi64 r.id ++ (wf64 r.coord.lon_m ++ wf64 r.coord.lat_m)).drop 8).take 8
        = wf64 r.coord.lon_m := rfl
    have hlat : ((wi64 r.id ++ (wf64 r.coord.lon_m ++ wf64 r.coord.lat_m)).drop 16).take 8
        = wf64 r.coord.lat_m := rfl
    rw [hid, hlon, hlat, ri64_wi64 hr, rf64_wf64, rf64_wf64]

lemma id_decode (bs : List UInt8) : (nodeRecordFormat.decode bs).id = ri64 (bs.take 8) := by
  simp only [nodeRecordFormat]

/-- A record of `extra_vertices.bin`. -/
def coordFormat : RecordFormat UInt8 Coord where
  width := 16
  encode c := wf64 c.lon_m ++ wf64 c.lat_m
  decode bs := ⟨rf64 (bs.take 8), rf64 ((bs.drop 8).take 8)⟩
  valid _ := True
  width_pos := by decide
  length_encode _ := rfl
  decode_encode := by
    intro c _
    have hlon : (wf64 c.lon_m ++ wf64 c.lat_m).take 8 = wf64 c.lon_m := rfl
    have hlat : ((wf64 c.lon_m ++ wf64 c.lat_m).drop 8).take 8 = wf64 c.lat_m := rfl
    rw [hlon, hlat, rf64_wf64, rf64_wf64]

/-! ### Writing -/

/-- `Bbox` as the header has it. -/
structure BboxFloats where
  min_lon : UInt32
  min_lat : UInt32
  max_lon : UInt32
  max_lat : UInt32

/-- `RegionalNodeMap::Writer`: what is in the file, and `count_`. -/
structure NodeFileWriter where
  bytes : List UInt8
  count : UInt64

/-- `kMagic`. -/
def kMagic : List UInt8 := ascii "GPSXRNM1"

/-- `kHeaderSize`. -/
def kHeaderSize : ℕ := 64

/-- `name_buf`: at most 23 bytes, null-padded to 24. -/
def nameField (region_name : Text) : List UInt8 :=
  (region_name.take 23 ++ List.replicate 24 0).take 24

/-- The header, with a record count. -/
def nodeFileHeader (region_name : Text) (bbox : BboxFloats) (created_at : UInt32)
    (count : UInt64) : List UInt8 :=
  (kMagic ++ wu32 1) ++ (wf64 count ++ (nameField region_name ++ (wu32 bbox.min_lon
    ++ wu32 bbox.min_lat ++ wu32 bbox.max_lon ++ wu32 bbox.max_lat ++ wu32 created_at)))

namespace NodeFileWriter

/-- The constructor: the header with a count of zero. -/
def create (region_name : Text) (bbox : BboxFloats) (created_at : UInt32) : NodeFileWriter :=
  ⟨nodeFileHeader region_name bbox created_at 0, 0⟩

/-- `append`. -/
def append (w : NodeFileWriter) (r : NodeRecord) : NodeFileWriter :=
  ⟨w.bytes ++ nodeRecordFormat.encode r, w.count + 1⟩

/-- `finalize`: the count is written over the eight bytes at offset 12. -/
def finalize (w : NodeFileWriter) : List UInt8 :=
  w.bytes.take 12 ++ wf64 w.count ++ w.bytes.drop 20

end NodeFileWriter

/-- A file written from records. -/
def writeNodeFile (region_name : Text) (bbox : BboxFloats) (created_at : UInt32)
    (records : List NodeRecord) : List UInt8 :=
  (records.foldl NodeFileWriter.append
    (NodeFileWriter.create region_name bbox created_at)).finalize

/-! ### Reading -/

/-- An opened file: its bytes, and `record_count_`. -/
structure OpenNodeMap where
  data : List UInt8
  record_count : ℕ

/-- The constructor and `parseHeader`; `none` stands for a thrown exception. -/
def openNodeMap (bytes : List UInt8) : Option OpenNodeMap :=
  if bytes.length < kHeaderSize then none
  else if bytes.take 8 ≠ kMagic then none
  else if leValue ((bytes.drop 8).take 4) ≠ 1 then none
  else
    let record_count := leValue ((bytes.drop 12).take 8)
    if wrapSize (kHeaderSize + record_count * nodeRecordFormat.width) > bytes.length then none
    else some ⟨bytes, record_count⟩

namespace OpenNodeMap

/-- The record at an index. -/
def record (m : OpenNodeMap) (i : ℕ) : NodeRecord :=
  nodeRecordFormat.recordAt (m.data.drop kHeaderSize) i

/-- The records of a file. -/
def records (m : OpenNodeMap) : List NodeRecord := (List.range m.record_count).map m.record

/-- `RegionalNodeMap::select` on the bytes. -/
def select (m : OpenNodeMap) (id : ℤ) : Option Coord :=
  let lo := lowerBound (fun mid => (m.record mid).id < id) m.record_count 0 m.record_count
  if m.record_count ≤ lo then none
  else if (m.record lo).id ≠ id then none
  else some (m.record lo).coord

end OpenNodeMap

/-! ### What is read back -/

variable {region_name : Text} {bbox : BboxFloats} {created_at : UInt32}
  {records : List NodeRecord}

lemma length_nameField (region_name : Text) : (nameField region_name).length = 24 := by
  rw [nameField, List.length_take, List.length_append, List.length_replicate]
  omega

lemma length_nodeFileHeader (count : UInt64) :
    (nodeFileHeader region_name bbox created_at count).length = kHeaderSize := by
  simp only [nodeFileHeader, List.length_append, length_nameField]
  rfl

lemma foldl_append_records (w : NodeFileWriter) :
    records.foldl NodeFileWriter.append w
      = ⟨w.bytes ++ records.flatMap nodeRecordFormat.encode,
          w.count + UInt64.ofNat records.length⟩ := by
  induction records generalizing w with
  | nil => simp
  | cons r records ih =>
      rw [List.foldl_cons, ih, NodeFileWriter.append, List.flatMap_cons, List.append_assoc,
        List.length_cons, UInt64.ofNat_add, UInt64.add_assoc, UInt64.add_comm 1]
      rfl

/-- **A written file** is the header with the count, and the records. -/
theorem writeNodeFile_eq : writeNodeFile region_name bbox created_at records
    = nodeFileHeader region_name bbox created_at (UInt64.ofNat records.length)
      ++ records.flatMap nodeRecordFormat.encode := by
  have hoverwrite : ∀ {a b c e : List UInt8} (b' : List UInt8), a.length = 12 → b.length = 8 →
      (a ++ (b ++ c) ++ e).take 12 ++ b' ++ (a ++ (b ++ c) ++ e).drop 20 = a ++ (b' ++ c) ++ e := by
    intro a b c e b' ha hb
    have hab : (a ++ b).length = 20 := by rw [List.length_append, ha, hb]
    have hassoc : a ++ (b ++ c) ++ e = a ++ b ++ (c ++ e) := by simp only [List.append_assoc]
    rw [hassoc, List.drop_left' hab, List.append_assoc a b, List.take_left' ha]
    simp only [List.append_assoc]
  rw [writeNodeFile, foldl_append_records, NodeFileWriter.finalize, NodeFileWriter.create,
    UInt64.zero_add]
  exact hoverwrite _ rfl rfl

lemma length_writeNodeFile : (writeNodeFile region_name bbox created_at records).length
    = kHeaderSize + records.length * nodeRecordFormat.width := by
  rw [writeNodeFile_eq, List.length_append, length_nodeFileHeader,
    nodeRecordFormat.length_flatMap_encode]

/-- **A written file can be opened**, and its count is that of its records. -/
theorem openNodeMap_writeNodeFile (h : 64 + records.length * 24 < 2 ^ 64) :
    openNodeMap (writeNodeFile region_name bbox created_at records)
      = some ⟨writeNodeFile region_name bbox created_at records, records.length⟩ := by
  have hlength : (writeNodeFile region_name bbox created_at records).length
      = kHeaderSize + records.length * nodeRecordFormat.width := length_writeNodeFile
  have hmagic : (writeNodeFile region_name bbox created_at records).take 8 = kMagic := by
    rw [writeNodeFile_eq]
    rfl
  have hversion : ((writeNodeFile region_name bbox created_at records).drop 8).take 4 = wu32 1 := by
    rw [writeNodeFile_eq]
    rfl
  have hcount : ((writeNodeFile region_name bbox created_at records).drop 12).take 8
      = wf64 (UInt64.ofNat records.length) := by
    rw [writeNodeFile_eq]
    rfl
  have hvalue : leValue (wf64 (UInt64.ofNat records.length)) = records.length := by
    rw [leValue_wf64, UInt64.toNat_ofNat', Nat.mod_eq_of_lt (by omega)]
  have hwidth : nodeRecordFormat.width = 24 := rfl
  have hheader : kHeaderSize = 64 := rfl
  rw [openNodeMap, if_neg (by omega), if_neg (not_not.mpr hmagic), hversion,
    if_neg (by rw [leValue_wu32]; decide), hcount, hvalue, hlength]
  dsimp only
  rw [wrapSize_of_lt (by rw [hwidth, hheader]; exact h), if_neg (lt_irrefl _)]

/-- The records of a written file. -/
lemma record_writeNodeFile (hvalid : ∀ r ∈ records, IsInt64 r.id) {n i : ℕ}
    (hi : i < records.length) :
    (OpenNodeMap.mk (writeNodeFile region_name bbox created_at records) n).record i
      = records[i] := by
  have hdata : (writeNodeFile region_name bbox created_at records).drop kHeaderSize
      = records.flatMap nodeRecordFormat.encode := by
    rw [writeNodeFile_eq]
    exact List.drop_left' (length_nodeFileHeader _)
  rw [OpenNodeMap.record, hdata]
  exact RecordFormat.recordAt_flatMap_encode hvalid hi

/-- The records of a written file are the ones it was written from. -/
lemma records_writeNodeFile (hvalid : ∀ r ∈ records, IsInt64 r.id) :
    (OpenNodeMap.mk (writeNodeFile region_name bbox created_at records) records.length).records
      = records := by
  refine List.ext_getElem (by simp [OpenNodeMap.records]) fun i _ hi => ?_
  simp only [OpenNodeMap.records, List.getElem_map, List.getElem_range]
  exact record_writeNodeFile hvalid hi

@[simp] lemma OpenNodeMap.length_records (m : OpenNodeMap) :
    m.records.length = m.record_count := by
  rw [OpenNodeMap.records, List.length_map, List.length_range]

/-- **The search on the bytes** is the search in the records. -/
theorem OpenNodeMap.select_eq (m : OpenNodeMap) (id : ℤ) :
    m.select id = (searchBy NodeRecord.id m.records id).map NodeRecord.coord := by
  have hrecord : ∀ i (hi : i < m.records.length), m.records[i] = m.record i := by
    intro i hi
    simp [OpenNodeMap.records]
  have hbelow : ∀ j (hj : j < m.records.length),
      decide ((m.record j).id < id) = true ↔ m.records[j].id < id := by
    intro j hj
    rw [hrecord j hj, decide_eq_true_iff]
  refine Option.ext fun c => ?_
  rw [Option.map_eq_some_iff, OpenNodeMap.select, ← m.length_records]
  simp only [searchBy_eq_some_iff_getElem? hbelow]
  generalize lowerBound _ m.records.length 0 m.records.length = lo
  by_cases hlo : lo < m.records.length
  · rw [if_neg (not_le.mpr hlo), ← hrecord lo hlo, List.getElem?_eq_getElem hlo]
    by_cases hid : m.records[lo].id = id
    · simp [hid]
    · simp [hid]
  · rw [if_pos (not_lt.mp hlo), List.getElem?_eq_none (not_lt.mp hlo)]
    simp

/-- The search in a written file. -/
theorem select_writeNodeFile (hvalid : ∀ r ∈ records, IsInt64 r.id) (id : ℤ) :
    (OpenNodeMap.mk (writeNodeFile region_name bbox created_at records) records.length).select id
      = (searchBy NodeRecord.id records id).map NodeRecord.coord := by
  rw [OpenNodeMap.select_eq, records_writeNodeFile hvalid]

end Gpsxdb
