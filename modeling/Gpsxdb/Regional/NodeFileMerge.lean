import Mathlib.Tactic
import Gpsxdb.Regional.NodeFileReads

/-!
`RegionalNodeMap::merge` from files to a file.

* `mergeFiles`: the two files are opened, their records merged into a new file
  under the first one's header;
* `RegionalFile`, `SortedFile`: what the inputs are, and what the output is;
  `lookup`: a file as a partial map from ids;
* `mergeFiles_eq`: the output is the file written from the merge of the records;
  `mergeFiles_spec`: **it is sorted, counts its records and answers as the first
  file, or else as the second**;
* `mergeFiles_laws`: **merging on lookups**.
-/

namespace Gpsxdb

namespace OpenNodeMap

/-! ### The header of the output -/

/-- `region_name_`: the name up to its first null byte. -/
def regionName (m : OpenNodeMap) : Text := ((m.data.drop 20).take 24).takeWhile (· ≠ 0)

/-- A float that has been a double in between: a signalling NaN becomes a quiet one. -/
def throughDouble (f : UInt32) : UInt32 :=
  if f &&& 0x7f800000 = 0x7f800000 ∧ f &&& 0x007fffff ≠ 0 then f ||| 0x00400000 else f

/-- One float of the header. -/
def bboxFloat (m : OpenNodeMap) (k : ℕ) : UInt32 :=
  throughDouble (UInt32.ofNat (leValue ((m.data.drop (44 + 4 * k)).take 4)))

/-- `bbox_`, as the writer stores it. -/
def bbox (m : OpenNodeMap) : BboxFloats :=
  ⟨m.bboxFloat 0, m.bboxFloat 1, m.bboxFloat 2, m.bboxFloat 3⟩

/-- The ids of the records ascend. -/
def Ascending (m : OpenNodeMap) : Prop := m.records.Pairwise fun r s => r.id < s.id

end OpenNodeMap

/-- The constructor, in `merge`. -/
def openInput (bytes : List UInt8) : Except MergeFault OpenNodeMap :=
  (openNodeMap bytes).elim (.error .thrown) .ok

/-- `RegionalNodeMap::merge`, every write of which succeeds. -/
def mergeFiles (file_a file_b : List UInt8) (created_at : UInt32) :
    Except MergeFault (List UInt8) := do
  let a ← openInput file_a
  let b ← openInput file_b
  let w ← a.mergeFrom (fun w r => .ok (w.append r)) b 0 0
    (NodeFileWriter.create a.regionName a.bbox created_at)
  .ok w.finalize

/-- A regional node file: one that is accepted, with ascending ids. -/
structure RegionalFile (bytes : List UInt8) : Prop where
  length_lt : bytes.length < 2 ^ 63
  opens : ∃ m, openNodeMap bytes = some m ∧ m.Ascending

/-- A file with ascending ids and a count that is exactly that of its records. -/
def SortedFile (bytes : List UInt8) : Prop :=
  ∃ m, openNodeMap bytes = some m ∧ m.Ascending
    ∧ bytes.length = kHeaderSize + m.record_count * nodeRecordFormat.width

/-- `select` on a file that is opened. -/
def lookup (bytes : List UInt8) (id : ℤ) : Option Coord :=
  (openNodeMap bytes).bind fun m => m.select id

/-! ### Files with ascending ids -/

namespace OpenNodeMap

variable {bytes : List UInt8} {m : OpenNodeMap}

lemma Ascending.lt (h : m.Ascending) {i j : ℕ} (hij : i < j) (hj : j < m.record_count) :
    (m.record i).id < (m.record j).id := by
  have hp := List.pairwise_iff_getElem.mp h i j (by rw [length_records]; omega)
    (by rw [length_records]; omega) hij
  simpa only [records, List.getElem_map, List.getElem_range] using hp

/-- Records past the end of the file would all have the same id. -/
lemma Ascending.inside (h : m.Ascending) (hopen : openNodeMap bytes = some m)
    (hlen : bytes.length < 2 ^ 63) : m.Inside := by
  obtain ⟨rfl, -, -⟩ := of_openNodeMap hopen
  rw [inside_iff_unwrapped hopen hlen]
  by_contra hwrap
  have hcount : 2 ^ 64 ≤ 64 + m.record_count * 24 := not_lt.mp hwrap
  have hpast : ∀ i, 2 ^ 63 ≤ i * 24 → m.record i = nodeRecordFormat.decode [] := by
    intro i hi
    have hlen' : m.data.length ≤ kHeaderSize + i * nodeRecordFormat.width :=
      hlen.le.trans (hi.trans (Nat.le_add_left _ 64))
    rw [record, RecordFormat.recordAt, List.drop_drop, List.drop_eq_nil_of_le hlen', List.take_nil]
  have hlt : (m.record (m.record_count - 2)).id < (m.record (m.record_count - 1)).id :=
    h.lt (by omega) (by omega)
  rw [hpast (m.record_count - 2) (by omega), hpast (m.record_count - 1) (by omega)] at hlt
  exact lt_irrefl _ hlt

lemma isInt64_of_mem_records {r : NodeRecord} (hr : r ∈ m.records) : IsInt64 r.id := by
  obtain ⟨i, -, rfl⟩ := List.mem_map.mp hr
  rw [record, RecordFormat.recordAt, id_decode]
  exact isInt64_ri64 _

/-- The records of a file as a map. -/
def toRegional (m : OpenNodeMap) (h : m.Ascending) : RegionalNodeMap := ⟨m.records, h⟩

/-- **The bytes refine the map**: `select` is the same on both. -/
lemma select_toRegional (h : m.Ascending) (id : ℤ) : (m.toRegional h).select id = m.select id :=
  (m.select_eq id).symm

end OpenNodeMap

/-! ### The output -/

/-- Appends that never fail. -/
lemma foldlM_ok (rs : List NodeRecord) (w : NodeFileWriter) :
    rs.foldlM (fun w r => (.ok (w.append r) : Except MergeFault NodeFileWriter)) w
      = pure (rs.foldl NodeFileWriter.append w) := by
  induction rs generalizing w with
  | nil => rfl
  | cons r rs ih => exact ih (w.append r)

lemma openInput_eq {bytes : List UInt8} {m : OpenNodeMap} (h : openNodeMap bytes = some m) :
    openInput bytes = pure m := by
  rw [openInput, h]
  rfl

/-- **What `merge` writes**: the file of the merged records. -/
lemma mergeFiles_eq {file_a file_b : List UInt8} {a b : OpenNodeMap}
    (ha : openNodeMap file_a = some a) (hb : openNodeMap file_b = some b) (hia : a.Inside)
    (hib : b.Inside) (created_at : UInt32) : mergeFiles file_a file_b created_at
      = .ok (writeNodeFile a.regionName a.bbox created_at
        (mergeBy NodeRecord.id a.records b.records)) := by
  rw [mergeFiles, openInput_eq ha, openInput_eq hb, pure_bind, pure_bind, hia.mergeFrom_eq hib,
    List.drop_zero, List.drop_zero, foldlM_ok]
  rfl

lemma lookup_eq {bytes : List UInt8} {m : OpenNodeMap} (h : openNodeMap bytes = some m) (id : ℤ) :
    lookup bytes id = m.select id := by
  rw [lookup, h, Option.bind_some]

/-- **The output**: a sorted file with a correct count, which answers as the first
input, and where that has no record as the second. -/
lemma mergeFiles_spec {file_a file_b : List UInt8} (ha : RegionalFile file_a)
    (hb : RegionalFile file_b) (created_at : UInt32) :
    ∃ out, mergeFiles file_a file_b created_at = .ok out ∧ SortedFile out
      ∧ ∀ id, lookup out id = (lookup file_a id).or (lookup file_b id) := by
  obtain ⟨a, hopena, hasca⟩ := ha.opens
  obtain ⟨b, hopenb, hascb⟩ := hb.opens
  have hia := hasca.inside hopena ha.length_lt
  have hib := hascb.inside hopenb hb.length_lt
  set rs := mergeBy NodeRecord.id a.records b.records with hrs
  have hvalid : ∀ r ∈ rs, IsInt64 r.id := by
    intro r hr
    rcases (mem_mergeBy hasca hascb).mp hr with h | ⟨h, -⟩
    · exact OpenNodeMap.isInt64_of_mem_records h
    · exact OpenNodeMap.isInt64_of_mem_records h
  -- the output is no longer than both files
  have hlength : 64 + rs.length * 24 < 2 ^ 64 := by
    have hle : rs.length ≤ a.record_count + b.record_count := by
      rw [← a.length_records, ← b.length_records]
      exact length_mergeBy_le _ _
    have hlea : 64 + a.record_count * 24 ≤ a.data.length := hia.le_length
    have hleb : 64 + b.record_count * 24 ≤ b.data.length := hib.le_length
    have hlta := hia.length_lt
    have hltb := hib.length_lt
    omega
  set out := writeNodeFile a.regionName a.bbox created_at rs
  have hopen : openNodeMap out = some ⟨out, rs.length⟩ := openNodeMap_writeNodeFile hlength
  have hrecords : (OpenNodeMap.mk out rs.length).records = rs := records_writeNodeFile hvalid
  have hasc : (OpenNodeMap.mk out rs.length).Ascending := by
    rw [OpenNodeMap.Ascending, hrecords]
    exact pairwise_mergeBy hasca hascb
  refine ⟨out, mergeFiles_eq hopena hopenb hia hib created_at,
    ⟨_, hopen, hasc, length_writeNodeFile⟩, fun id => ?_⟩
  rw [lookup_eq hopen, lookup_eq hopena, lookup_eq hopenb, OpenNodeMap.select_eq, hrecords,
    ← OpenNodeMap.select_toRegional hasca, ← OpenNodeMap.select_toRegional hascb,
    ← RegionalNodeMap.select_merge]
  rfl

/-- **What a writer writes** from ascending records is a regional file. -/
lemma regionalFile_writeNodeFile {region_name : Text} {bbox : BboxFloats} {created_at : UInt32}
    {rs : List NodeRecord} (hvalid : ∀ r ∈ rs, IsInt64 r.id)
    (hasc : rs.Pairwise fun r s => r.id < s.id) (hlen : 64 + rs.length * 24 < 2 ^ 63) :
    RegionalFile (writeNodeFile region_name bbox created_at rs) := by
  refine ⟨length_writeNodeFile.trans_lt hlen, _, openNodeMap_writeNodeFile (by omega), ?_⟩
  rw [OpenNodeMap.Ascending, records_writeNodeFile hvalid]
  exact hasc

/-- A sorted file is a regional file, if it is a file. -/
lemma SortedFile.regionalFile {bytes : List UInt8} (h : SortedFile bytes)
    (hlen : bytes.length < 2 ^ 63) : RegionalFile bytes := by
  obtain ⟨m, hopen, hasc, -⟩ := h
  exact ⟨hlen, m, hopen, hasc⟩

section Laws

variable {file_a file_b file_c : List UInt8} {t t' : UInt32} {out : List UInt8}

/-- Whatever the time of creation, the lookups in the output are those of
`mergeFiles_spec`. -/
lemma lookup_mergeFiles (ha : RegionalFile file_a) (hb : RegionalFile file_b)
    (h : mergeFiles file_a file_b t = .ok out) :
    SortedFile out ∧ ∀ id, lookup out id = (lookup file_a id).or (lookup file_b id) := by
  obtain ⟨out', hout', hsorted, hlookup⟩ := mergeFiles_spec ha hb t
  rw [hout'] at h
  obtain rfl : out' = out := Except.ok.inj h
  exact ⟨hsorted, hlookup⟩

/-- Two files have the same record of every id they share. -/
def Agree (file_a file_b : List UInt8) : Prop :=
  ∀ id c c', lookup file_a id = some c → lookup file_b id = some c' → c = c'

lemma Agree.or_comm (h : Agree file_a file_b) (id : ℤ) :
    (lookup file_a id).or (lookup file_b id) = (lookup file_b id).or (lookup file_a id) := by
  cases hc : lookup file_a id with
  | none => simp
  | some c =>
      cases hc' : lookup file_b id with
      | none => simp
      | some c' => simp [h id c c' hc hc']

end Laws

/-- **Merging.**  Two files with ascending ids are merged into a file with ascending
ids and a correct count, in which a lookup finds the record of the first file, or
else of the second; when the two agree on the ids they share, the order of the
arguments does not matter.  On lookups merging is associative and idempotent. -/
theorem mergeFiles_lookups {file_a file_b file_c : List UInt8} (ha : RegionalFile file_a)
    (hb : RegionalFile file_b) (hc : RegionalFile file_c) :
    (∀ t, ∃ out, mergeFiles file_a file_b t = .ok out ∧ SortedFile out
        ∧ ∀ id, lookup out id = (lookup file_a id).or (lookup file_b id))
      ∧ (Agree file_a file_b → ∀ t t' ab ba, mergeFiles file_a file_b t = .ok ab →
        mergeFiles file_b file_a t' = .ok ba → lookup ab = lookup ba)
      ∧ (∀ t aa, mergeFiles file_a file_a t = .ok aa → lookup aa = lookup file_a)
      ∧ ∀ t₁ t₂ t₃ t₄ ab bc ab_c a_bc, ab.length < 2 ^ 63 → bc.length < 2 ^ 63 →
        mergeFiles file_a file_b t₁ = .ok ab → mergeFiles ab file_c t₂ = .ok ab_c →
        mergeFiles file_b file_c t₃ = .ok bc → mergeFiles file_a bc t₄ = .ok a_bc →
        lookup ab_c = lookup a_bc := by
  refine ⟨fun t => mergeFiles_spec ha hb t, fun hagree t t' ab ba hab hba => funext fun id => ?_,
    fun t aa haa => funext fun id => ?_,
    fun t₁ t₂ t₃ t₄ ab bc ab_c a_bc hlab hlbc hab hab_c hbc ha_bc => funext fun id => ?_⟩
  · rw [(lookup_mergeFiles ha hb hab).2, (lookup_mergeFiles hb ha hba).2, hagree.or_comm]
  · rw [(lookup_mergeFiles ha ha haa).2, Option.or_self]
  · obtain ⟨hsab, hleft⟩ := lookup_mergeFiles ha hb hab
    obtain ⟨hsbc, hright⟩ := lookup_mergeFiles hb hc hbc
    rw [(lookup_mergeFiles (hsab.regionalFile hlab) hc hab_c).2, hleft,
      (lookup_mergeFiles ha (hsbc.regionalFile hlbc) ha_bc).2, hright, Option.or_assoc]

/-- The files of the nodes 1 and 3, and of the nodes 2 and 3. -/
def odd_nodes : List NodeRecord := [⟨1, ⟨100, 200⟩⟩, ⟨3, ⟨300, 400⟩⟩]

/-- See `odd_nodes`. -/
def low_nodes : List NodeRecord := [⟨2, ⟨150, 250⟩⟩, ⟨3, ⟨300, 400⟩⟩]

lemma regionalFile_nodes : RegionalFile (writeNodeFile [] ⟨0, 0, 0, 0⟩ 0 odd_nodes)
    ∧ RegionalFile (writeNodeFile [] ⟨0, 0, 0, 0⟩ 0 low_nodes) :=
  ⟨regionalFile_writeNodeFile (by decide) (by decide) (by decide),
    regionalFile_writeNodeFile (by decide) (by decide) (by decide)⟩

theorem mergeFiles_lookups_nodes :
    ∃ out, mergeFiles (writeNodeFile [] ⟨0, 0, 0, 0⟩ 0 odd_nodes)
      (writeNodeFile [] ⟨0, 0, 0, 0⟩ 0 low_nodes) 0 = .ok out ∧ SortedFile out := by
  obtain ⟨hodd, hlow⟩ := regionalFile_nodes
  obtain ⟨out, hout, hsorted, -⟩ := (mergeFiles_lookups hodd hlow hodd).1 0
  exact ⟨out, hout, hsorted⟩

end Gpsxdb
