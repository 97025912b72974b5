import Mathlib.Tactic
import Gpsxdb.NodeStore.Scans
import Gpsxdb.Export.NodeExport
import Gpsxdb.Export.PairChunks
import Gpsxdb.Regional.NodeFileReads

/-!
The node files that `regional_export` writes.

* `carriesBit`: the nodes that a region has as extra vertices;
* `chunkPass_files`: what the workers leave in a scratch file, under every schedule;
* `flatMap_chunks`: **the chunks together are one scan** of the bitmap;
* `merged_nodes`: the file of each region after the merge;
* `staleRecords`, `NoStaleRecords`: what earlier runs have left in the scratch files of empty
  chunks; `nodes_of_exportNodes`: a file is a scan of the store, filtered, and these;
* `IsSlice`, `regional_export_slice_iff`: **a region's file answers as the store does**, for
  the nodes that match the region or carry its bit, exactly if there are no stale records;
  `stale_records_hide_node`.
-/

namespace Gpsxdb

namespace NodeExport

open PairExport (regionBit)

variable {G : Type} {cfg : NodeExport G}

/-! ### Scratch files -/

/-- **Scratch files have different names.** -/
lemma path_inj {ci ci' ri ri' : ℕ} (hri : ri < cfg.regions.length)
    (hri' : ri' < cfg.regions.length) (h : cfg.path ci ri = cfg.path ci' ri') :
    ci = ci' ∧ ri = ri' := by
  have hlist := congrArg String.toList h
  simp only [path, String.toList_append, Nat.toString_eq_repr, Nat.toList_repr,
    List.append_left_inj] at hlist
  simp only [List.append_assoc, List.append_right_inj] at hlist
  obtain ⟨hname, hnum⟩ := append_separator_inj (Nat.underscore_not_in_toDigits)
    (Nat.underscore_not_in_toDigits) hlist
  refine ⟨?_, ?_⟩
  · rw [← Nat.ofDigitChars_ten_toDigits (n := ci), hnum, Nat.ofDigitChars_ten_toDigits]
  · exact RegionEntry.getD_name_inj cfg.nodup_names hri hri' (String.toList_injective hname)

/-- A coordinate carries a region's extra-vertex bit. -/
def carriesBit (cfg : NodeExport G) (c : Coord) (ri : ℕ) : Bool :=
  match cfg.extra_vertices c with
  | some mask => mask.getLsbD ri
  | none => false

/-- A node goes into a region's file. -/
def selected (cfg : NodeExport G) (ri : ℕ) (node : ℤ × Coord) : Bool :=
  cfg.nodeMatches node.2 ri || cfg.carriesBit node.2 ri

/-- The record of a node. -/
def nodeRecord (node : ℤ × Coord) : NodeRecord := ⟨node.1, node.2⟩

lemma getLsbD_polymask (hregions : cfg.regions.length ≤ 32) (c : Coord) {ri : ℕ}
    (hri : ri < cfg.regions.length) : (cfg.polymask c).getLsbD ri = cfg.nodeMatches c ri := by
  rw [polymask, PairExport.getLsbD_foldl_regionBit _ hregions (by omega)]
  simp [hri]

/-- The operations on one file in a loop over the regions. -/
lemma filter_regions {ci ri : ℕ} (hri : ri < cfg.regions.length) (bytes : List UInt8)
    (p : ℕ → Prop) [DecidablePred p] :
    ((List.range cfg.regions.length).flatMap fun i =>
        if p i then [FileOp.append (cfg.path ci i) bytes] else []).filter
          (fun op => op.path = cfg.path ci ri)
      = if p ri then [.append (cfg.path ci ri) bytes] else [] := by
  have hfilter : ∀ i, (if p i then [FileOp.append (cfg.path ci i) bytes] else []).filter
      (fun op => op.path = cfg.path ci ri)
        = if p i ∧ cfg.path ci i = cfg.path ci ri then [.append (cfg.path ci i) bytes] else [] := by
    intro i
    by_cases hp : p i
    · by_cases hpath : cfg.path ci i = cfg.path ci ri <;> simp [hp, hpath, FileOp.path]
    · simp [hp]
  rw [List.filter_flatMap, flatMap_range_single hri]
  · rw [hfilter]
    simp
  · intro i hi hne
    rw [hfilter, if_neg]
    rintro ⟨-, hpath⟩
    exact hne (path_inj hi hri hpath).2

/-- **A node is written once** to the file of each region that selects it. -/
lemma filter_visitNode (hregions : cfg.regions.length ≤ 32) {ci ri : ℕ}
    (hri : ri < cfg.regions.length) (node : ℤ × Coord) :
    (cfg.visitNode ci node).filter (fun op => op.path = cfg.path ci ri)
      = if cfg.selected ri node then
          [.append (cfg.path ci ri) (nodeRecordFormat.encode (nodeRecord node))]
        else [] := by
  obtain ⟨id, c⟩ := node
  rw [visitNode]
  dsimp only
  rw [List.filter_append, filter_regions hri _ fun i => cfg.nodeMatches c i = true]
  have hpoly := getLsbD_polymask hregions c hri
  cases hextra : cfg.extra_vertices c with
  | none => simp [selected, carriesBit, hextra, nodeRecord]
  | some mask =>
      -- the extra vertices are those that the polygon test has not found
      have hbit : (mask &&& ~~~cfg.polymask c).getLsbD ri
          = (mask.getLsbD ri && !cfg.nodeMatches c ri) := by
        rw [BitVec.getLsbD_and, BitVec.getLsbD_not, hpoly]
        simp [show ri < 32 by omega]
      dsimp only
      have hextra_only : (if mask &&& ~~~cfg.polymask c = 0#32 then []
          else (List.range cfg.regions.length).flatMap fun i =>
            if mask &&& ~~~cfg.polymask c &&& regionBit i ≠ 0#32 then
              [FileOp.append (cfg.path ci i) (nodeRecordFormat.encode ⟨id, c⟩)]
            else []).filter (fun op => op.path = cfg.path ci ri)
          = if mask.getLsbD ri && !cfg.nodeMatches c ri then
              [.append (cfg.path ci ri) (nodeRecordFormat.encode ⟨id, c⟩)]
            else [] := by
        by_cases hzero : mask &&& ~~~cfg.polymask c = 0#32
        · rw [if_pos hzero, ← hbit, hzero]
          simp
        · rw [if_neg hzero, filter_regions hri _ fun i =>
            mask &&& ~~~cfg.polymask c &&& regionBit i ≠ 0#32]
          simp only [PairExport.and_regionBit_ne_zero (show ri < 32 by omega), hbit]
      rw [hextra_only]
      cases hmatch : cfg.nodeMatches c ri <;> cases hb : mask.getLsbD ri <;>
        simp [selected, carriesBit, hextra, nodeRecord, hmatch, hb]

/-- The nodes of a chunk. -/
def chunkNodes (cfg : NodeExport G) (ci : ℕ) : List (ℤ × Coord) :=
  cfg.osmmap.forEachPopulatedRange (ci * cfg.chunk)
    (min (ci * cfg.chunk + cfg.chunk) cfg.real_data_bytes)

/-- The operations of a worker on one of its chunk's files. -/
lemma filter_chunkWorker (hregions : cfg.regions.length ≤ 32) {ci ri : ℕ}
    (hri : ri < cfg.regions.length) :
    (cfg.chunkWorker ci).filter (fun op => op.path = cfg.path ci ri)
      = if ci * cfg.chunk ≥ min (ci * cfg.chunk + cfg.chunk) cfg.real_data_bytes then []
        else .create (cfg.path ci ri)
          :: (((cfg.chunkNodes ci).filter (cfg.selected ri)).map
            fun node => nodeRecordFormat.encode (nodeRecord node)).map
              (.append (cfg.path ci ri)) := by
  have hcreate : ((List.range cfg.regions.length).map fun i =>
      FileOp.create (β := UInt8) (cfg.path ci i)).filter (fun op => op.path = cfg.path ci ri)
        = [.create (cfg.path ci ri)] := by
    have hcomp : ((fun op : FileOp String UInt8 => decide (op.path = cfg.path ci ri))
        ∘ fun i => FileOp.create (cfg.path ci i))
        = fun i => decide (cfg.path ci i = cfg.path ci ri) :=
      rfl
    rw [List.filter_map, hcomp]
    have hone : ((List.range cfg.regions.length).filter fun i =>
        cfg.path ci i = cfg.path ci ri) = [ri] := by
      rw [← filter_range_eq hri]
      refine List.filter_congr fun i hi => decide_eq_decide.mpr ⟨fun h => ?_, fun h => h ▸ rfl⟩
      exact (path_inj (List.mem_range.mp hi) hri h).2
    rw [hone, List.map_singleton]
  have hnodes : ∀ nodes : List (ℤ × Coord),
      (nodes.flatMap (cfg.visitNode ci)).filter (fun op => op.path = cfg.path ci ri)
        = ((nodes.filter (cfg.selected ri)).map
            fun node => nodeRecordFormat.encode (nodeRecord node)).map
              (.append (cfg.path ci ri)) := by
    intro nodes
    induction nodes with
    | nil => rfl
    | cons node nodes ih =>
        rw [List.flatMap_cons, List.filter_append, ih, filter_visitNode hregions hri,
          List.filter_cons]
        split <;> rfl
  rw [chunkWorker]
  split
  · rfl
  · rw [List.filter_append, hcreate, hnodes, List.singleton_append, chunkNodes]

/-- An operation of a worker is on a file of its chunk. -/
lemma path_of_mem_chunkWorker {ci : ℕ} {op : FileOp String UInt8}
    (hop : op ∈ cfg.chunkWorker ci) : ∃ ri < cfg.regions.length, op.path = cfg.path ci ri := by
  rw [chunkWorker] at hop
  split at hop
  · simp at hop
  · rcases List.mem_append.mp hop with hop | hop
    · obtain ⟨ri, hri, rfl⟩ := List.mem_map.mp hop
      exact ⟨ri, List.mem_range.mp hri, rfl⟩
    · obtain ⟨node, -, hop⟩ := List.mem_flatMap.mp hop
      have hregion : ∀ (p : ℕ → Prop) [DecidablePred p] (bytes : List UInt8),
          (op ∈ (List.range cfg.regions.length).flatMap fun i =>
            if p i then [FileOp.append (cfg.path ci i) bytes] else []) →
          ∃ ri < cfg.regions.length, op.path = cfg.path ci ri := by
        intro p _ bytes hop
        obtain ⟨ri, hri, hop⟩ := List.mem_flatMap.mp hop
        split at hop
        · obtain rfl := List.mem_singleton.mp hop
          exact ⟨ri, List.mem_range.mp hri, rfl⟩
        · simp at hop
      rw [visitNode] at hop
      dsimp only at hop
      rcases List.mem_append.mp hop with hop | hop
      · exact hregion _ _ hop
      · split at hop
        · simp at hop
        · split at hop
          · simp at hop
          · exact hregion _ _ hop

/-- **What the workers leave in a scratch file.** -/
theorem chunkPass_files (hregions : cfg.regions.length ≤ 32)
    {files : String → Option (List UInt8)} {schedule : List (Fin cfg.nthreads)}
    (hfin : (cfg.chunkPass files schedule).Finished) {ci ri : ℕ}
    (hci : ci < cfg.nchunks.toNat) (hri : ri < cfg.regions.length) :
    (cfg.chunkPass files schedule).shared (cfg.path ci ri)
      = if ci * cfg.chunk ≥ min (ci * cfg.chunk + cfg.chunk) cfg.real_data_bytes then
          files (cfg.path ci ri)
        else some ((((cfg.chunkNodes ci).filter (cfg.selected ri)).map nodeRecord).flatMap
          nodeRecordFormat.encode) := by
  have hk : 0 < cfg.nthreads := by
    rw [nthreads]
    omega
  obtain ⟨trace, htrace, hshared⟩ := WorkPool.exists_shuffle hk hfin
  have hother : ∀ j < cfg.nchunks.toNat, j ≠ ci → ∀ op ∈ cfg.chunkWorker j,
      op.path ≠ cfg.path ci ri := by
    intro j _ hj op hop hpath
    obtain ⟨i, hi, hop⟩ := path_of_mem_chunkWorker hop
    exact hj (path_inj hi hri (hop.symm.trans hpath)).1
  rw [chunkPass, hshared, htrace.foldl_act hci hother, filter_chunkWorker hregions hri]
  split
  · rfl
  · rw [FileOp.foldl_create_append, List.flatMap_map]
    rfl

/-! ### The scan -/

lemma real_data_bytes_le : cfg.real_data_bytes ≤ cfg.osmmap.bmp.size := by
  rw [real_data_bytes]
  split
  · exact le_rfl
  · exact min_le_left _ _

/-- The populated ids have their bits in the scanned bytes. -/
lemma lt_real_data_bytes {i : ℕ} (hi : cfg.osmmap.populated i = true) :
    i / 8 < cfg.real_data_bytes := by
  have hlt := NodeFiles.lt_bmp_of_populated hi
  have hentry : cfg.osmmap.entry i ≠ none := by
    rw [ne_eq, NodeFiles.entry_eq_none_iff, hi]
    simp
  rw [real_data_bytes]
  obtain ⟨-, hnone⟩ | ⟨m, hm, -, hmax⟩ := OSMMMap.highestPopulatedId_spec cfg.osmmap
  · exact absurd (hnone i) hentry
  · have hle := hmax i hentry
    rw [hm, if_neg (by omega)]
    omega

/-- The chunks reach over the scanned bytes. -/
lemma real_data_bytes_le_mul (hn : 0 < cfg.nchunks) :
    cfg.real_data_bytes ≤ cfg.nchunks.toNat * cfg.chunk := by
  have hpos : 0 < cfg.nchunks.toNat := by omega
  have hlt := Nat.lt_mul_div_succ (cfg.real_data_bytes + cfg.nchunks.toNat - 1) hpos
  rw [mul_add, mul_one] at hlt
  rw [chunk]
  omega

/-- **The chunks together are one scan** of the bitmap. -/
theorem flatMap_chunks (hn : 0 < cfg.nchunks) :
    (List.range cfg.nchunks.toNat).flatMap cfg.chunkNodes
      = cfg.osmmap.forEachPopulatedRange 0 cfg.real_data_bytes := by
  have hreal : cfg.real_data_bytes ≤ cfg.osmmap.bmp.size := real_data_bytes_le
  have hchunk : ∀ ci, cfg.chunkNodes ci = (List.range' (ci * cfg.chunk)
      (min (ci * cfg.chunk + cfg.chunk) cfg.real_data_bytes - ci * cfg.chunk)).flatMap
        cfg.osmmap.visitByte := by
    intro ci
    rw [chunkNodes, OSMMMap.forEachPopulatedRange, min_assoc, min_eq_left hreal]
  rw [List.flatMap_congr fun ci _ => hchunk ci, ← List.flatMap_assoc, flatMap_range_windows,
    min_eq_right (real_data_bytes_le_mul hn), OSMMMap.forEachPopulatedRange, min_eq_left hreal,
    Nat.sub_zero]

/-! ### The merge -/

/-- A chunk without bytes; the chunks are rounded up, so the last ones may be. -/
def EmptyChunk (cfg : NodeExport G) (ci : ℕ) : Prop :=
  ci * cfg.chunk ≥ min (ci * cfg.chunk + cfg.chunk) cfg.real_data_bytes

instance (ci : ℕ) : Decidable (cfg.EmptyChunk ci) := inferInstanceAs (Decidable (_ ≤ _))

/-- The records that an earlier run has left in the scratch file of an empty chunk. -/
def staleIn (cfg : NodeExport G) (d : NodeExportDir) (ri ci : ℕ) : List NodeRecord :=
  if cfg.EmptyChunk ci then nodeRecordFormat.readRecords ((d.scratch (cfg.path ci ri)).getD [])
  else []

/-- Those of all chunks. -/
def staleRecords (cfg : NodeExport G) (d : NodeExportDir) (ri : ℕ) : List NodeRecord :=
  (List.range cfg.nchunks.toNat).flatMap (cfg.staleIn d ri)

/-- **No stale records**: no worker opens the scratch files of an empty chunk, which the merge
reads all the same; an earlier run has left no whole record in them. -/
def NoStaleRecords (cfg : NodeExport G) (d : NodeExportDir) (ri : ℕ) : Prop :=
  ∀ ci < cfg.nchunks.toNat, cfg.EmptyChunk ci →
    nodeRecordFormat.readRecords ((d.scratch (cfg.path ci ri)).getD []) = []

/-- The records that a region is to get. -/
def sliceRecords (cfg : NodeExport G) (ri : ℕ) : List NodeRecord :=
  ((cfg.osmmap.forEachPopulatedRange 0 cfg.real_data_bytes).filter (cfg.selected ri)).map
    nodeRecord

/-- A region's file, from its records. -/
def nodesFile (cfg : NodeExport G) (ri : ℕ) (records : List NodeRecord) : List UInt8 :=
  writeNodeFile (ascii ((cfg.regions.map RegionEntry.name).getD ri "")) (cfg.wgs84_bboxes ri)
    (cfg.created_at ri) records

/-- The ids of a slice are those of the store. -/
lemma mem_sliceRecords (hb : cfg.osmmap.bmp.size ≤ 2 ^ 60) {ri : ℕ} {id : ℤ} {c : Coord} :
    ⟨id, c⟩ ∈ cfg.sliceRecords ri ↔ IsInt64 id ∧ cfg.osmmap.select id = some c
      ∧ (cfg.nodeMatches c ri = true ∨ cfg.carriesBit c ri = true) := by
  have hmem : ⟨id, c⟩ ∈ cfg.sliceRecords ri
      ↔ (id, c) ∈ cfg.osmmap.forEachPopulatedRange 0 cfg.real_data_bytes
        ∧ (cfg.nodeMatches c ri = true ∨ cfg.carriesBit c ri = true) := by
    rw [sliceRecords, List.mem_map]
    constructor
    · rintro ⟨⟨id', c'⟩, hnode, heq⟩
      obtain ⟨rfl, rfl⟩ := NodeRecord.mk.inj heq
      obtain ⟨hscan, hsel⟩ := List.mem_filter.mp hnode
      exact ⟨hscan, by simpa [selected] using hsel⟩
    · rintro ⟨hscan, hsel⟩
      exact ⟨(id, c), List.mem_filter.mpr ⟨hscan, by simpa [selected] using hsel⟩, rfl⟩
  rw [hmem, OSMMMap.mem_forEachPopulatedRange_iff_select hb, ← and_assoc]
  refine and_congr_left fun _ => ?_
  constructor
  · rintro ⟨i, rfl, -, hi, hsel⟩
    exact ⟨⟨by omega, by omega⟩, hsel⟩
  · rintro ⟨hid, hsel⟩
    obtain ⟨i, rfl, hp⟩ := OSMMMap.populated_of_select hb hid hsel
    refine ⟨i, rfl, Nat.zero_le _, ?_, hsel⟩
    rw [min_eq_left real_data_bytes_le]
    exact lt_real_data_bytes hp

/-- A slice is ascending. -/
lemma pairwise_sliceRecords (cfg : NodeExport G) (ri : ℕ) :
    (cfg.sliceRecords ri).Pairwise fun a b => a.id < b.id :=
  List.pairwise_map.mpr ((cfg.osmmap.pairwise_forEachPopulatedRange _ _).filter _)

/-- Chunks behind an empty one are empty. -/
lemma EmptyChunk.mono {ci cj : ℕ} (h : cfg.EmptyChunk ci) (hle : ci ≤ cj) : cfg.EmptyChunk cj := by
  have hmul : ci * cfg.chunk ≤ cj * cfg.chunk := Nat.mul_le_mul_right _ hle
  unfold EmptyChunk at h ⊢
  omega

/-- No node is in an empty chunk. -/
lemma chunkNodes_eq_nil {ci : ℕ} (h : cfg.EmptyChunk ci) : cfg.chunkNodes ci = [] := by
  unfold EmptyChunk at h
  rw [chunkNodes, OSMMMap.forEachPopulatedRange,
    show min (min (ci * cfg.chunk + cfg.chunk) cfg.real_data_bytes) cfg.osmmap.bmp.size
      - ci * cfg.chunk = 0 by omega]
  rfl

lemma noStaleRecords_iff {d : NodeExportDir} {ri : ℕ} :
    cfg.NoStaleRecords d ri ↔ cfg.staleRecords d ri = [] := by
  rw [staleRecords, List.flatMap_eq_nil_iff]
  refine forall_congr' fun ci => ?_
  rw [List.mem_range, staleIn]
  refine imp_congr_right fun _ => ?_
  by_cases hempty : cfg.EmptyChunk ci <;> simp [hempty]

/-- What comes with the last parts of a list is behind all parts. -/
lemma flatMap_range_append {α : Type} {f g : ℕ → List α}
    (h : ∀ ci cj, ci < cj → g ci ≠ [] → f cj = []) (n : ℕ) :
    (List.range n).flatMap (fun ci => f ci ++ g ci)
      = (List.range n).flatMap f ++ (List.range n).flatMap g := by
  induction n with
  | zero => rfl
  | succ n ih =>
      have hswap : (List.range n).flatMap g ++ f n = f n ++ (List.range n).flatMap g := by
        by_cases hnil : (List.range n).flatMap g = []
        · rw [hnil, List.append_nil, List.nil_append]
        · rw [List.flatMap_eq_nil_iff] at hnil
          push Not at hnil
          obtain ⟨ci, hci, hne⟩ := hnil
          rw [h ci n (List.mem_range.mp hci) hne, List.append_nil, List.nil_append]
      simp only [List.range_succ, List.flatMap_append, List.flatMap_singleton, ih]
      rw [List.append_assoc, ← List.append_assoc _ (f n), hswap]
      simp only [List.append_assoc]

/-- **The records in a region's scratch files**: its slice, and what earlier runs have left in
the files of empty chunks. -/
lemma flatMap_readRecords (hregions : cfg.regions.length ≤ 32)
    (hb : cfg.osmmap.bmp.size ≤ 2 ^ 60) (hn : 0 < cfg.nchunks) {d : NodeExportDir}
    {schedule : List (Fin cfg.nthreads)} (hfin : (cfg.chunkPass d.scratch schedule).Finished)
    {ri : ℕ} (hri : ri < cfg.regions.length) :
    ((List.range cfg.nchunks.toNat).flatMap fun ci => nodeRecordFormat.readRecords
        (((cfg.chunkPass d.scratch schedule).shared (cfg.path ci ri)).getD []))
      = cfg.sliceRecords ri ++ cfg.staleRecords d ri := by
  have hchunk : ∀ ci < cfg.nchunks.toNat, nodeRecordFormat.readRecords
      (((cfg.chunkPass d.scratch schedule).shared (cfg.path ci ri)).getD [])
        = ((cfg.chunkNodes ci).filter (cfg.selected ri)).map nodeRecord ++ cfg.staleIn d ri ci := by
    intro ci hci
    have hfile := chunkPass_files hregions hfin hci hri
    rw [staleIn]
    by_cases hempty : cfg.EmptyChunk ci
    · rw [hfile.trans (if_pos hempty), if_pos hempty, chunkNodes_eq_nil hempty]
      rfl
    · rw [hfile.trans (if_neg hempty), if_neg hempty, List.append_nil, Option.getD_some]
      refine RecordFormat.readRecords_flatMap_encode fun r hr => ?_
      obtain ⟨⟨id, c⟩, hnode, rfl⟩ := List.mem_map.mp hr
      obtain ⟨i, hid, -, hi, -⟩ := (OSMMMap.mem_forEachPopulatedRange_iff_select hb).mp
        (List.mem_of_mem_filter hnode)
      have hlt : IsInt64 id := ⟨by omega, by omega⟩
      exact hlt
  have hbehind : ∀ ci cj, ci < cj → cfg.staleIn d ri ci ≠ [] →
      ((cfg.chunkNodes cj).filter (cfg.selected ri)).map nodeRecord = [] := by
    intro ci cj hlt hne
    have hempty : cfg.EmptyChunk ci := by
      by_contra hfull
      exact hne (if_neg hfull)
    rw [chunkNodes_eq_nil (hempty.mono hlt.le)]
    rfl
  rw [List.flatMap_congr fun ci hci => hchunk ci (List.mem_range.mp hci),
    flatMap_range_append hbehind, ← List.map_flatMap, ← List.filter_flatMap, flatMap_chunks hn]
  rfl

/-- The merge of a region reads and takes away its own files. -/
lemma mergeRegion_eq {ri : ℕ} (hri : ri < cfg.regions.length) (d : NodeExportDir) :
    cfg.mergeRegion d ri
      = { scratch := fun p =>
            if p ∈ (List.range cfg.nchunks.toNat).map fun ci => cfg.path ci ri then none
            else d.scratch p
          nodes := Function.update d.nodes ri (some (writeNodeFile
            (ascii ((cfg.regions.map RegionEntry.name).getD ri "")) (cfg.wgs84_bboxes ri)
            (cfg.created_at ri) ((List.range cfg.nchunks.toNat).flatMap fun ci =>
              nodeRecordFormat.readRecords ((d.scratch (cfg.path ci ri)).getD [])))) } := by
  have hnd : ((List.range cfg.nchunks.toNat).map fun ci => cfg.path ci ri).Nodup :=
    List.Nodup.map_on (fun ci _ ci' _ h => (path_inj hri hri h).1) List.nodup_range
  rw [mergeRegion, foldl_unlink (fun b => nodeRecordFormat.readRecords (b.getD [])) hnd,
    List.nil_append, List.flatMap_map]

/-- **The merge of all regions.** -/
theorem merged_nodes (d : NodeExportDir) {ri : ℕ} (hri : ri < cfg.regions.length) :
    ((List.range cfg.regions.length).foldl cfg.mergeRegion d).nodes ri
      = some (writeNodeFile (ascii ((cfg.regions.map RegionEntry.name).getD ri ""))
          (cfg.wgs84_bboxes ri) (cfg.created_at ri)
          ((List.range cfg.nchunks.toNat).flatMap fun ci =>
            nodeRecordFormat.readRecords ((d.scratch (cfg.path ci ri)).getD []))) := by
  have hall : ∀ k ≤ cfg.regions.length,
      (∀ ci i, k ≤ i → i < cfg.regions.length →
        ((List.range k).foldl cfg.mergeRegion d).scratch (cfg.path ci i)
          = d.scratch (cfg.path ci i))
      ∧ ∀ i < k, ((List.range k).foldl cfg.mergeRegion d).nodes i
        = some (writeNodeFile (ascii ((cfg.regions.map RegionEntry.name).getD i ""))
            (cfg.wgs84_bboxes i) (cfg.created_at i)
            ((List.range cfg.nchunks.toNat).flatMap fun ci =>
              nodeRecordFormat.readRecords ((d.scratch (cfg.path ci i)).getD []))) := by
    intro k
    induction k with
    | zero => exact fun _ => ⟨fun _ _ _ _ => rfl, fun i hi => absurd hi (Nat.not_lt_zero i)⟩
    | succ k ih =>
        intro hk
        obtain ⟨hscratch, hnodes⟩ := ih (by omega)
        rw [List.range_succ, List.foldl_append, List.foldl_cons, List.foldl_nil,
          mergeRegion_eq (by omega)]
        constructor
        · intro ci i hki hi
          have hnot : cfg.path ci i
              ∉ (List.range cfg.nchunks.toNat).map fun ci => cfg.path ci k := by
            intro hmem
            obtain ⟨cj, -, hpath⟩ := List.mem_map.mp hmem
            have heq := (path_inj (by omega) hi hpath).2
            omega
          dsimp only
          rw [if_neg hnot, hscratch ci i (by omega) hi]
        · intro i hi
          dsimp only
          by_cases hik : i = k
          · subst hik
            rw [Function.update_self]
            simp only [hscratch _ i le_rfl hk]
          · rw [Function.update_of_ne hik, hnodes i (by omega)]
  exact (hall _ le_rfl).2 ri hri

/-! ### Slices -/

/-- Where there are fewer than `2 ^ 28` threads there is a chunk. -/
lemma nchunks_pos (hthreads : cfg.threads < 2 ^ 28) : 0 < cfg.nchunks := by
  have hnt : (cfg.nthreads : ℤ) < 2 ^ 28 := by
    rw [nthreads]
    omega
  rw [nchunks, wrapInt32, kChunksPerThread, Int.bmod_eq_of_le (by omega) (by omega)]
  omega

/-- **The pool can always be run to its end.** -/
lemma exists_exportNodes (d : NodeExportDir) (hn : 0 < cfg.nchunks) :
    ∃ schedule, (cfg.exportNodes d schedule).isSome := by
  obtain ⟨schedule, hfin⟩ := WorkPool.exists_finished FileOp.act cfg.nchunks.toNat
    cfg.chunkWorker (WorkPool.start cfg.nthreads d.scratch)
  have hpool : (cfg.chunkPass d.scratch schedule).hasFinished = true :=
    (WorkPool.hasFinished_iff _).mpr hfin
  exact ⟨schedule, by simp [exportNodes, not_le.mpr hn, hpool]⟩

/-- **What a run leaves for a region**: its slice of the store, and the stale records. -/
theorem nodes_of_exportNodes (hregions : cfg.regions.length ≤ 32)
    (hb : cfg.osmmap.bmp.size ≤ 2 ^ 60) {d d' : NodeExportDir}
    {schedule : List (Fin cfg.nthreads)} (h : cfg.exportNodes d schedule = some d') {ri : ℕ}
    (hri : ri < cfg.regions.length) :
    d'.nodes ri = some (cfg.nodesFile ri (cfg.sliceRecords ri ++ cfg.staleRecords d ri)) := by
  rw [exportNodes] at h
  split at h
  · simp at h
  · rename_i hn
    dsimp only at h
    split at h
    · rename_i hfin
      obtain rfl := Option.some.inj h
      rw [merged_nodes _ hri]
      dsimp only
      rw [flatMap_readRecords hregions hb (not_le.mp hn)
        ((WorkPool.hasFinished_iff _).mp hfin) hri, nodesFile]
    · simp at h

/-- A list of ascending naturals below a bound is no longer than the bound. -/
lemma length_le_of_ascending {l : List NodeRecord} {n : ℕ}
    (hl : l.Pairwise fun a b => a.id < b.id) (hlt : ∀ r ∈ l, 0 ≤ r.id ∧ r.id < n) :
    l.length ≤ n := by
  have hnd : (l.map fun r => r.id).Nodup :=
    List.pairwise_map.mpr (hl.imp fun h => h.ne)
  have hsub : (l.map fun r => r.id).toFinset ⊆ Finset.Ico 0 (n : ℤ) := by
    intro x hx
    obtain ⟨r, hr, rfl⟩ := List.mem_map.mp (List.mem_toFinset.mp hx)
    exact Finset.mem_Ico.mpr (hlt r hr)
  have hcard := Finset.card_le_card hsub
  rwa [List.toFinset_card_of_nodup hnd, List.length_map, Int.card_Ico, Int.sub_zero,
    Int.toNat_natCast] at hcard

/-- The ids of a slice are those of populated records. -/
lemma populated_of_mem_sliceRecords (hb : cfg.osmmap.bmp.size ≤ 2 ^ 60) {ri : ℕ} {r : NodeRecord}
    (hr : r ∈ cfg.sliceRecords ri) :
    IsInt64 r.id ∧ ∃ i : ℕ, r.id = i ∧ cfg.osmmap.populated i = true := by
  obtain ⟨hid, hsel, -⟩ := (mem_sliceRecords hb).mp hr
  exact ⟨hid, OSMMMap.populated_of_select hb hid hsel⟩

/-- A record that is read has a 64-bit id. -/
lemma isInt64_of_mem_readRecords {bytes : List UInt8} {r : NodeRecord}
    (hr : r ∈ nodeRecordFormat.readRecords bytes) : IsInt64 r.id := by
  induction bytes using RecordFormat.readRecords.induct nodeRecordFormat with
  | case1 bs hlen ih =>
      rw [RecordFormat.readRecords, dif_pos hlen] at hr
      rcases List.mem_cons.mp hr with rfl | hr
      · rw [id_decode]
        exact isInt64_ri64 _
      · exact ih hr
  | case2 bs hlen =>
      rw [RecordFormat.readRecords, dif_neg hlen] at hr
      cases hr

lemma isInt64_of_mem_staleRecords {d : NodeExportDir} {ri : ℕ} {r : NodeRecord}
    (hr : r ∈ cfg.staleRecords d ri) : IsInt64 r.id := by
  obtain ⟨ci, -, hr⟩ := List.mem_flatMap.mp hr
  rw [staleIn] at hr
  split at hr
  · exact isInt64_of_mem_readRecords hr
  · cases hr

/-- **A file is a region's slice**: it opens, its count is that of its records, these ascend,
and the search in it finds what a lookup in the store finds, for the nodes of the region. -/
def IsSlice (cfg : NodeExport G) (ri : ℕ) (bytes : List UInt8) : Prop :=
  ∃ m, openNodeMap bytes = some m
    ∧ bytes.length = kHeaderSize + m.record_count * nodeRecordFormat.width
    ∧ (∀ i j, i < j → j < m.record_count → (m.record i).id < (m.record j).id)
    ∧ ∀ id, IsInt64 id → ∀ c, m.select id = some c ↔ cfg.osmmap.select id = some c
      ∧ (cfg.nodeMatches c ri = true ∨ cfg.carriesBit c ri = true)

/-- The file of the slice alone is one. -/
theorem isSlice_nodesFile (hb : cfg.osmmap.bmp.size ≤ 2 ^ 60)
    (hids : ∀ i, cfg.osmmap.populated i = true → i < 2 ^ 59) (ri : ℕ) :
    cfg.IsSlice ri (cfg.nodesFile ri (cfg.sliceRecords ri)) := by
  have hasc := pairwise_sliceRecords cfg ri
  have hvalid : ∀ r ∈ cfg.sliceRecords ri, IsInt64 r.id := fun r hr =>
    (populated_of_mem_sliceRecords hb hr).1
  have hcount : (cfg.sliceRecords ri).length ≤ 2 ^ 59 := by
    refine length_le_of_ascending hasc fun r hr => ?_
    obtain ⟨-, i, hi, hp⟩ := populated_of_mem_sliceRecords hb hr
    have hlt := hids i hp
    rw [hi]
    exact ⟨by omega, by exact_mod_cast hlt⟩
  refine ⟨_, openNodeMap_writeNodeFile (by omega), length_writeNodeFile, ?_, fun id hid c => ?_⟩
  · intro i j hij hj
    have hj' : j < (cfg.sliceRecords ri).length := hj
    rw [record_writeNodeFile hvalid (hij.trans hj'), record_writeNodeFile hvalid hj']
    exact List.pairwise_iff_getElem.mp hasc i j _ hj' hij
  · have hselect : (RegionalNodeMap.mk (cfg.sliceRecords ri) hasc).select id = some c
        ↔ ⟨id, c⟩ ∈ cfg.sliceRecords ri := RegionalNodeMap.select_eq_some_iff
    rw [select_writeNodeFile hvalid]
    refine hselect.trans ((mem_sliceRecords hb).trans ?_)
    exact ⟨fun h => h.2, fun h => ⟨hid, h⟩⟩

/-- **With stale records behind it, it is none**: one that the search finds would have to be
in the slice as well, and the ids would not ascend. -/
theorem eq_nil_of_isSlice (hb : cfg.osmmap.bmp.size ≤ 2 ^ 60) {ri : ℕ} {stale : List NodeRecord}
    (hstale : ∀ r ∈ stale, IsInt64 r.id)
    (h : cfg.IsSlice ri (cfg.nodesFile ri (cfg.sliceRecords ri ++ stale))) : stale = [] := by
  obtain ⟨m, hopen, hlength, hasc, hselect⟩ := h
  have hvalid : ∀ r ∈ cfg.sliceRecords ri ++ stale, IsInt64 r.id := by
    intro r hr
    rcases List.mem_append.mp hr with hr | hr
    · exact (populated_of_mem_sliceRecords hb hr).1
    · exact hstale r hr
  -- the opened file has all these records
  have hcount : m.record_count = (cfg.sliceRecords ri ++ stale).length := by
    have hfile : kHeaderSize + (cfg.sliceRecords ri ++ stale).length * nodeRecordFormat.width
        = kHeaderSize + m.record_count * nodeRecordFormat.width :=
      length_writeNodeFile.symm.trans hlength
    have hwidth : nodeRecordFormat.width = 24 := rfl
    rw [hwidth] at hfile
    omega
  obtain ⟨hdata, -⟩ := OpenNodeMap.of_openNodeMap hopen
  obtain ⟨data, record_count⟩ := m
  obtain rfl := hdata
  obtain rfl := hcount
  have hpairwise : (cfg.sliceRecords ri ++ stale).Pairwise fun a b => a.id < b.id := by
    rw [List.pairwise_iff_getElem]
    intro i j hi hj hij
    have hlt := hasc i j hij hj
    rwa [nodesFile, record_writeNodeFile hvalid hi, record_writeNodeFile hvalid hj] at hlt
  by_contra hne
  obtain ⟨⟨id, c⟩, hr⟩ := List.exists_mem_of_ne_nil stale hne
  have hmem : ⟨id, c⟩ ∈ cfg.sliceRecords ri ++ stale := List.mem_append_right _ hr
  have hfound : (OpenNodeMap.mk (cfg.nodesFile ri (cfg.sliceRecords ri ++ stale))
      (cfg.sliceRecords ri ++ stale).length).select id = some c := by
    rw [nodesFile, select_writeNodeFile hvalid]
    exact RegionalNodeMap.select_eq_some_iff (m := ⟨_, hpairwise⟩).mpr hmem
  have hslice : ⟨id, c⟩ ∈ cfg.sliceRecords ri :=
    (mem_sliceRecords hb).mpr ⟨hstale _ hr, (hselect id (hstale _ hr) c).mp hfound⟩
  exact lt_irrefl _ ((List.pairwise_append.mp hpairwise).2.2 _ hslice _ hr)

/-- **When `regional_export` cuts the store into slices.**  The pool can be run to its end,
and under every schedule that does so a region's file opens, has the count of its records in
its header, strictly ascending ids, and answers as the store does for the nodes that match
the region or carry its extra-vertex bit, exactly if no stale records are there. -/
theorem regional_export_slice_iff (cfg : NodeExport G) (hregions : cfg.regions.length ≤ 32)
    (hb : cfg.osmmap.bmp.size ≤ 2 ^ 60)
    (hids : ∀ i, cfg.osmmap.populated i = true → i < 2 ^ 59) (d : NodeExportDir) :
    (cfg.threads < 2 ^ 28 → ∃ schedule, (cfg.exportNodes d schedule).isSome)
      ∧ ∀ schedule d', cfg.exportNodes d schedule = some d' → ∀ ri < cfg.regions.length,
        ((∃ bytes, d'.nodes ri = some bytes ∧ cfg.IsSlice ri bytes)
          ↔ cfg.NoStaleRecords d ri) := by
  refine ⟨fun hthreads => exists_exportNodes d (nchunks_pos hthreads),
    fun schedule d' h ri hri => ?_⟩
  have hnodes := nodes_of_exportNodes hregions hb h hri
  rw [noStaleRecords_iff]
  constructor
  · rintro ⟨bytes, hbytes, hslice⟩
    obtain rfl := Option.some.inj (hnodes.symm.trans hbytes)
    exact eq_nil_of_isSlice hb (fun r => isInt64_of_mem_staleRecords) hslice
  · intro hnil
    rw [hnil, List.append_nil] at hnodes
    exact ⟨_, hnodes, isSlice_nodesFile hb hids ri⟩

/-- A store of two nodes, of which the one with id 0 lies in the only region, and the
vertex of the other in the region's extra vertices. -/
def twoNodes : NodeExport Bool where
  osmmap := ⟨⟨⟨32, fun i => if i < 2 then 1 else 2⟩, ⟨1, fun _ => 3⟩⟩, 1⟩
  regions := [⟨"andorra", id⟩]
  nodup_names := List.nodup_singleton "andorra"
  ofPoint c := c = ⟨1, 1⟩
  wgs84_bboxes _ := ⟨0, 0, 0, 0⟩
  created_at _ := 0
  out_dir := "out"
  threads := 2
  extra_vertices_bin _ := some (coordFormat.encode ⟨2, 2⟩)
  no_extra_vertices := false

/-- A directory where every scratch file has a record of an earlier run. -/
def usedDir : NodeExportDir where
  scratch _ := some (nodeRecordFormat.encode ⟨7, ⟨3, 3⟩⟩)
  nodes _ := none

theorem regional_export_slice_iff_twoNodes :
    ∃ schedule d' bytes, twoNodes.exportNodes usedDir schedule = some d'
      ∧ d'.nodes 0 = some bytes ∧ twoNodes.IsSlice 0 bytes := by
  obtain ⟨hrun, hslice⟩ := regional_export_slice_iff twoNodes (by decide) (by decide)
    (fun i hi => (by
      have hlt : i / 8 < 1 := NodeFiles.lt_bmp_of_populated hi
      omega)) usedDir
  obtain ⟨schedule, hsome⟩ := hrun (by decide)
  obtain ⟨d', hd'⟩ := Option.isSome_iff_exists.mp hsome
  have hfull : ∀ ci < twoNodes.nchunks.toNat, ¬ twoNodes.EmptyChunk ci := by decide
  obtain ⟨bytes, hbytes⟩ := (hslice schedule d' hd' 0 (by decide)).mpr
    fun ci hci hempty => absurd hempty (hfull ci hci)
  exact ⟨schedule, d', bytes, hd', hbytes⟩

/-! ### A killed run -/

/-- A store with node 64 alone: nine bytes of the bitmap, which one worker cuts into eight
chunks of two bytes, the last three of them empty. -/
def grownMap : OSMMMap := ⟨⟨⟨1040, fun _ => 1⟩, ⟨9, fun i => if i = 8 then 1 else 0⟩⟩, 72⟩

/-- Its export for one region, which every node matches. -/
def grownStore (extra_vertices_bin : ℕ → Option (List UInt8)) : NodeExport Bool where
  osmmap := grownMap
  regions := [⟨"andorra", id⟩]
  nodup_names := List.nodup_singleton "andorra"
  ofPoint _ := true
  wgs84_bboxes _ := ⟨0, 0, 0, 0⟩
  created_at _ := 0
  out_dir := "out"
  threads := 1
  extra_vertices_bin := extra_vertices_bin
  no_extra_vertices := false

/-- The nodes of byte 5 that a run over eight bytes has found. -/
def oldNodes : List NodeRecord := [⟨40, ⟨1, 1⟩⟩, ⟨41, ⟨1, 1⟩⟩, ⟨42, ⟨1, 1⟩⟩]

/-- The directory of that run, killed behind its chunk 5. -/
def killedDir : NodeExportDir where
  scratch := Function.update (fun _ => none) "out/tmp_andorra_5.raw"
    (some (oldNodes.flatMap nodeRecordFormat.encode))
  nodes _ := none

variable {bins : ℕ → Option (List UInt8)}

/-- The chunks of the run after the kill. -/
lemma chunks_grownStore : (grownStore bins).nchunks = 8 ∧ (grownStore bins).chunk = 2
    ∧ (grownStore bins).real_data_bytes = 9 := by
  have hmap : (grownStore bins).osmmap = grownMap := rfl
  have hhighest : grownMap.highestPopulatedId = 64 := by decide
  have hbytes : (grownStore bins).real_data_bytes = 9 := by
    have hsize : grownMap.bmp.size = 9 := rfl
    have hbyte : ((64 : ℤ) / 8).toNat + 1 = 9 := by omega
    rw [real_data_bytes, hmap, hhighest, hsize, hbyte, if_neg (by omega), min_self]
  have hthreads : (grownStore bins).nthreads = 1 := by
    have hone : (grownStore bins).threads = 1 := rfl
    rw [nthreads, hone]
    decide
  have hnchunks : (grownStore bins).nchunks = 8 := by
    rw [nchunks, hthreads, hbytes]
    decide
  refine ⟨hnchunks, ?_, hbytes⟩
  rw [chunk, hnchunks, hbytes]
  decide

lemma staleRecords_killedDir : (grownStore bins).staleRecords killedDir 0 = oldNodes := by
  obtain ⟨hnchunks, hchunk, hbytes⟩ := @chunks_grownStore bins
  have hread : nodeRecordFormat.readRecords (oldNodes.flatMap nodeRecordFormat.encode) = oldNodes :=
    RecordFormat.readRecords_flatMap_encode fun r hr =>
      (by decide : ∀ r ∈ oldNodes, IsInt64 r.id) r hr
  have hscratch : killedDir.scratch = Function.update (fun _ => none) ((grownStore bins).path 5 0)
      (some (oldNodes.flatMap nodeRecordFormat.encode)) := rfl
  have hstale : ∀ ci, (grownStore bins).staleIn killedDir 0 ci
      = if ci = 5 then oldNodes else [] := by
    intro ci
    have hempty : (grownStore bins).EmptyChunk ci ↔ 5 ≤ ci := by
      rw [EmptyChunk, hchunk, hbytes]
      omega
    rw [staleIn]
    by_cases hci : ci = 5
    · subst hci
      rw [if_pos (hempty.mpr le_rfl), if_pos rfl, hscratch, Function.update_self,
        Option.getD_some, hread]
    · have hne : (grownStore bins).path ci 0 ≠ (grownStore bins).path 5 0 := fun h =>
        hci (path_inj Nat.one_pos Nat.one_pos h).1
      rw [if_neg hci, hscratch, Function.update_of_ne hne, Option.getD_none,
        nodeRecordFormat.readRecords_nil, ite_self]
  rw [staleRecords, hnchunks, List.flatMap_congr fun ci _ => hstale ci]
  decide

lemma sliceRecords_grownStore : (grownStore bins).sliceRecords 0 = [⟨64, ⟨1, 1⟩⟩] := by
  have hscan : grownMap.forEachPopulatedRange 0 9 = [(64, ⟨1, 1⟩)] := by decide
  have hmap : (grownStore bins).osmmap = grownMap := rfl
  have hselected : (grownStore bins).selected 0 (64, ⟨1, 1⟩) = true := rfl
  rw [sliceRecords, chunks_grownStore.2.2, hmap, hscan, List.filter_singleton, hselected]
  rfl

/-- What the run after the kill leaves for the region: the search misses node 64. -/
lemma select_after_kill {e' : NodeExportDir} {schedule : List (Fin (grownStore bins).nthreads)}
    (h : (grownStore bins).exportNodes killedDir schedule = some e') :
    ∃ bytes m, e'.nodes 0 = some bytes ∧ openNodeMap bytes = some m ∧ m.select 64 = none := by
  have hregions : (grownStore bins).regions.length = 1 := rfl
  have hsize : (grownStore bins).osmmap.bmp.size = 9 := rfl
  have hregion : 0 < (grownStore bins).regions.length := Nat.one_pos
  have hnodes := nodes_of_exportNodes (by omega) (by omega) h hregion
  rw [sliceRecords_grownStore, staleRecords_killedDir] at hnodes
  refine ⟨_, _, hnodes, openNodeMap_writeNodeFile (by decide), ?_⟩
  rw [select_writeNodeFile (by decide)]
  decide

/-- **Stale records hide a node**: a run is killed, the store changes, and in the next run
the chunk of the file that is left has become empty. -/
theorem stale_records_hide_node :
    ∃ schedule d' bytes m, (grownStore fun _ => none).exportNodes killedDir schedule = some d'
      ∧ d'.nodes 0 = some bytes ∧ openNodeMap bytes = some m
      ∧ grownMap.select 64 = some ⟨1, 1⟩
      ∧ (grownStore fun _ => none).nodeMatches ⟨1, 1⟩ 0 = true ∧ m.select 64 = none := by
  have hexport : ∃ schedule,
      ((grownStore fun _ => none).exportNodes killedDir schedule).isSome :=
    exists_exportNodes killedDir (nchunks_pos (by decide))
  obtain ⟨schedule, hsome⟩ := hexport
  obtain ⟨d', hd'⟩ := Option.isSome_iff_exists.mp hsome
  obtain ⟨bytes, m, hbytes, hopen, hselect⟩ := select_after_kill hd'
  exact ⟨schedule, d', bytes, m, hd', hbytes, hopen, by decide, rfl, hselect⟩

end NodeExport

end Gpsxdb
