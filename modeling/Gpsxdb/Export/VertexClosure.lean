import Mathlib.Tactic
import Gpsxdb.Library.Pieces
import Gpsxdb.Export.ExactFilter
import Gpsxdb.Export.NodeSlices

/-!
The vertices of an exported row are in the node file of its region.

* `carriesBit_iff`: the bits of `loadExtraVertices` are the coordinates in the files;
* `readsVertices`, `skipsWindow`: the vertex files that a pair reads, and those that it has
  not written before;
* `extra_vertices_of_processPair`: **what a pair appends**: where what it finds is whole
  records, the outside vertices of every row that matches the region can be read back;
* `BigTablePass`: the pairs, one after the other; `extra_vertices_of_pass`;
* `vertex_closure`: **a vertex inside the polygon is found by the polygon test, one
  outside by its bit**, where earlier runs have left whole records of vertices and none of
  nodes; `closure_broken_by_kill`.
-/

namespace Gpsxdb

/-! ### The bits -/

namespace NodeExport

open PairExport (regionBit)

variable {G : Type} {cfg : NodeExport G}

/-- A bit of a coordinate, where absent coordinates have none. -/
def bitIn (extra : Coord → Option (BitVec 32)) (c : Coord) (ri : ℕ) : Bool :=
  ((extra c).getD 0#32).getLsbD ri

/-- The records of a file add the region's bit. -/
lemma bitIn_addVertices {ri i : ℕ} (hi : i < 32) (extra : Coord → Option (BitVec 32))
    (bytes : List UInt8) (c : Coord) : bitIn (addVertices ri extra bytes) c i
      = (bitIn extra c i || decide (ri = i ∧ c ∈ coordFormat.readRecords bytes)) := by
  rw [addVertices]
  induction coordFormat.readRecords bytes generalizing extra with
  | nil => simp
  | cons v vs ih =>
      rw [List.foldl_cons, ih]
      have hstep : bitIn (Function.update extra v
          (some ((extra v).getD 0#32 ||| regionBit ri))) c i
            = (bitIn extra c i || decide (ri = i ∧ c = v)) := by
        by_cases hcv : c = v
        · subst hcv
          rw [bitIn, Function.update_self, Option.getD_some,
            PairExport.getLsbD_or_regionBit _ hi, bitIn]
          simp
        · rw [bitIn, Function.update_of_ne hcv, ← bitIn]
          simp [hcv]
      rw [hstep, Bool.or_assoc]
      congr 1
      rw [Bool.eq_iff_iff]
      simp only [Bool.or_eq_true, decide_eq_true_eq, List.mem_cons]
      tauto

/-- **The bits are the coordinates in the files.** -/
theorem carriesBit_iff (hregions : cfg.regions.length ≤ 32)
    (hextra : cfg.no_extra_vertices = false) {c : Coord} {ri : ℕ}
    (hri : ri < cfg.regions.length) : cfg.carriesBit c ri = true
      ↔ ∃ bytes, cfg.extra_vertices_bin ri = some bytes ∧ c ∈ coordFormat.readRecords bytes := by
  have hfold : ∀ n, bitIn ((List.range n).foldl cfg.addRegion fun _ => none) c ri = true
        ↔ ri < n ∧ ∃ bytes, cfg.extra_vertices_bin ri = some bytes
          ∧ c ∈ coordFormat.readRecords bytes := by
    intro n
    induction n with
    | zero => simp [bitIn]
    | succ n ih =>
        rw [List.range_succ, List.foldl_append, List.foldl_cons, List.foldl_nil, addRegion]
        cases hbin : cfg.extra_vertices_bin n with
        | none =>
            dsimp only
            rw [ih]
            refine and_congr_left_iff.mpr fun ⟨bytes, hbytes, _⟩ => ?_
            have hne : ri ≠ n := by
              rintro rfl
              rw [hbin] at hbytes
              cases hbytes
            omega
        | some bytes =>
            dsimp only
            rw [bitIn_addVertices (by omega), Bool.or_eq_true, ih, decide_eq_true_eq]
            constructor
            · rintro (⟨hlt, h⟩ | ⟨rfl, hc⟩)
              · exact ⟨by omega, h⟩
              · exact ⟨by omega, bytes, hbin, hc⟩
            · rintro ⟨hlt, bytes', hbytes, hc⟩
              rcases Nat.lt_succ_iff_lt_or_eq.mp hlt with hlt | rfl
              · exact Or.inl ⟨hlt, bytes', hbytes, hc⟩
              · rw [hbin] at hbytes
                obtain rfl := Option.some.inj hbytes
                exact Or.inr ⟨rfl, hc⟩
  have hbit : cfg.carriesBit c ri = bitIn cfg.loadExtraVertices c ri := by
    rw [carriesBit, extra_vertices, hextra, if_neg Bool.false_ne_true, bitIn]
    cases cfg.loadExtraVertices c <;> simp
  rw [hbit]
  exact (hfold cfg.regions.length).trans (and_iff_right hri)

end NodeExport

/-! ### One pair -/

namespace PairExport

variable {G : Type} {cfg : PairExport G}

/-- The vertices a pair is to append for a region. -/
def outside (cfg : PairExport G) (ri : ℕ) : List Coord :=
  (cfg.matchingParents ri).flatMap fun r => cfg.outsideVertices r ri

/-- The merge of the pair reads the vertex files of the chunk, and takes them away. -/
def readsVertices (cfg : PairExport G) (ci : ℕ) : Bool :=
  cfg.emit_extra_vertices && match cfg.minMax with
    | none => false
    | some (min_id, max_id) => decide (ci < (cfg.nchunks min_id max_id).toNat)

/-- No worker of the pair has opened them before. -/
def skipsWindow (cfg : PairExport G) (ci : ℕ) : Bool :=
  match cfg.minMax with
  | none => true
  | some (min_id, max_id) => !decide (cfg.NonemptyWindow min_id max_id ci)

/-- The vertices of a region that can be read back. -/
def readBack (d : ExportDir) (ri : ℕ) : List Coord :=
  coordFormat.readRecords ((d.extra_vertices ri).getD [])

/-- The region's `extra_vertices.bin` is whole records. -/
def WholeVertices (d : ExportDir) (ri : ℕ) : Prop :=
  coordFormat.width ∣ ((d.extra_vertices ri).getD []).length

/-- A scratch file is whole records of vertices. -/
def WholeScratch (cfg : PairExport G) (d : ExportDir) (ri ci : ℕ) : Prop :=
  coordFormat.width ∣ ((d.scratch (cfg.path ⟨.extra_vertices, ri, ci⟩)).getD []).length

/-- The vertex files that a pair leaves: those it has not read. -/
lemma scratch_of_processPair {d d' : ExportDir} {schedule schedule' : List (Fin cfg.nthreads)}
    (h : cfg.processPair d schedule schedule' = some d') {ri : ℕ}
    (hri : ri < cfg.regions.length) (ci : ℕ) :
    d'.scratch (cfg.path ⟨.extra_vertices, ri, ci⟩)
      = if cfg.readsVertices ci then none
        else d.scratch (cfg.path ⟨.extra_vertices, ri, ci⟩) := by
  cases processed_of_processPair h with
  | skipped _ hemit => simp [readsVertices, hemit]
  | empty hnone => simp [readsVertices, hnone]
  | @merged min_id max_id files hsome _ hfiles =>
      rw [(merged_regions cfg (cfg.nchunks min_id max_id).toNat
        { d with scratch := files }).scratch_vertices ri hri ci]
      simp only [readsVertices, hsome, hri, true_and, Bool.and_eq_true, decide_eq_true_eq]
      split
      · rfl
      · rename_i hkept
        by_cases hci : ci < (cfg.nchunks min_id max_id).toNat
        · rw [passes_extra_vertices hfiles hri hci]
          exact if_neg fun hw => hkept ⟨hw.2, hci⟩
        · exact passes_extra_vertices_of_le hfiles hri (not_lt.mp hci)

/-- Every chunk adds whole records, its own or those it finds. -/
lemma whole_of_passes {min_id max_id : ℤ} {d : ExportDir}
    {files : String → Option (List UInt8)} {schedule schedule' : List (Fin cfg.nthreads)}
    (hsome : cfg.minMax = some (min_id, max_id))
    (hfiles : cfg.passes min_id max_id d.scratch schedule schedule' = some files)
    (hemit : cfg.emit_extra_vertices = true) {ri ci : ℕ} (hri : ri < cfg.regions.length)
    (hci : ci < (cfg.nchunks min_id max_id).toNat)
    (hscratch : cfg.readsVertices ci = true → cfg.skipsWindow ci = true →
      cfg.WholeScratch d ri ci) :
    coordFormat.width ∣ ((files (cfg.path ⟨.extra_vertices, ri, ci⟩)).getD []).length := by
  rw [passes_extra_vertices hfiles hri hci]
  by_cases hw : cfg.NonemptyWindow min_id max_id ci
  · rw [if_pos ⟨hw, hemit⟩, Option.getD_some]
    exact ⟨_, (coordFormat.length_flatMap_encode _).trans (Nat.mul_comm ..)⟩
  · rw [if_neg fun h => hw h.1]
    refine hscratch ?_ ?_
    · rw [readsVertices, hemit, hsome, Bool.true_and]
      exact decide_eq_true hci
    · simpa [skipsWindow, hsome] using hw

/-- A vertex outside the region is one of some chunk. -/
lemma exists_chunk_of_outside {min_id max_id : ℤ} (hsome : cfg.minMax = some (min_id, max_id))
    (hn : 0 < cfg.nchunks min_id max_id) {ri : ℕ} {v : Coord} (hv : v ∈ cfg.outside ri) :
    ∃ ci < (cfg.nchunks min_id max_id).toNat,
      cfg.NonemptyWindow min_id max_id ci ∧ v ∈ cfg.chunkVertices min_id max_id ri ci := by
  obtain ⟨r, hr, hv⟩ := List.mem_flatMap.mp hv
  obtain ⟨hrow, hmatch⟩ := List.mem_filter.mp hr
  obtain ⟨-, -, hrange⟩ := minMax_eq_some hsome
  obtain ⟨ci, hci, hid⟩ := exists_windowFor (min_le_max hsome) hn (hrange r hrow)
  exact ⟨ci, hci, hid.1.trans hid.2, List.mem_flatMap.mpr
    ⟨r, List.mem_filter.mpr ⟨mem_parentRows.mpr ⟨hrow, hid⟩, hmatch⟩, hv⟩⟩

/-- **What a pair appends** for a region: where it finds whole records only, they stay
readable, and so are the vertices outside the region of the rows that match. -/
theorem extra_vertices_of_processPair {d d' : ExportDir}
    {schedule schedule' : List (Fin cfg.nthreads)}
    (h : cfg.processPair d schedule schedule' = some d') {ri : ℕ}
    (hri : ri < cfg.regions.length) (hwhole : WholeVertices d ri)
    (hscratch : ∀ ci, cfg.readsVertices ci = true → cfg.skipsWindow ci = true →
      cfg.WholeScratch d ri ci) :
    WholeVertices d' ri ∧ (∀ v ∈ readBack d ri, v ∈ readBack d' ri)
      ∧ (cfg.emit_extra_vertices = true → ∀ v ∈ cfg.outside ri, v ∈ readBack d' ri) := by
  cases processed_of_processPair h with
  | skipped _ hnone => exact ⟨hwhole, fun _ hv => hv, fun hemit => by simp [hemit] at hnone⟩
  | empty hnone =>
      have hempty := minMax_eq_none hnone
      exact ⟨hwhole, fun _ hv => hv, by simp [outside, matchingParents, hempty]⟩
  | @merged min_id max_id files hsome hn hfiles =>
      set n := (cfg.nchunks min_id max_id).toNat with hndef
      have hmerged := (merged_regions cfg n { d with scratch := files }).extra_vertices ri
      cases hemit : cfg.emit_extra_vertices with
      | false =>
          rw [if_neg fun h => absurd (hemit.symm.trans h.1) Bool.false_ne_true] at hmerged
          rw [WholeVertices, readBack, readBack, hmerged]
          exact ⟨hwhole, fun _ hv => hv, fun h => absurd h Bool.false_ne_true⟩
      | true =>
          rw [if_pos ⟨hemit, hri⟩] at hmerged
          obtain ⟨hlength, hread⟩ := coordFormat.readRecords_flatMap
            fun ci hci => whole_of_passes hsome hfiles hemit hri (List.mem_range.mp hci)
              (hscratch ci)
          have hbytes : ((((List.range cfg.regions.length).foldl (cfg.mergeRegion n)
              { d with scratch := files }).extra_vertices ri).getD [])
              = (d.extra_vertices ri).getD [] ++ cfg.mergedVertices files n ri := by
            rw [hmerged, Option.getD_some]
          have hback : readBack ((List.range cfg.regions.length).foldl (cfg.mergeRegion n)
              { d with scratch := files }) ri = readBack d ri ++ (List.range n).flatMap fun ci =>
                coordFormat.readRecords
                  ((files (cfg.path ⟨.extra_vertices, ri, ci⟩)).getD []) := by
            rw [readBack, hbytes, coordFormat.readRecords_append_of_dvd hwhole, mergedVertices,
              hread]
            rfl
          rw [hback]
          refine ⟨?_, fun v hv => List.mem_append_left _ hv, fun _ v hv =>
            List.mem_append_right _ ?_⟩
          · rw [WholeVertices, hbytes, List.length_append]
            exact Nat.dvd_add hwhole hlength
          · obtain ⟨ci, hci, hwindow, hchunk⟩ := exists_chunk_of_outside hsome hn hv
            refine List.mem_flatMap.mpr ⟨ci, List.mem_range.mpr hci, ?_⟩
            rw [passes_extra_vertices hfiles hri hci, if_pos ⟨hwindow, hemit⟩, Option.getD_some]
            exact (RecordFormat.readRecords_flatMap_encode (f := coordFormat)
              (fun _ _ => trivial)).symm ▸ hchunk

/-! ### The pass -/

/-- The pairs of a pass, one after the other.  A pair finds the scratch files and the
vertices as the one before left them; the `.bin`s are its own. -/
inductive BigTablePass : ExportDir → List (PairExport G) → ExportDir → Prop
  | done (d : ExportDir) : BigTablePass d [] d
  | pair {d d₁ d₂ d' : ExportDir} {cfg : PairExport G} {cfgs : List (PairExport G)}
      {schedule schedule' : List (Fin cfg.nthreads)}
      (h : cfg.processPair d schedule schedule' = some d₁) (hscratch : d₂.scratch = d₁.scratch)
      (hextra : d₂.extra_vertices = d₁.extra_vertices) (rest : BigTablePass d₂ cfgs d') :
      BigTablePass d (cfg :: cfgs) d'

/-- Pairs of the same regions and directory have the same vertex files. -/
lemma path_congr {cfg' : PairExport G} (hregions : cfg.regions = cfg'.regions)
    (hdir : cfg.out_dir = cfg'.out_dir) (ri ci : ℕ) :
    cfg.path ⟨.extra_vertices, ri, ci⟩ = cfg'.path ⟨.extra_vertices, ri, ci⟩ := by
  rw [path, path, hregions, hdir]
  rfl

/-- A pass finds whole records for a region: in its `extra_vertices.bin`, and in every scratch
file that the first pair to read it has not written. -/
structure FindsWhole (cfgs : List (PairExport G)) (d : ExportDir) (ri : ℕ) : Prop where
  extra_vertices : WholeVertices d ri
  scratch : ∀ ci cfg, cfgs.find? (·.readsVertices ci) = some cfg → cfg.skipsWindow ci = true →
    cfg.WholeScratch d ri ci

/-- **What a pass appends** for a region: the vertices of every pair can be read back. -/
theorem extra_vertices_of_pass {regions : List (RegionEntry G)} {out_dir : String}
    {cfgs : List (PairExport G)} {d d' : ExportDir} (h : BigTablePass d cfgs d')
    (hsame : ∀ cfg ∈ cfgs, cfg.regions = regions ∧ cfg.out_dir = out_dir) {ri : ℕ}
    (hri : ri < regions.length) (hwhole : FindsWhole cfgs d ri) :
    (∀ v ∈ readBack d ri, v ∈ readBack d' ri) ∧ ∀ cfg ∈ cfgs, cfg.emit_extra_vertices = true →
      ∀ v ∈ cfg.outside ri, v ∈ readBack d' ri := by
  induction h with
  | done d => exact ⟨fun _ hv => hv, by simp⟩
  | @pair d d₁ d₂ d' cfg cfgs schedule schedule' hpair hscratch hextra rest ih =>
      obtain ⟨⟨rfl, rfl⟩, hsame'⟩ := List.forall_mem_cons.mp hsame
      obtain ⟨hwhole₁, hkept, hin⟩ := extra_vertices_of_processPair hpair hri
        hwhole.extra_vertices fun ci hreads => hwhole.scratch ci cfg (by simp [hreads])
      have hback : readBack d₂ ri = readBack d₁ ri := by rw [readBack, readBack, hextra]
      have hwhole₂ : FindsWhole cfgs d₂ ri := by
        refine ⟨by rw [WholeVertices, hextra]; exact hwhole₁, fun ci cfg' hfirst hskips => ?_⟩
        obtain ⟨hregions, hdir⟩ := hsame' cfg' (List.mem_of_find?_eq_some hfirst)
        have hpath := path_congr hregions hdir ri ci
        rw [WholeScratch, hscratch, hpath, scratch_of_processPair hpair hri]
        by_cases hreads : cfg.readsVertices ci = true
        · -- the pair before has taken the file away
          rw [if_pos hreads]
          exact dvd_zero _
        · rw [if_neg hreads, ← hpath]
          refine hwhole.scratch ci cfg' ?_ hskips
          rwa [List.find?_cons_of_neg (by simpa using hreads)]
      obtain ⟨hkept', hin'⟩ := ih hsame' hwhole₂
      rw [hback] at hkept'
      exact ⟨fun v hv => hkept' v (hkept v hv), List.forall_mem_cons.mpr
        ⟨fun hemit v hv => hkept' v (hin hemit v hv), hin'⟩⟩

end PairExport

/-! ### Vertex closure -/

/-- A pass over the big tables, and a `regional_export` that is to follow, over the same
regions. -/
structure BundleRun (G : Type) where
  pairs : List (PairExport G)
  nodes : NodeExport G
  /-- the directory of the pass -/
  out_dir : String
  before : ExportDir
  after : ExportDir
  pass : PairExport.BigTablePass before pairs after
  same : ∀ cfg ∈ pairs, cfg.regions = nodes.regions ∧ cfg.out_dir = out_dir
    ∧ cfg.ofPoint = nodes.ofPoint
  /-- `--extra-vertices-dir` is that directory -/
  extra_vertices_bin : nodes.extra_vertices_bin = after.extra_vertices
  with_extra_vertices : nodes.no_extra_vertices = false

namespace BundleRun

variable {G : Type} {run : BundleRun G}

/-- **The vertices of a region can be read back**: the pass finds whole records only, or has
none to append. -/
def Readable (run : BundleRun G) (ri : ℕ) : Prop :=
  PairExport.FindsWhole run.pairs run.before ri
    ∨ ∀ cfg ∈ run.pairs, cfg.emit_extra_vertices = true → cfg.outside ri = []

/-- A vertex outside a region, of a row that matches it, carries the region's bit. -/
lemma carriesBit_of_outside (hregions : run.nodes.regions.length ≤ 32) {ri : ℕ}
    (hreadable : run.Readable ri) {cfg : PairExport G} (hcfg : cfg ∈ run.pairs)
    (hemit : cfg.emit_extra_vertices = true) (hri : ri < run.nodes.regions.length) {v : Coord}
    (hv : v ∈ cfg.outside ri) : run.nodes.carriesBit v ri = true := by
  rcases hreadable with hwhole | hnone
  · have hback : v ∈ PairExport.readBack run.after ri :=
      (PairExport.extra_vertices_of_pass run.pass (fun cfg hcfg =>
        ⟨(run.same cfg hcfg).1, (run.same cfg hcfg).2.1⟩) hri hwhole).2 cfg hcfg hemit v hv
    rw [NodeExport.carriesBit_iff hregions run.with_extra_vertices hri, run.extra_vertices_bin]
    rw [PairExport.readBack] at hback
    cases hbin : run.after.extra_vertices ri with
    | none =>
        rw [hbin, Option.getD_none, coordFormat.readRecords_nil] at hback
        cases hback
    | some bytes =>
        rw [hbin, Option.getD_some] at hback
        exact ⟨bytes, rfl, hback⟩
  · rw [hnone cfg hcfg hemit] at hv
    cases hv

/-- **Vertex closure.**  Every node whose record is a vertex of a row that a region matches
is found, with its coordinates, in the region's own node file, where the vertices of the
region can be read back and earlier runs have left no stale records of nodes. -/
theorem vertex_closure (run : BundleRun G) (hregions : run.nodes.regions.length ≤ 32)
    (hb : run.nodes.osmmap.bmp.size ≤ 2 ^ 60)
    (hids : ∀ i, run.nodes.osmmap.populated i = true → i < 2 ^ 59) {ri : ℕ}
    (hri : ri < run.nodes.regions.length) (hreadable : run.Readable ri) {e e' : NodeExportDir}
    (hstale : run.nodes.NoStaleRecords e ri) {schedule : List (Fin run.nodes.nthreads)}
    (hexport : run.nodes.exportNodes e schedule = some e') {cfg : PairExport G}
    (hcfg : cfg ∈ run.pairs) (hparent : cfg.pair.parent ≠ "nodes") {r : CopyRow}
    (hr : r ∈ cfg.parent.rows) {g : G} (hdecode : cfg.decode r = some g)
    (hmatch : cfg.rowMatches r ri = true) {v : Coord} (hv : v ∈ cfg.vertices g) {id : ℤ}
    (hid : IsInt64 id) (hselect : run.nodes.osmmap.select id = some v) :
    ∃ bytes m, e'.nodes ri = some bytes ∧ openNodeMap bytes = some m ∧ m.select id = some v := by
  obtain ⟨m, hopen, -, -, hm⟩ := NodeExport.isSlice_nodesFile hb hids ri
  have hnodes := NodeExport.nodes_of_exportNodes hregions hb hexport hri
  rw [NodeExport.noStaleRecords_iff.mp hstale, List.append_nil] at hnodes
  refine ⟨_, m, hnodes, hopen, (hm id hid v).mpr ⟨hselect, ?_⟩⟩
  by_cases hinside : run.nodes.nodeMatches v ri = true
  · exact Or.inl hinside
  · -- the pass has tested the same vertex against the same region
    right
    obtain ⟨hsame, -, hpoint⟩ := run.same cfg hcfg
    have hemit : cfg.emit_extra_vertices = true := by
      simpa [PairExport.emit_extra_vertices] using hparent
    have hregion : cfg.regions[ri]? = some run.nodes.regions[ri] := by
      rw [hsame, List.getElem?_eq_getElem hri]
    have hout : v ∈ cfg.outsideVertices r ri := by
      rw [PairExport.outsideVertices, hdecode, hregion, List.mem_filter, hpoint]
      refine ⟨hv, ?_⟩
      rw [NodeExport.nodeMatches, List.getElem?_eq_getElem hri] at hinside
      simpa using hinside
    refine carriesBit_of_outside hregions hreadable hcfg hemit hri
      (List.mem_flatMap.mpr ⟨r, ?_, hout⟩)
    exact List.mem_filter.mpr ⟨hr, hmatch⟩

/-- A way with a vertex in the only region and one outside it. -/
def borderWay : PairExport Bool where
  pair := ⟨"ways", 2, "way_tags"⟩
  pair_mem := ways_mem_kTablePairs
  parent := PairExport.tableOf [⟨[1], 7⟩] (by decide)
  child := PairExport.tableOf [] PairExport.raw_lt_nil
  nodup_ids := by decide
  decode _ := some true
  vertices _ := [⟨1, 1⟩, ⟨2, 2⟩]
  ofPoint c := c = ⟨1, 1⟩
  out_dir := "out"
  regions := [⟨"andorra", id⟩]
  nodup_names := List.nodup_singleton "andorra"
  threads := 2
  extra_vertices_only := false

/-- A directory with the vertices of an earlier export, and with parts of rows in every
scratch file. -/
def earlierDir : ExportDir :=
  { PairExport.usedDir with extra_vertices := fun _ => some (coordFormat.encode ⟨3, 3⟩) }

/-- The chunk of `borderWay` is opened, and its vertices go behind whole records. -/
lemma findsWhole_borderWay : PairExport.FindsWhole [borderWay] earlierDir 0 := by
  have hrange : borderWay.minMax = some (7, 7) := by decide
  have hwindow : ∀ ci < (borderWay.nchunks 7 7).toNat, borderWay.NonemptyWindow 7 7 ci := by
    decide
  refine ⟨⟨1, rfl⟩, fun ci cfg hfirst hskips => ?_⟩
  obtain rfl := List.mem_singleton.mp (List.mem_of_find?_eq_some hfirst)
  have hreads := List.find?_some hfirst
  simp only [PairExport.readsVertices, hrange, Bool.and_eq_true, decide_eq_true_eq] at hreads
  simp only [PairExport.skipsWindow, hrange, Bool.not_eq_true', decide_eq_false_iff_not] at hskips
  exact absurd (hwindow ci hreads.2) hskips

theorem vertex_closure_borderWay : ∃ (run : BundleRun Bool) (schedule : _) (e' : NodeExportDir)
    (bytes : List UInt8) (m : OpenNodeMap),
    run.pairs = [borderWay] ∧ run.before = earlierDir
      ∧ run.nodes.osmmap = NodeExport.twoNodes.osmmap
      ∧ run.nodes.exportNodes NodeExport.usedDir schedule = some e'
      ∧ e'.nodes 0 = some bytes ∧ openNodeMap bytes = some m ∧ m.select 1 = some ⟨2, 2⟩ := by
  have hpass : ∃ schedule schedule',
      (borderWay.processPair earlierDir schedule schedule').isSome :=
    PairExport.exists_processPair _ fun _ _ _ => PairExport.nchunks_pos (by decide)
  obtain ⟨schedule, schedule', hsome⟩ := hpass
  obtain ⟨d', hd'⟩ := Option.isSome_iff_exists.mp hsome
  let run : BundleRun Bool :=
    { pairs := [borderWay]
      nodes := { NodeExport.twoNodes with extra_vertices_bin := d'.extra_vertices }
      out_dir := "out"
      before := earlierDir
      after := d'
      pass := .pair hd' rfl rfl (.done d')
      same := fun cfg hcfg => by
        obtain rfl := List.mem_singleton.mp hcfg
        exact ⟨rfl, rfl, rfl⟩
      extra_vertices_bin := rfl
      with_extra_vertices := rfl }
  have hexport : ∃ schedule, (run.nodes.exportNodes NodeExport.usedDir schedule).isSome :=
    NodeExport.exists_exportNodes _ (NodeExport.nchunks_pos (show (2 : ℤ) < 2 ^ 28 by decide))
  obtain ⟨schedule, hsome⟩ := hexport
  obtain ⟨e', he'⟩ := Option.isSome_iff_exists.mp hsome
  have hlength : run.nodes.regions.length = 1 := rfl
  have hsize : run.nodes.osmmap.bmp.size = 1 := rfl
  have hids : ∀ i, run.nodes.osmmap.populated i = true → i < 2 ^ 59 := by
    intro i hi
    have hlt : i / 8 < 1 := NodeFiles.lt_bmp_of_populated hi
    omega
  have hfull : ∀ ci < NodeExport.twoNodes.nchunks.toNat, ¬ NodeExport.twoNodes.EmptyChunk ci := by
    decide
  have hstale : run.nodes.NoStaleRecords NodeExport.usedDir 0 := fun ci hci hempty =>
    absurd hempty (hfull ci hci)
  have hmatch : borderWay.rowMatches ⟨[1], 7⟩ 0 = true := by decide
  have hvertex : (⟨2, 2⟩ : Coord) ∈ borderWay.vertices true := by decide
  have hselect : NodeExport.twoNodes.osmmap.select 1 = some ⟨2, 2⟩ := by decide
  obtain ⟨bytes, m, hm⟩ := vertex_closure run (by omega) (by omega) hids (by omega)
    (Or.inl findsWhole_borderWay) hstale he' (List.mem_singleton_self borderWay) (by decide)
    (List.mem_singleton_self _) rfl hmatch hvertex (by decide) hselect
  exact ⟨run, schedule, e', bytes, m, rfl, rfl, rfl, he', hm⟩

/-! ### A killed run -/

/-- A way within the region, over the node of `grownMap`. -/
def innerWay : PairExport Bool :=
  { borderWay with
    vertices := fun _ => [⟨1, 1⟩]
    ofPoint := fun _ => true }

/-- **Stale records break the closure**: node 64 is a vertex of a way that matches the region,
and a killed run of `regional_export` before hides it from the search. -/
theorem closure_broken_by_kill : ∃ (run : BundleRun Bool) (schedule : _) (e' : NodeExportDir)
    (bytes : List UInt8) (m : OpenNodeMap),
    run.pairs = [innerWay] ∧ run.before = earlierDir ∧ run.nodes.osmmap = NodeExport.grownMap
      ∧ run.nodes.exportNodes NodeExport.killedDir schedule = some e'
      ∧ innerWay.rowMatches ⟨[1], 7⟩ 0 = true ∧ ⟨1, 1⟩ ∈ innerWay.vertices true
      ∧ NodeExport.grownMap.select 64 = some ⟨1, 1⟩
      ∧ e'.nodes 0 = some bytes ∧ openNodeMap bytes = some m ∧ m.select 64 = none := by
  have hpass : ∃ schedule schedule',
      (innerWay.processPair earlierDir schedule schedule').isSome :=
    PairExport.exists_processPair _ fun _ _ _ => PairExport.nchunks_pos (by decide)
  obtain ⟨schedule, schedule', hsome⟩ := hpass
  obtain ⟨d', hd'⟩ := Option.isSome_iff_exists.mp hsome
  have hexport : ∃ schedule, ((NodeExport.grownStore d'.extra_vertices).exportNodes
      NodeExport.killedDir schedule).isSome :=
    NodeExport.exists_exportNodes _ (NodeExport.nchunks_pos (show (1 : ℤ) < 2 ^ 28 by decide))
  obtain ⟨schedule, hsome⟩ := hexport
  obtain ⟨e', he'⟩ := Option.isSome_iff_exists.mp hsome
  obtain ⟨bytes, m, hbytes, hopen, hselect⟩ := NodeExport.select_after_kill he'
  refine ⟨{ pairs := [innerWay]
            nodes := NodeExport.grownStore d'.extra_vertices
            out_dir := "out"
            before := earlierDir
            after := d'
            pass := .pair hd' rfl rfl (.done d')
            same := fun cfg hcfg => by
              obtain rfl := List.mem_singleton.mp hcfg
              exact ⟨rfl, rfl, rfl⟩
            extra_vertices_bin := rfl
            with_extra_vertices := rfl }, schedule, e', bytes, m, rfl, rfl, rfl, he', by decide,
    by decide, by decide, hbytes, hopen, hselect⟩

end BundleRun

end Gpsxdb
