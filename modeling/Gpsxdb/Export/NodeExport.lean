import Mathlib.Tactic
import Gpsxdb.Library.FileOps
import Gpsxdb.Library.Windows
import Gpsxdb.NodeStore.OSMMMap
import Gpsxdb.Regional.NodeFile
import Gpsxdb.Export.ProcessPair

/-!
`regional_export`: the node store cut into one file for each region.

* `NodeExport`: the store, the regions and the options of a run;
* `loadExtraVertices`: the vertices that `regional_db_export` left for the regions, with
  a bit for each region;
* `chunkWorker`: the nodes of a chunk of the bitmap, tested against all regions;
* `chunkPass`, `mergeRegion`, `exportNodes`: the pool of the workers under its
  schedule, and the merge of the scratch files into `<region>.nodes.dat`.

All calls of the file system succeed, and a stream is written through at once.  The
hash of the extra vertices is a function of the bits of a coordinate.
-/

namespace Gpsxdb

/-- One run of `regional_export`. -/
structure NodeExport (G : Type) where
  osmmap : OSMMMap
  regions : List (RegionEntry G)
  nodup_names : (regions.map RegionEntry.name).Nodup
  /-- a point as a geometry -/
  ofPoint : Coord → G
  wgs84_bboxes : ℕ → BboxFloats
  /-- `time(nullptr)` at the writer of a region -/
  created_at : ℕ → UInt32
  out_dir : String
  threads : ℤ
  /-- `<region>/extra_vertices.bin` of each region -/
  extra_vertices_bin : ℕ → Option (List UInt8)
  no_extra_vertices : Bool

/-- The scratch files, and `<region>.nodes.dat` of each region. -/
structure NodeExportDir where
  scratch : String → Option (List UInt8)
  nodes : ℕ → Option (List UInt8)

namespace NodeExport

open PairExport (regionBit)

variable {G : Type} (cfg : NodeExport G)

/-! ### Extra vertices -/

/-- The loop over one file: the region's bit is set for each of its coordinates. -/
def addVertices (ri : ℕ) (extra : Coord → Option (BitVec 32)) (bytes : List UInt8) :
    Coord → Option (BitVec 32) :=
  (coordFormat.readRecords bytes).foldl
    (fun extra c => Function.update extra c (some ((extra c).getD 0#32 ||| regionBit ri))) extra

/-- One turn of the loop over the regions; a region without the file adds nothing. -/
def addRegion (extra : Coord → Option (BitVec 32)) (ri : ℕ) : Coord → Option (BitVec 32) :=
  match cfg.extra_vertices_bin ri with
  | none => extra
  | some bytes => addVertices ri extra bytes

/-- `loadExtraVertices`. -/
def loadExtraVertices : Coord → Option (BitVec 32) :=
  (List.range cfg.regions.length).foldl cfg.addRegion fun _ => none

/-- `extra_vertices`. -/
def extra_vertices : Coord → Option (BitVec 32) :=
  if cfg.no_extra_vertices then fun _ => none else cfg.loadExtraVertices

/-! ### Chunks -/

/-- `threads`, at least one. -/
def nthreads : ℕ := (max 1 cfg.threads).toNat

/-- `kChunksPerThread`. -/
def kChunksPerThread : ℤ := 8

/-- `real_data_bytes`: the bytes of the bitmap up to the highest populated id. -/
def real_data_bytes : ℕ :=
  let total_bytes := cfg.osmmap.bmp.size
  let highest_id := cfg.osmmap.highestPopulatedId
  if highest_id < 0 then total_bytes else min total_bytes ((highest_id / 8).toNat + 1)

/-- `nchunks`. -/
def nchunks : ℤ :=
  wrapInt32 (max 1 (min (cfg.nthreads * kChunksPerThread) cfg.real_data_bytes))

/-- `chunk`. -/
def chunk : ℕ := (cfg.real_data_bytes + cfg.nchunks.toNat - 1) / cfg.nchunks.toNat

/-- `chunk_region_paths[ci][ri]`. -/
def path (ci ri : ℕ) : String :=
  cfg.out_dir ++ "/tmp_" ++ (cfg.regions.map RegionEntry.name).getD ri "" ++ "_" ++ toString ci
    ++ ".raw"

/-- `RegionIndex::matches` of a node. -/
def nodeMatches (c : Coord) (ri : ℕ) : Bool :=
  match cfg.regions[ri]? with
  | some region => region.isMatch (cfg.ofPoint c)
  | none => false

/-- `polymask` of a node. -/
def polymask (c : Coord) : BitVec 32 :=
  (List.range cfg.regions.length).foldl
    (fun m ri => if cfg.nodeMatches c ri then m ||| regionBit ri else m) 0#32

/-- The callback of the scan: the record goes to each region that the node matches, and to
those it is an extra vertex of. -/
def visitNode (ci : ℕ) (node : ℤ × Coord) : List (FileOp String UInt8) :=
  let (id, c) := node
  let record := nodeRecordFormat.encode ⟨id, c⟩
  ((List.range cfg.regions.length).flatMap fun ri =>
    if cfg.nodeMatches c ri then [.append (cfg.path ci ri) record] else [])
  ++ match cfg.extra_vertices c with
    | none => []
    | some mask =>
        let extra_only := mask &&& ~~~cfg.polymask c
        if extra_only = 0#32 then []
        else (List.range cfg.regions.length).flatMap fun ri =>
          if extra_only &&& regionBit ri ≠ 0#32 then [.append (cfg.path ci ri) record] else []

/-- `chunkWorker`. -/
def chunkWorker (ci : ℕ) : List (FileOp String UInt8) :=
  let byte_start := ci * cfg.chunk
  let byte_end := min (byte_start + cfg.chunk) cfg.real_data_bytes
  if byte_start ≥ byte_end then []
  else (List.range cfg.regions.length).map (fun ri => .create (cfg.path ci ri))
    ++ (cfg.osmmap.forEachPopulatedRange byte_start byte_end).flatMap (cfg.visitNode ci)

/-! ### The run -/

/-- The pool of the workers under a schedule. -/
def chunkPass (files : String → Option (List UInt8)) (schedule : List (Fin cfg.nthreads)) :
    WorkPool cfg.nthreads (FileOp String UInt8) (String → Option (List UInt8)) :=
  (WorkPool.start _ files).run FileOp.act cfg.nchunks.toNat cfg.chunkWorker schedule

/-- The merge of one region: the records of its scratch files, chunk by chunk, and the
files unlinked. -/
def mergeRegion (d : NodeExportDir) (ri : ℕ) : NodeExportDir :=
  let (records, files) :=
    ((List.range cfg.nchunks.toNat).map fun ci => cfg.path ci ri).foldl
      (fun s p => (s.1 ++ nodeRecordFormat.readRecords ((s.2 p).getD []),
        Function.update s.2 p none)) ([], d.scratch)
  let region_name := ascii ((cfg.regions.map RegionEntry.name).getD ri "")
  { scratch := files
    nodes := Function.update d.nodes ri
      (some (writeNodeFile region_name (cfg.wgs84_bboxes ri) (cfg.created_at ri) records)) }

/-- The run under a schedule; `none` where the pool has not ended yet, or where `nchunks`
comes out as no positive number. -/
def exportNodes (d : NodeExportDir) (schedule : List (Fin cfg.nthreads)) :
    Option NodeExportDir :=
  if cfg.nchunks ≤ 0 then none
  else
    let pool := cfg.chunkPass d.scratch schedule
    if pool.hasFinished then
      some ((List.range cfg.regions.length).foldl cfg.mergeRegion
        { d with scratch := pool.shared })
    else none

end NodeExport

end Gpsxdb
