import Mathlib.Tactic
import Gpsxdb.Library.Word
import Gpsxdb.Library.WorkPool
import Gpsxdb.Library.Windows
import Gpsxdb.Library.Framing
import Gpsxdb.Library.Sorted
import Gpsxdb.Delta.PointWKB
import Gpsxdb.Export.TempPaths

/-!
`processPair` of `regional_db_export`: one parent and child table, cut by id into
chunks that workers classify against all regions.

* `CopyRow`, `CopyTable`: a table and what `COPY` gives of it;
* `PairExport`: the pair, the regions and the options of a run;
* `windowFor`: the ids of a chunk;
* `ScratchFile`, `ScratchAction`: the scratch files, by region and chunk, and what a
  worker does to them; `parentWorkForChunk`, `childWorkForChunk`;
* `parentPass`, `childPass`, `merge`: the two pools under their schedules and the
  merge of the scratch files; `processPair`.

A file is its bytes by its name; all calls of the file system succeed.  A stream is
written through at once, since a scratch file is read only after its writer is
closed.  The manifest is left out.
-/

namespace Gpsxdb

/-! ### Tables -/

/-- A row of a `COPY`: its bytes, and the bigint of its first field. -/
structure CopyRow where
  raw : List UInt8
  id : ℤ
deriving DecidableEq

/-- A table with the rows `SELECT * .. WHERE id BETWEEN lo AND hi` gives, in any
order; a row is a message of less than 4 GiB. -/
structure CopyTable where
  rows : List CopyRow
  between : ℤ → ℤ → List CopyRow
  between_perm : ∀ lo hi, (between lo hi).Perm (rows.filter fun r => lo ≤ r.id ∧ r.id ≤ hi)
  raw_lt : ∀ r ∈ rows, r.raw.length < 2 ^ 32

/-- `RegionIndex::Entry`, with `RegionIndex::matches`. -/
structure RegionEntry (G : Type) where
  name : String
  isMatch : G → Bool

/-- Regions at different places have different names. -/
lemma RegionEntry.getD_name_inj {G : Type} {regions : List (RegionEntry G)}
    (hnodup : (regions.map RegionEntry.name).Nodup) {ri ri' : ℕ} (hri : ri < regions.length)
    (hri' : ri' < regions.length)
    (h : (regions.map RegionEntry.name).getD ri "" = (regions.map RegionEntry.name).getD ri' "") :
    ri = ri' := by
  have hlen : ri < (regions.map RegionEntry.name).length := by rwa [List.length_map]
  have hlen' : ri' < (regions.map RegionEntry.name).length := by rwa [List.length_map]
  rw [List.getD_eq_getElem?_getD, List.getD_eq_getElem?_getD, List.getElem?_eq_getElem hlen,
    List.getElem?_eq_getElem hlen'] at h
  exact (hnodup.getElem_inj_iff).mp h

/-- One call of `processPair`. -/
structure PairExport (G : Type) where
  pair : TablePair
  pair_mem : pair ∈ kTablePairs
  parent : CopyTable
  child : CopyTable
  /-- `id` is the primary key of the parent -/
  nodup_ids : (parent.rows.map CopyRow.id).Nodup
  /-- `WkbDecode::decode` of a row's geometry, `none` for a null as well -/
  decode : CopyRow → Option G
  /-- `collectVertices` -/
  vertices : G → List Coord
  /-- a vertex as a geometry -/
  ofPoint : Coord → G
  out_dir : String
  regions : List (RegionEntry G)
  nodup_names : (regions.map RegionEntry.name).Nodup
  threads : ℤ
  extra_vertices_only : Bool

/-- The length prefix of a scratch row. -/
def lengthPrefix : Prefix UInt8 where
  width := 4
  bound := 2 ^ 32
  encode := fun n => wu32 (UInt32.ofNat n)
  decode := fun bs => match bs with
    | [a, b, c, d] => a.toNat + 2 ^ 8 * b.toNat + 2 ^ 16 * c.toNat + 2 ^ 24 * d.toNat
    | _ => 0
  width_pos := by decide
  length_encode := fun _ => rfl
  decode_encode := by
    intro n hn
    simp only [wu32, UInt32.toNat_toUInt8, UInt32.toNat_shiftRight, UInt32.toNat_ofNat',
      UInt32.reduceToNat, Nat.reduceMod, Nat.shiftRight_eq_div_pow, Nat.reducePow]
    omega

/-! ### Scratch files -/

/-- What a scratch file is for. -/
inductive ScratchContent where
  | parent
  | child
  | extra_vertices
deriving DecidableEq

/-- A scratch file: its content, region and chunk. -/
structure ScratchFile where
  content : ScratchContent
  ri : ℕ
  ci : ℕ
deriving DecidableEq

/-- What a worker does. -/
inductive ScratchAction where
  | fopen (f : ScratchFile)
  | fwrite (f : ScratchFile) (bytes : List UInt8)
  /-- `local_maps[ci].entries.emplace_back(id, bitmask)` -/
  | emplace (ci : ℕ) (id : ℤ) (bitmask : BitVec 32)

/-- The files, and the local maps of the chunks. -/
structure Scratch where
  files : String → Option (List UInt8)
  local_maps : ℕ → List (ℤ × BitVec 32)

namespace PairExport

variable {G : Type} (cfg : PairExport G)

/-- The table name in a scratch file's name. -/
def contentName : ScratchContent → String
  | .parent => cfg.pair.parent
  | .child => cfg.pair.child
  | .extra_vertices => "extra_vertices"

/-- `parent_temp`, `child_temp` and `extra_vertex_temp`. -/
def path (f : ScratchFile) : String :=
  tempPath cfg.out_dir ((cfg.regions.map RegionEntry.name).getD f.ri "") f.ci
    (cfg.contentName f.content)

/-- An action on the files and maps. -/
def act (s : Scratch) : ScratchAction → Scratch
  | .fopen f => { s with files := Function.update s.files (cfg.path f) (some []) }
  | .fwrite f bytes =>
      { s with
        files := Function.update s.files (cfg.path f)
          ((s.files (cfg.path f)).map (· ++ bytes)) }
  | .emplace ci id bitmask =>
      { s with
        local_maps := Function.update s.local_maps ci (s.local_maps ci ++ [(id, bitmask)]) }

/-! ### Chunks -/

/-- `SELECT MIN(id), MAX(id)`. -/
def minMax : Option (ℤ × ℤ) :=
  match (cfg.parent.rows.map CopyRow.id).min?, (cfg.parent.rows.map CopyRow.id).max? with
  | some min_id, some max_id => some (min_id, max_id)
  | _, _ => none

/-- `nthreads`. -/
def nthreads : ℕ := (max 1 cfg.threads).toNat

/-- `kChunksPerThread`. -/
def kChunksPerThread : ℤ := 8

/-- `nchunks`. -/
def nchunks (min_id max_id : ℤ) : ℤ :=
  let span := max_id - min_id + 1
  wrapInt32 (max 1 (min (cfg.nthreads * kChunksPerThread) span))

/-- `windowFor`. -/
def windowFor (min_id max_id : ℤ) (ci : ℕ) : ℤ × ℤ :=
  window min_id max_id
    (windowWidth (max_id - min_id + 1) (cfg.nchunks min_id max_id)) ci

/-- `emit_extra_vertices`. -/
def emit_extra_vertices : Bool := cfg.pair.parent != "nodes"

/-- Whether a row's geometry decodes and matches a region. -/
def rowMatches (r : CopyRow) (ri : ℕ) : Bool :=
  match cfg.decode r, cfg.regions[ri]? with
  | some g, some region => region.isMatch g
  | _, _ => false

/-- The bit of a region. -/
def regionBit (ri : ℕ) : BitVec 32 := 1#32 <<< ri

/-- The `bitmask` of a row. -/
def bitmask (r : CopyRow) : BitVec 32 :=
  (List.range cfg.regions.length).foldl
    (fun m ri => if cfg.rowMatches r ri then m ||| regionBit ri else m) 0#32

/-- The bytes of a vertex record. -/
def vertexRecord (c : Coord) : List UInt8 := wf64 c.lon_m ++ wf64 c.lat_m

/-- The vertices of a row outside a region. -/
def outsideVertices (r : CopyRow) (ri : ℕ) : List Coord :=
  match cfg.decode r, cfg.regions[ri]? with
  | some g, some region => (cfg.vertices g).filter fun v => !region.isMatch (cfg.ofPoint v)
  | _, _ => []

/-- The writers of a chunk being opened. -/
def openWriters (content : ScratchContent) (ci : ℕ) : List ScratchAction :=
  (List.range cfg.regions.length).map fun ri => .fopen ⟨content, ri, ci⟩

/-- The body of the parent loop. -/
def parentRow (ci : ℕ) (r : CopyRow) : List ScratchAction :=
  ((List.range cfg.regions.length).flatMap fun ri =>
    if cfg.rowMatches r ri then
      (if cfg.extra_vertices_only then []
        else [.fwrite ⟨.parent, ri, ci⟩ (lengthPrefix.frame r.raw)])
      ++ (if cfg.emit_extra_vertices then
          (cfg.outsideVertices r ri).map fun v =>
            .fwrite ⟨.extra_vertices, ri, ci⟩ (vertexRecord v)
        else [])
    else [])
  ++ if cfg.bitmask r ≠ 0#32 then [.emplace ci r.id (cfg.bitmask r)] else []

/-- `parentWorkForChunk`. -/
def parentWorkForChunk (min_id max_id : ℤ) (ci : ℕ) : List ScratchAction :=
  let (lo, hi) := cfg.windowFor min_id max_id ci
  if lo > hi then []
  else
    (if cfg.extra_vertices_only then [] else cfg.openWriters .parent ci)
    ++ (if cfg.emit_extra_vertices then cfg.openWriters .extra_vertices ci else [])
    ++ (cfg.parent.between lo hi).flatMap (cfg.parentRow ci)

/-- The order of `std::sort` on the entries of a map. -/
def entryLE (a b : ℤ × BitVec 32) : Bool := a.1 < b.1 || (a.1 == b.1 && a.2.toNat ≤ b.2.toNat)

/-- `lookupBitmask`. -/
def lookupBitmask (entries : List (ℤ × BitVec 32)) (id : ℤ) : BitVec 32 :=
  ((searchBy Prod.fst entries id).map Prod.snd).getD 0#32

/-- The body of the child loop. -/
def childRow (entries : List (ℤ × BitVec 32)) (ci : ℕ) (r : CopyRow) : List ScratchAction :=
  let mask := lookupBitmask entries r.id
  if mask = 0#32 then []
  else (List.range cfg.regions.length).flatMap fun ri =>
    if mask &&& regionBit ri ≠ 0#32 then [.fwrite ⟨.child, ri, ci⟩ (lengthPrefix.frame r.raw)]
    else []

/-- `childWorkForChunk`. -/
def childWorkForChunk (local_maps : ℕ → List (ℤ × BitVec 32)) (min_id max_id : ℤ) (ci : ℕ) :
    List ScratchAction :=
  let (lo, hi) := cfg.windowFor min_id max_id ci
  if lo > hi then []
  else cfg.openWriters .child ci
    ++ (cfg.child.between lo hi).flatMap (cfg.childRow (local_maps ci) ci)

/-! ### The two passes -/

/-- A pool of the workers. -/
abbrev Pool : Type := WorkPool cfg.nthreads ScratchAction Scratch

/-- `runPool(parentWorkForChunk)` under a schedule. -/
def parentPass (min_id max_id : ℤ) (files : String → Option (List UInt8))
    (schedule : List (Fin cfg.nthreads)) : cfg.Pool :=
  (WorkPool.start _ ⟨files, fun _ => []⟩).run cfg.act (cfg.nchunks min_id max_id).toNat
    (cfg.parentWorkForChunk min_id max_id) schedule

/-- The local maps, sorted. -/
def sortMaps (s : Scratch) : Scratch :=
  { s with local_maps := fun ci => (s.local_maps ci).mergeSort entryLE }

/-- `runPool(childWorkForChunk)` under a schedule. -/
def childPass (min_id max_id : ℤ) (s : Scratch) (schedule : List (Fin cfg.nthreads)) : cfg.Pool :=
  (WorkPool.start _ s).run cfg.act (cfg.nchunks min_id max_id).toNat
    (cfg.childWorkForChunk s.local_maps min_id max_id) schedule

/-- The scratch files after both passes, once the pools have ended;
`--extra-vertices-only` has no child pass. -/
def passes (min_id max_id : ℤ) (files : String → Option (List UInt8))
    (schedule schedule' : List (Fin cfg.nthreads)) : Option (String → Option (List UInt8)) :=
  let parents := cfg.parentPass min_id max_id files schedule
  let children := cfg.childPass min_id max_id (sortMaps parents.shared) schedule'
  if !parents.hasFinished then none
  else if cfg.extra_vertices_only then some parents.shared.files
  else if children.hasFinished then some children.shared.files else none

/-! ### The merge -/

/-- `mergeTempFiles` over some paths: the rows read, and the files unlinked. -/
def mergeTempFiles (files : String → Option (List UInt8)) (paths : List String) :
    List (List UInt8) × (String → Option (List UInt8)) :=
  paths.foldl (fun s p => (s.1 ++ lengthPrefix.readFrames ((s.2 p).getD []),
    Function.update s.2 p none)) ([], files)

/-- `appendExtraVertices`: the bytes appended, and the files unlinked. -/
def appendExtraVertices (files : String → Option (List UInt8)) (paths : List String) :
    List UInt8 × (String → Option (List UInt8)) :=
  paths.foldl (fun s p => (s.1 ++ (s.2 p).getD [], Function.update s.2 p none)) ([], files)

/-- What `PgCopyBinary::Writer` writes: the header, the rows, the trailer. -/
def copyBinary (rows : List (List UInt8)) : List UInt8 :=
  [0x50, 0x47, 0x43, 0x4F, 0x50, 0x59, 0x0A, 0xFF, 0x0D, 0x0A, 0x00]
    ++ [0, 0, 0, 0] ++ [0, 0, 0, 0] ++ rows.flatten ++ [0xFF, 0xFF]

end PairExport

/-- The scratch files and the files of the regions' directories. -/
structure ExportDir where
  scratch : String → Option (List UInt8)
  /-- `<parent>.bin` of each region -/
  parent_bin : ℕ → Option (List UInt8)
  /-- `<child>.bin` of each region -/
  child_bin : ℕ → Option (List UInt8)
  /-- `extra_vertices.bin` of each region -/
  extra_vertices : ℕ → Option (List UInt8)

namespace PairExport

variable {G : Type} (cfg : PairExport G)

/-- The scratch files of a region. -/
def paths (content : ScratchContent) (nchunks ri : ℕ) : List String :=
  (List.range nchunks).map fun ci => cfg.path ⟨content, ri, ci⟩

/-- The merge of one region. -/
def mergeRegion (nchunks : ℕ) (d : ExportDir) (ri : ℕ) : ExportDir :=
  let d :=
    if cfg.extra_vertices_only then d
    else
      let (prows, files) := mergeTempFiles d.scratch (cfg.paths .parent nchunks ri)
      let (crows, files) := mergeTempFiles files (cfg.paths .child nchunks ri)
      { d with
        scratch := files
        parent_bin := Function.update d.parent_bin ri (some (copyBinary prows))
        child_bin := Function.update d.child_bin ri (some (copyBinary crows)) }
  if cfg.emit_extra_vertices then
    let (bytes, files) := appendExtraVertices d.scratch (cfg.paths .extra_vertices nchunks ri)
    { d with
      scratch := files
      extra_vertices := Function.update d.extra_vertices ri
        (some ((d.extra_vertices ri).getD [] ++ bytes)) }
  else d

/-- `processPair` under the schedules of its two pools; `none` where a pool has not
ended yet, or where `nchunks` comes out as no positive number. -/
def processPair (d : ExportDir) (schedule schedule' : List (Fin cfg.nthreads)) :
    Option ExportDir :=
  if cfg.extra_vertices_only && !cfg.emit_extra_vertices then some d
  else match cfg.minMax with
    | none => some d
    | some (min_id, max_id) =>
        let n := cfg.nchunks min_id max_id
        if n ≤ 0 then none
        else
          (cfg.passes min_id max_id d.scratch schedule schedule').map fun files =>
            (List.range cfg.regions.length).foldl (cfg.mergeRegion n.toNat)
              { d with scratch := files }

end PairExport

end Gpsxdb
