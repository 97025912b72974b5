import Mathlib.Tactic

/-!
`build_regional_bundles.sh`: which of its exporter runs stamps a bundle, and when
the rows in it were read.

* `RegionDir`, `Staging`: the staging directories, with the times at which the
  rows of their files were read from the master;
* `dbExport`: a run of `regional_db_export`, which writes a manifest only where
  there is none;
* `bigPhase`, `nodePhase`, `bundleRegion`, `build`: the script, with any options,
  any clocks, and whatever an earlier run has left behind.
-/

namespace Gpsxdb

/-! ### Staging directories -/

/-- The tables of the five big pairs. -/
def bigTableFiles : List String :=
  ["ways.bin", "way_tags.bin", "areas.bin", "area_tags.bin", "roads.bin", "road_tags.bin",
    "relations.bin", "relation_tags.bin", "nodes.bin", "node_tags.bin"]

/-- A region's directory: the stamp of its manifest, the read times of the rows of
each file, and of the nodes of the slice moved there. -/
structure RegionDir where
  exported_at : Option ℤ
  files : String → Option (List ℤ)
  nodes : Option (List ℤ)

/-- No directory. -/
def RegionDir.empty : RegionDir := ⟨none, fun _ => none, none⟩

/-- A row or a node of the directory was read at the given time. -/
def RegionDir.ReadAt (d : RegionDir) (τ : ℤ) : Prop :=
  (∃ f reads, d.files f = some reads ∧ τ ∈ reads) ∨ ∃ reads, d.nodes = some reads ∧ τ ∈ reads

/-- The region directories and node slices below the staging directories. -/
structure Staging (D R : Type) where
  dirs : D → R → RegionDir
  slices : D → R → Option (List ℤ)

/-- One run of `regional_db_export`: its clock when it comes to a region's
manifest, and the files it writes with their read times. -/
structure ExportPass (R : Type) where
  stamp : R → ℤ
  reads : R → String → Option (List ℤ)

variable {D R : Type} [DecidableEq D] [DecidableEq R]

/-- What a run writes to a region's directory: the big tables with
`extra_vertices.bin`, or the others. -/
def RegionDir.export (d : RegionDir) (r : R) (big : Bool) (p : ExportPass R) : RegionDir where
  exported_at := some (d.exported_at.getD (p.stamp r))
  files f := if (bigTableFiles ++ ["extra_vertices.bin"]).contains f = big then
      (p.reads r f).or (d.files f)
    else d.files f
  nodes := d.nodes

/-- `regional_db_export` under `--big-tables-only` or `--small-tables-only`. -/
def Staging.dbExport (s : Staging D R) (big : Bool) (out_dir : D) (regions : List R)
    (p : ExportPass R) : Staging D R :=
  { s with dirs := fun d r => if d = out_dir ∧ r ∈ regions then (s.dirs d r).export r big p
      else s.dirs d r }

/-! ### The script -/

/-- The options of the script. -/
structure BuildOptions (D R : Type) where
  staging_dir : D
  small_staging_dir : D
  regions : List R
  region_batch_size : Option ℕ
  skip_big_tables : Bool
  skip_node_export : Bool

/-- The clocks of a run: one exporter run for each batch, the scan of the node
store, and one exporter run for each region bundled. -/
structure BuildTimes (R : Type) where
  big : ℕ → ExportPass R
  nodes : R → List ℤ
  small : ℕ → ExportPass R

/-- The batch loop: a batch is run once it has `n` regions, the last one in any
case. -/
def batchLoop (n : ℕ) : List R → List R → List (List R)
  | batch, [] => if batch = [] then [] else [batch]
  | batch, r :: rs =>
      if n ≤ (batch ++ [r]).length then (batch ++ [r]) :: batchLoop n [] rs
      else batchLoop n (batch ++ [r]) rs

namespace BuildOptions

variable (o : BuildOptions D R) (t : BuildTimes R)

/-- The region lists `--big-tables-only` is run with. -/
def batches : List (List R) :=
  match o.region_batch_size with
  | none => [o.regions]
  | some n => batchLoop n [] o.regions

/-- The `--big-tables-only` runs. -/
def bigPhase (s : Staging D R) : Staging D R :=
  if o.skip_big_tables then s
  else o.batches.zipIdx.foldl (fun s (batch, i) => s.dbExport true o.staging_dir batch (t.big i)) s

/-- `regional_export`. -/
def nodePhase (s : Staging D R) : Staging D R :=
  if o.skip_node_export then s
  else { s with slices := fun d r =>
    if d = o.staging_dir ∧ r ∈ o.regions then some (t.nodes r) else s.slices d r }

/-- The directory that is bundled: the node slice is moved in, and the big tables
too where the small tables are staged elsewhere. -/
def bundleDir (s : Staging D R) (r : R) : RegionDir :=
  let small := s.dirs o.small_staging_dir r
  let big := s.dirs o.staging_dir r
  { exported_at := small.exported_at
    files := fun f =>
      if o.small_staging_dir ≠ o.staging_dir ∧ bigTableFiles.contains f then
        (big.files f).or (small.files f)
      else small.files f
    nodes := (s.slices o.staging_dir r).or small.nodes }

/-- The turn of the last loop for one region: its small tables are exported, the
directory is bundled and removed. -/
def bundleRegion (p : ExportPass R) (s : Staging D R) (r : R) : RegionDir × Staging D R :=
  let s := s.dbExport false o.small_staging_dir [r] p
  (o.bundleDir s r,
    { dirs := fun d q => if (d = o.small_staging_dir ∨ d = o.staging_dir) ∧ q = r then .empty
        else s.dirs d q
      slices := fun d q => if d = o.staging_dir ∧ q = r then none else s.slices d q })

/-- The last loop. -/
def bundleLoop : ℕ → Staging D R → List R → List RegionDir
  | _, _, [] => []
  | i, s, r :: rs =>
      let (bundle, s) := o.bundleRegion (t.small i) s r
      bundle :: bundleLoop (i + 1) s rs

/-- The bundles of a run, in the order of the regions. -/
def build (s : Staging D R) : List RegionDir :=
  o.bundleLoop t 0 (o.nodePhase t (o.bigPhase t s)) o.regions

/-! ### Stamps -/

/-- The stamp of the first `--big-tables-only` run for a region, where it goes to
the directory that is bundled. -/
def bigStamp (r : R) : Option ℤ :=
  if o.skip_big_tables ∨ o.small_staging_dir ≠ o.staging_dir then none
  else (o.batches.zipIdx.find? fun (batch, _) => batch.contains r).map fun (_, i) =>
    (t.big i).stamp r

/-- The stamp of the `i`-th bundle: that of an earlier run, of the big tables, or
of the small ones. -/
def stampOf (s : Staging D R) (i : ℕ) (r : R) : ℤ :=
  if r ∈ o.regions.take i then (t.small i).stamp r
  else ((s.dirs o.small_staging_dir r).exported_at.or (o.bigStamp t r)).getD ((t.small i).stamp r)

end BuildOptions

end Gpsxdb
