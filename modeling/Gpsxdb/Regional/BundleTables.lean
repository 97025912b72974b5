import Mathlib.Tactic
import Gpsxdb.Library.Join
import Gpsxdb.Regional.Install

/-!
The tables of a bundle, from one end to the other: the lists of
`regional_db_export` and the whole script of `regional_install`.

* `MasterTable`, `RegionTables`: the tables of a master and of a target;
* `kTables`, `kGlobalTables`, `RegionExport.files`: what the exporter writes for a
  region;
* `InstallScript.kParents`, `InstallScript.kChildren`, `InstallScript.run`: the
  groups of the install script in their order, and what they do to a target.

A `SELECT` returns its rows in any order, so two bundles with the same rows in each
file are as good as each other (`TableBundle.Reordered`).  All tables exist at both
ends, and no `\copy` fails.  `regional_install` runs the script in one transaction:
where a statement of it fails, nothing is installed.
-/

namespace Gpsxdb

/-! ### Tables -/

/-- The tables with a primary key that the exporter reads. -/
inductive MasterTable where
  | osm (t : OsmTable)
  | airports
  | frequencies
  | runways
  | navaids
  | faa_obstacles
  | class_airspace
  | special_use_airspace
  | international_airspace
  | military_training_routes
  | national_defense_tfr
  | terrain
  | wmm
  | wmm_bands
  | countries
  | regions
deriving DecidableEq

/-- A row of `tags`, the tags of airports. -/
structure AirportTag where
  airport_ident : Text
  entity_type : Text
  key_name : Text
  key_value : Option Text
deriving DecidableEq

/-- The tables of a master or a target. -/
structure RegionTables (C : Type) where
  rows : MasterTable → List (Row C)
  tags : OsmTable → List TagRecord
  airport_tags : List AirportTag

/-- The files of a bundle, each of which may be missing. -/
structure TableBundle (C : Type) where
  rows : MasterTable → Option (List (Row C))
  tags : OsmTable → Option (List TagRecord)
  airport_tags : Option (List AirportTag)

/-- The columns that a join reads. -/
structure AirportColumns (C : Type) where
  ident : C → Text
  airport_ref : C → ℤ

variable {C : Type}

/-- Tables without a row: a fresh schema. -/
def RegionTables.empty : RegionTables C := ⟨fun _ => [], fun _ => [], []⟩

namespace TableBundle

/-- The rows of a file, none where it is missing. -/
def rowList (b : TableBundle C) (t : MasterTable) : List (Row C) := (b.rows t).getD []

/-- The tag rows of a file. -/
def tagList (b : TableBundle C) (t : OsmTable) : List TagRecord := (b.tags t).getD []

/-- The rows of `airport_tags.bin`. -/
def airportTagList (b : TableBundle C) : List AirportTag := b.airport_tags.getD []

/-- The same files, with their rows in another order. -/
structure Reordered (b b' : TableBundle C) : Prop where
  rows : ∀ t, Option.Rel List.Perm (b.rows t) (b'.rows t)
  tags : ∀ t, Option.Rel List.Perm (b.tags t) (b'.tags t)
  airport_tags : Option.Rel List.Perm b.airport_tags b'.airport_tags

lemma Reordered.refl (b : TableBundle C) : b.Reordered b := by
  have hrel : ∀ {α : Type} (l : Option (List α)), Option.Rel List.Perm l l := by
    intro α l
    cases l with
    | none => exact .none
    | some l => exact .some (List.Perm.refl l)
  exact ⟨fun _ => hrel _, fun _ => hrel _, hrel _⟩

end TableBundle

/-! ### The exporter -/

/-- What the `select_sql` of a table is. -/
inductive SelectSql where
  /-- `SELECT * FROM t WHERE ST_Intersects(..)` -/
  | intersects
  /-- `SELECT t.* FROM t JOIN airports a ON a.id = t.airport_ref WHERE ..` -/
  | ofAirport
deriving DecidableEq

/-- `kTables`, but for `airport_tags`. -/
def kTables : List (MasterTable × SelectSql) :=
  [(.airports, .intersects), (.frequencies, .ofAirport), (.runways, .ofAirport),
    (.navaids, .intersects), (.faa_obstacles, .intersects), (.class_airspace, .intersects),
    (.special_use_airspace, .intersects), (.international_airspace, .intersects),
    (.military_training_routes, .intersects), (.national_defense_tfr, .intersects),
    (.terrain, .intersects), (.wmm, .intersects), (.wmm_bands, .intersects)]

/-- `kGlobalTables`. -/
def kGlobalTables : List MasterTable := [.countries, .regions]

/-- A run of `regional_db_export` for one region. -/
structure RegionExport (C : Type) where
  master : RegionTables C
  /-- `id`, or `rid`, is a primary key -/
  nodup : ∀ t, ((master.rows t).map Row.id).Nodup
  columns : AirportColumns C
  /-- whether a row's geometry meets the region: `ST_Intersects`, and for the big tables
  the polygon test of `processPair` -/
  intersects : MasterTable → Row C → Bool
  threads : ℤ

namespace RegionExport

variable (cfg : RegionExport C)

/-- The airports that a join of the exporter meets. -/
def airportsInside : List (Row C) :=
  (cfg.master.rows .airports).filter (cfg.intersects .airports)

/-- The rows of a `SELECT`. -/
def select (t : MasterTable) : SelectSql → List (Row C)
  | .intersects => (cfg.master.rows t).filter (cfg.intersects t)
  | .ofAirport =>
      joinOn (fun r => cfg.columns.airport_ref r.content) Row.id (cfg.master.rows t)
        cfg.airportsInside

/-- The `SELECT` of `airport_tags`. -/
def selectAirportTags : List AirportTag :=
  joinOn AirportTag.airport_ident (fun a => cfg.columns.ident a.content) cfg.master.airport_tags
    cfg.airportsInside

/-- `nthreads`. -/
def nthreads : ℤ := max 1 cfg.threads

/-- `copyOutTerrainParallel`: one part file for each remainder, one after the other. -/
def copyOutTerrainParallel (rows : List (Row C)) : List (Row C) :=
  (List.range cfg.nthreads.toNat).flatMap fun (k : ℕ) =>
    rows.filter fun r => r.id.tmod cfg.nthreads = k

/-- The `.bin` of a table of `kTables`. -/
def copyOut (t : MasterTable) (sql : SelectSql) : List (Row C) :=
  if t = .terrain then cfg.copyOutTerrainParallel (cfg.select t sql) else cfg.select t sql

/-- The rows of a big table that match the region. -/
def bigRows (t : OsmTable) : List (Row C) :=
  (cfg.master.rows (.osm t)).filter (cfg.intersects (.osm t))

/-- The tag rows of these. -/
def bigTags (t : OsmTable) : List TagRecord :=
  (cfg.master.tags t).filter fun g => hasKey Row.id (cfg.bigRows t) g.id

/-- The files of the region; `processPair` writes none where the parent is empty. -/
def files : TableBundle C where
  rows
    | .osm t => if (cfg.master.rows (.osm t)).isEmpty then none else some (cfg.bigRows t)
    | t =>
        if t ∈ kGlobalTables then some (cfg.master.rows t)
        else (kTables.lookup t).map (cfg.copyOut t)
  tags t := if (cfg.master.rows (.osm t)).isEmpty then none else some (cfg.bigTags t)
  airport_tags := some cfg.selectAirportTags

end RegionExport

/-! ### The installer -/

namespace InstallScript

/-- `ParentGroup`: its table, and whether it has a temporary table of new ids. -/
structure ParentGroup where
  table : MasterTable
  new_ids_temp : Bool
deriving DecidableEq

/-- `kParents`. -/
def kParents : List ParentGroup :=
  [⟨.osm .ways, true⟩, ⟨.osm .areas, true⟩, ⟨.osm .roads, true⟩, ⟨.osm .relations, true⟩,
    ⟨.osm .nodes, true⟩, ⟨.airports, true⟩, ⟨.navaids, false⟩, ⟨.frequencies, false⟩,
    ⟨.runways, false⟩, ⟨.faa_obstacles, false⟩, ⟨.class_airspace, false⟩,
    ⟨.special_use_airspace, false⟩, ⟨.international_airspace, false⟩, ⟨.wmm_bands, false⟩,
    ⟨.terrain, false⟩, ⟨.wmm, false⟩, ⟨.countries, false⟩, ⟨.regions, false⟩]

/-- `kChildren`: the tag tables, each with the new ids of its parent. -/
def kChildren : List OsmTable := [.ways, .areas, .roads, .relations, .nodes]

/-- The session of the script: the tables, and the temporary tables of new ids; the one
of the airports has an `ident` column. -/
structure Session (C : Type) where
  tables : RegionTables C
  new_ids : MasterTable → Option (List ℤ)
  new_idents : Option (List Text)

variable (columns : AirportColumns C) (b : TableBundle C)

/-- `appendParentGroup`: the new ids, where the group keeps them, and then
`INSERT ... ON CONFLICT DO NOTHING`; nothing where the file is missing. -/
def appendParentGroup (s : Session C) (g : ParentGroup) : Session C :=
  match b.rows g.table with
  | none => s
  | some staging =>
      let new := staging.filter fun r => !hasKey Row.id (s.tables.rows g.table) r.id
      let rows := staging.foldl (insertNew Row.id) (s.tables.rows g.table)
      { tables := { s.tables with rows := Function.update s.tables.rows g.table rows }
        new_ids :=
          if g.new_ids_temp then Function.update s.new_ids g.table (some (new.map Row.id))
          else s.new_ids
        new_idents :=
          if g.new_ids_temp ∧ g.table = .airports then
            some (new.map fun r => columns.ident r.content)
          else s.new_idents }

/-- `appendChildGroup`: an error where the table of new ids was not created. -/
def appendChildGroup (s : Session C) (t : OsmTable) : Option (Session C) :=
  match b.tags t with
  | none => some s
  | some staging =>
      match s.new_ids (.osm t) with
      | none => none
      | some ids =>
          let tags := s.tables.tags t ++ joinNewIds staging ids
          some { s with tables := { s.tables with tags := Function.update s.tables.tags t tags } }

/-- `appendAirportTags`: an error where the table of new airports was not created. -/
def appendAirportTags (s : Session C) : Option (Session C) :=
  match b.airport_tags with
  | none => some s
  | some staging =>
      match s.new_idents with
      | none => none
      | some idents =>
          let airport_tags :=
            s.tables.airport_tags ++ joinOn AirportTag.airport_ident id staging idents
          some { s with tables := { s.tables with airport_tags := airport_tags } }

/-- The script: all parents, then all children, then the tags of airports. -/
def run (d : RegionTables C) : Option (RegionTables C) := do
  let s := kParents.foldl (appendParentGroup columns b) ⟨d, fun _ => none, none⟩
  let s ← kChildren.foldlM (appendChildGroup b) s
  let s ← appendAirportTags b s
  some s.tables

end InstallScript

end Gpsxdb
