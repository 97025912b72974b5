import Mathlib.Tactic
import Gpsxdb.Library.KeyedTable
import Gpsxdb.Import.Tags
import Gpsxdb.Regional.NodeMap

/-!
A regional target: what `regional_install` does to its tables and its node file,
and what a region-aware poll does to its tables.

* `RegionBundle`: the files of a bundle, each of which may be missing;
* `appendParentGroup`, `appendChildGroup`, `runScript`: the statements of the
  install script, which fails as a whole where one of them does;
* `install`: the script and then the node file, copied or merged;
* `upsertEntity`, `diffTags`, `deleteEntity`: the calls of
  `RegionalDeltaApplier`.

Only the five OSM tables are modelled; what a row holds besides its id is left
open.  A poll never writes the node file.
-/

namespace Gpsxdb

/-! ### Tables -/

/-- The OSM tables of a target. -/
inductive OsmTable where
  | ways
  | areas
  | roads
  | relations
  | nodes
deriving DecidableEq

/-- A row of an OSM table. -/
structure Row (C : Type) where
  id : ℤ
  content : C
deriving DecidableEq

/-- The OSM tables with their tag tables. -/
structure TargetTables (C : Type) where
  rows : OsmTable → List (Row C)
  tags : OsmTable → List TagRecord

/-- A bundle: the rows of a table come from one with a primary key. -/
structure RegionBundle (C : Type) where
  rows : OsmTable → Option (List (Row C))
  tags : OsmTable → Option (List TagRecord)
  nodes : Option RegionalNodeMap
  nodup : ∀ t l, rows t = some l → (l.map Row.id).Nodup

/-- A target: its tables and its node file, if there is one. -/
structure RegionalTarget (C : Type) where
  tables : TargetTables C
  nodes : Option RegionalNodeMap

variable {C : Type}

/-- The tag rows of an id. -/
def TargetTables.tagsOf (d : TargetTables C) (t : OsmTable) (id : ℤ) : List TagRecord :=
  (d.tags t).filter fun g => g.id == id

namespace RegionBundle

/-- The rows of a table. -/
def rowList (b : RegionBundle C) (t : OsmTable) : List (Row C) := (b.rows t).getD []

/-- The tag rows of a table. -/
def tagList (b : RegionBundle C) (t : OsmTable) : List TagRecord := (b.tags t).getD []

/-- The tag rows of an id. -/
def tagsOf (b : RegionBundle C) (t : OsmTable) (id : ℤ) : List TagRecord :=
  (b.tagList t).filter fun g => g.id == id

end RegionBundle

/-! ### The install script -/

/-- The session of the script: the tables and the temporary tables of new ids. -/
structure Session (C : Type) where
  tables : TargetTables C
  new_ids : OsmTable → Option (List ℤ)

/-- `appendParentGroup`: the ids the table has not, then
`INSERT ... ON CONFLICT DO NOTHING`; nothing where the file is missing. -/
def appendParentGroup (b : RegionBundle C) (s : Session C) (t : OsmTable) : Session C :=
  match b.rows t with
  | none => s
  | some staging =>
      let new := staging.filter fun r => !hasKey Row.id (s.tables.rows t) r.id
      let rows := staging.foldl (insertNew Row.id) (s.tables.rows t)
      { tables := { s.tables with rows := Function.update s.tables.rows t rows }
        new_ids := Function.update s.new_ids t (some (new.map Row.id)) }

/-- The join of a child group: a staged tag row once for each new id it matches. -/
def joinNewIds (staging : List TagRecord) (ids : List ℤ) : List TagRecord :=
  staging.flatMap fun c => (ids.filter fun id => id == c.id).map fun _ => c

/-- `appendChildGroup`: an error where the table of new ids was not created. -/
def appendChildGroup (b : RegionBundle C) (s : Session C) (t : OsmTable) : Option (Session C) :=
  match b.tags t with
  | none => some s
  | some staging =>
      match s.new_ids t with
      | none => none
      | some ids =>
          let tags := s.tables.tags t ++ joinNewIds staging ids
          some { s with tables := { s.tables with tags := Function.update s.tables.tags t tags } }

/-- `kParents` and `kChildren`, as far as they are OSM tables. -/
def kParents : List OsmTable := [.ways, .areas, .roads, .relations, .nodes]

/-- The script: one transaction of all parents and then all children. -/
def runScript (b : RegionBundle C) (d : TargetTables C) : Option (TargetTables C) :=
  (kParents.foldlM (appendChildGroup b)
    (kParents.foldl (appendParentGroup b) ⟨d, fun _ => none⟩)).map Session.tables

/-- Step 5: the node file of the bundle is copied, or merged into the one there
is. -/
def installNodes (b : RegionBundle C) (nodes : Option RegionalNodeMap) : Option RegionalNodeMap :=
  match b.nodes, nodes with
  | none, nodes => nodes
  | some region, none => some region
  | some region, some nodes => some (nodes.merge region)

/-- `regional_install`, if its script goes through. -/
def RegionalTarget.install (σ : RegionalTarget C) (b : RegionBundle C) :
    Option (RegionalTarget C) :=
  (runScript b σ.tables).map fun d => ⟨d, installNodes b σ.nodes⟩

/-! ### The calls of a poll -/

/-- The tags that survive, cleaned: the loop of `diffTags` passes over the
others. -/
def survivingTags (tags : Tags) (is_node : Bool) : List (Text × Text) :=
  let has_elevation := is_node && hasElevationTag tags
  (tags.entries.filter fun (k, v) =>
    !isDroppedTag is_node has_elevation k v
      && !(k == ascii "building" && !isAviationRelevantBuildingValue v)
      && !isBlankTag k v).map fun (k, v) => (sanitizeTag k, sanitizeTag v)

/-- Tag rows are left exactly where the row itself is kept. -/
lemma survivingTags_eq_nil {tags : Tags} {is_node : Bool} :
    survivingTags tags is_node = [] ↔ hasSurvivingTag tags is_node = false := by
  rw [survivingTags, List.map_eq_nil_iff, List.filter_eq_nil_iff, hasSurvivingTag,
    List.any_eq_false]

/-- One turn of the loop of `diffTags`, with the values `existing` still has:
`INSERT`, `UPDATE` or nothing. -/
def diffTag (id : ℤ) (s : List TagRecord × (Text → Option Text)) (tag : Text × Text) :
    List TagRecord × (Text → Option Text) :=
  let rows := match s.2 tag.1 with
    | none => s.1 ++ [⟨id, tag.1, tag.2⟩]
    | some value =>
        if value ≠ tag.2 then
          s.1.map fun g => if g.id = id ∧ g.key = tag.1 then { g with value := tag.2 } else g
        else s.1
  (rows, Function.update s.2 tag.1 none)

/-- `diffTags`: the tag rows of an entity brought to its tags. -/
def diffTags (id : ℤ) (tags : Tags) (is_node : Bool) (rows : List TagRecord) : List TagRecord :=
  let existing (key : Text) : Option Text :=
    ((rows.filter fun g => g.id == id && g.key == key).getLast?).map TagRecord.value
  let (rows, existing) := (survivingTags tags is_node).foldl (diffTag id) (rows, existing)
  rows.filter fun g => !(g.id == id && (existing g.key).isSome)

namespace TargetTables

/-- `updateNode`, `updateWay`, `updateArea`, `updateRelation`, `updateRoad`. -/
def upsertEntity (d : TargetTables C) (t : OsmTable) (r : Row C) (tags : Tags) :
    TargetTables C where
  rows := Function.update d.rows t
    (if hasSurvivingTag tags (t = .nodes) then upsert Row.id (d.rows t) r
      else (d.rows t).filter fun q => q.id != r.id)
  tags := Function.update d.tags t (diffTags r.id tags (t = .nodes) (d.tags t))

/-- `deleteEntity`. -/
def deleteEntity (d : TargetTables C) (t : OsmTable) (id : ℤ) : TargetTables C where
  rows := Function.update d.rows t ((d.rows t).filter fun q => q.id != id)
  tags := Function.update d.tags t ((d.tags t).filter fun g => g.id != id)

end TargetTables

namespace RegionalTarget

/-- A target nothing is installed on. -/
def empty : RegionalTarget C := ⟨⟨fun _ => [], fun _ => []⟩, none⟩

/-- The targets any sequence of installs and polls leads to: an install may end
between its script and its node file, and a poll makes any of its calls. -/
inductive Reached : RegionalTarget C → Prop
  | empty : Reached empty
  | install {σ σ' : RegionalTarget C} {b : RegionBundle C} :
      Reached σ → σ.install b = some σ' → Reached σ'
  | script {σ : RegionalTarget C} {b : RegionBundle C} {d : TargetTables C} :
      Reached σ → runScript b σ.tables = some d → Reached { σ with tables := d }
  | upsert {σ : RegionalTarget C} (t : OsmTable) (r : Row C) (tags : Tags) :
      Reached σ → Reached { σ with tables := σ.tables.upsertEntity t r tags }
  | delete {σ : RegionalTarget C} (t : OsmTable) (id : ℤ) :
      Reached σ → Reached { σ with tables := σ.tables.deleteEntity t id }

end RegionalTarget

end Gpsxdb
