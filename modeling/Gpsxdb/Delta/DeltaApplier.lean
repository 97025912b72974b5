import Mathlib.Tactic
import Gpsxdb.Import.WayThread
import Gpsxdb.Delta.Tables
import Gpsxdb.Delta.PointWKB

/-!
`DeltaApplier`: the changes of a diff applied to the global tables and the node
store.

* `NodeEntry`, `OSCChange`: a change as the reader of `.osc` files passes it on;
* `DeltaCall`: one call on the node store or one transaction of `NavDB`;
* `createNode`, `upsertWay`, `upsertRelation` and the rest, `calls`: the calls a
  change makes, in order;
* `DeltaState`, `exec`, `apply`, `run`: the calls executed one after another,
  change by change.

The node store is the map it stands for.  The counters of changes are left out,
and so is `flush`, since no call of a delta leaves a row in a buffer.
-/

namespace Gpsxdb

/-! ### Changes -/

/-- A node of a file, in WGS84. -/
structure NodeEntry where
  id : ℤ
  name : Text
  tags : Tags
  lon : Double
  lat : Double

/-- The kind of a change. -/
inductive ChangeType where
  | create
  | modify
  | delete
deriving DecidableEq

/-- A change of a diff. -/
inductive OSCChange where
  | node (type : ChangeType) (node : NodeEntry)
  | way (type : ChangeType) (way : WayEntry)
  | relation (type : ChangeType) (relation : RelationEntry)

/-- What a row holds besides its id. -/
inductive Content where
  | node (name : Text) (longitude_m latitude_m : Double) (geog : Text)
  | geom (name : Text) (geog : Option Geog)
deriving DecidableEq

/-- The column `geog` of `ways` and `areas`. -/
def Content.geog : Content → Option Geog
  | node _ _ _ _ => none
  | geom _ geog => geog

/-- A row of any table but `nodes`. -/
abbrev geomRow (id : ℤ) (name : Text) (geog : Option Geog) : Row Content := ⟨id, .geom name geog⟩

/-! ### Calls -/

/-- One operation: `OSMMMap::update`, `OSMMMap::remove`, one of the upserts of
`NavDB`, or `deleteEntity`. -/
inductive DeltaCall where
  | update (id : ℤ) (c : Coord)
  | remove (id : ℤ)
  | upsert (t : OsmTable) (r : Row Content) (tags : Tags)
  | deleteEntity (t : OsmTable) (id : ℤ)

/-- The projection and the SRID of the process. -/
structure Projection where
  toMercator : Double → Double → Coord
  g_srid : UInt32

/-- The row of `updateNode` as `createNode` and `modifyNode` fill it: the point
is built from the coordinates of the file. -/
def Projection.updateNodeRow (p : Projection) (n : NodeEntry) : Row Content :=
  ⟨n.id, .node n.name (p.toMercator n.lon n.lat).lon_m (p.toMercator n.lon n.lat).lat_m
    (pointWKB p.g_srid n.lon n.lat)⟩

/-- `createNode`: an untagged node gets no row. -/
def createNode (p : Projection) (n : NodeEntry) : List DeltaCall :=
  .update n.id (p.toMercator n.lon n.lat) ::
    if n.tags.entries = [] then [] else [.upsert .nodes (p.updateNodeRow n) n.tags]

/-- `modifyNode`. -/
def modifyNode (p : Projection) (n : NodeEntry) : List DeltaCall :=
  [.update n.id (p.toMercator n.lon n.lat), .upsert .nodes (p.updateNodeRow n) n.tags]

/-- `deleteNode`. -/
def deleteNode (id : ℤ) : List DeltaCall := [.remove id, .deleteEntity .nodes id]

/-- `buildLineWKB`. -/
def buildLineWKB (pts : List Coord) (closed : Bool) : Option Geog :=
  if pts.length < 2 then none
  else if closed && 4 ≤ pts.length then some (.polygon [pts]) else some (.lineString pts)

/-- `DeltaApplier::buildWayGeom`, with `is_closed`; `select` is the node store. -/
def deltaWayGeom (select : ℤ → Option Coord) (w : WayEntry) : Option (Geog × Bool) :=
  let coords := wayCoords select w
  if coords.length < 2 then none
  else
    let is_closed := endsMeet coords && 4 ≤ coords.length
    (buildLineWKB coords is_closed).map fun g => (g, is_closed)

/-- `upsertWay`, the body of `createWay` and `modifyWay`. -/
def upsertWay (select : ℤ → Option Coord) (w : WayEntry) : List DeltaCall :=
  match deltaWayGeom select w with
  | none => []
  | some (geom, true) =>
      [.deleteEntity .ways w.id, .upsert .areas (geomRow w.id w.name (some geom)) w.tags]
  | some (geom, false) =>
      [.deleteEntity .areas w.id, .upsert .ways (geomRow w.id w.name (some geom)) w.tags]

/-- `deleteWay`. -/
def deleteWay (id : ℤ) : List DeltaCall := [.deleteEntity .ways id, .deleteEntity .areas id]

namespace TargetTables

/-- `NavDB::getWay`. -/
def getWay (d : TargetTables Content) (id : ℤ) : Option Geog :=
  match d.rowsOf .ways id ++ d.rowsOf .areas id with
  | [] => none
  | r :: _ => r.content.geog

end TargetTables

/-- `buildRelationGeom`: the member ways that are found, their lines merged. -/
def buildRelationGeom (d : TargetTables Content) (r : RelationEntry) : Option Geog :=
  relationGeom (r.way_members.filterMap fun m => d.getWay m.id)

/-- `upsertRelation`, the body of `createRelation` and `modifyRelation`. -/
def upsertRelation (d : TargetTables Content) (r : RelationEntry) : List DeltaCall :=
  let geom := buildRelationGeom d r
  [.upsert .relations (geomRow r.id r.name geom) r.tags,
    if isRoad r.tags && geom.isSome then .upsert .roads (geomRow r.id r.name geom) r.tags
    else .deleteEntity .roads r.id]

/-- `deleteRelation`. -/
def deleteRelation (id : ℤ) : List DeltaCall :=
  [.deleteEntity .relations id, .deleteEntity .roads id]

/-- `apply`: the calls a change makes on the node store and the tables it
finds. -/
def calls (p : Projection) (select : ℤ → Option Coord) (d : TargetTables Content) :
    OSCChange → List DeltaCall
  | .node .create n => createNode p n
  | .node .modify n => modifyNode p n
  | .node .delete n => deleteNode n.id
  | .way .create w => upsertWay select w
  | .way .modify w => upsertWay select w
  | .way .delete w => deleteWay w.id
  | .relation .create r => upsertRelation d r
  | .relation .modify r => upsertRelation d r
  | .relation .delete r => deleteRelation r.id

/-! ### Execution -/

/-- The node store and the tables. -/
structure DeltaState where
  nodes : ℤ → Option Coord
  tables : TargetTables Content

namespace DeltaState

/-- One call. -/
def exec (s : DeltaState) : DeltaCall → DeltaState
  | .update id c => { s with nodes := Function.update s.nodes id (some c) }
  | .remove id => { s with nodes := Function.update s.nodes id none }
  | .upsert t r tags => { s with tables := s.tables.upsertEntity t r tags }
  | .deleteEntity t id => { s with tables := s.tables.deleteEntity t id }

/-- Calls in turn. -/
def execAll (s : DeltaState) (cs : List DeltaCall) : DeltaState := cs.foldl exec s

/-- One change. -/
def apply (p : Projection) (s : DeltaState) (c : OSCChange) : DeltaState :=
  s.execAll (calls p s.nodes s.tables c)

/-- A run over changes. -/
def run (p : Projection) (s : DeltaState) (cs : List OSCChange) : DeltaState := cs.foldl (apply p) s

@[simp] lemma execAll_nil (s : DeltaState) : s.execAll [] = s := rfl

@[simp] lemma execAll_cons (s : DeltaState) (c : DeltaCall) (cs : List DeltaCall) :
    s.execAll (c :: cs) = (s.exec c).execAll cs := rfl

lemma execAll_append (s : DeltaState) (cs cs' : List DeltaCall) :
    s.execAll (cs ++ cs') = (s.execAll cs).execAll cs' := List.foldl_append ..

@[simp] lemma run_nil (p : Projection) (s : DeltaState) : s.run p [] = s := rfl

@[simp] lemma run_cons (p : Projection) (s : DeltaState) (c : OSCChange) (cs : List OSCChange) :
    s.run p (c :: cs) = (s.apply p c).run p cs := rfl

lemma run_append (p : Projection) (s : DeltaState) (cs cs' : List OSCChange) :
    s.run p (cs ++ cs') = (s.run p cs).run p cs' := List.foldl_append ..

end DeltaState

/-! ### Geometries -/

/-- **The two constructions of a way's geometry agree**, that of a delta and that
of the import. -/
theorem deltaWayGeom_eq (select : ℤ → Option Coord) (w : WayEntry) :
    deltaWayGeom select w = buildWayGeom (wayCoords select w) := by
  simp only [deltaWayGeom, buildWayGeom, buildLineWKB]
  split
  · rfl
  · by_cases h4 : 4 ≤ (wayCoords select w).length
    · by_cases he : endsMeet (wayCoords select w) = true <;> simp [h4, he]
    · simp [h4]

end Gpsxdb
