import Mathlib.Tactic
import Gpsxdb.Delta.DeltaApplier

/-!
`RegionalDeltaApplier`: the changes of a diff applied to the tables of a regional
target.

* `RegionalEnv`: the exported node map and the region tests, which a run never
  changes;
* `RegionalApplier`: the two coordinate buffers `overlay_` and `pending_`, and
  the tables;
* `resolve`, `pendingHit`: the coordinate of a node, and whether it came out of
  `pending_`;
* `promote`, `upsertWay` and the rest, `step`, `run`: changes and flushes.

`inRegion` stands for decoding a geometry and matching it against the regions.
-/

namespace Gpsxdb

/-- The surroundings of a region-aware run. -/
structure RegionalEnv where
  projection : Projection
  node_map : RegionalNodeMap
  nodeInRegion : Coord → Bool
  inRegion : Geog → Bool

/-- The state of a run. -/
structure RegionalApplier where
  overlay : ℤ → Option Coord
  pending : ℤ → Option Coord
  tables : TargetTables Content

/-- What `apply` and `flush` are called with. -/
inductive RegionalEvent where
  | change (c : OSCChange)
  | flush

namespace RegionalApplier

variable (env : RegionalEnv) (s : RegionalApplier)

/-- The start of a process on given tables. -/
def start (d : TargetTables Content) : RegionalApplier := ⟨fun _ => none, fun _ => none, d⟩

/-! ### Coordinates -/

/-- `resolve`: the exported node map, then `overlay_`, then `pending_`. -/
def resolve (id : ℤ) : Option Coord :=
  (env.node_map.select id).or ((s.overlay id).or (s.pending id))

/-- The ids `resolve` notes in `last_pending_hits_`. -/
def pendingHit (id : ℤ) : Bool :=
  (env.node_map.select id).isNone && (s.overlay id).isNone && (s.pending id).isSome

/-- One turn of the promotion loop: `overlay_.emplace` does nothing where the key
is taken. -/
def promote (id : ℤ) : RegionalApplier :=
  match s.pending id with
  | none => s
  | some c => { s with
      overlay := if (s.overlay id).isSome then s.overlay
        else Function.update s.overlay id (some c)
      pending := Function.update s.pending id none }

/-- The promotion loop over `last_pending_hits_`. -/
def promoteAll (w : WayEntry) : RegionalApplier :=
  (w.node_refs.filter (s.pendingHit env)).foldl promote s

/-! ### Changes -/

/-- `createNode`. -/
def createNode (n : NodeEntry) : RegionalApplier :=
  let c := env.projection.toMercator n.lon n.lat
  let s := { s with pending := Function.update s.pending n.id (some c) }
  if n.tags.entries = [] then s
  else if !env.nodeInRegion c then s
  else { s with tables := s.tables.upsertEntity .nodes (env.projection.updateNodeRow n) n.tags }

/-- `modifyNode`. -/
def modifyNode (n : NodeEntry) : RegionalApplier :=
  let c := env.projection.toMercator n.lon n.lat
  let s := { s with pending := Function.update s.pending n.id (some c) }
  if env.nodeInRegion c then
    { s with tables := s.tables.upsertEntity .nodes (env.projection.updateNodeRow n) n.tags }
  else { s with tables := s.tables.deleteEntity .nodes n.id }

/-- `deleteNode`. -/
def deleteNode (id : ℤ) : RegionalApplier where
  overlay := Function.update s.overlay id none
  pending := Function.update s.pending id none
  tables := s.tables.deleteEntity .nodes id

/-- `upsertWay`. -/
def upsertWay (w : WayEntry) : RegionalApplier :=
  match deltaWayGeom (s.resolve env) w with
  | none => s
  | some (geom, is_closed) =>
      if !env.inRegion geom then
        { s with tables := (s.tables.deleteEntity .ways w.id).deleteEntity .areas w.id }
      else
        let s := s.promoteAll env w
        let row := geomRow w.id w.name (some geom)
        if is_closed then
          { s with tables := (s.tables.deleteEntity .ways w.id).upsertEntity .areas row w.tags }
        else
          { s with tables := (s.tables.deleteEntity .areas w.id).upsertEntity .ways row w.tags }

/-- `deleteWay`. -/
def deleteWay (id : ℤ) : RegionalApplier :=
  { s with tables := (s.tables.deleteEntity .ways id).deleteEntity .areas id }

/-- `deleteRelation`, and `upsertRelation` of a relation that is not in the
region. -/
def deleteRelation (id : ℤ) : RegionalApplier :=
  { s with tables := (s.tables.deleteEntity .relations id).deleteEntity .roads id }

/-- `upsertRelation`. -/
def upsertRelation (r : RelationEntry) : RegionalApplier :=
  let geom := buildRelationGeom s.tables r
  if !geom.any env.inRegion then s.deleteRelation r.id
  else
    let row := geomRow r.id r.name geom
    let d := s.tables.upsertEntity .relations row r.tags
    { s with tables := if isRoad r.tags then d.upsertEntity .roads row r.tags
                       else d.deleteEntity .roads r.id }

/-- `apply`. -/
def apply : OSCChange → RegionalApplier
  | .node .create n => s.createNode env n
  | .node .modify n => s.modifyNode env n
  | .node .delete n => s.deleteNode n.id
  | .way .create w => s.upsertWay env w
  | .way .modify w => s.upsertWay env w
  | .way .delete w => s.deleteWay w.id
  | .relation .create r => s.upsertRelation env r
  | .relation .modify r => s.upsertRelation env r
  | .relation .delete r => s.deleteRelation r.id

/-- A change, or the end of a diff: `flush` discards what is left in
`pending_`. -/
def step : RegionalEvent → RegionalApplier
  | .change c => s.apply env c
  | .flush => { s with pending := fun _ => none }

/-- A run. -/
def run (evs : List RegionalEvent) : RegionalApplier := evs.foldl (step env) s

/-- The way is stored as in-region: `upsertWay` gets past its region test. -/
def Accepts (w : WayEntry) : Prop :=
  ∃ geom is_closed, deltaWayGeom (s.resolve env) w = some (geom, is_closed) ∧ env.inRegion geom

@[simp] lemma run_nil : s.run env [] = s := rfl

lemma run_append (evs evs' : List RegionalEvent) :
    s.run env (evs ++ evs') = (s.run env evs).run env evs' := List.foldl_append ..

lemma run_concat (evs : List RegionalEvent) (e : RegionalEvent) :
    s.run env (evs ++ [e]) = (s.run env evs).step env e := s.run_append env evs [e]

end RegionalApplier

end Gpsxdb
