import Mathlib.Tactic
import Gpsxdb.Import.Members
import Gpsxdb.Import.SingleEntry
import Gpsxdb.Delta.DeltaApplier

/-!
What the bulk import and a delta make of the same way and the same relation.

* `Database.osm`: the import's tables in the terms of a delta;
* `rows_apply_way`, `way_agrees_iff`: **ways** agree where no polygon is made of a
  way that `isArea` calls a line;
* `occupied`: the tables a relation is in; `occupied_import`, `occupied_delta`,
  `occupied_delete`;
* `relation_agrees_iff`: **relations** agree where they are no multipolygons and
  have a tag that survives.
-/

namespace Gpsxdb

/-! ### The import's tables -/

/-- A row of the import. -/
def GeomRecord.toRow (r : GeomRecord) : Row Content := geomRow r.id r.name r.geog

/-- A table of the import among all. -/
def Table.osm : Table → OsmTable
  | .ways => .ways
  | .areas => .areas
  | .roads => .roads
  | .relations => .relations

/-- The import's tables, with no nodes. -/
def Database.osm (d : Database) : TargetTables Content where
  rows
    | .ways => (d.rows .ways).map GeomRecord.toRow
    | .areas => (d.rows .areas).map GeomRecord.toRow
    | .roads => (d.rows .roads).map GeomRecord.toRow
    | .relations => (d.rows .relations).map GeomRecord.toRow
    | .nodes => []
  tags
    | .ways => d.tags .ways
    | .areas => d.tags .areas
    | .roads => d.tags .roads
    | .relations => d.tags .relations
    | .nodes => []

@[simp] lemma Database.rows_osm (d : Database) (t : Table) :
    d.osm.rows t.osm = (d.rows t).map GeomRecord.toRow := by
  cases t <;> rfl

/-- The rows of an id, row by row. -/
lemma Database.rowsOf_osm (d : Database) (t : Table) (id : ℤ) :
    d.osm.rowsOf t.osm id = (d.rowsOf t id).map GeomRecord.toRow := by
  rw [TargetTables.rowsOf, Database.rows_osm, Database.rowsOf, List.filter_map]
  rfl

/-- The two `getWay` agree. -/
lemma Database.getWay_osm (d : Database) (id : ℤ) : d.osm.getWay id = d.getWay id := by
  have hrows : d.osm.rowsOf .ways id ++ d.osm.rowsOf .areas id
      = (d.rowsOf .ways id ++ d.rowsOf .areas id).map GeomRecord.toRow := by
    rw [List.map_append, ← d.rowsOf_osm .ways id, ← d.rowsOf_osm .areas id]
    rfl
  rw [TargetTables.getWay, Database.getWay, hrows]
  cases d.rowsOf .ways id ++ d.rowsOf .areas id <;> rfl

/-! ### Ways -/

/-- The row a way gets from a delta in empty tables: a polygon goes to `areas`. -/
def deltaWayRows (select : ℤ → Option Coord) (w : WayEntry) (t : OsmTable) : List (Row Content) :=
  match buildWayGeom (wayCoords select w) with
  | none => []
  | some (geog, is_closed) =>
      if hasSurvivingTag w.tags false && t = (if is_closed then .areas else .ways) then
        [geomRow w.id w.name (some geog)]
      else []

/-- The rows `upsertWay` leaves in empty tables. -/
lemma rows_apply_way {s : DeltaState} (hways : s.tables.rows .ways = [])
    (hareas : s.tables.rows .areas = []) (p : Projection) {type : ChangeType}
    (htype : type ≠ .delete) (w : WayEntry) {t : OsmTable} (ht : t = .ways ∨ t = .areas) :
    (s.apply p (.way type w)).tables.rows t = deltaWayRows s.nodes w t := by
  have hcalls : s.apply p (.way type w) = s.execAll (upsertWay s.nodes w) := by
    cases type with
    | create => rfl
    | modify => rfl
    | delete => exact absurd rfl htype
  rw [hcalls, upsertWay, deltaWayGeom_eq, deltaWayRows]
  rcases buildWayGeom (wayCoords s.nodes w) with _ | ⟨geog, _ | _⟩
  · rcases ht with rfl | rfl
    · exact hways
    · exact hareas
  · simp only [DeltaState.execAll_cons, DeltaState.execAll_nil, DeltaState.exec]
    rcases ht with rfl | rfl
    · rw [TargetTables.rows_upsertEntity_of_nil (by simp [hways])]
      simp
    · simp [TargetTables.deleteEntity, hareas]
  · simp only [DeltaState.execAll_cons, DeltaState.execAll_nil, DeltaState.exec]
    rcases ht with rfl | rfl
    · simp [TargetTables.deleteEntity, hways]
    · rw [TargetTables.rows_upsertEntity_of_nil (by simp [hareas])]
      simp

/-- The rows the import of a single way leaves. -/
lemma rows_import_way {T : ℕ} {env : ImportEnv} (hskip : env.skip_ways = false) (w : WayEntry)
    {moves : List (Fin T)} {σ : ImportState T}
    (h : (ImportState.start env .empty [.way w]).run env moves = some σ) (hdone : σ.Done)
    (t : Table) : σ.db.rows t = ImportState.keptRows (wayKept env.select w) t := by
  have hrows : entryRows env .empty (.way w) = wayKept env.select w := by
    rw [entryRows, hskip, if_neg (by simp)]
  -- a way has one row at most, and so a table has
  have hone : ∀ s, ImportState.keptRows (wayKept env.select w) s = []
      ∨ ∃ r, ImportState.keptRows (wayKept env.select w) s = [r] := by
    intro s
    have hk : ∀ k : Kept,
        ImportState.keptRows [k] s = [] ∨ ∃ r, ImportState.keptRows [k] s = [r] := by
      intro k
      by_cases hs : k.table = s <;> simp [ImportState.keptRows, hs]
    rw [wayKept]
    split
    · exact Or.inl rfl
    · split
      · exact hk _
      · exact Or.inl rfl
  have hfresh : ImportState.Fresh .empty (entryRows env .empty (.way w)) := by
    intro s
    rw [hrows, Database.empty, List.nil_append]
    rcases hone s with hs | ⟨r, hs⟩
    · simp [hs]
    · simp [hs]
  have hperm := ImportState.rows_of_single hfresh h hdone t
  rw [hrows, Database.empty, List.nil_append] at hperm
  rcases hone t with ht | ⟨r, ht⟩
  · rw [ht] at hperm ⊢
    exact hperm.eq_nil
  · rw [ht] at hperm ⊢
    exact List.perm_singleton.mp hperm

/-- The way's resolved points close: it becomes a polygon. -/
def closesUp (select : ℤ → Option Coord) (w : WayEntry) : Bool :=
  4 ≤ (wayCoords select w).length && endsMeet (wayCoords select w)

/-- **Delta and import agree on a way** unless it closes, is worth keeping and is
called a line by `isArea`. -/
theorem way_agrees_iff {T : ℕ} {env : ImportEnv} (hskip : env.skip_ways = false) (w : WayEntry)
    {moves : List (Fin T)} {σ : ImportState T}
    (hrun : (ImportState.start env .empty [.way w]).run env moves = some σ) (hdone : σ.Done)
    (p : Projection) {type : ChangeType} (htype : type ≠ .delete)
    {s : DeltaState} (hnodes : s.nodes = env.select) (hways : s.tables.rows .ways = [])
    (hareas : s.tables.rows .areas = []) :
    (∀ t, t = .ways ∨ t = .areas →
        (s.apply p (.way type w)).tables.rows t = σ.db.osm.rows t)
      ↔ hasSurvivingTag w.tags false = false ∨ closesUp env.select w = false
        ∨ isArea true w.tags = true := by
  have himport := rows_import_way hskip w hrun hdone
  have hdelta := fun t ht => rows_apply_way hways hareas p htype w (t := t) ht
  have hiff : (∀ t, t = .ways ∨ t = .areas →
        (s.apply p (.way type w)).tables.rows t = σ.db.osm.rows t)
      ↔ deltaWayRows env.select w .ways
          = (ImportState.keptRows (wayKept env.select w) .ways).map GeomRecord.toRow
        ∧ deltaWayRows env.select w .areas
          = (ImportState.keptRows (wayKept env.select w) .areas).map GeomRecord.toRow := by
    rw [← himport .ways, ← himport .areas, ← hnodes]
    constructor
    · intro h
      exact ⟨(hdelta _ (Or.inl rfl)).symm.trans (h _ (Or.inl rfl)),
        (hdelta _ (Or.inr rfl)).symm.trans (h _ (Or.inr rfl))⟩
    · rintro ⟨h1, h2⟩ t (rfl | rfl)
      · exact (hdelta _ (Or.inl rfl)).trans h1
      · exact (hdelta _ (Or.inr rfl)).trans h2
  rw [hiff, deltaWayRows, deltaWayRows, wayKept, buildWayGeom, closesUp]
  have harea : isArea false w.tags = false := by simp [isArea]
  by_cases hlen : (wayCoords env.select w).length < 2
  · have h4 : ¬ 4 ≤ (wayCoords env.select w).length := by omega
    simp [hlen, h4, ImportState.keptRows]
  · simp only [hlen, if_false]
    by_cases hk : hasSurvivingTag w.tags false = true
    · rcases hc : decide (4 ≤ (wayCoords env.select w).length) && endsMeet (wayCoords env.select w)
        with _ | _
      · simp [hk, harea, ImportState.keptRows, GeomRecord.toRow]
      · by_cases ha : isArea true w.tags = true
        · simp [hk, ha, ImportState.keptRows, GeomRecord.toRow]
        · simp [hk, ha, ImportState.keptRows]
    · simp [hk, ImportState.keptRows]

/-! ### A closed way -/

open ImportState (squareNodes squareWay squareEnv squareWood coastline)

/-- The tag of a roundabout. -/
def roundabout : Tags := .single (ascii "junction") (ascii "roundabout")

/-- A projection the ways do not depend on. -/
def planeProjection : Projection := ⟨fun x y => ⟨x, y⟩, 3857⟩

/-- Tables without rows, over the corners of the square. -/
def squareState : DeltaState := ⟨squareNodes, Database.empty.osm⟩

theorem way_agrees_iff_coastline : ∃ σ : ImportState 1,
    (ImportState.start squareEnv .empty [.way (squareWay coastline)]).run squareEnv
        [0, 0, 0, 0, 0, 0] = some σ
      ∧ ∀ t, t = .ways ∨ t = .areas →
        (squareState.apply planeProjection (.way .create (squareWay coastline))).tables.rows t
          = σ.db.osm.rows t := by
  have hex : ∃ σ : ImportState 1,
      (ImportState.start squareEnv .empty [.way (squareWay coastline)]).run squareEnv
        [0, 0, 0, 0, 0, 0] = some σ ∧ σ.Done :=
    ⟨_, rfl, rfl, fun i => by fin_cases i; exact ⟨rfl, rfl⟩⟩
  obtain ⟨σ, hrun, hdone⟩ := hex
  exact ⟨σ, hrun, (way_agrees_iff rfl (squareWay coastline) hrun hdone planeProjection
    (by decide) rfl rfl rfl).mpr (Or.inr (Or.inr (by decide)))⟩

/-- A roundabout is a way to the import and an area to a delta. -/
theorem roundabout_changes_table : ∃ σ : ImportState 1,
    (ImportState.start squareEnv .empty [.way (squareWay roundabout)]).run squareEnv
        [0, 0, 0, 0, 0, 0] = some σ
      ∧ σ.Done ∧ (σ.db.osm.rows .ways).length = 1 ∧ σ.db.osm.rows .areas = []
      ∧ (squareState.apply planeProjection (.way .modify (squareWay roundabout))).tables.rows .ways
        = []
      ∧ ((squareState.apply planeProjection
        (.way .modify (squareWay roundabout))).tables.rows .areas).length = 1 := by
  refine ⟨_, rfl, ⟨rfl, fun i => ?_⟩, rfl, rfl, rfl, rfl⟩
  fin_cases i
  exact ⟨rfl, rfl⟩

/-! ### Relations -/

/-- The places a relation is stored in. -/
def relationKeys (id : ℤ) : List (OsmTable × ℤ) := [(.areas, -id), (.relations, id), (.roads, id)]

/-- The places of a relation that hold a row. -/
def occupied (d : TargetTables Content) (id : ℤ) : List (OsmTable × ℤ) :=
  (relationKeys id).filter fun k => d.rowsOf k.1 k.2 ≠ []

/-- The places of a relation by what they hold. -/
lemma occupied_eq {d : TargetTables Content} {id : ℤ} {a r o : Bool}
    (ha : a = decide (d.rowsOf .areas (-id) ≠ [])) (hr : r = decide (d.rowsOf .relations id ≠ []))
    (ho : o = decide (d.rowsOf .roads id ≠ [])) :
    occupied d id = (if a then [(.areas, -id)] else []) ++ (if r then [(.relations, id)] else [])
      ++ if o then [(.roads, id)] else [] := by
  subst ha hr ho
  simp only [occupied, relationKeys, List.filter_cons, List.filter_nil]
  split <;> split <;> split <;> rfl

/-- The relation is not stored yet. -/
def NotStored (d : Database) (id : ℤ) : Prop :=
  d.rowsOf .areas (-id) = [] ∧ d.rowsOf .relations id = [] ∧ d.rowsOf .roads id = []

/-- A multipolygon has a tag that survives. -/
lemma hasSurvivingTag_of_isMultipolygon {tags : Tags} (h : isMultipolygon tags = true) :
    hasSurvivingTag tags false = true := by
  simp only [isMultipolygon, Bool.or_eq_true, beq_iff_eq, Tags.find, Option.map_eq_some_iff] at h
  rw [hasSurvivingTag, List.any_eq_true]
  rcases h with ⟨⟨k, v⟩, hfind, rfl⟩ | ⟨⟨k, v⟩, hfind, rfl⟩
  · have hk : k = ascii "type" := by simpa using List.find?_some hfind
    subst hk
    exact ⟨_, List.mem_of_find?_eq_some hfind, by simp only [Bool.false_and]; decide⟩
  · have hk : k = ascii "type" := by simpa using List.find?_some hfind
    subst hk
    exact ⟨_, List.mem_of_find?_eq_some hfind, by simp only [Bool.false_and]; decide⟩

/-- The places the import stores a relation in. -/
lemma keptKeys_relationRows (d : Database) (r : RelationEntry) :
    ImportState.keptKeys (relationRows d r)
      = if isMultipolygon r.tags then
          if (buildMultipolygon r
            (d.getWayCoordsMap (r.way_members.map RelationMember.id))).isSome
          then [(.areas, -r.id)] else []
        else (.relations, r.id) ::
          if isRoad r.tags && (buildRelationGeom d.osm r).isSome then [(.roads, r.id)] else [] := by
  have hgeom : buildRelationGeom d.osm r
      = relationGeom (r.way_members.filterMap fun m => d.getWay m.id) := by
    simp only [buildRelationGeom, Database.getWay_osm]
  rw [relationRows, hgeom]
  by_cases hm : isMultipolygon r.tags = true
  · rw [if_pos hm, if_pos hm, areaKept]
    split
    · simp [ImportState.keptKeys, *]
    · simp [ImportState.keptKeys, hasSurvivingTag_of_isMultipolygon hm, *]
  · rw [if_neg hm, if_neg hm, routeKept]
    generalize relationGeom (r.way_members.filterMap fun m => d.getWay m.id) = geom
    cases geom with
    | none => simp [ImportState.keptKeys]
    | some geog => by_cases hroad : isRoad r.tags = true <;> simp [ImportState.keptKeys, hroad]

/-- Where the import stores a relation. -/
lemma occupied_import {T : ℕ} {env : ImportEnv} {d : Database}
    (hd : ∀ t, ((d.rows t).map GeomRecord.id).Nodup) {r : RelationEntry}
    (hnew : NotStored d r.id) {moves : List (Fin T)} {σ : ImportState T}
    (h : (ImportState.start env d [.relation r]).run env moves = some σ) (hdone : σ.Done) :
    occupied σ.db.osm r.id
      = if isMultipolygon r.tags then
          if (buildMultipolygon r
            (d.getWayCoordsMap (r.way_members.map RelationMember.id))).isSome
          then [(.areas, -r.id)] else []
        else (.relations, r.id) ::
          if isRoad r.tags && (buildRelationGeom d.osm r).isSome then [(.roads, r.id)] else [] := by
  have hkeys := keptKeys_relationRows d r
  obtain ⟨h1, h2, h3⟩ := hnew
  have hfresh : ImportState.Fresh d (entryRows env d (.relation r)) := by
    refine ImportState.fresh_of_keys hd ?_ ?_
    · rw [entryRows, hkeys]
      split <;> split <;> simp
    · rw [entryRows, hkeys]
      split <;> split <;> simp [h1, h2, h3]
  have hrows : ∀ t id, d.rowsOf t id = [] → decide (σ.db.osm.rowsOf t.osm id ≠ [])
      = decide ((t, id) ∈ ImportState.keptKeys (relationRows d r)) := by
    intro t id hid
    have hiff : σ.db.rowsOf t id = [] ↔ _ := ImportState.rowsOf_of_single hfresh h hdone
    rw [Database.rowsOf_osm]
    simp [hiff, hid, entryRows]
  rw [occupied_eq (hrows .areas _ h1).symm (hrows .relations _ h2).symm (hrows .roads _ h3).symm,
    hkeys]
  split
  · split <;> simp
  · split <;> simp

/-- Where a delta stores a relation that is not stored yet. -/
lemma occupied_delta {s : DeltaState} {d : Database} (hs : s.tables = d.osm) {r : RelationEntry}
    (hnew : NotStored d r.id) (p : Projection) {type : ChangeType} (htype : type ≠ .delete) :
    occupied (s.apply p (.relation type r)).tables r.id
      = if hasSurvivingTag r.tags false then (.relations, r.id) ::
          if isRoad r.tags && (buildRelationGeom d.osm r).isSome then [(.roads, r.id)] else []
        else [] := by
  have hcalls : s.apply p (.relation type r) = s.execAll (upsertRelation d.osm r) := by
    rw [← hs]
    cases type with
    | create => rfl
    | modify => rfl
    | delete => exact absurd rfl htype
  have hareas : d.osm.rowsOf .areas (-r.id) = [] := by
    have h := d.rowsOf_osm .areas (-r.id)
    rwa [hnew.1] at h
  -- the call on `roads` leaves the other two places alone
  have hplaces : ∀ (D : TargetTables Content) (o : Bool),
      (∀ u i, u ≠ .roads → D.rowsOf u i = (d.osm.upsertEntity .relations
        (geomRow r.id r.name (buildRelationGeom d.osm r)) r.tags).rowsOf u i) →
      o = decide (D.rowsOf .roads r.id ≠ []) →
      occupied D r.id = (if hasSurvivingTag r.tags false then [(.relations, r.id)] else [])
        ++ if o then [(.roads, r.id)] else [] := by
    intro D o hD ho
    rw [occupied_eq (a := false) (r := hasSurvivingTag r.tags false) ?_ ?_ ho]
    · simp
    · rw [hD _ _ (by decide), TargetTables.rowsOf_upsertEntity_of_ne (by decide), hareas]
      simp
    · rw [hD _ _ (by decide)]
      simp [TargetTables.rowsOf_upsertEntity_eq_nil (r := geomRow r.id r.name _)]
  rw [hcalls, upsertRelation]
  by_cases hroad : (isRoad r.tags && (buildRelationGeom d.osm r).isSome) = true
  · simp only [hroad, if_true, DeltaState.execAll_cons, DeltaState.execAll_nil, DeltaState.exec, hs]
    rw [hplaces _ (hasSurvivingTag r.tags false)
      (fun u i hu => TargetTables.rowsOf_upsertEntity_of_ne hu ..)
      (by simp [TargetTables.rowsOf_upsertEntity_eq_nil (r := geomRow r.id r.name _)])]
    by_cases hk : hasSurvivingTag r.tags false = true <;> simp [hk]
  · simp only [hroad, Bool.false_eq_true, if_false, DeltaState.execAll_cons, DeltaState.execAll_nil,
      DeltaState.exec, hs]
    rw [hplaces _ false (fun u i hu => TargetTables.rowsOf_deleteEntity_of_ne hu ..) (by simp)]
    simp

/-- A deletion empties the places of a relation that is no area. -/
lemma occupied_delete {s : DeltaState} {id : ℤ} (h : s.tables.rowsOf .areas (-id) = [])
    (p : Projection) (r : RelationEntry) (hid : r.id = id) :
    occupied (s.apply p (.relation .delete r)).tables id = [] := by
  subst hid
  simp only [DeltaState.apply, calls, deleteRelation, DeltaState.execAll_cons,
    DeltaState.execAll_nil, DeltaState.exec]
  rw [occupied_eq (a := false) (r := false) (o := false)]
  · simp
  · rw [TargetTables.rowsOf_deleteEntity_of_ne (by decide),
      TargetTables.rowsOf_deleteEntity_of_ne (by decide), h]
    simp
  · rw [TargetTables.rowsOf_deleteEntity_of_ne (by decide)]
    simp
  · simp

/-- No area under the negated id, from the places occupied. -/
lemma rowsOf_areas_of_occupied {d : TargetTables Content} {id : ℤ}
    (h : (.areas, -id) ∉ occupied d id) : d.rowsOf .areas (-id) = [] := by
  by_contra hne
  exact h (List.mem_filter.mpr ⟨by simp [relationKeys], by simpa using hne⟩)

/-- **Delta and import agree on a relation**, on tables that do not have it yet,
exactly where it is no multipolygon and a tag of it survives: they store it in the
same places, and a deletion then empties them. -/
theorem relation_agrees_iff {T : ℕ} {env : ImportEnv} {d : Database}
    (hd : ∀ t, ((d.rows t).map GeomRecord.id).Nodup) {r : RelationEntry}
    (hnew : NotStored d r.id) {moves : List (Fin T)} {σ : ImportState T}
    (hrun : (ImportState.start env d [.relation r]).run env moves = some σ) (hdone : σ.Done)
    (p : Projection) (type : ChangeType) (htype : type ≠ .delete)
    {s s' : DeltaState} (hs : s.tables = d.osm) (hs' : s'.tables = σ.db.osm) :
    (occupied (s.apply p (.relation type r)).tables r.id = occupied s'.tables r.id
        ∧ occupied ((s.apply p (.relation type r)).apply p (.relation .delete r)).tables r.id = []
        ∧ occupied (s'.apply p (.relation .delete r)).tables r.id = [])
      ↔ isMultipolygon r.tags = false ∧ hasSurvivingTag r.tags false = true := by
  have himport := occupied_import hd hnew hrun hdone
  have hdelta := occupied_delta hs hnew p htype
  have hareas : (.areas, -r.id) ∉ occupied (s.apply p (.relation type r)).tables r.id := by
    rw [hdelta]
    split
    · split <;> simp
    · simp
  rw [← hs'] at himport
  constructor
  · rintro ⟨heq, -, -⟩
    rw [heq] at hareas hdelta
    by_cases hm : isMultipolygon r.tags = true
    · -- a multipolygon is worth keeping, so the delta stores it among the relations
      rw [himport, if_pos hm, if_pos (hasSurvivingTag_of_isMultipolygon hm)] at hdelta
      split at hdelta <;> simp at hdelta
    · rw [himport, if_neg hm] at hdelta
      refine ⟨Bool.eq_false_iff.mpr hm, ?_⟩
      by_contra hk
      rw [if_neg hk] at hdelta
      simp at hdelta
  · rintro ⟨hm, hk⟩
    have heq : occupied (s.apply p (.relation type r)).tables r.id = occupied s'.tables r.id := by
      rw [hdelta, himport, if_pos hk, if_neg (Bool.eq_false_iff.mp hm)]
    exact ⟨heq, occupied_delete (rowsOf_areas_of_occupied hareas) p r rfl,
      occupied_delete (rowsOf_areas_of_occupied (heq ▸ hareas)) p r rfl⟩

/-! ### A route and a wood -/

/-- A bus route of one way. -/
def busRoute : RelationEntry where
  id := 5
  name := []
  tags := ⟨[(ascii "type", ascii "route"), (ascii "route", ascii "bus")], by decide⟩
  way_members := [⟨1, []⟩]

theorem relation_agrees_iff_route : ∃ σ : ImportState 1,
    (ImportState.start squareEnv .empty [.relation busRoute]).run squareEnv [0, 0, 0, 0, 0, 0, 0, 0]
        = some σ
      ∧ occupied (squareState.apply planeProjection (.relation .create busRoute)).tables 5
        = occupied σ.db.osm 5 := by
  have hex : ∃ σ : ImportState 1,
      (ImportState.start squareEnv .empty [.relation busRoute]).run squareEnv
        [0, 0, 0, 0, 0, 0, 0, 0] = some σ ∧ σ.Done :=
    ⟨_, rfl, rfl, fun i => by fin_cases i; exact ⟨rfl, rfl⟩⟩
  obtain ⟨σ, hrun, hdone⟩ := hex
  have himport : (DeltaState.mk squareNodes σ.db.osm).tables = σ.db.osm := rfl
  exact ⟨σ, hrun, ((relation_agrees_iff (d := .empty) (fun _ => List.nodup_nil) ⟨rfl, rfl, rfl⟩
    hrun hdone planeProjection .create (by decide) (s := squareState) rfl himport).mpr
    (by decide)).1⟩

/-- Tables that hold the way around the square as an area. -/
def squareArea : Database where
  rows := fun t => if t = .areas then
    [⟨1, [], some (.polygon [[⟨0, 0⟩, ⟨1, 0⟩, ⟨1, 1⟩, ⟨0, 1⟩, ⟨0, 0⟩]])⟩] else []
  tags := fun _ => []

/-- The coordinates the wood reads. -/
lemma getWayCoordsMap_squareArea : squareArea.getWayCoordsMap [1]
    = fun id => if id = 1 then [⟨0, 0⟩, ⟨1, 0⟩, ⟨1, 1⟩, ⟨0, 1⟩, ⟨0, 0⟩] else [] := by
  funext id
  rw [Database.getWayCoordsMap_apply]
  by_cases h : id = 1
  · subst h
    rfl
  · simp [h]

/-- A wood is an area to the import and no area to a delta, and its deletion
leaves the area behind. -/
theorem wood_changes_table : ∃ σ : ImportState 1,
    (ImportState.start squareEnv squareArea [.relation squareWood]).run squareEnv
        [0, 0, 0, 0, 0, 0, 0] = some σ
      ∧ σ.Done ∧ NotStored squareArea 1
      ∧ occupied σ.db.osm 1 = [(.areas, -1)]
      ∧ occupied ((DeltaState.mk squareNodes squareArea.osm).apply planeProjection
        (.relation .modify squareWood)).tables 1 = [(.relations, 1)]
      ∧ occupied ((DeltaState.mk squareNodes σ.db.osm).apply planeProjection
        (.relation .delete squareWood)).tables 1 = [(.areas, -1)] := by
  -- three moves up to the read, the read, and three moves that store the area
  have hread : ∃ σ₃ σ : ImportState 1,
      (ImportState.start squareEnv squareArea [.relation squareWood]).run squareEnv [0, 0, 0]
          = some σ₃
        ∧ σ₃.step squareEnv 0 = some (σ₃.setThread 0
          ((σ₃.threads 0).storeArea squareWood (squareArea.getWayCoordsMap [1])))
        ∧ (σ₃.setThread 0 ((σ₃.threads 0).storeArea squareWood fun id =>
          if id = 1 then [⟨0, 0⟩, ⟨1, 0⟩, ⟨1, 1⟩, ⟨0, 1⟩, ⟨0, 0⟩] else [])).run squareEnv [0, 0, 0]
          = some σ
        ∧ σ.Done ∧ occupied σ.db.osm 1 = [(.areas, -1)]
        ∧ occupied ((DeltaState.mk squareNodes σ.db.osm).apply planeProjection
          (.relation .delete squareWood)).tables 1 = [(.areas, -1)] :=
    ⟨_, _, rfl, rfl, rfl, ⟨rfl, fun i => by fin_cases i; exact ⟨rfl, rfl⟩⟩, rfl, rfl⟩
  obtain ⟨σ₃, σ, h₃, h₄, h₇, hdone, himport, hdelete⟩ := hread
  refine ⟨σ, ?_, hdone, ⟨rfl, rfl, rfl⟩, himport, rfl, hdelete⟩
  have hsplit : ([0, 0, 0, 0, 0, 0, 0] : List (Fin 1)) = [0, 0, 0] ++ 0 :: [0, 0, 0] := rfl
  rw [ImportState.run] at h₃ h₇ ⊢
  rw [hsplit, List.foldlM_append, h₃, Option.bind_eq_bind, Option.bind_some, List.foldlM_cons, h₄,
    getWayCoordsMap_squareArea, Option.bind_eq_bind, Option.bind_some, h₇]

end Gpsxdb
