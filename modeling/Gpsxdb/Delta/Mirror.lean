import Mathlib.Tactic
import Gpsxdb.Delta.Tracking
import Gpsxdb.Delta.TagPaths
import Gpsxdb.Import.Kept

/-!
The stored ways against what an import would make of the file as it is now.

* `OsmData`, `patch`: the nodes and ways of a file, and what a change makes of them;
* `keptIn`, `rowOf`, `tagsOf`: what an import stores of the way of an id;
* `outdated`: the ways whose nodes have changed since they were stored;
* `StoredAlike`, `PatchOk`: what a change has to meet; `cells_upsertWay`: the cells a way that
  is upserted writes;
* `Mirrors`, `mirrors_step`, `mirrors_run`: **the tables mirror the file** but for the ways that
  are outdated.
-/

namespace Gpsxdb

/-! ### Files, changed -/

/-- The nodes and the ways of a file, by their ids. -/
structure OsmData where
  nodes : ℤ → Option Coord
  ways : ℤ → Option WayEntry

namespace OsmData

variable (P : OsmData) (p : Projection)

/-- The file after a change. -/
def patch : OSCChange → OsmData
  | .node type n =>
      let coord := if type = .delete then none else some (p.toMercator n.lon n.lat)
      { P with nodes := Function.update P.nodes n.id coord }
  | .way type w =>
      let way := if type = .delete then none else some w
      { P with ways := Function.update P.ways w.id way }
  | .relation _ _ => P

/-- What an import stores in a table of the way of an id. -/
def keptIn (t : OsmTable) (id : ℤ) : Option Kept :=
  (P.ways id).bind fun w => (wayKept P.nodes w).find? fun k => k.table.osm = t

/-- Its row. -/
def rowOf (t : OsmTable) (id : ℤ) : Option (Row Content) :=
  (P.keptIn t id).map fun k => k.row.toRow

/-- The values of its tags under a key. -/
def tagsOf (t : OsmTable) (id : ℤ) (key : Text) : List Text :=
  (P.keptIn t id).elim [] fun k => valuesOf k.tags id key

/-- The ways with a node that the change moves, adds or takes away; a way that is changed
itself is not outdated after it. -/
def outdated (old : ℤ → Bool) : OSCChange → ℤ → Bool
  | .node type n => fun id => old id
      || (P.ways id).any (fun w => w.node_refs.contains n.id)
        && decide ((P.patch p (.node type n)).nodes n.id ≠ P.nodes n.id)
  | .way _ w => fun id => old id && id != w.id
  | .relation _ _ => old

/-- Changes in turn, with the ways they leave outdated. -/
def patchAll (P : OsmData) (old : ℤ → Bool) (cs : List OSCChange) : OsmData × (ℤ → Bool) :=
  cs.foldl (fun s c => (s.1.patch p c, s.1.outdated p s.2 c)) (P, old)

/-- An import and an upsert store the same of a way: no two of its tags clean to one key and
none is of a generic building, its nodes make a line or it is new, and where it closes it is an
area by its tags. -/
structure StoredAlike (w : WayEntry) : Prop where
  apart : ∀ key, (valuesFor w.tags false key).length ≤ 1
  buildings : hasSurvivingTag w.tags false = true →
    ∀ kv, keptEntry w.tags false kv → genericBuilding kv = false
  found : 2 ≤ (wayCoords P.nodes w).length ∨ P.ways w.id = none
  area : hasSurvivingTag w.tags false = false ∨ closesUp P.nodes w = false
    ∨ isArea true w.tags = true

/-- What a change has to meet. -/
def PatchOk : OSCChange → Prop
  | .way .delete w => 0 < w.id
  | .way _ w => 0 < w.id ∧ P.StoredAlike w
  | _ => True

/-- Each change of a run meets its condition in the file it finds. -/
def PatchOkAlong (P : OsmData) : List OSCChange → Prop
  | [] => True
  | c :: cs => P.PatchOk c ∧ PatchOkAlong (P.patch p c) cs

variable {P p} {t : OsmTable} {id : ℤ} {w : WayEntry} {geog : Geog} {is_closed : Bool}

/-! ### What an import stores -/

/-- The table of a way. -/
def wayTable (is_closed : Bool) : OsmTable := if is_closed then .areas else .ways

lemma keptIn_of_none (h : P.ways id = none) : P.keptIn t id = none := by
  rw [keptIn, h, Option.bind_none]

/-- No way is stored without a line. -/
lemma keptIn_of_short (h : P.ways id = some w) (hgeom : buildWayGeom (wayCoords P.nodes w) = none) :
    P.keptIn t id = none := by
  rw [keptIn, h, Option.bind_some, wayKept, hgeom]
  rfl

/-- A way that closes is an area, and no other is. -/
lemma StoredAlike.isArea_eq (h : P.StoredAlike w) (hk : hasSurvivingTag w.tags false = true)
    (hgeom : buildWayGeom (wayCoords P.nodes w) = some (geog, is_closed)) :
    isArea is_closed w.tags = is_closed := by
  rw [buildWayGeom] at hgeom
  split at hgeom
  · exact absurd hgeom.symm (Option.some_ne_none _)
  · obtain ⟨-, hclosed⟩ := Prod.mk.inj (Option.some.inj hgeom)
    cases is_closed with
    | false => simp [isArea]
    | true =>
        rcases h.area with hno | hno | harea
        · exact absurd (hk.symm.trans hno) (by simp)
        · rw [closesUp] at hno
          exact absurd (hclosed.symm.trans hno) (by simp)
        · exact harea

/-- **A way that is stored**, in this file or another with the same nodes: one row in one
table. -/
lemma StoredAlike.keptIn_eq {Q : OsmData} (h : P.StoredAlike w) (hnodes : Q.nodes = P.nodes)
    (hway : Q.ways id = some w)
    (hgeom : buildWayGeom (wayCoords P.nodes w) = some (geog, is_closed)) :
    Q.keptIn t id = if hasSurvivingTag w.tags false = true ∧ t = wayTable is_closed then
        some ⟨if is_closed then .areas else .ways, ⟨w.id, w.name, some geog⟩,
          keptTags w.id w.tags false⟩
      else none := by
  rw [keptIn, hway, Option.bind_some, hnodes, wayKept, hgeom]
  dsimp only
  by_cases hk : hasSurvivingTag w.tags false = true
  · rw [if_pos hk, h.isArea_eq hk hgeom, wayTable]
    cases is_closed <;> cases t <;> simp [hk, Table.osm]
  · simp [hk]

/-- The tags an import stores, by the filter. -/
lemma keptTags_eq_map (id : ℤ) (tags : Tags) : keptTags id tags false
    = (tags.entries.filter fun kv => !(isDroppedTag false (false && hasElevationTag tags) kv.1 kv.2
        || isBlankTag kv.1 kv.2)).map (tagRow id) := by
  rw [keptTags]
  induction tags.entries with
  | nil => rfl
  | cons kv l ih =>
      rw [List.filterMap_cons, List.filter_cons, ih]
      dsimp only
      cases isDroppedTag false (false && hasElevationTag tags) kv.1 kv.2
          || isBlankTag kv.1 kv.2 with
      | true => rfl
      | false => rfl

/-- **The tag rows of an import** are those of an upsert. -/
lemma StoredAlike.valuesOf_keptTags (h : P.StoredAlike w)
    (hk : hasSurvivingTag w.tags false = true) (id : ℤ) (key : Text) :
    valuesOf (keptTags id w.tags false) id key = valuesFor w.tags false key := by
  have hsame : ∀ kv ∈ w.tags.entries,
      (!(isDroppedTag false (false && hasElevationTag w.tags) kv.1 kv.2
          || isBlankTag kv.1 kv.2))
        = (!isDroppedTag false (false && hasElevationTag w.tags) kv.1 kv.2
          && !(kv.1 == ascii "building" && !isAviationRelevantBuildingValue kv.2)
          && !isBlankTag kv.1 kv.2) := by
    intro kv hkv
    cases hd : isDroppedTag false (false && hasElevationTag w.tags) kv.1 kv.2 with
    | true => rfl
    | false =>
        cases hb : isBlankTag kv.1 kv.2 with
        | true => simp
        | false =>
            have hno := h.buildings hk kv ⟨hkv, hd, hb⟩
            rw [genericBuilding] at hno
            rw [hno]
            rfl
  have hrows : keptTags id w.tags false
      = (survivingTags w.tags false).map fun kv => ⟨id, kv.1, kv.2⟩ := by
    rw [keptTags_eq_map, survivingTags, List.map_map, List.filter_congr hsame]
    rfl
  rw [hrows, valuesFor, valuesOf, valuesUnder, List.filter_map, List.map_map]
  exact congrArg (List.map Prod.snd) (List.filter_congr fun kv _ => by simp)

/-! ### Changes of the file -/

/-- A way is stored by the coordinates of its nodes. -/
lemma wayKept_congr {select select' : ℤ → Option Coord}
    (h : ∀ ref ∈ w.node_refs, select ref = select' ref) : wayKept select w = wayKept select' w := by
  have hcoords : wayCoords select w = wayCoords select' w := List.filterMap_congr h
  rw [wayKept, wayKept, hcoords]

/-- A way that a change of a node does not outdate. -/
lemma keptIn_patch_node {old : ℤ → Bool} {type : ChangeType} {n : NodeEntry}
    (h : P.outdated p old (.node type n) id = false) :
    (P.patch p (.node type n)).keptIn t id = P.keptIn t id := by
  have hways : (P.patch p (.node type n)).ways = P.ways := rfl
  rw [keptIn, keptIn, hways]
  cases hw : P.ways id with
  | none => rfl
  | some w =>
      rw [Option.bind_some, Option.bind_some, wayKept_congr]
      intro ref href
      by_cases hid : ref = n.id
      · simp only [outdated, hw, Option.any_some, Bool.or_eq_false_iff,
          Bool.and_eq_false_iff] at h
        rcases h.2 with hno | hsame
        · have hcontains : w.node_refs.contains n.id = true :=
            List.contains_iff_mem.mpr (hid ▸ href)
          exact absurd (hcontains.symm.trans hno) (by simp)
        · rw [hid]
          exact not_not.mp (of_decide_eq_false hsame)
      · exact Function.update_of_ne hid ..

/-- A change of another way. -/
lemma keptIn_patch_way {type : ChangeType} (h : id ≠ w.id) :
    (P.patch p (.way type w)).keptIn t id = P.keptIn t id := by
  have hways : (P.patch p (.way type w)).ways id = P.ways id := Function.update_of_ne h ..
  rw [keptIn, keptIn, hways]
  rfl

lemma ways_patch_self {type : ChangeType} : (P.patch p (.way type w)).ways w.id
    = if type = .delete then none else some w := Function.update_self ..

end OsmData

/-! ### Tables of another kind -/

namespace DeltaState

variable {s : DeltaState} {c : OSCChange} {t : OsmTable}

lemma rowAt_apply_of_kind (h : c.kind ≠ t.kind) (p : Projection) (id : ℤ) :
    (s.apply p c).tables.rowAt t id = s.tables.rowAt t id := by
  rw [apply, rowAt_execAll]
  refine runWrites_of_forall_none (fun w hw => ?_) _
  obtain ⟨call, hcall, rfl⟩ := List.mem_map.mp hw
  by_contra hne
  exact h ((kind_of_mem_calls hcall).symm.trans (DeltaCall.kind_of_rowWrite hne))

lemma valuesOf_apply_of_kind (h : c.kind ≠ t.kind) (p : Projection) (id : ℤ) (key : Text) :
    valuesOf ((s.apply p c).tables.tags t) id key = valuesOf (s.tables.tags t) id key := by
  rw [apply, valuesOf_execAll]
  refine runBag_of_forall_keep (fun op hop => ?_) _
  obtain ⟨call, hcall, rfl⟩ := List.mem_map.mp hop
  by_contra hne
  exact h ((kind_of_mem_calls hcall).symm.trans (DeltaCall.kind_of_tagOp hne))

end DeltaState

/-! ### The mirror -/

/-- The tables hold what an import would store of the ways, but for those that are outdated. -/
structure Mirrors (P : OsmData) (old : ℤ → Bool) (s : DeltaState) : Prop where
  nodes : s.nodes = P.nodes
  row : ∀ t : OsmTable, t.kind = .way → ∀ id, 0 < id → old id = false →
    s.tables.rowAt t id = P.rowOf t id
  tags : ∀ t : OsmTable, t.kind = .way → ∀ id, 0 < id → old id = false →
    ∀ key, valuesOf (s.tables.tags t) id key = P.tagsOf t id key
  single : ∀ t : OsmTable, t.kind = .way → ∀ id, 0 < id →
    ∀ key, (valuesOf (s.tables.tags t) id key).length ≤ 1
  known : ∀ id, 0 < id → old id = true → P.ways id ≠ none

namespace Mirrors

open OsmData

variable {P : OsmData} {p : Projection} {old : ℤ → Bool} {s : DeltaState} {w : WayEntry}
  {geog : Geog} {is_closed : Bool}

/-- **A node.** -/
lemma apply_node (h : Mirrors P old s) (type : ChangeType) (n : NodeEntry) :
    Mirrors (P.patch p (.node type n)) (P.outdated p old (.node type n))
      (s.apply p (.node type n)) := by
  have hkind : ∀ t : OsmTable, t.kind = .way → (OSCChange.node type n).kind ≠ t.kind := by
    intro t ht
    rw [ht]
    exact fun heq => by cases heq
  have hrow := fun t ht id => DeltaState.rowAt_apply_of_kind (s := s) (hkind t ht) p id
  have htags := fun t ht id key => DeltaState.valuesOf_apply_of_kind (s := s) (hkind t ht) p id key
  have hold : ∀ id, P.outdated p old (.node type n) id = false → old id = false := fun id hid =>
    (Bool.or_eq_false_iff.mp hid).1
  refine ⟨?_, fun t ht id hpos hid => ?_, fun t ht id hpos hid key => ?_,
    fun t ht id hpos key => ?_, fun id hpos hid => ?_⟩
  · have hnodes : (P.patch p (.node type n)).nodes = Function.update P.nodes n.id
        (if type = .delete then none else some (p.toMercator n.lon n.lat)) := rfl
    rw [hnodes, ← h.nodes]
    cases type with
    | create =>
        simp only [DeltaState.apply, calls, createNode]
        split <;> rfl
    | modify => rfl
    | delete => rfl
  · rw [hrow t ht, h.row t ht id hpos (hold id hid), rowOf, rowOf, keptIn_patch_node hid]
  · rw [htags t ht, h.tags t ht id hpos (hold id hid), OsmData.tagsOf, OsmData.tagsOf,
      keptIn_patch_node hid]
  · rw [htags t ht]
    exact h.single t ht id hpos key
  · rcases Bool.or_eq_true_iff.mp hid with hid | hid
    · exact h.known id hpos hid
    · intro hnone
      have hways : P.ways id = none := hnone
      simp [hways] at hid

/-- A relation. -/
lemma apply_relation (h : Mirrors P old s) (type : ChangeType) (r : RelationEntry) :
    Mirrors P old (s.apply p (.relation type r)) := by
  have hkind : ∀ t : OsmTable, t.kind = .way → (OSCChange.relation type r).kind ≠ t.kind := by
    intro t ht
    rw [ht]
    exact fun heq => by cases heq
  have hrow := fun t ht id => DeltaState.rowAt_apply_of_kind (s := s) (hkind t ht) p id
  have htags := fun t ht id key => DeltaState.valuesOf_apply_of_kind (s := s) (hkind t ht) p id key
  refine ⟨?_, fun t ht id hpos hid => ?_, fun t ht id hpos hid key => ?_,
    fun t ht id hpos key => ?_, h.known⟩
  · rw [← h.nodes]
    cases type with
    | create =>
        simp only [DeltaState.apply, calls, upsertRelation]
        split <;> rfl
    | modify =>
        simp only [DeltaState.apply, calls, upsertRelation]
        split <;> rfl
    | delete => rfl
  · rw [hrow t ht]
    exact h.row t ht id hpos hid
  · rw [htags t ht]
    exact h.tags t ht id hpos hid key
  · rw [htags t ht]
    exact h.single t ht id hpos key

/-- **The cells of a way** that has a line. -/
lemma cells_upsertWay (hgeom : buildWayGeom (wayCoords s.nodes w) = some (geog, is_closed))
    {t : OsmTable} (ht : t.kind = .way) (id : ℤ) (key : Text) :
    (s.execAll (upsertWay s.nodes w)).tables.rowAt t id
        = (if w.id = id then
            if hasSurvivingTag w.tags false = true ∧ t = wayTable is_closed then
              some (geomRow w.id w.name (some geog)) else none
          else s.tables.rowAt t id)
      ∧ valuesOf ((s.execAll (upsertWay s.nodes w)).tables.tags t) id key
        = if w.id = id then
            if t = wayTable is_closed then
              (upsertOp (valuesFor w.tags false key)).act (valuesOf (s.tables.tags t) id key)
            else []
          else valuesOf (s.tables.tags t) id key := by
  rw [upsertWay, deltaWayGeom_eq, hgeom]
  cases is_closed with
  | true =>
      simp only [DeltaState.execAll_cons, DeltaState.execAll_nil, DeltaState.exec,
        TargetTables.rowAt_upsert, TargetTables.rowAt_delete, TargetTables.valuesOf_upsert,
        TargetTables.valuesOf_delete, wayTable, if_true]
      cases t with
      | ways => by_cases hid : w.id = id <;> simp [hid]
      | areas => by_cases hid : w.id = id <;> simp [hid]
      | _ => cases ht
  | false =>
      simp only [DeltaState.execAll_cons, DeltaState.execAll_nil, DeltaState.exec,
        TargetTables.rowAt_upsert, TargetTables.rowAt_delete, TargetTables.valuesOf_upsert,
        TargetTables.valuesOf_delete, wayTable, Bool.false_eq_true, if_false]
      cases t with
      | ways => by_cases hid : w.id = id <;> simp [hid]
      | areas => by_cases hid : w.id = id <;> simp [hid]
      | _ => cases ht

/-- What the file says of a way that has a line. -/
lemma rowOf_patch (hok : P.StoredAlike w) {type : ChangeType} (htype : type ≠ .delete)
    (hgeom : buildWayGeom (wayCoords P.nodes w) = some (geog, is_closed)) (t : OsmTable) :
    (P.patch p (.way type w)).rowOf t w.id
      = if hasSurvivingTag w.tags false = true ∧ t = wayTable is_closed then
          some (geomRow w.id w.name (some geog)) else none := by
  have hway : (P.patch p (.way type w)).ways w.id = some w := by
    rw [ways_patch_self, if_neg htype]
  rw [rowOf, hok.keptIn_eq (Q := P.patch p (.way type w)) rfl hway hgeom]
  split <;> rfl

/-- And of its tags. -/
lemma tagsOf_patch (hok : P.StoredAlike w) {type : ChangeType} (htype : type ≠ .delete)
    (hgeom : buildWayGeom (wayCoords P.nodes w) = some (geog, is_closed)) (t : OsmTable)
    (key : Text) : (P.patch p (.way type w)).tagsOf t w.id key
      = if t = wayTable is_closed then valuesFor w.tags false key else [] := by
  have hway : (P.patch p (.way type w)).ways w.id = some w := by
    rw [ways_patch_self, if_neg htype]
  rw [OsmData.tagsOf, hok.keptIn_eq (Q := P.patch p (.way type w)) rfl hway hgeom]
  by_cases hk : hasSurvivingTag w.tags false = true
  · by_cases ht : t = wayTable is_closed
    · rw [if_pos ⟨hk, ht⟩, if_pos ht, Option.elim_some, hok.valuesOf_keptTags hk]
    · rw [if_neg fun h => ht h.2, if_neg ht, Option.elim_none]
  · have hnil : valuesFor w.tags false key = [] :=
      TargetTables.valuesFor_eq_nil.mpr (Bool.eq_false_iff.mpr hk) key
    rw [if_neg fun h => hk h.1, hnil, Option.elim_none, ite_self]

/-- A way that is changed is no longer outdated, and no other gets so. -/
lemma outdated_way {type : ChangeType} {id : ℤ} (hid : id ≠ w.id) :
    P.outdated p old (.way type w) id = old id := by
  have hne : (id != w.id) = true := bne_iff_ne.mpr hid
  show (old id && id != w.id) = old id
  rw [hne, Bool.and_true]

/-- Where another way changes, what the file says of a way stays. -/
lemma of_other {type : ChangeType} {id : ℤ} (hid : id ≠ w.id) (t : OsmTable) :
    (P.patch p (.way type w)).rowOf t id = P.rowOf t id
      ∧ ∀ key, (P.patch p (.way type w)).tagsOf t id key = P.tagsOf t id key := by
  constructor
  · rw [rowOf, rowOf, keptIn_patch_way hid]
  · intro key
    rw [OsmData.tagsOf, OsmData.tagsOf, keptIn_patch_way hid]

/-- **A way**, created or modified: it is stored anew if it has a line, and otherwise it was
not there. -/
lemma apply_way (h : Mirrors P old s) (hpos : 0 < w.id) (hok : P.StoredAlike w)
    {type : ChangeType} (htype : type ≠ .delete) :
    Mirrors (P.patch p (.way type w)) (P.outdated p old (.way type w))
      (s.apply p (.way type w)) := by
  have happly : s.apply p (.way type w) = s.execAll (upsertWay s.nodes w) := by
    cases type with
    | create => rfl
    | modify => rfl
    | delete => exact absurd rfl htype
  have hways : (P.patch p (.way type w)).ways w.id = some w := by
    rw [ways_patch_self, if_neg htype]
  have hknown : ∀ id, 0 < id → P.outdated p old (.way type w) id = true →
      (P.patch p (.way type w)).ways id ≠ none := by
    intro id hid hold
    by_cases hsame : id = w.id
    · rw [hsame, hways]
      exact Option.some_ne_none _
    · rw [outdated_way hsame] at hold
      have hother : (P.patch p (.way type w)).ways id = P.ways id := Function.update_of_ne hsame ..
      rw [hother]
      exact h.known id hid hold
  rw [happly]
  cases hgeom : buildWayGeom (wayCoords P.nodes w) with
  | none =>
      -- too few of its nodes are there, so the way is new
      have hnew : P.ways w.id = none := by
        refine hok.found.resolve_left fun hlen => ?_
        have hsome := buildWayGeom_isSome hlen
        rw [hgeom] at hsome
        exact absurd hsome (by simp)
      have hcalls : s.execAll (upsertWay s.nodes w) = s := by
        rw [upsertWay, deltaWayGeom_eq, h.nodes, hgeom]
        rfl
      have hfresh : old w.id = false := by
        by_contra hold
        exact h.known w.id hpos (Bool.not_eq_false _ ▸ hold) hnew
      rw [hcalls]
      refine ⟨h.nodes, fun t ht id hid hold => ?_, fun t ht id hid hold key => ?_, h.single,
        hknown⟩
      · by_cases hsame : id = w.id
        · rw [hsame, h.row t ht w.id hpos hfresh, rowOf, rowOf, keptIn_of_none hnew,
            keptIn_of_short hways hgeom]
        · rw [(of_other hsame t).1]
          exact h.row t ht id hid ((outdated_way hsame).symm.trans hold)
      · by_cases hsame : id = w.id
        · rw [hsame, h.tags t ht w.id hpos hfresh, OsmData.tagsOf, OsmData.tagsOf,
            keptIn_of_none hnew, keptIn_of_short hways hgeom]
        · rw [(of_other hsame t).2]
          exact h.tags t ht id hid ((outdated_way hsame).symm.trans hold) key
  | some g =>
      obtain ⟨geog, is_closed⟩ := g
      have hline : buildWayGeom (wayCoords s.nodes w) = some (geog, is_closed) := by
        rw [h.nodes, hgeom]
      have hcells := fun (t : OsmTable) (ht : t.kind = .way) (id : ℤ) (key : Text) =>
        cells_upsertWay hline ht id key
      have hact : ∀ t : OsmTable, t.kind = .way → ∀ key,
          (upsertOp (valuesFor w.tags false key)).act (valuesOf (s.tables.tags t) w.id key)
            = valuesFor w.tags false key := fun t ht key =>
        act_upsertOp (hok.apart key) (h.single t ht w.id hpos key)
      refine ⟨?_, fun t ht id hid hold => ?_, fun t ht id hid hold key => ?_,
        fun t ht id hid key => ?_, hknown⟩
      · refine Eq.trans ?_ h.nodes
        rw [upsertWay, deltaWayGeom_eq, hline]
        cases is_closed <;> rfl
      · rw [(hcells t ht id []).1]
        by_cases hsame : w.id = id
        · rw [if_pos hsame, ← hsame, rowOf_patch hok htype hgeom]
        · rw [if_neg hsame, (of_other (Ne.symm hsame) t).1]
          exact h.row t ht id hid ((outdated_way (Ne.symm hsame)).symm.trans hold)
      · rw [(hcells t ht id key).2]
        by_cases hsame : w.id = id
        · rw [if_pos hsame, ← hsame, tagsOf_patch hok htype hgeom, hact t ht key]
        · rw [if_neg hsame, (of_other (Ne.symm hsame) t).2]
          exact h.tags t ht id hid ((outdated_way (Ne.symm hsame)).symm.trans hold) key
      · rw [(hcells t ht id key).2]
        by_cases hsame : w.id = id
        · rw [if_pos hsame, ← hsame, hact t ht key]
          split
          · exact hok.apart key
          · exact Nat.zero_le _
        · rw [if_neg hsame]
          exact h.single t ht id hid key

/-- **A way that is deleted.** -/
lemma apply_deleteWay (h : Mirrors P old s) :
    Mirrors (P.patch p (.way .delete w)) (P.outdated p old (.way .delete w))
      (s.apply p (.way .delete w)) := by
  have hways : (P.patch p (.way .delete w)).ways w.id = none := ways_patch_self
  have hrow : ∀ t : OsmTable, t.kind = .way → ∀ id,
      (s.apply p (.way .delete w)).tables.rowAt t id
        = if w.id = id then none else s.tables.rowAt t id := by
    intro t ht id
    simp only [DeltaState.apply, calls, deleteWay, DeltaState.execAll_cons,
      DeltaState.execAll_nil, DeltaState.exec, TargetTables.rowAt_delete]
    cases t with
    | ways => by_cases hid : w.id = id <;> simp [hid]
    | areas => by_cases hid : w.id = id <;> simp [hid]
    | _ => cases ht
  have htags : ∀ t : OsmTable, t.kind = .way → ∀ id key,
      valuesOf ((s.apply p (.way .delete w)).tables.tags t) id key
        = if w.id = id then [] else valuesOf (s.tables.tags t) id key := by
    intro t ht id key
    simp only [DeltaState.apply, calls, deleteWay, DeltaState.execAll_cons,
      DeltaState.execAll_nil, DeltaState.exec, TargetTables.valuesOf_delete]
    cases t with
    | ways => by_cases hid : w.id = id <;> simp [hid]
    | areas => by_cases hid : w.id = id <;> simp [hid]
    | _ => cases ht
  refine ⟨h.nodes, fun t ht id hid hold => ?_, fun t ht id hid hold key => ?_,
    fun t ht id hid key => ?_, fun id hid hold => ?_⟩
  · rw [hrow t ht]
    by_cases hsame : w.id = id
    · rw [if_pos hsame, ← hsame, rowOf, keptIn_of_none hways]
      rfl
    · rw [if_neg hsame, (of_other (Ne.symm hsame) t).1]
      exact h.row t ht id hid ((outdated_way (Ne.symm hsame)).symm.trans hold)
  · rw [htags t ht]
    by_cases hsame : w.id = id
    · rw [if_pos hsame, ← hsame, OsmData.tagsOf, keptIn_of_none hways]
      rfl
    · rw [if_neg hsame, (of_other (Ne.symm hsame) t).2]
      exact h.tags t ht id hid ((outdated_way (Ne.symm hsame)).symm.trans hold) key
  · rw [htags t ht]
    split
    · exact Nat.zero_le _
    · exact h.single t ht id hid key
  · obtain ⟨hold, hne⟩ := Bool.and_eq_true_iff.mp hold
    have hsame : id ≠ w.id := bne_iff_ne.mp hne
    have hother : (P.patch p (.way .delete w)).ways id = P.ways id :=
      Function.update_of_ne hsame ..
    rw [hother]
    exact h.known id hid hold

end Mirrors

/-! ### Runs -/

section

variable {P : OsmData} {p : Projection} {old : ℤ → Bool} {s : DeltaState}

/-- **Every change** keeps the mirror. -/
lemma mirrors_step (h : Mirrors P old s) {c : OSCChange} (hok : P.PatchOk c) :
    Mirrors (P.patch p c) (P.outdated p old c) (s.apply p c) := by
  cases c with
  | node type n => exact h.apply_node type n
  | way type w =>
      cases type with
      | create => exact h.apply_way hok.1 hok.2 (by simp)
      | modify => exact h.apply_way hok.1 hok.2 (by simp)
      | delete => exact h.apply_deleteWay
  | relation type r => exact h.apply_relation type r

/-- **A run** of changes that meet their conditions. -/
lemma mirrors_run {cs : List OSCChange} (h : Mirrors P old s) (hok : P.PatchOkAlong p cs) :
    Mirrors (P.patchAll p old cs).1 (P.patchAll p old cs).2 (s.run p cs) := by
  induction cs generalizing P old s with
  | nil => exact h
  | cons c cs ih => exact ih (mirrors_step h hok.1) hok.2

end

end Gpsxdb
