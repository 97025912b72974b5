import Mathlib.Tactic
import Gpsxdb.Delta.Integrity
import Gpsxdb.Delta.Promotion

/-!
The rows a changed way leaves behind.

* `TargetTables.wayRows`: the rows of a way, in `ways` and in `areas`;
* `TargetTables.CarriesNew`: each of them has the geometry built from the new
  refs;
* `mem_wayRows_replace`, `wayRows_clear`: a way moved to one of its tables, or out
  of both;
* `RegionalApplier.CarriesNew`: a way that is in no region has no row at all;
* `carriesNew_iff`: **both appliers** refresh the rows exactly where the new refs
  give a geometry, or there was no row to refresh.

Both versions of `upsertWay` return before their clean-up when `buildWayGeom`
gives the empty string.
-/

namespace Gpsxdb

namespace TargetTables

variable {d : TargetTables Content} {w : WayEntry} {geom : Geog} {is_closed : Bool}

/-- The rows of a way: a closed one is an area. -/
def wayRows (d : TargetTables Content) (id : ℤ) : List (Row Content) :=
  d.rowsOf .ways id ++ d.rowsOf .areas id

/-- Every row of the way has the geometry that was built. -/
def CarriesNew (d : TargetTables Content) (id : ℤ) (built : Option (Geog × Bool)) : Prop :=
  ∀ q ∈ d.wayRows id, ∃ geom is_closed, built = some (geom, is_closed) ∧ q.content.geog = some geom

/-- Without a geometry no row is left. -/
lemma carriesNew_none {id : ℤ} : d.CarriesNew id none ↔ d.wayRows id = [] := by
  simp [CarriesNew, List.eq_nil_iff_forall_not_mem]

/-- Tables without a row of the way carry whatever was built. -/
lemma carriesNew_of_nil {id : ℤ} (h : d.wayRows id = []) (built : Option (Geog × Bool)) :
    d.CarriesNew id built := by
  intro q hq
  rw [h] at hq
  exact absurd hq List.not_mem_nil

/-- The row that was upserted is the only one the id has in its table. -/
lemma eq_of_mem_rowsOf_upsertEntity {t : OsmTable} {r q : Row Content} {tags : Tags}
    (hq : q ∈ (d.upsertEntity t r tags).rowsOf t r.id) : q = r := by
  obtain ⟨hrow, hid⟩ := List.mem_filter.mp hq
  rcases mem_rows_upsertEntity hrow with ⟨-, rfl⟩ | ⟨-, hne⟩
  · rfl
  · exact absurd (by simpa using hid) (hne rfl)

/-- A way cleared out of one of its tables and upserted into the other. -/
lemma mem_wayRows_replace {t u : OsmTable} (htu : t = .ways ∧ u = .areas ∨ t = .areas ∧ u = .ways)
    {r q : Row Content} {tags : Tags}
    (hq : q ∈ ((d.deleteEntity t r.id).upsertEntity u r tags).wayRows r.id) : q = r := by
  have hother : ((d.deleteEntity t r.id).upsertEntity u r tags).rowsOf t r.id = [] := by
    have hne : t ≠ u := by rcases htu with ⟨rfl, rfl⟩ | ⟨rfl, rfl⟩ <;> simp
    rw [rowsOf_upsertEntity_of_ne hne, rowsOf_deleteEntity]
  rcases htu with ⟨rfl, rfl⟩ | ⟨rfl, rfl⟩
  · rw [wayRows, hother, List.nil_append] at hq
    exact eq_of_mem_rowsOf_upsertEntity hq
  · rw [wayRows, hother, List.append_nil] at hq
    exact eq_of_mem_rowsOf_upsertEntity hq

/-- A way cleared out of both of its tables. -/
lemma wayRows_clear (id : ℤ) :
    ((d.deleteEntity .ways id).deleteEntity .areas id).wayRows id = [] := by
  rw [wayRows, rowsOf_deleteEntity, rowsOf_deleteEntity_of_ne (by simp), rowsOf_deleteEntity]
  rfl

end TargetTables

/-! ### The global applier -/

open TargetTables

variable {p : Projection} {s : DeltaState} {w : WayEntry}

/-- A way that is created or modified goes through `upsertWay`. -/
lemma DeltaState.apply_way {type : ChangeType} (htype : type ≠ .delete) :
    s.apply p (.way type w) = s.execAll (upsertWay s.nodes w) := by
  cases type with
  | create => rfl
  | modify => rfl
  | delete => exact absurd rfl htype

/-- With a geometry, `upsertWay` leaves no other row of the way. -/
lemma DeltaState.carriesNew_upsertWay {geom : Geog} {is_closed : Bool}
    (hbuilt : deltaWayGeom s.nodes w = some (geom, is_closed)) :
    (s.execAll (upsertWay s.nodes w)).tables.CarriesNew w.id (some (geom, is_closed)) := by
  intro q hq
  have hrow : q = geomRow w.id w.name (some geom) := by
    rw [upsertWay, hbuilt] at hq
    cases is_closed with
    | true => exact mem_wayRows_replace (.inl ⟨rfl, rfl⟩) hq
    | false => exact mem_wayRows_replace (.inr ⟨rfl, rfl⟩) hq
  exact ⟨geom, is_closed, rfl, by rw [hrow]; rfl⟩

/-- The rows after a change of the global target. -/
lemma DeltaState.carriesNew_apply_iff {type : ChangeType} (htype : type ≠ .delete) :
    (s.apply p (.way type w)).tables.CarriesNew w.id (deltaWayGeom s.nodes w)
      ↔ (deltaWayGeom s.nodes w).isSome ∨ s.tables.wayRows w.id = [] := by
  rw [apply_way htype]
  cases hbuilt : deltaWayGeom s.nodes w with
  | none =>
      -- the early return: the tables stay as they are
      have hcalls : s.execAll (upsertWay s.nodes w) = s := by rw [upsertWay, hbuilt]; rfl
      rw [hcalls, carriesNew_none]
      simp
  | some built =>
      obtain ⟨geom, is_closed⟩ := built
      simp [carriesNew_upsertWay hbuilt]

/-! ### The regional applier -/

namespace RegionalApplier

variable {env : RegionalEnv} {a : RegionalApplier}

/-- The rows of a way in a regional target after it changed: they have the
geometry built, and a way that is in no region has none. -/
def CarriesNew (env : RegionalEnv) (a a' : RegionalApplier) (w : WayEntry) : Prop :=
  a'.tables.CarriesNew w.id (deltaWayGeom (a.resolve env) w)
    ∧ (¬ a.Accepts env w → a'.tables.wayRows w.id = [])

/-- A way that is created or modified goes through `upsertWay`. -/
lemma apply_way {type : ChangeType} (htype : type ≠ .delete) :
    a.apply env (.way type w) = a.upsertWay env w := by
  cases type with
  | create => rfl
  | modify => rfl
  | delete => exact absurd rfl htype

/-- The early return leaves the state as it is. -/
lemma upsertWay_of_none (hbuilt : deltaWayGeom (a.resolve env) w = none) :
    a.upsertWay env w = a := by
  rw [upsertWay, hbuilt]

/-- A way with a geometry outside of every region is cleared. -/
lemma wayRows_upsertWay_outside {geom : Geog} {is_closed : Bool}
    (hbuilt : deltaWayGeom (a.resolve env) w = some (geom, is_closed))
    (hout : env.inRegion geom = false) : (a.upsertWay env w).tables.wayRows w.id = [] := by
  simp only [upsertWay, hbuilt, hout, Bool.not_false, if_true]
  exact wayRows_clear w.id

/-- A way with a geometry in a region keeps only its new row. -/
lemma carriesNew_upsertWay_inside {geom : Geog} {is_closed : Bool}
    (hbuilt : deltaWayGeom (a.resolve env) w = some (geom, is_closed))
    (hin : env.inRegion geom = true) :
    (a.upsertWay env w).tables.CarriesNew w.id (some (geom, is_closed)) := by
  intro q hq
  have hrow : q = geomRow w.id w.name (some geom) := by
    simp only [upsertWay, hbuilt, hin, Bool.not_true, Bool.false_eq_true, if_false] at hq
    cases is_closed with
    | true => exact mem_wayRows_replace (.inl ⟨rfl, rfl⟩) hq
    | false => exact mem_wayRows_replace (.inr ⟨rfl, rfl⟩) hq
  exact ⟨geom, is_closed, rfl, by rw [hrow]; rfl⟩

/-- The rows after a change of a regional target. -/
lemma carriesNew_apply_iff {type : ChangeType} (htype : type ≠ .delete) :
    CarriesNew env a (a.apply env (.way type w)) w
      ↔ (deltaWayGeom (a.resolve env) w).isSome ∨ a.tables.wayRows w.id = [] := by
  rw [apply_way htype, CarriesNew]
  cases hbuilt : deltaWayGeom (a.resolve env) w with
  | none =>
      have hout : ¬ a.Accepts env w := by
        rintro ⟨geom, is_closed, hsome, -⟩
        rw [hbuilt] at hsome
        cases hsome
      rw [upsertWay_of_none hbuilt, carriesNew_none]
      simp [hout]
  | some built =>
      obtain ⟨geom, is_closed⟩ := built
      cases hin : env.inRegion geom with
      | true =>
          have hacc : a.Accepts env w := ⟨geom, is_closed, hbuilt, hin⟩
          simp [carriesNew_upsertWay_inside hbuilt hin, hacc]
      | false =>
          have hnil := wayRows_upsertWay_outside hbuilt hin
          simp [carriesNew_of_nil hnil, hnil]

end RegionalApplier

/-! ### Both appliers -/

/-- **A changed way never keeps its old row**, in the global and in a regional
target, exactly where the new refs give a geometry or there was no row. -/
theorem carriesNew_iff (p : Projection) (s : DeltaState) (env : RegionalEnv) (a : RegionalApplier)
    (w : WayEntry) (type : ChangeType) (htype : type ≠ .delete) :
    ((s.apply p (.way type w)).tables.CarriesNew w.id (deltaWayGeom s.nodes w)
        ↔ (deltaWayGeom s.nodes w).isSome ∨ s.tables.wayRows w.id = []) ∧
      (a.CarriesNew env (a.apply env (.way type w)) w
        ↔ (deltaWayGeom (a.resolve env) w).isSome ∨ a.tables.wayRows w.id = []) :=
  ⟨s.carriesNew_apply_iff htype, RegionalApplier.carriesNew_apply_iff htype⟩

/-- A way whose nodes have no coordinate. -/
def detachedWay : WayEntry :=
  ⟨7, [], .single (ascii "highway") (ascii "residential"), [8, 9]⟩

/-- The row of that way from before. -/
def detachedRow : Row Content := geomRow 7 [] (some (.lineString [⟨10, 20⟩, ⟨30, 40⟩]))

/-- Tables that hold nothing else. -/
def detachedTables : TargetTables Content :=
  ⟨fun t => if t = .ways then [detachedRow] else [],
    fun t => if t = .ways then [⟨7, ascii "highway", ascii "residential"⟩] else []⟩

/-- The old row survives in both targets. -/
theorem detached_way_keeps_row :
    ¬ (∀ (p : Projection) (s : DeltaState) (w : WayEntry),
        (s.apply p (.way .modify w)).tables.CarriesNew w.id (deltaWayGeom s.nodes w)) ∧
      ¬ ∀ (env : RegionalEnv) (a : RegionalApplier) (w : WayEntry),
        a.CarriesNew env (a.apply env (.way .modify w)) w := by
  have hleft : detachedRow ∈ detachedTables.wayRows 7 := by decide
  constructor
  · intro hall
    obtain ⟨geom, is_closed, hbuilt, -⟩ := hall openRegion.projection
      ⟨fun _ => none, detachedTables⟩ detachedWay detachedRow hleft
    cases hbuilt
  · intro hall
    obtain ⟨geom, is_closed, hbuilt, -⟩ := (hall openRegion (.start detachedTables) detachedWay).1
      detachedRow hleft
    cases hbuilt

/-- A way whose nodes have one is drawn anew. -/
theorem carriesNew_attached :
    (DeltaState.apply openRegion.projection ⟨fun _ => some ⟨10, 20⟩, detachedTables⟩
        (.way .modify detachedWay)).tables.CarriesNew 7
      (some (.lineString [⟨10, 20⟩, ⟨10, 20⟩], false)) :=
  ((carriesNew_iff openRegion.projection ⟨fun _ => some ⟨10, 20⟩, detachedTables⟩ openRegion
    (.start detachedTables) detachedWay .modify (by decide)).1).mpr (.inl rfl)

end Gpsxdb
