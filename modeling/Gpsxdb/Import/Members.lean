import Mathlib.Tactic
import Gpsxdb.Import.Outcome

/-!
What the relation phase sees of the member ways.

* `Stage.reads`: the relation whose members a thread is reading;
* `SeesMember`: both queries give a member way's coordinates, so that they are
  among the segments its rings are stitched from;
* `seesMember_iff_hasSurvivingTag`: at every point of every import of a file a
  member way with two resolvable refs is seen exactly when it has a tag worth
  keeping, since `insertWay` and `insertArea` store no other way.

`getWayCoordsMap` is taken to return the vertices of one id in the order of `wayPoints`, that
of the scan; its SQL leaves this order open, and what else it permits is in `VertexOrder`.
-/

namespace Gpsxdb

/-- The relation whose members are being read. -/
def Stage.reads : Stage → Option RelationEntry
  | .rings item => some item
  | .geoms item _ _ => some item
  | .loop => none
  | .arriving _ => none
  | .waiting _ _ => none
  | .finished => none

/-- The tables give the member `m` of `r` the coordinates of the way `w`. -/
structure SeesMember (select : ℤ → Option Coord) (d : Database) (r : RelationEntry)
    (m : RelationMember) (w : WayEntry) : Prop where
  /-- `getWay` finds a geometry with the vertices of the way -/
  geog : ∃ g, d.getWay m.id = some g ∧ g.dumpPoints = wayCoords select w
  /-- `getWayCoordsMap` has the coordinates of the way -/
  coords : d.getWayCoordsMap (r.way_members.map RelationMember.id) m.id = wayCoords select w
  /-- the way is among the segments of its role -/
  segment : wayCoords select w ∈ memberSegments r
    (d.getWayCoordsMap (r.way_members.map RelationMember.id)) (m.role == ascii "inner")

/-- The row of a way with two resolvable refs, if it has a tag worth keeping. -/
lemma wayKept_rows {select : ℤ → Option Coord} {w : WayEntry}
    (hres : 2 ≤ (wayCoords select w).length) :
    ∃ g : Geog, g.dumpPoints = wayCoords select w ∧ (wayKept select w).map Kept.row
      = if hasSurvivingTag w.tags false then [⟨w.id, w.name, some g⟩] else [] := by
  obtain ⟨⟨g, is_closed⟩, hg⟩ := Option.isSome_iff_exists.mp (buildWayGeom_isSome hres)
  refine ⟨g, dumpPoints_of_buildWayGeom hg, ?_⟩
  rw [wayKept, hg]
  dsimp only
  split <;> rfl

/-- Where the rows of an id are those of its way, the way is seen exactly when
it is kept. -/
lemma seesMember_iff_of_rows {select : ℤ → Option Coord} {d : Database} {r : RelationEntry}
    {m : RelationMember} {w : WayEntry} (hm : m ∈ r.way_members)
    (hrows : d.rowsOf .ways m.id ++ d.rowsOf .areas m.id = (wayKept select w).map Kept.row)
    (hres : 2 ≤ (wayCoords select w).length) :
    SeesMember select d r m w ↔ hasSurvivingTag w.tags false = true := by
  obtain ⟨g, hpoints, hkept⟩ := wayKept_rows hres
  rw [hkept] at hrows
  constructor
  · rintro ⟨⟨g', hg', -⟩, -, -⟩
    by_contra hno
    rw [if_neg hno] at hrows
    rw [Database.getWay, hrows] at hg'
    simp at hg'
  · intro htag
    rw [if_pos htag] at hrows
    have hcoords : d.getWayCoordsMap (r.way_members.map RelationMember.id) m.id
        = wayCoords select w := by
      rw [Database.getWayCoordsMap_apply, if_pos (List.mem_map_of_mem hm), hrows]
      simpa using hpoints
    refine ⟨⟨g, by rw [Database.getWay, hrows], hpoints⟩, hcoords, ?_⟩
    refine List.mem_filterMap.mpr ⟨m, List.mem_filter.mpr ⟨hm, by simp⟩, ?_⟩
    have hne : wayCoords select w ≠ [] := by
      intro hnil
      simp [hnil] at hres
    rw [hcoords, if_neg hne]

namespace ImportState

variable {T : ℕ} {f : OsmFile} {env : ImportEnv} {σ : ImportState T} {i : Fin T}

/-- A full import starts on empty tables. -/
lemma startable_empty (hskip : env.skip_ways = false) : Startable f env .empty :=
  ⟨fun _ r hr => by simp [Database.empty] at hr, fun _ => List.nodup_nil,
    fun h => by simp [hskip] at h⟩

/-- **Which member ways the relation phase sees.** -/
theorem seesMember_iff_hasSurvivingTag (hskip : env.skip_ways = false) {moves : List (Fin T)}
    (hrun : (start env .empty f.entries).run env moves = some σ) {r : RelationEntry}
    (hr : (σ.threads i).stage.reads = some r) {m : RelationMember} (hm : m ∈ r.way_members)
    {w : WayEntry} (hw : w ∈ f.ways) (hid : m.id = w.id)
    (hres : 2 ≤ (wayCoords env.select w).length) :
    SeesMember env.select σ.db r m w ↔ hasSurvivingTag w.tags false = true := by
  have hqueue : f.entries = queueOf f env.skip_ways := by rw [queueOf, hskip]; rfl
  rw [hqueue] at hrun
  obtain ⟨hb, hs⟩ := invariant_of_import (startable_empty hskip) hrun
  have hp : (σ.threads i).passed := by
    refine passed_of_relation hb ?_
    rcases hstage : (σ.threads i).stage with _ | held | ⟨phase, held⟩ | q | ⟨q, rest, gs⟩ | _
    all_goals simp [hstage, Stage.reads] at hr
    · exact Or.inl ⟨q, rfl⟩
    · exact Or.inr ⟨q, rest, gs, rfl⟩
  refine seesMember_iff_of_rows hm ?_ hres
  have hpos := f.way_pos w hw
  rw [hid, rowsOf_of_passed hb hs hp hpos (Or.inl rfl),
    rowsOf_of_passed hb hs hp hpos (Or.inr rfl), OsmFile.rowsOf_wayTables hw]

/-! ### A square -/

/-- Nodes `1` to `4` at the corners of a square. -/
def squareNodes (id : ℤ) : Option Coord :=
  if id = 1 then some ⟨0, 0⟩
  else if id = 2 then some ⟨1, 0⟩
  else if id = 3 then some ⟨1, 1⟩
  else if id = 4 then some ⟨0, 1⟩
  else none

/-- A way around the square. -/
def squareWay (tags : Tags) : WayEntry := ⟨1, [], tags, [1, 2, 3, 4, 1]⟩

/-- A wood with the way as its outer ring. -/
def squareWood : RelationEntry where
  id := 1
  name := []
  tags := ⟨[(ascii "type", ascii "multipolygon"), (ascii "natural", ascii "wood")], by decide⟩
  way_members := [⟨1, ascii "outer"⟩]

/-- A file of the two. -/
def squareFile (tags : Tags) : OsmFile where
  ways := [squareWay tags]
  relations := [squareWood]
  way_nodup := by simp
  way_pos := by simp [squareWay]
  relation_nodup := by simp
  relation_pos := by simp [squareWood]
  member_pos := by simp [squareWood]

/-- A full import with these nodes. -/
def squareEnv : ImportEnv := ⟨squareNodes, 1, false⟩

/-- The tag of a shore. -/
def coastline : Tags := .single (ascii "natural") (ascii "coastline")

/-- With a tag of its own the outer way is seen. -/
theorem seesMember_iff_hasSurvivingTag_coastline : ∃ σ : ImportState 1,
    (start squareEnv .empty (squareFile coastline).entries).run squareEnv [0, 0, 0, 0, 0, 0]
        = some σ
      ∧ SeesMember squareNodes σ.db squareWood ⟨1, ascii "outer"⟩ (squareWay coastline) := by
  have hskip : squareEnv.skip_ways = false := rfl
  have hres : 2 ≤ (wayCoords squareEnv.select (squareWay coastline)).length := by decide
  have hw : squareWay coastline ∈ (squareFile coastline).ways := List.mem_singleton_self _
  have hex : ∃ σ : ImportState 1,
      (start squareEnv .empty (squareFile coastline).entries).run squareEnv [0, 0, 0, 0, 0, 0]
        = some σ ∧ (σ.threads 0).stage.reads = some squareWood := ⟨_, rfl, rfl⟩
  obtain ⟨σ, hrun, hreads⟩ := hex
  exact ⟨σ, hrun, (seesMember_iff_hasSurvivingTag hskip hrun hreads (List.mem_singleton_self _)
    hw rfl hres).mpr (by decide)⟩

/-- **An untagged outer way is not seen**, although all of its refs resolve. -/
theorem untagged_outer_not_seen : ∃ σ : ImportState 1,
    (start squareEnv .empty (squareFile .empty).entries).run squareEnv [0, 0, 0, 0] = some σ
      ∧ (σ.threads 0).stage.reads = some squareWood
      ∧ (wayCoords squareNodes (squareWay .empty)).length = 5
      ∧ ¬ SeesMember squareNodes σ.db squareWood ⟨1, ascii "outer"⟩ (squareWay .empty) := by
  refine ⟨_, rfl, rfl, by decide, fun h => ?_⟩
  obtain ⟨g, hg, -⟩ := h.geog
  have hnone : Database.empty.getWay 1 = none := rfl
  exact absurd (hnone.symm.trans hg) (by simp)

end ImportState

end Gpsxdb
