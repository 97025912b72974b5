import Mathlib.Tactic
import Gpsxdb.Import.Lookup

/-!
The order of the vertices that `getWayCoordsMap` returns.

* `Permitted`: the results that its query may return, `ORDER BY id` leaving the rows
  of one id in any order; `permitted_wayPoints`;
* `permitted_of_perm`: any order of the vertices of one id occurs;
* `InGeometryOrder`, `inGeometryOrder_iff`: **when the order does not matter**;
* `vertices_out_of_order`: a line of three points.
-/

namespace Gpsxdb

namespace Database

/-- The rows of the inner query of `getWayCoordsMap`. -/
def dumpedPoints (d : Database) (ids : List ℤ) : List (ℤ × Coord) :=
  ((d.rows .ways).filter (fun r => ids.contains r.id)
    ++ (d.rows .areas).filter (fun r => ids.contains r.id)).flatMap pointsOf

/-- A result that the query may return. -/
structure Permitted (d : Database) (ids : List ℤ) (res : List (ℤ × Coord)) : Prop where
  perm : res.Perm (d.dumpedPoints ids)
  sorted : res.Pairwise fun a b => a.1 ≤ b.1

/-- The row is the only one that `ways` and `areas` have for the id. -/
def SoleRow (d : Database) (id : ℤ) (r : GeomRecord) : Prop :=
  d.rowsOf .ways id ++ d.rowsOf .areas id = [r]

/-- The vertices of a row, in geometry order. -/
def verticesOf (r : GeomRecord) : List Coord := (r.geog.map Geog.dumpPoints).getD []

/-- Whatever result the query returns, the vertices of every requested id are those of
its row in geometry order. -/
def InGeometryOrder (d : Database) (ids : List ℤ) : Prop :=
  ∀ res, d.Permitted ids res → ∀ id ∈ ids, ∀ r, d.SoleRow id r →
    coordsMapOf res id = verticesOf r

/-! ### Results of the query -/

lemma pairwise_mergeSort_id (res : List (ℤ × Coord)) :
    (res.mergeSort fun a b => a.1 ≤ b.1).Pairwise fun a b => a.1 ≤ b.1 := by
  simpa only [decide_eq_true_eq] using List.pairwise_mergeSort le_id_trans le_id_total res

variable {d : Database} {ids : List ℤ} {id : ℤ} {r : GeomRecord}

/-- The order of the scan, sorted by a stable sort, is one of the results. -/
lemma permitted_wayPoints : d.Permitted ids (d.wayPoints ids) :=
  ⟨List.mergeSort_perm _ _, pairwise_mergeSort_id _⟩

/-- Before the sort the vertices of an id are those of its row. -/
lemma coordsMapOf_dumpedPoints (hid : id ∈ ids) (hr : d.SoleRow id r) :
    coordsMapOf (d.dumpedPoints ids) id = verticesOf r := by
  have happly := d.getWayCoordsMap_apply ids id
  rw [getWayCoordsMap, wayPoints, coordsMapOf_mergeSort, if_pos hid, hr] at happly
  rw [dumpedPoints, happly, List.flatMap_singleton, verticesOf]

lemma coordsMapOf_perm {res res' : List (ℤ × Coord)} (h : res.Perm res') (id : ℤ) :
    (coordsMapOf res id).Perm (coordsMapOf res' id) :=
  (h.filter _).map _

/-- **Any order of the vertices of one id** occurs in a result. -/
lemma permitted_of_perm {vs : List Coord} (h : vs.Perm (coordsMapOf (d.dumpedPoints ids) id)) :
    ∃ res, d.Permitted ids res ∧ coordsMapOf res id = vs := by
  set rows := d.dumpedPoints ids with hrows
  set mine := vs.map fun p => (id, p) with hmine
  set others := rows.filter fun row => !(row.1 == id) with hothers
  have hown : (coordsMapOf rows id).map (fun p => (id, p))
      = rows.filter fun row => row.1 == id := by
    rw [coordsMapOf, List.map_map]
    refine (List.map_congr_left fun row hrow => ?_).trans (List.map_id _)
    have hkey : row.1 = id := by simpa using (List.mem_filter.mp hrow).2
    simp [← hkey]
  have hperm : (mine ++ others).Perm rows := by
    have hfirst : mine.Perm (rows.filter fun row => row.1 == id) := hown ▸ h.map _
    exact (hfirst.append_right others).trans (List.filter_append_perm _ rows)
  refine ⟨(mine ++ others).mergeSort fun a b => a.1 ≤ b.1,
    ⟨(List.mergeSort_perm _ _).trans hperm, pairwise_mergeSort_id _⟩, ?_⟩
  rw [coordsMapOf_mergeSort, coordsMapOf, List.filter_append, hmine, hothers, List.filter_filter,
    List.filter_map]
  simp [Function.comp_def]

/-- **The order does not matter** exactly when the vertices of each requested row are
all one point. -/
theorem inGeometryOrder_iff (d : Database) (ids : List ℤ) :
    d.InGeometryOrder ids
      ↔ ∀ id ∈ ids, ∀ r, d.SoleRow id r → ∀ p ∈ verticesOf r, ∀ q ∈ verticesOf r, p = q := by
  constructor
  · intro h id hid r hr p hp q hq
    -- a result may list either vertex first
    have hfirst : ∀ v ∈ verticesOf r, v :: (verticesOf r).erase v = verticesOf r := by
      intro v hv
      have hperm : (v :: (verticesOf r).erase v).Perm (coordsMapOf (d.dumpedPoints ids) id) := by
        rw [coordsMapOf_dumpedPoints hid hr]
        exact (List.perm_cons_erase hv).symm
      obtain ⟨res, hres, hcoords⟩ := permitted_of_perm hperm
      rw [← hcoords]
      exact h res hres id hid r hr
    exact (List.cons.inj ((hfirst p hp).trans (hfirst q hq).symm)).1
  · intro h res hres id hid r hr
    have hperm := coordsMapOf_perm hres.perm id
    rw [coordsMapOf_dumpedPoints hid hr] at hperm
    have hall := h id hid r hr
    cases hv : verticesOf r with
    | nil =>
        rw [hv] at hperm
        exact hperm.eq_nil
    | cons v vs =>
        have hrep : verticesOf r = List.replicate (verticesOf r).length v :=
          List.eq_replicate_of_mem fun p hp => hall p hp v (by rw [hv]; exact List.mem_cons_self ..)
        rw [hrep, List.perm_replicate] at hperm
        rw [hperm, ← hrep, hv]

/-- A way of three points. -/
def bentWay : Database where
  rows t := if t = .ways then [⟨7, [], some (.lineString [⟨0, 0⟩, ⟨1, 0⟩, ⟨1, 1⟩])⟩] else []
  tags _ := []

/-- **Vertices out of order.**  A result that `ORDER BY id` permits has the middle
point of a way first; its three points in that order are another line. -/
theorem vertices_out_of_order : ∃ res, bentWay.Permitted [7] res
    ∧ coordsMapOf res 7 = [⟨1, 0⟩, ⟨0, 0⟩, ⟨1, 1⟩]
    ∧ bentWay.SoleRow 7 ⟨7, [], some (.lineString [⟨0, 0⟩, ⟨1, 0⟩, ⟨1, 1⟩])⟩
    ∧ ¬bentWay.InGeometryOrder [7] := by
  have hres : bentWay.Permitted [7] [(7, ⟨1, 0⟩), (7, ⟨0, 0⟩), (7, ⟨1, 1⟩)] :=
    ⟨by decide, by decide⟩
  have hsole : bentWay.SoleRow 7 ⟨7, [], some (.lineString [⟨0, 0⟩, ⟨1, 0⟩, ⟨1, 1⟩])⟩ := rfl
  refine ⟨_, hres, by decide, hsole, fun h => ?_⟩
  have hwrong := h _ hres 7 (by decide) _ hsole
  exact absurd hwrong (by decide)

end Database

end Gpsxdb
