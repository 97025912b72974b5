import Mathlib.Tactic
import Gpsxdb.Library.Binary64
import Gpsxdb.Library.Polygons
import Gpsxdb.Library.Windows
import Gpsxdb.Import.Stitching
import Gpsxdb.Import.WayThread

/-!
The holes of a multipolygon (`buildMultipolygon`).

* `planePoint`, `Contains`: rings as closed lines in the plane, and one that another
  covers; `inBoxOf_of_contains`: **a ring that is contained passes the box check**;
* `HolesPartition`: every inner ring is the hole of one polygon, of one that contains
  it where there is any;
* `holesPartition_iff`: **when the box check makes a partition**;
* `hole_written_twice`: a pond on an island in a lake.
-/

namespace Gpsxdb

/-! ### Rings in the plane -/

/-- Neither infinite nor a NaN. -/
def Double.IsFinite (x : Double) : Prop := Double.magnitude x < 0x7FF0000000000000

lemma Double.isNaN_of_isFinite {x : Double} (h : x.IsFinite) : Double.isNaN x = false := by
  rw [Double.isNaN]
  exact decide_eq_false (by rw [Double.IsFinite] at h; omega)

/-- A point by the values of its coordinates. -/
def planePoint (p : Coord) : ℚ × ℚ :=
  (doubleValue (Double.key p.lon_m), doubleValue (Double.key p.lat_m))

/-- The outer ring covers every point of the inner ring, and all are finite. -/
structure Contains (outer inner : Ring) : Prop where
  finite : ∀ p ∈ outer ++ inner, p.lon_m.IsFinite ∧ p.lat_m.IsFinite
  covers : Polygon.CoversLine (outer.map planePoint) (inner.map planePoint)

/-- The ends of a stitched ring are one point of the plane. -/
lemma closed_of_mem_stitchRings {segs : List Segment} {r : Ring} (hr : r ∈ stitchRings segs) :
    4 ≤ r.length ∧ (r.map planePoint).head? = (r.map planePoint).getLast? := by
  rw [stitchRings_eq, List.mem_filter, decide_eq_true_eq] at hr
  obtain ⟨hr, hlen⟩ := hr
  refine ⟨hlen, ?_⟩
  obtain ⟨c, -, rfl⟩ := List.mem_map.mp hr
  rw [List.head?_map, List.getLast?_map]
  cases c with
  | nil => rfl
  | cons a c =>
      by_cases hclosed : endsMeet (a :: c) = true
      · rw [closeRing_of_endsMeet hclosed]
        obtain ⟨hkeys, -⟩ := (endsMeet_iff (List.cons_ne_nil a c)).mp hclosed
        rw [Trail.Closed, trail, List.head?_map, List.getLast?_map] at hkeys
        have hvalue := congrArg (Option.map fun v => (doubleValue v.1, doubleValue v.2)) hkeys
        rw [Option.map_map, Option.map_map] at hvalue
        exact hvalue
      · have hclose : closeRing (a :: c) = a :: (c ++ [a]) := by
          rw [closeRing]
          simp only [List.head?_cons, if_neg hclosed, List.cons_append]
        have hlast : (a :: (c ++ [a])).getLast? = some a := by
          rw [← List.cons_append, List.getLast?_concat]
        rw [hclose, hlast]
        rfl

/-! ### The box check -/

/-- The least coordinate of a ring, as the loop finds it. -/
lemma key_foldl_min {f : Coord → Double} {l : List Coord} {x : Double}
    (hx : Double.isNaN x = false) (hl : ∀ p ∈ l, Double.isNaN (f p) = false) :
    Double.isNaN (l.foldl (fun m p => Double.min m (f p)) x) = false
      ∧ Double.key (l.foldl (fun m p => Double.min m (f p)) x) ≤ Double.key x
      ∧ ∀ p ∈ l, Double.key (l.foldl (fun m p => Double.min m (f p)) x) ≤ Double.key (f p) := by
  induction l generalizing x with
  | nil => exact ⟨hx, le_rfl, by simp⟩
  | cons q l ih =>
      obtain ⟨hq, hl⟩ := List.forall_mem_cons.mp hl
      have hmin : Double.isNaN (Double.min x (f q)) = false
          ∧ Double.key (Double.min x (f q)) ≤ Double.key x
          ∧ Double.key (Double.min x (f q)) ≤ Double.key (f q) := by
        rw [Double.min, Double.lt, hx, hq]
        simp only [Bool.not_false, Bool.true_and, decide_eq_true_eq]
        split
        · exact ⟨hq, by omega, le_rfl⟩
        · exact ⟨hx, le_rfl, by omega⟩
      obtain ⟨hnan, hfold, hall⟩ := ih hmin.1 hl
      exact ⟨hnan, hfold.trans hmin.2.1,
        List.forall_mem_cons.mpr ⟨hfold.trans hmin.2.2, hall⟩⟩

/-- The greatest coordinate of a ring, as the loop finds it. -/
lemma key_foldl_max {f : Coord → Double} {l : List Coord} {x : Double}
    (hx : Double.isNaN x = false) (hl : ∀ p ∈ l, Double.isNaN (f p) = false) :
    Double.isNaN (l.foldl (fun m p => Double.max m (f p)) x) = false
      ∧ Double.key x ≤ Double.key (l.foldl (fun m p => Double.max m (f p)) x)
      ∧ ∀ p ∈ l, Double.key (f p) ≤ Double.key (l.foldl (fun m p => Double.max m (f p)) x) := by
  induction l generalizing x with
  | nil => exact ⟨hx, le_rfl, by simp⟩
  | cons q l ih =>
      obtain ⟨hq, hl⟩ := List.forall_mem_cons.mp hl
      have hmax : Double.isNaN (Double.max x (f q)) = false
          ∧ Double.key x ≤ Double.key (Double.max x (f q))
          ∧ Double.key (f q) ≤ Double.key (Double.max x (f q)) := by
        rw [Double.max, Double.lt, hx, hq]
        simp only [Bool.not_false, Bool.true_and, decide_eq_true_eq]
        split
        · exact ⟨hq, by omega, le_rfl⟩
        · exact ⟨hx, le_rfl, by omega⟩
      obtain ⟨hnan, hfold, hall⟩ := ih hmax.1 hl
      exact ⟨hnan, hmax.2.1.trans hfold,
        List.forall_mem_cons.mpr ⟨hmax.2.2.trans hfold, hall⟩⟩

lemma Double.le_iff {x y : Double} (hx : Double.isNaN x = false) (hy : Double.isNaN y = false) :
    Double.le x y = true ↔ Double.key x ≤ Double.key y := by
  rw [Double.le, hx, hy]
  simp

section Box

variable {f : Coord → Double} {o : Coord} {os : List Coord} {x : Double}

/-- A coordinate that is not below all of the ring's passes the lower bound. -/
lemma foldl_min_le (hnum : ∀ p ∈ o :: os, Double.isNaN (f p) = false)
    (hx : Double.isNaN x = false) (h : ∃ q ∈ o :: os, Double.key (f q) ≤ Double.key x) :
    Double.le (os.foldl (fun m p => Double.min m (f p)) (f o)) x = true := by
  obtain ⟨ho, hos⟩ := List.forall_mem_cons.mp hnum
  obtain ⟨hnan, hfirst, hall⟩ := key_foldl_min ho hos
  obtain ⟨q, hq, hle⟩ := h
  rw [Double.le_iff hnan hx]
  rcases List.mem_cons.mp hq with rfl | hq
  · exact hfirst.trans hle
  · exact (hall q hq).trans hle

/-- A coordinate that is not above all of the ring's passes the upper bound. -/
lemma le_foldl_max (hnum : ∀ p ∈ o :: os, Double.isNaN (f p) = false)
    (hx : Double.isNaN x = false) (h : ∃ q ∈ o :: os, Double.key x ≤ Double.key (f q)) :
    Double.le x (os.foldl (fun m p => Double.max m (f p)) (f o)) = true := by
  obtain ⟨ho, hos⟩ := List.forall_mem_cons.mp hnum
  obtain ⟨hnan, hfirst, hall⟩ := key_foldl_max ho hos
  obtain ⟨q, hq, hle⟩ := h
  rw [Double.le_iff hx hnan]
  rcases List.mem_cons.mp hq with rfl | hq
  · exact hle.trans hfirst
  · exact hle.trans (hall q hq)

end Box

/-- **A ring that is contained passes the box check.** -/
theorem inBoxOf_of_contains {outer inner : Ring} (h : Contains outer inner)
    (hclosed : (outer.map planePoint).head? = (outer.map planePoint).getLast?)
    (hlen : 2 ≤ inner.length) : inBoxOf outer inner = true := by
  obtain ⟨hfinite, hcovers⟩ := h
  cases inner with
  | nil => simp at hlen
  | cons i inner =>
      cases inner with
      | nil => simp at hlen
      | cons i' inner =>
          -- the first point of the ring is covered
          have hfirst := hcovers (planePoint i, planePoint i') (by simp) 0 le_rfl zero_le_one
          have hpoint : Polygon.pointAt (planePoint i, planePoint i') (0 : ℚ) = planePoint i := by
            simp [Polygon.pointAt]
          rw [hpoint] at hfirst
          obtain ⟨hx0, hx1, hy0, hy1⟩ := hfirst.bounds hclosed
          simp only [List.mem_map, exists_exists_and_eq_and, planePoint,
            doubleValue_le_iff] at hx0 hx1 hy0 hy1
          have hnum : ∀ p ∈ outer ++ i :: i' :: inner,
              Double.isNaN p.lon_m = false ∧ Double.isNaN p.lat_m = false := fun p hp =>
            ⟨Double.isNaN_of_isFinite (hfinite p hp).1, Double.isNaN_of_isFinite (hfinite p hp).2⟩
          obtain ⟨hi, hi'⟩ := hnum i (List.mem_append_right _ (List.mem_cons_self ..))
          cases outer with
          | nil => simp at hx0
          | cons o os =>
              have hlon : ∀ p ∈ o :: os, Double.isNaN p.lon_m = false := fun p hp =>
                (hnum p (List.mem_append_left _ hp)).1
              have hlat : ∀ p ∈ o :: os, Double.isNaN p.lat_m = false := fun p hp =>
                (hnum p (List.mem_append_left _ hp)).2
              rw [inBoxOf]
              simp only [Bool.and_eq_true]
              exact ⟨⟨⟨foldl_min_le hlon hi hx0, le_foldl_max hlon hi hx1⟩,
                foldl_min_le hlat hi' hy0⟩, le_foldl_max hlat hi' hy1⟩

/-! ### The partition -/

/-- Every inner ring is the hole of exactly one polygon, of one whose outer ring
contains it where there is such an outer ring; no hole is lost or written twice. -/
structure HolesPartition (outer_rings inner_rings : List Ring) (polygons : List (List Ring)) :
    Prop where
  shells : polygons.map List.head? = outer_rings.map some
  once : ∀ inner ∈ inner_rings, polygons.countP (fun polygon => inner ∈ polygon.tail) = 1
  kept : (polygons.flatMap List.tail).Perm inner_rings
  contained : ∀ inner ∈ inner_rings, (∃ outer ∈ outer_rings, Contains outer inner) →
    ∀ polygon ∈ polygons, inner ∈ polygon.tail →
      ∃ outer, polygon.head? = some outer ∧ Contains outer inner

/-- What passes a test that only one entry passes. -/
lemma eq_of_countP_eq_one {α : Type} {p : α → Bool} {l : List α} (h : l.countP p = 1) {a b : α}
    (ha : a ∈ l) (hpa : p a = true) (hb : b ∈ l) (hpb : p b = true) : a = b := by
  rw [List.countP_eq_length_filter, List.length_eq_one_iff] at h
  obtain ⟨x, hx⟩ := h
  have hmem : ∀ y ∈ l, p y = true → y = x := by
    intro y hy hpy
    have hyx : y ∈ l.filter p := List.mem_filter.mpr ⟨hy, hpy⟩
    rw [hx] at hyx
    exact List.mem_singleton.mp hyx
  rw [hmem a ha hpa, hmem b hb hpb]

/-- The polygons of two outer rings or more. -/
def polygonsByBox (outer_rings inner_rings : List Ring) : List (List Ring) :=
  outer_rings.map fun outer => outer :: inner_rings.filter (inBoxOf outer)

/-- How many polygons an inner ring is a hole of. -/
lemma countP_polygonsByBox {outer_rings inner_rings : List Ring} {inner : Ring}
    (h : inner ∈ inner_rings) :
    (polygonsByBox outer_rings inner_rings).countP (fun polygon => inner ∈ polygon.tail)
      = outer_rings.countP fun outer => inBoxOf outer inner := by
  rw [polygonsByBox, List.countP_map]
  refine List.countP_congr fun outer _ => ?_
  simp [h]

lemma holesPartition_polygonsByBox {outer_rings inner_rings : List Ring}
    (hclosed : ∀ outer ∈ outer_rings,
      (outer.map planePoint).head? = (outer.map planePoint).getLast?)
    (hlen : ∀ inner ∈ inner_rings, 2 ≤ inner.length) :
    HolesPartition outer_rings inner_rings (polygonsByBox outer_rings inner_rings)
      ↔ ∀ inner ∈ inner_rings, outer_rings.countP (fun outer => inBoxOf outer inner) = 1 := by
  constructor
  · intro h inner hinner
    rw [← countP_polygonsByBox hinner]
    exact h.once inner hinner
  · intro h
    refine ⟨?_, fun inner hinner => ?_, ?_, ?_⟩
    · rw [polygonsByBox, List.map_map]
      rfl
    · rw [countP_polygonsByBox hinner]
      exact h inner hinner
    · rw [polygonsByBox, List.flatMap_map]
      exact perm_flatMap_filter h
    · rintro inner hinner ⟨outer, houter, hcontains⟩ polygon hpolygon hmem
      obtain ⟨o, ho, rfl⟩ := List.mem_map.mp hpolygon
      have hbox : inBoxOf o inner = true := (List.mem_filter.mp hmem).2
      -- the outer ring that contains it passes the check as well, so it is this one
      obtain rfl : o = outer := eq_of_countP_eq_one (h inner hinner) ho hbox houter
        (inBoxOf_of_contains hcontains (hclosed outer houter) (hlen inner hinner))
      exact ⟨o, rfl, hcontains⟩

/-- **Holes.**  Where a relation has two outer rings or more, its inner rings are
divided among the polygons exactly when the first point of each lies in the bounding
box of exactly one outer ring. -/
theorem holesPartition_iff (item : RelationEntry) (coords_map : ℤ → List Coord)
    (h : 2 ≤ (stitchRings (memberSegments item coords_map false)).length) :
    ∃ polygons, buildMultipolygon item coords_map = some (.multiPolygon polygons)
      ∧ (HolesPartition (stitchRings (memberSegments item coords_map false))
          (stitchRings (memberSegments item coords_map true)) polygons
        ↔ ∀ inner ∈ stitchRings (memberSegments item coords_map true),
          (stitchRings (memberSegments item coords_map false)).countP
            (fun outer => inBoxOf outer inner) = 1) := by
  refine ⟨polygonsByBox (stitchRings (memberSegments item coords_map false))
    (stitchRings (memberSegments item coords_map true)), ?_,
    holesPartition_polygonsByBox (fun outer houter => (closed_of_mem_stitchRings houter).2)
      fun inner hinner => le_trans (by norm_num) (closed_of_mem_stitchRings hinner).1⟩
  have hne : memberSegments item coords_map false ≠ [] := by
    intro hnil
    rw [hnil] at h
    simp [stitchRings, stitchLoop] at h
  rw [buildMultipolygon, if_neg hne, polygonsByBox]
  generalize stitchRings (memberSegments item coords_map false) = outer_rings at h ⊢
  cases outer_rings with
  | nil => simp at h
  | cons outer outer_rings =>
      cases outer_rings with
      | nil => simp at h
      | cons _ _ => rfl

/-! ### A pond on an island in a lake -/

/-- A square between two coordinates. -/
def square (lo hi : Double) : List Coord := [⟨lo, lo⟩, ⟨hi, lo⟩, ⟨hi, hi⟩, ⟨lo, hi⟩, ⟨lo, lo⟩]

/-- Land, an island, the lake around the island, and a pond on it. -/
def lakeCoords (id : ℤ) : List Coord :=
  if id = 1 then square 0 10
  else if id = 2 then square 3 6
  else if id = 3 then square 1 9
  else if id = 4 then square 4 5
  else []

/-- The relation of some of them. -/
def lakeRelation (way_members : List RelationMember) : RelationEntry :=
  ⟨1, [], ⟨[], List.nodup_nil⟩, way_members⟩

/-- The members of the relation without the pond. -/
def lakeMembers : List RelationMember :=
  [⟨1, ascii "outer"⟩, ⟨2, ascii "outer"⟩, ⟨3, ascii "inner"⟩]

theorem holesPartition_iff_lake : ∃ polygons,
    buildMultipolygon (lakeRelation lakeMembers) lakeCoords = some (.multiPolygon polygons)
      ∧ HolesPartition [square 0 10, square 3 6] [square 1 9] polygons := by
  obtain ⟨polygons, hbuild, hiff⟩ :=
    holesPartition_iff (lakeRelation lakeMembers) lakeCoords (by decide)
  exact ⟨polygons, hbuild, hiff.mpr (by decide)⟩

/-- **A hole written twice.**  The pond lies in the bounding boxes of the island and
of the land around the lake, and is written as a hole of both. -/
theorem hole_written_twice :
    ∃ item coords_map, stitchRings (memberSegments item coords_map false)
        = [square 0 10, square 3 6]
      ∧ stitchRings (memberSegments item coords_map true) = [square 1 9, square 4 5]
      ∧ buildMultipolygon item coords_map = some (.multiPolygon
        [[square 0 10, square 1 9, square 4 5], [square 3 6, square 4 5]])
      ∧ ¬HolesPartition [square 0 10, square 3 6] [square 1 9, square 4 5]
        [[square 0 10, square 1 9, square 4 5], [square 3 6, square 4 5]] := by
  refine ⟨lakeRelation (lakeMembers ++ [⟨4, ascii "inner"⟩]), lakeCoords, by decide, by decide,
    by decide, fun h => ?_⟩
  have honce := h.once (square 4 5) (by decide)
  exact absurd honce (by decide)

end Gpsxdb
