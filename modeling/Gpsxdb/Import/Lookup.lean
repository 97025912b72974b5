import Mathlib.Tactic
import Gpsxdb.Import.NavDB

/-!
The two queries of the relation phase depend only on the rows of the ids asked
for.

* `filter_eq_of_mem_iff`: tables with distinct ids that have the same rows of an
  id list the same rows for it;
* `getWayCoordsMap_apply`: the coordinates of an id are the vertices of its rows;
* `getWay_congr`, `getWayCoordsMap_congr`.
-/

namespace Gpsxdb

/-- In a table of distinct ids a row is the only one of its id. -/
lemma filter_id_of_nodup {l : List GeomRecord} (hnd : (l.map GeomRecord.id).Nodup)
    {r : GeomRecord} (hr : r ∈ l) : (l.filter fun q => q.id == r.id) = [r] := by
  induction l with
  | nil => simp at hr
  | cons q l ih =>
      rw [List.map_cons, List.nodup_cons] at hnd
      rw [List.filter_cons]
      by_cases hq : q.id = r.id
      · have hrest : ∀ x ∈ l, x.id ≠ r.id := fun x hx hid =>
          hnd.1 (List.mem_map.mpr ⟨x, hx, hid.trans hq.symm⟩)
        have hqr : q = r := by
          rcases List.mem_cons.mp hr with rfl | hr
          · rfl
          · exact absurd rfl (hrest r hr)
        have hnil : (l.filter fun x => x.id == r.id) = [] :=
          List.filter_eq_nil_iff.mpr fun x hx => by simpa using hrest x hx
        rw [hqr] at hq ⊢
        simp [hnil]
      · have hr' : r ∈ l := by
          rcases List.mem_cons.mp hr with rfl | hr
          · exact absurd rfl hq
          · exact hr
        simp [hq, ih hnd.2 hr']

/-- Two tables of distinct ids with the same rows of an id. -/
lemma filter_eq_of_mem_iff {l l' : List GeomRecord} (hnd : (l.map GeomRecord.id).Nodup)
    (hnd' : (l'.map GeomRecord.id).Nodup) {id : ℤ} (h : ∀ r, r.id = id → (r ∈ l ↔ r ∈ l')) :
    (l.filter fun r => r.id == id) = l'.filter fun r => r.id == id := by
  by_cases hex : ∃ r ∈ l, r.id = id
  · obtain ⟨r, hr, rfl⟩ := hex
    rw [filter_id_of_nodup hnd hr, filter_id_of_nodup hnd' ((h r rfl).mp hr)]
  · have hnil : ∀ m : List GeomRecord, (∀ r ∈ m, r.id = id → r ∈ l) →
        (m.filter fun r => r.id == id) = [] := fun m hm =>
      List.filter_eq_nil_iff.mpr fun r hr => by
        simpa using fun hid => hex ⟨r, hm r hr hid, hid⟩
    rw [hnil l fun r hr _ => hr, hnil l' fun r hr hid => (h r hid).mpr hr]

namespace Database

lemma le_id_trans (a b c : ℤ × Coord) (hab : decide (a.1 ≤ b.1) = true)
    (hbc : decide (b.1 ≤ c.1) = true) : decide (a.1 ≤ c.1) = true := by
  simp only [decide_eq_true_eq] at *
  omega

lemma le_id_total (a b : ℤ × Coord) : (decide (a.1 ≤ b.1) || decide (b.1 ≤ a.1)) = true := by
  simp only [Bool.or_eq_true, decide_eq_true_eq]
  omega

/-- The loop over the rows of the query is blind to the sorting. -/
lemma coordsMapOf_mergeSort (res : List (ℤ × Coord)) (id : ℤ) :
    coordsMapOf (res.mergeSort fun a b => a.1 ≤ b.1) id = coordsMapOf res id := by
  -- the rows of one id compare equal, so a stable sort keeps their order
  have hpair : (res.filter fun row => row.1 == id).Pairwise fun a b => decide (a.1 ≤ b.1) := by
    refine List.pairwise_of_forall_mem_list fun a ha b hb => ?_
    have h1 := (List.mem_filter.mp ha).2
    have h2 := (List.mem_filter.mp hb).2
    simp only [beq_iff_eq] at h1 h2
    simp [h1, h2]
  have hsub := List.sublist_mergeSort le_id_trans le_id_total hpair List.filter_sublist
  have hperm := List.mergeSort_perm res fun a b => decide (a.1 ≤ b.1)
  have hfilter := hsub.filter fun row => row.1 == id
  simp only [List.filter_filter, Bool.and_self] at hfilter
  have heq := hfilter.eq_of_length (hperm.filter _).length_eq.symm
  rw [coordsMapOf, coordsMapOf, heq]

/-- The vertices of one id among those of a table. -/
lemma coordsMapOf_flatMap (l : List GeomRecord) (id : ℤ) :
    coordsMapOf (l.flatMap pointsOf) id
      = (l.filter fun r => r.id == id).flatMap fun r => (r.geog.map Geog.dumpPoints).getD [] := by
  rw [coordsMapOf]
  induction l with
  | nil => rfl
  | cons r l ih =>
      rw [List.flatMap_cons, List.filter_append, List.map_append, ih, List.filter_cons]
      by_cases h : r.id = id
      · simp [pointsOf, h, List.filter_map, Function.comp_def]
      · simp [pointsOf, h, List.filter_map, Function.comp_def]

/-- **`getWayCoordsMap`** lists, for a requested id, the vertices of its rows. -/
lemma getWayCoordsMap_apply (d : Database) (ids : List ℤ) (id : ℤ) :
    d.getWayCoordsMap ids id = if id ∈ ids then
      (d.rowsOf .ways id ++ d.rowsOf .areas id).flatMap
        fun r => (r.geog.map Geog.dumpPoints).getD [] else [] := by
  rw [getWayCoordsMap, wayPoints, coordsMapOf_mergeSort, coordsMapOf_flatMap,
    List.filter_append, List.filter_filter, List.filter_filter]
  have hfilter : ∀ l : List GeomRecord,
      (l.filter fun r => r.id == id && ids.contains r.id)
        = if id ∈ ids then l.filter fun r => r.id == id else [] := by
    intro l
    split
    · refine List.filter_congr fun r _ => ?_
      by_cases h : r.id = id
      · simp [h, ‹id ∈ ids›]
      · simp [h]
    · refine List.filter_eq_nil_iff.mpr fun r _ => ?_
      by_cases h : r.id = id
      · simp [h, ‹id ∉ ids›]
      · simp [h]
  rw [hfilter, hfilter]
  split
  · rfl
  · rfl

/-- The two queries see only the rows of the ids asked for. -/
lemma getWay_congr {d e : Database} {id : ℤ}
    (h : ∀ t, t = .ways ∨ t = .areas → d.rowsOf t id = e.rowsOf t id) :
    d.getWay id = e.getWay id := by
  rw [getWay, getWay, h .ways (Or.inl rfl), h .areas (Or.inr rfl)]

lemma getWayCoordsMap_congr {d e : Database} {ids : List ℤ}
    (h : ∀ id ∈ ids, ∀ t, t = .ways ∨ t = .areas → d.rowsOf t id = e.rowsOf t id) :
    d.getWayCoordsMap ids = e.getWayCoordsMap ids := by
  funext id
  rw [getWayCoordsMap_apply, getWayCoordsMap_apply]
  split
  · rw [h id ‹_› .ways (Or.inl rfl), h id ‹_› .areas (Or.inr rfl)]
  · rfl

end Database

end Gpsxdb
