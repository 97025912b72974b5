import Mathlib.Tactic
import Gpsxdb.Import.Conservation
import Gpsxdb.Import.Lookup

/-!
The rows a file gives rise to.

* `mem_wayKept`, `mem_relationKept`: the table and id of each;
* `OsmFile.kept`, `kept_unique`: no two rows of one table share an id;
* `wayTables_nodup`, `mem_rows_ofKept`: the tables as the way phase leaves them;
* `rowsOf_wayTables`: a way of the file is found there exactly when it is kept.
-/

namespace Gpsxdb

/-- The row of a way stands under its id, in `ways` or `areas`. -/
lemma mem_wayKept {select : ℤ → Option Coord} {w : WayEntry} {k : Kept}
    (h : k ∈ wayKept select w) : k.row.id = w.id ∧ (k.table = .ways ∨ k.table = .areas)
      ∧ k.tags = keptTags w.id w.tags false := by
  rw [wayKept] at h
  split at h
  · simp at h
  · split at h
    · obtain rfl := List.mem_singleton.mp h
      refine ⟨rfl, ?_, rfl⟩
      dsimp only
      split
      · exact Or.inr rfl
      · exact Or.inl rfl
    · simp at h

/-- A way gives rise to one row at most. -/
lemma wayKept_eq {select : ℤ → Option Coord} {w : WayEntry} {k k' : Kept}
    (h : k ∈ wayKept select w) (h' : k' ∈ wayKept select w) : k = k' := by
  rw [wayKept] at h h'
  split at h
  · simp at h
  · split at h
    · simp_all
    · simp at h

/-- The rows of a relation: an area under its negative id, or a relation and
perhaps a road under its id. -/
lemma mem_relationKept {f : OsmFile} {select : ℤ → Option Coord} {r : RelationEntry} {k : Kept}
    (h : k ∈ f.relationKept select r) :
    (k.table = .areas ∧ k.row.id = -r.id ∧ k.tags = keptTags (-r.id) r.tags false)
      ∨ (k.table = .relations ∨ k.table = .roads) ∧ k.row.id = r.id
        ∧ k.tags = keptTags r.id r.tags false := by
  rw [OsmFile.relationKept] at h
  split at h
  · rw [areaKept] at h
    split at h
    · simp at h
    · split at h
      · obtain rfl := List.mem_singleton.mp h
        exact Or.inl ⟨rfl, rfl, rfl⟩
      · simp at h
  · rw [routeKept] at h
    rcases List.mem_cons.mp h with rfl | h
    · exact Or.inr ⟨Or.inl rfl, rfl, rfl⟩
    · split at h
      · simp at h
      · split at h
        · obtain rfl := List.mem_singleton.mp h
          exact Or.inr ⟨Or.inr rfl, rfl, rfl⟩
        · simp at h

/-- A relation gives rise to one row of a table at most. -/
lemma relationKept_eq {f : OsmFile} {select : ℤ → Option Coord} {r : RelationEntry} {k k' : Kept}
    (h : k ∈ f.relationKept select r) (h' : k' ∈ f.relationKept select r)
    (ht : k.table = k'.table) : k = k' := by
  rw [OsmFile.relationKept] at h h'
  split at h
  · rw [if_pos ‹_›] at h'
    rw [areaKept] at h h'
    split at h
    · simp at h
    · split at h
      · simp_all
      · simp at h
  · rw [if_neg ‹_›] at h'
    rw [routeKept] at h h'
    split at h <;> rename_i hgeom <;> simp only [hgeom] at h'
    · simp_all
    · split at h
      · simp only [‹isRoad r.tags = true›, if_true, List.mem_cons, List.not_mem_nil, or_false]
          at h h'
        rcases h with rfl | rfl <;> rcases h' with rfl | rfl <;> simp_all
      · simp_all

namespace OsmFile

variable (f : OsmFile) (select : ℤ → Option Coord)

/-- The rows a file gives rise to. -/
def kept : List Kept := f.waysKept select ++ f.relationsKept select

variable {f select}

lemma mem_waysKept {k : Kept} :
    k ∈ f.waysKept select ↔ ∃ w ∈ f.ways, k ∈ wayKept select w := by
  rw [waysKept, List.mem_flatMap]

lemma mem_relationsKept {k : Kept} :
    k ∈ f.relationsKept select ↔ ∃ r ∈ f.relations, k ∈ f.relationKept select r := by
  rw [relationsKept, List.mem_flatMap]

/-- In a list of distinct ids an entry is the only one of its id. -/
lemma eq_of_id {α : Type} {id : α → ℤ} {l : List α} (hnd : (l.map id).Nodup) {a b : α}
    (ha : a ∈ l) (hb : b ∈ l) (h : id a = id b) : a = b :=
  List.inj_on_of_nodup_map hnd ha hb h

/-- **No two rows of one table share an id.** -/
lemma kept_unique {k k' : Kept} (h : k ∈ f.kept select) (h' : k' ∈ f.kept select)
    (ht : k.table = k'.table) (hid : k.row.id = k'.row.id) : k = k' := by
  rw [kept, List.mem_append, mem_waysKept, mem_relationsKept] at h h'
  rcases h with ⟨w, hw, hk⟩ | ⟨r, hr, hk⟩ <;> rcases h' with ⟨w', hw', hk'⟩ | ⟨r', hr', hk'⟩
  · have h1 := (mem_wayKept hk).1
    have h2 := (mem_wayKept hk').1
    obtain rfl := eq_of_id f.way_nodup hw hw' (by omega)
    exact wayKept_eq hk hk'
  · -- an area of a relation stands under a negative id
    obtain ⟨h1, h2, -⟩ := mem_wayKept hk
    have hpos := f.way_pos w hw
    have hpos' := f.relation_pos r' hr'
    rcases mem_relationKept hk' with ⟨-, h3, -⟩ | ⟨h3, -, -⟩
    · omega
    · rw [← ht] at h3
      rcases h2 with h2 | h2 <;> simp [h2] at h3
  · obtain ⟨h1, h2, -⟩ := mem_wayKept hk'
    have hpos := f.way_pos w' hw'
    have hpos' := f.relation_pos r hr
    rcases mem_relationKept hk with ⟨-, h3, -⟩ | ⟨h3, -, -⟩
    · omega
    · rw [ht] at h3
      rcases h2 with h2 | h2 <;> simp [h2] at h3
  · have hids : r.id = r'.id := by
      rcases mem_relationKept hk with ⟨ht1, h1, -⟩ | ⟨ht1, h1, -⟩ <;>
        rcases mem_relationKept hk' with ⟨ht2, h2, -⟩ | ⟨ht2, h2, -⟩
      · omega
      · rw [← ht, ht1] at ht2
        simp at ht2
      · rw [ht, ht2] at ht1
        simp at ht1
      · omega
    obtain rfl := eq_of_id f.relation_nodup hr hr' hids
    exact relationKept_eq hk hk' ht

end OsmFile

/-- The rows of a table made of given rows. -/
lemma Database.mem_rows_ofKept {ks : List Kept} {t : Table} {r : GeomRecord} :
    r ∈ (Database.ofKept ks).rows t ↔ ∃ k ∈ ks, k.table = t ∧ k.row = r := by
  simp only [Database.ofKept, List.mem_map, List.mem_filter, decide_eq_true_eq, and_assoc]

namespace OsmFile

variable {f : OsmFile} {select : ℤ → Option Coord}

/-- The rows of the ways have distinct ids. -/
lemma waysKept_nodup : ((f.waysKept select).map fun k => k.row.id).Nodup := by
  have hsub : ∀ ws : List WayEntry,
      ((ws.flatMap (wayKept select)).map fun k => k.row.id).Sublist (ws.map WayEntry.id) := by
    intro ws
    induction ws with
    | nil => simp
    | cons w ws ih =>
        rw [List.flatMap_cons, List.map_append, List.map_cons]
        have hw : ((wayKept select w).map fun k => k.row.id).Sublist [w.id] := by
          rw [wayKept]
          split
          · simp
          · split <;> simp
        exact hw.append ih
  exact (hsub f.ways).nodup f.way_nodup

lemma wayTables_nodup (t : Table) : (((f.wayTables select).rows t).map GeomRecord.id).Nodup := by
  have hsub := ((List.filter_sublist (p := fun k : Kept => decide (k.table = t))
    (l := f.waysKept select)).map fun k => k.row.id).nodup waysKept_nodup
  simpa [wayTables, Database.ofKept, List.map_map, Function.comp_def] using hsub

/-- A row of the way phase stands under the id of a way it comes from. -/
lemma mem_rows_wayTables {t : Table} {r : GeomRecord} :
    r ∈ (f.wayTables select).rows t
      ↔ ∃ w ∈ f.ways, ∃ k ∈ wayKept select w, k.table = t ∧ k.row = r := by
  rw [wayTables, Database.mem_rows_ofKept]
  constructor
  · rintro ⟨k, hk, ht, hr⟩
    obtain ⟨w, hw, hk⟩ := mem_waysKept.mp hk
    exact ⟨w, hw, k, hk, ht, hr⟩
  · rintro ⟨w, hw, k, hk, ht, hr⟩
    exact ⟨k, mem_waysKept.mpr ⟨w, hw, hk⟩, ht, hr⟩

/-- The rows a way of the file has once the way phase is over. -/
lemma rowsOf_wayTables {w : WayEntry} (hw : w ∈ f.ways) :
    (f.wayTables select).rowsOf .ways w.id ++ (f.wayTables select).rowsOf .areas w.id
      = (wayKept select w).map Kept.row := by
  have hrow : ∀ t r, r ∈ (f.wayTables select).rows t → r.id = w.id →
      ∃ k ∈ wayKept select w, k.table = t ∧ k.row = r := by
    intro t r hr hid
    obtain ⟨w', hw', k, hk, ht, rfl⟩ := mem_rows_wayTables.mp hr
    have h1 := (mem_wayKept hk).1
    obtain rfl := eq_of_id f.way_nodup hw' hw (by omega)
    exact ⟨k, hk, ht, rfl⟩
  have hempty : ∀ t, (∀ k ∈ wayKept select w, k.table ≠ t) →
      (f.wayTables select).rowsOf t w.id = [] := by
    intro t hno
    refine List.filter_eq_nil_iff.mpr fun r hr hid => ?_
    obtain ⟨k, hk, ht, -⟩ := hrow t r hr (by simpa using hid)
    exact hno k hk ht
  have hone : ∀ t, ∀ k ∈ wayKept select w, k.table = t →
      (f.wayTables select).rowsOf t w.id = [k.row] := by
    intro t k hk ht
    have hmem : k.row ∈ (f.wayTables select).rows t :=
      mem_rows_wayTables.mpr ⟨w, hw, k, hk, ht, rfl⟩
    have hfilter := filter_id_of_nodup (wayTables_nodup t) hmem
    rw [(mem_wayKept hk).1] at hfilter
    exact hfilter
  rcases hk : wayKept select w with _ | ⟨k, ks⟩
  · rw [hempty .ways (by simp [hk]), hempty .areas (by simp [hk])]
    rfl
  · have hmem : k ∈ wayKept select w := by rw [hk]; exact List.mem_cons_self ..
    have hks : ks = [] := by
      have hlen : (wayKept select w).length ≤ 1 := by
        rw [wayKept]
        split
        · simp
        · split <;> simp
      rw [hk] at hlen
      simpa using hlen
    have honly : ∀ k' ∈ wayKept select w, k' = k := fun k' hk' => wayKept_eq hk' hmem
    rcases (mem_wayKept hmem).2.1 with ht | ht
    · rw [hone .ways k hmem ht, hempty .areas fun k' hk' => by rw [honly k' hk', ht]; simp, hks]
      rfl
    · rw [hempty .ways fun k' hk' => by rw [honly k' hk', ht]; simp, hone .areas k hmem ht, hks]
      rfl

end OsmFile

end Gpsxdb
