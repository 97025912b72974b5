import Mathlib.Tactic
import Gpsxdb.Library.Sorted
import Gpsxdb.NodeStore.OSMMMap

/-!
`RegionalNodeMap`: the node coordinates of a region, ascending by id.

* `RegionalNodeMap`, `select`: the records of a file and the search in them;
  `select_eq_some_iff`;
* `merge`: the streaming merge of two files; `select_merge`.

The header (region name, bounding box, time of creation) is read by nothing that
is modelled here and left out; the record count is the length of the list.
-/

namespace Gpsxdb

/-- A record of a regional node file. -/
structure NodeRecord where
  id : ℤ
  coord : Coord
deriving DecidableEq

/-- A regional node file: records ascending by id. -/
structure RegionalNodeMap where
  records : List NodeRecord
  ascending : records.Pairwise fun a b => a.id < b.id

namespace RegionalNodeMap

/-- `RegionalNodeMap::select`. -/
def select (m : RegionalNodeMap) (id : ℤ) : Option Coord :=
  (searchBy NodeRecord.id m.records id).map NodeRecord.coord

/-- **`select` reads the records.** -/
theorem select_eq_some_iff {m : RegionalNodeMap} {id : ℤ} {c : Coord} :
    m.select id = some c ↔ ⟨id, c⟩ ∈ m.records := by
  rw [select, Option.map_eq_some_iff]
  constructor
  · rintro ⟨r, hr, rfl⟩
    obtain ⟨hmem, rfl⟩ := (searchBy_eq_some_iff m.ascending).mp hr
    exact hmem
  · intro hmem
    exact ⟨⟨id, c⟩, (searchBy_eq_some_iff m.ascending).mpr ⟨hmem, rfl⟩, rfl⟩

/-- `RegionalNodeMap::merge`: where both files have an id, the record of the
first is written. -/
def merge (a b : RegionalNodeMap) : RegionalNodeMap where
  records := mergeBy NodeRecord.id a.records b.records
  ascending := pairwise_mergeBy a.ascending b.ascending

/-- **A merged file** answers as the first one, and where that has no record as
the second. -/
theorem select_merge (a b : RegionalNodeMap) (id : ℤ) :
    (a.merge b).select id = (a.select id).or (b.select id) := by
  refine Option.ext fun c => ?_
  rw [select_eq_some_iff, merge, mem_mergeBy a.ascending b.ascending, Option.or_eq_some_iff,
    select_eq_some_iff, select_eq_some_iff]
  refine or_congr_right ?_
  rw [and_comm]
  refine and_congr_left fun _ => ?_
  constructor
  · intro h
    by_contra hsome
    obtain ⟨c', hc'⟩ := Option.ne_none_iff_exists'.mp hsome
    exact h _ (select_eq_some_iff.mp hc') rfl
  · rintro h ⟨id', c'⟩ hr rfl
    rw [select_eq_some_iff.mpr hr] at h
    simp at h

end RegionalNodeMap

end Gpsxdb
