import Mathlib.Tactic
import Gpsxdb.Regional.Install

/-!
The rows an upsert and a deletion of `NavDB` leave.

* `rowsOf`: the rows of an id;
* `rows_upsertEntity_of_ne`, `rows_deleteEntity_of_ne`: other tables are left
  alone;
* `mem_rows_upsertEntity`, `mem_rows_deleteEntity`: the rows of the table itself;
* `rowsOf_upsertEntity_eq_nil`, `rowsOf_deleteEntity`: those of the id;
* `rowAt`: the row of an id; `rowAt_upsertEntity`, `rowAt_deleteEntity`;
* `Keyed`: ids are a primary key; `Keyed.perm_rows`.
-/

namespace Gpsxdb

namespace TargetTables

variable {C : Type} {d : TargetTables C} {t u : OsmTable} {q r : Row C} {tags : Tags} {id : ℤ}

/-- The rows of an id. -/
def rowsOf (d : TargetTables C) (t : OsmTable) (id : ℤ) : List (Row C) :=
  (d.rows t).filter fun r => r.id == id

/-! ### Other tables -/

@[simp] lemma rows_upsertEntity_of_ne (h : u ≠ t) (r : Row C) (tags : Tags) :
    (d.upsertEntity t r tags).rows u = d.rows u := Function.update_of_ne h ..

@[simp] lemma rows_deleteEntity_of_ne (h : u ≠ t) (id : ℤ) :
    (d.deleteEntity t id).rows u = d.rows u := Function.update_of_ne h ..

lemma tags_upsertEntity_of_ne (h : u ≠ t) (r : Row C) (tags : Tags) :
    (d.upsertEntity t r tags).tags u = d.tags u := Function.update_of_ne h ..

lemma tags_deleteEntity_of_ne (h : u ≠ t) (id : ℤ) :
    (d.deleteEntity t id).tags u = d.tags u := Function.update_of_ne h ..

lemma rowsOf_upsertEntity_of_ne (h : u ≠ t) (r : Row C) (tags : Tags) (id : ℤ) :
    (d.upsertEntity t r tags).rowsOf u id = d.rowsOf u id := by
  rw [rowsOf, rows_upsertEntity_of_ne h, rowsOf]

lemma rowsOf_deleteEntity_of_ne (h : u ≠ t) (id i : ℤ) :
    (d.deleteEntity t id).rowsOf u i = d.rowsOf u i := by
  rw [rowsOf, rows_deleteEntity_of_ne h, rowsOf]

/-! ### The table itself -/

lemma rows_upsertEntity_self (d : TargetTables C) (t : OsmTable) (r : Row C) (tags : Tags) :
    (d.upsertEntity t r tags).rows t = if hasSurvivingTag tags (t = .nodes) then
      upsert Row.id (d.rows t) r else (d.rows t).filter fun q => q.id != r.id :=
  Function.update_self ..

lemma rows_deleteEntity_self (d : TargetTables C) (t : OsmTable) (id : ℤ) :
    (d.deleteEntity t id).rows t = (d.rows t).filter fun q => q.id != id :=
  Function.update_self ..

lemma tags_upsertEntity_self (d : TargetTables C) (t : OsmTable) (r : Row C) (tags : Tags) :
    (d.upsertEntity t r tags).tags t = diffTags r.id tags (t = .nodes) (d.tags t) :=
  Function.update_self ..

lemma tags_deleteEntity_self (d : TargetTables C) (t : OsmTable) (id : ℤ) :
    (d.deleteEntity t id).tags t = (d.tags t).filter fun g => g.id != id :=
  Function.update_self ..

/-- An upsert into a table without rows. -/
lemma rows_upsertEntity_of_nil (h : d.rows t = []) (r : Row C) (tags : Tags) :
    (d.upsertEntity t r tags).rows t = if hasSurvivingTag tags (t = .nodes) then [r] else [] := by
  simp [rows_upsertEntity_self, h, upsert, hasKey]

/-- The rows after an upsert: the new one, and those of other ids. -/
lemma mem_rows_upsertEntity (h : q ∈ (d.upsertEntity t r tags).rows u) :
    (u = t ∧ q = r) ∨ (q ∈ d.rows u ∧ (u = t → q.id ≠ r.id)) := by
  by_cases hut : u = t
  · subst hut
    rw [rows_upsertEntity_self] at h
    split at h
    · rw [upsert] at h
      split at h
      · obtain ⟨b, hb, rfl⟩ := List.mem_map.mp h
        by_cases hid : b.id = r.id
        · exact Or.inl ⟨rfl, by rw [if_pos hid]⟩
        · rw [if_neg hid]
          exact Or.inr ⟨hb, fun _ => hid⟩
      · rcases List.mem_append.mp h with hq | hq
        · have hnew := hasKey_eq_false.mp (Bool.eq_false_iff.mpr ‹_›)
          exact Or.inr ⟨hq, fun _ => hnew q hq⟩
        · exact Or.inl ⟨rfl, List.mem_singleton.mp hq⟩
    · obtain ⟨hq, hne⟩ := List.mem_filter.mp h
      exact Or.inr ⟨hq, fun _ => by simpa using hne⟩
  · rw [rows_upsertEntity_of_ne hut] at h
    exact Or.inr ⟨h, fun heq => absurd heq hut⟩

@[simp] lemma rowsOf_deleteEntity (d : TargetTables C) (t : OsmTable) (id : ℤ) :
    (d.deleteEntity t id).rowsOf t id = [] := by
  simp [rowsOf, rows_deleteEntity_self, List.filter_filter]

/-- After an upsert the id has a row exactly where a tag survives. -/
lemma rowsOf_upsertEntity_eq_nil :
    (d.upsertEntity t r tags).rowsOf t r.id = [] ↔ hasSurvivingTag tags (t = .nodes) = false := by
  rw [rowsOf, rows_upsertEntity_self]
  by_cases h : hasSurvivingTag tags (t = .nodes) = true
  · have hmem : r ∈ upsert Row.id (d.rows t) r := by
      rw [upsert]
      split
      · obtain ⟨q, hq, hid⟩ := hasKey_iff.mp ‹_›
        exact List.mem_map.mpr ⟨q, hq, by rw [if_pos hid]⟩
      · simp
    simp only [h, Bool.true_eq_false, iff_false]
    exact List.ne_nil_of_mem (a := r) (List.mem_filter.mpr ⟨by simpa using hmem, by simp⟩)
  · simp [h, List.filter_filter]

/-! ### The row of an id -/

/-- The row of an id. -/
def rowAt (d : TargetTables C) (t : OsmTable) (id : ℤ) : Option (Row C) := (d.rowsOf t id).head?

lemma rowsOf_eq (d : TargetTables C) (t : OsmTable) (id : ℤ) :
    d.rowsOf t id = (d.rows t).filter fun q => q.id = id :=
  List.filter_congr fun _ _ => rfl

/-- A deletion clears the row of its id. -/
lemma rowAt_deleteEntity (d : TargetTables C) (t : OsmTable) (i id : ℤ) :
    (d.deleteEntity t i).rowAt t id = if i = id then none else d.rowAt t id := by
  by_cases h : i = id
  · subst h
    simp [rowAt]
  · rw [if_neg h, rowAt, rowAt, rowsOf_eq, rows_deleteEntity_self, List.filter_filter, rowsOf_eq]
    refine congrArg _ (List.filter_congr fun q _ => ?_)
    by_cases hq : q.id = id
    · simp [hq, Ne.symm h]
    · simp [hq]

/-- An upsert sets the row of its id, or clears it where no tag survives. -/
lemma rowAt_upsertEntity (d : TargetTables C) (t : OsmTable) (r : Row C) (tags : Tags) (id : ℤ) :
    (d.upsertEntity t r tags).rowAt t id
      = if r.id = id then (if hasSurvivingTag tags (t = .nodes) then some r else none)
        else d.rowAt t id := by
  by_cases hk : hasSurvivingTag tags (t = .nodes) = true
  · rw [rowAt, rowAt, rowsOf_eq, rowsOf_eq, rows_upsertEntity_self, if_pos hk, if_pos hk]
    by_cases h : r.id = id
    · subst h
      rw [if_pos rfl]
      exact head?_filter_upsert ..
    · rw [if_neg h, filter_upsert_of_ne h]
  · have hdel : (d.upsertEntity t r tags).rowAt t id = (d.deleteEntity t r.id).rowAt t id := by
      rw [rowAt, rowAt, rowsOf, rowsOf, rows_upsertEntity_self, if_neg hk, rows_deleteEntity_self]
    rw [hdel, rowAt_deleteEntity, if_neg hk]

/-! ### The primary key -/

/-- No table has two rows of one id. -/
def Keyed (d : TargetTables C) : Prop := ∀ t, ((d.rows t).map Row.id).Nodup

lemma Keyed.upsertEntity (h : d.Keyed) (t : OsmTable) (r : Row C) (tags : Tags) :
    (d.upsertEntity t r tags).Keyed := by
  intro u
  by_cases hu : u = t
  · subst hu
    rw [rows_upsertEntity_self]
    split
    · exact nodup_upsert (h u)
    · exact ((List.filter_sublist).map Row.id).nodup (h u)
  · rw [rows_upsertEntity_of_ne hu]
    exact h u

lemma Keyed.deleteEntity (h : d.Keyed) (t : OsmTable) (id : ℤ) : (d.deleteEntity t id).Keyed := by
  intro u
  by_cases hu : u = t
  · subst hu
    rw [rows_deleteEntity_self]
    exact ((List.filter_sublist).map Row.id).nodup (h u)
  · rw [rows_deleteEntity_of_ne hu]
    exact h u

/-- With a primary key the rows of a table are the rows of its ids. -/
lemma Keyed.mem_rows_iff (h : d.Keyed) : q ∈ d.rows t ↔ d.rowAt t q.id = some q := by
  rw [rowAt, rowsOf_eq]
  constructor
  · intro hq
    have hmem : q ∈ (d.rows t).filter fun r => r.id = q.id := List.mem_filter.mpr ⟨hq, by simp⟩
    obtain ⟨r, hr⟩ : ∃ r, ((d.rows t).filter fun r => r.id = q.id).head? = some r := by
      rw [← Option.isSome_iff_exists, List.isSome_head?]
      exact List.ne_nil_of_mem hmem
    obtain ⟨hrows, hid⟩ := List.mem_filter.mp (List.mem_of_mem_head? hr)
    rw [hr, List.inj_on_of_nodup_map (h t) hrows hq (by simpa using hid)]
  · exact fun hq => (List.mem_filter.mp (List.mem_of_mem_head? hq)).1

/-- Tables with a primary key hold the same rows if they do so id by id. -/
lemma Keyed.perm_rows {d' : TargetTables C} (h : d.Keyed) (h' : d'.Keyed)
    (hrow : ∀ id, d.rowAt t id = d'.rowAt t id) : (d.rows t).Perm (d'.rows t) :=
  (List.perm_ext_iff_of_nodup (List.Nodup.of_map _ (h t)) (List.Nodup.of_map _ (h' t))).mpr
    fun q => by rw [h.mem_rows_iff, h'.mem_rows_iff, hrow]

end TargetTables

end Gpsxdb
