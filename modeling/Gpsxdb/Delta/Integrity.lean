import Mathlib.Tactic
import Gpsxdb.Delta.RegionalDeltaApplier
import Gpsxdb.Delta.TagCells

/-!
Rows and tag rows stay together in delta mode.

* `TargetTables.Intact`: an id has a row exactly where it has tag rows, and no way
  is in both of its tables;
* `tagsOf_upsertEntity_eq_nil`, `rowsOf_upsertEntity_eq_nil_iff`: an upsert leaves
  rows and tag rows by one and the same test;
* `Intact.upsertEntity`, `Intact.deleteEntity`: the two calls;
* `Safe`, `intact_calls`: the calls of a change, one after another;
* `integrity`: **both appliers** keep the tables intact, the global one also
  between two calls.

What decides on the row is `hasSurvivingTag`, and what decides on the tag rows is
the loop of `diffTags`; `survivingTags_eq_nil` is where they meet.
-/

namespace Gpsxdb

namespace TargetTables

variable {C : Type} {d : TargetTables C} {t u : OsmTable} {r : Row C} {tags : Tags} {id : ℤ}

/-- Rows and tag rows are together, and a way is in one table. -/
structure Intact (d : TargetTables C) : Prop where
  parent_iff_tag : ∀ t id, d.rowsOf t id ≠ [] ↔ d.tagsOf t id ≠ []
  one_table : ∀ id, 0 < id → d.rowsOf .ways id = [] ∨ d.rowsOf .areas id = []

/-! ### Rows and tag rows of an id -/

lemma rowAt_eq_none : d.rowAt t id = none ↔ d.rowsOf t id = [] := List.head?_eq_none_iff

/-- An id without tag rows has no value under any key. -/
lemma tagsOf_eq_nil : d.tagsOf t id = [] ↔ ∀ key, valuesOf (d.tags t) id key = [] := by
  rw [tagsOf, List.filter_eq_nil_iff]
  constructor
  · intro h key
    rw [valuesOf, List.map_eq_nil_iff, List.filter_eq_nil_iff]
    intro g hg hkey
    rw [Bool.and_eq_true] at hkey
    exact h g hg hkey.1
  · intro h g hg hid
    have hkey := h g.key
    rw [valuesOf, List.map_eq_nil_iff, List.filter_eq_nil_iff] at hkey
    exact hkey g hg (by simpa using hid)

/-- A change without surviving tags brings no value under any key. -/
lemma valuesFor_eq_nil {is_node : Bool} :
    (∀ key, valuesFor tags is_node key = []) ↔ hasSurvivingTag tags is_node = false := by
  rw [← survivingTags_eq_nil]
  constructor
  · intro h
    refine List.eq_nil_iff_forall_not_mem.mpr fun kv hkv => ?_
    have hkey := h kv.1
    rw [valuesFor, valuesUnder, List.map_eq_nil_iff, List.filter_eq_nil_iff] at hkey
    exact hkey kv hkv (by simp)
  · intro h key
    rw [valuesFor, h]
    rfl

/-- What an upsert leaves under a key is empty where it brings nothing. -/
lemma act_upsertOp_eq_nil {vs l : List Text} : (upsertOp vs).act l = [] ↔ vs = [] := by
  cases vs with
  | nil => simp [upsertOp, BagOp.act]
  | cons v rest =>
      have hne : setAll v l ≠ [] := by
        intro h
        have hlen := length_setAll v l
        rw [h, List.length_nil] at hlen
        omega
      simp [upsertOp, BagOp.act, hne]

/-- **The tag rows after an upsert**: the test is `hasSurvivingTag` here too. -/
lemma tagsOf_upsertEntity_eq_nil : (d.upsertEntity t r tags).tagsOf u id = []
    ↔ if u = t ∧ id = r.id then hasSurvivingTag tags (t = .nodes) = false
      else d.tagsOf u id = [] := by
  rw [tagsOf_eq_nil]
  by_cases hu : u = t
  · subst hu
    rw [tags_upsertEntity_self]
    by_cases hid : id = r.id
    · rw [if_pos ⟨rfl, hid⟩, ← valuesFor_eq_nil]
      refine forall_congr' fun key => ?_
      rw [valuesOf_diffTags, if_pos hid, act_upsertOp_eq_nil]
    · rw [if_neg fun h => hid h.2, tagsOf_eq_nil]
      refine forall_congr' fun key => ?_
      rw [valuesOf_diffTags, if_neg hid]
  · rw [if_neg fun h => hu h.1, tags_upsertEntity_of_ne hu, tagsOf_eq_nil]

/-- **The rows after an upsert.** -/
lemma rowsOf_upsertEntity_eq_nil_iff : (d.upsertEntity t r tags).rowsOf u id = []
    ↔ if u = t ∧ id = r.id then hasSurvivingTag tags (t = .nodes) = false
      else d.rowsOf u id = [] := by
  by_cases hu : u = t
  · subst hu
    by_cases hid : id = r.id
    · subst hid
      rw [if_pos ⟨rfl, rfl⟩, rowsOf_upsertEntity_eq_nil]
    · rw [if_neg fun h => hid h.2, ← rowAt_eq_none, ← rowAt_eq_none, rowAt_upsertEntity,
        if_neg (Ne.symm hid)]
  · rw [if_neg fun h => hu h.1, rowsOf_upsertEntity_of_ne hu]

lemma tagsOf_deleteEntity_eq_nil (i : ℤ) : (d.deleteEntity t i).tagsOf u id = []
    ↔ (u = t ∧ id = i) ∨ d.tagsOf u id = [] := by
  rw [tagsOf_eq_nil]
  by_cases hu : u = t
  · subst hu
    rw [tags_deleteEntity_self, tagsOf_eq_nil]
    by_cases hid : id = i
    · simp [valuesOf_filter_id, hid]
    · simp [valuesOf_filter_id, hid]
  · rw [tags_deleteEntity_of_ne hu, ← tagsOf_eq_nil]
    simp [hu]

lemma rowsOf_deleteEntity_eq_nil (i : ℤ) : (d.deleteEntity t i).rowsOf u id = []
    ↔ (u = t ∧ id = i) ∨ d.rowsOf u id = [] := by
  by_cases hu : u = t
  · subst hu
    rw [← rowAt_eq_none, ← rowAt_eq_none, rowAt_deleteEntity]
    by_cases hid : id = i
    · simp [hid]
    · simp [hid, Ne.symm hid]
  · rw [rowsOf_deleteEntity_of_ne hu]
    simp [hu]

/-! ### The two calls -/

lemma intact_of_nil (hrows : ∀ t, d.rows t = []) (htags : ∀ t, d.tags t = []) : d.Intact :=
  ⟨fun t id => by simp [rowsOf, tagsOf, hrows, htags], fun id _ => Or.inl (by simp [rowsOf, hrows])⟩

/-- The other table of a way. -/
def otherTable : OsmTable → Option OsmTable
  | .ways => some .areas
  | .areas => some .ways
  | _ => none

/-- **An upsert** keeps tables intact if the id has no row in the other table. -/
lemma Intact.upsertEntity (h : d.Intact)
    (hother : ∀ u, otherTable t = some u → d.rowsOf u r.id = []) (tags : Tags) :
    (d.upsertEntity t r tags).Intact := by
  refine ⟨fun u id => not_congr ?_, fun id hid => ?_⟩
  · rw [rowsOf_upsertEntity_eq_nil_iff, tagsOf_upsertEntity_eq_nil]
    split
    · exact Iff.rfl
    · exact not_iff_not.mp (h.parent_iff_tag u id)
  · rw [rowsOf_upsertEntity_eq_nil_iff, rowsOf_upsertEntity_eq_nil_iff]
    by_cases hr : id = r.id
    · subst hr
      cases t with
      | ways => exact Or.inr (by simpa using hother .areas rfl)
      | areas => exact Or.inl (by simpa using hother .ways rfl)
      | roads => simpa using h.one_table r.id hid
      | relations => simpa using h.one_table r.id hid
      | nodes => simpa using h.one_table r.id hid
    · simpa [hr] using h.one_table id hid

/-- **A deletion** keeps tables intact. -/
lemma Intact.deleteEntity (h : d.Intact) (t : OsmTable) (i : ℤ) : (d.deleteEntity t i).Intact := by
  refine ⟨fun u id => not_congr ?_, fun id hid => ?_⟩
  · rw [rowsOf_deleteEntity_eq_nil, tagsOf_deleteEntity_eq_nil,
      not_iff_not.mp (h.parent_iff_tag u id)]
  · rw [rowsOf_deleteEntity_eq_nil, rowsOf_deleteEntity_eq_nil]
    exact (h.one_table id hid).imp Or.inr Or.inr

/-- The two calls of a way that is stored. -/
lemma Intact.moveWay (h : d.Intact) {t u : OsmTable} (hother : otherTable t = some u) (r : Row C)
    (tags : Tags) : ((d.deleteEntity u r.id).upsertEntity t r tags).Intact := by
  refine (h.deleteEntity u r.id).upsertEntity (fun v hv => ?_) tags
  obtain rfl : u = v := Option.some.inj (hother.symm.trans hv)
  exact rowsOf_deleteEntity ..

end TargetTables

/-! ### The global applier -/

namespace DeltaState

open TargetTables (otherTable)

/-- Calls that keep tables intact, each made on the tables the ones before it leave:
an upsert of a way comes after the deletion from its other table. -/
inductive Safe : DeltaState → List DeltaCall → Prop
  | nil (s : DeltaState) : Safe s []
  | update {s : DeltaState} {cs : List DeltaCall} (id : ℤ) (c : Coord) :
      Safe (s.exec (.update id c)) cs → Safe s (.update id c :: cs)
  | remove {s : DeltaState} {cs : List DeltaCall} (id : ℤ) :
      Safe (s.exec (.remove id)) cs → Safe s (.remove id :: cs)
  | upsert {s : DeltaState} {cs : List DeltaCall} {t : OsmTable} {r : Row Content} {tags : Tags} :
      (∀ u, otherTable t = some u → s.tables.rowsOf u r.id = []) →
      Safe (s.exec (.upsert t r tags)) cs → Safe s (.upsert t r tags :: cs)
  | deleteEntity {s : DeltaState} {cs : List DeltaCall} (t : OsmTable) (id : ℤ) :
      Safe (s.exec (.deleteEntity t id)) cs → Safe s (.deleteEntity t id :: cs)

/-- Safe calls keep tables intact, wherever they stop. -/
lemma Safe.intact {s : DeltaState} {cs : List DeltaCall} (hs : Safe s cs) (h : s.tables.Intact)
    (k : ℕ) : (s.execAll (cs.take k)).tables.Intact := by
  induction hs generalizing k with
  | nil s => simpa using h
  | update id c _ ih =>
      cases k with
      | zero => exact h
      | succ k => exact ih h k
  | remove id _ ih =>
      cases k with
      | zero => exact h
      | succ k => exact ih h k
  | upsert hother _ ih =>
      cases k with
      | zero => exact h
      | succ k => exact ih (h.upsertEntity hother _) k
  | deleteEntity t id _ ih =>
      cases k with
      | zero => exact h
      | succ k => exact ih (h.deleteEntity t id) k

/-- The calls of a way that is stored are safe. -/
lemma safe_moveWay (s : DeltaState) {t u : OsmTable} (hother : otherTable t = some u)
    (r : Row Content) (tags : Tags) : Safe s [.deleteEntity u r.id, .upsert t r tags] := by
  refine .deleteEntity u r.id (.upsert (fun v hv => ?_) (.nil _))
  obtain rfl : u = v := Option.some.inj (hother.symm.trans hv)
  exact TargetTables.rowsOf_deleteEntity ..

lemma safe_upsertWay (s : DeltaState) (w : WayEntry) : Safe s (upsertWay s.nodes w) := by
  rw [upsertWay]
  rcases deltaWayGeom s.nodes w with _ | ⟨geom, _ | _⟩
  · exact .nil s
  · exact s.safe_moveWay rfl (geomRow w.id w.name (some geom)) w.tags
  · exact s.safe_moveWay rfl (geomRow w.id w.name (some geom)) w.tags

lemma safe_upsertRelation (s : DeltaState) (r : RelationEntry) :
    Safe s (upsertRelation s.tables r) := by
  rw [upsertRelation]
  refine .upsert nofun ?_
  split
  · exact .upsert nofun (.nil _)
  · exact .deleteEntity _ _ (.nil _)

/-- **The calls of a change** are safe. -/
lemma safe_calls (p : Projection) (s : DeltaState) (c : OSCChange) :
    Safe s (calls p s.nodes s.tables c) := by
  cases c with
  | node type n =>
      cases type with
      | create =>
          refine .update _ _ ?_
          split
          · exact .nil _
          · exact .upsert nofun (.nil _)
      | modify => exact .update _ _ (.upsert nofun (.nil _))
      | delete => exact .remove _ (.deleteEntity _ _ (.nil _))
  | way type w =>
      cases type with
      | create => exact s.safe_upsertWay w
      | modify => exact s.safe_upsertWay w
      | delete => exact .deleteEntity _ _ (.deleteEntity _ _ (.nil _))
  | relation type r =>
      cases type with
      | create => exact s.safe_upsertRelation r
      | modify => exact s.safe_upsertRelation r
      | delete => exact .deleteEntity _ _ (.deleteEntity _ _ (.nil _))

lemma intact_apply (p : Projection) {s : DeltaState} (h : s.tables.Intact) (c : OSCChange) :
    (s.apply p c).tables.Intact := by
  have hall := (safe_calls p s c).intact h (calls p s.nodes s.tables c).length
  rwa [List.take_length] at hall

lemma intact_run (p : Projection) {s : DeltaState} (h : s.tables.Intact) (cs : List OSCChange) :
    (s.run p cs).tables.Intact := by
  induction cs generalizing s with
  | nil => exact h
  | cons c cs ih => exact ih (intact_apply p h c)

end DeltaState

/-! ### The regional applier -/

namespace RegionalApplier

variable {env : RegionalEnv} {s : RegionalApplier}

lemma intact_createNode (h : s.tables.Intact) (n : NodeEntry) :
    (s.createNode env n).tables.Intact := by
  rw [createNode]
  dsimp only
  split
  · exact h
  · split
    · exact h
    · exact h.upsertEntity (t := .nodes) nofun _

lemma intact_modifyNode (h : s.tables.Intact) (n : NodeEntry) :
    (s.modifyNode env n).tables.Intact := by
  rw [modifyNode]
  dsimp only
  split
  · exact h.upsertEntity (t := .nodes) nofun _
  · exact h.deleteEntity ..

lemma tables_promoteAll (s : RegionalApplier) (w : WayEntry) :
    (s.promoteAll env w).tables = s.tables := by
  have hfold : ∀ (ids : List ℤ) (σ : RegionalApplier), (ids.foldl promote σ).tables = σ.tables := by
    intro ids
    induction ids with
    | nil => exact fun σ => rfl
    | cons id ids ih =>
        intro σ
        rw [List.foldl_cons, ih, promote]
        split <;> rfl
  exact hfold ..

lemma intact_upsertWay (h : s.tables.Intact) (w : WayEntry) :
    (s.upsertWay env w).tables.Intact := by
  rw [upsertWay]
  rcases deltaWayGeom (s.resolve env) w with _ | ⟨geom, is_closed⟩
  · exact h
  · dsimp only
    split
    · exact (h.deleteEntity ..).deleteEntity ..
    · have hpromoted : (s.promoteAll env w).tables = s.tables := s.tables_promoteAll w
      rw [← hpromoted] at h
      split
      · exact h.moveWay rfl (geomRow w.id w.name (some geom)) w.tags
      · exact h.moveWay rfl (geomRow w.id w.name (some geom)) w.tags

lemma intact_upsertRelation (h : s.tables.Intact) (r : RelationEntry) :
    (s.upsertRelation env r).tables.Intact := by
  rw [upsertRelation]
  dsimp only
  split
  · exact (h.deleteEntity ..).deleteEntity ..
  · have hrel := h.upsertEntity (t := .relations)
      (r := geomRow r.id r.name (buildRelationGeom s.tables r))
      nofun r.tags
    dsimp only
    split
    · exact hrel.upsertEntity (t := .roads) nofun _
    · exact hrel.deleteEntity ..

lemma intact_step (h : s.tables.Intact) (ev : RegionalEvent) : (s.step env ev).tables.Intact := by
  cases ev with
  | flush => exact h
  | change c =>
      cases c with
      | node type n =>
          cases type with
          | create => exact intact_createNode h n
          | modify => exact intact_modifyNode h n
          | delete => exact h.deleteEntity ..
      | way type w =>
          cases type with
          | create => exact intact_upsertWay h w
          | modify => exact intact_upsertWay h w
          | delete => exact (h.deleteEntity ..).deleteEntity ..
      | relation type r =>
          cases type with
          | create => exact intact_upsertRelation h r
          | modify => exact intact_upsertRelation h r
          | delete => exact (h.deleteEntity ..).deleteEntity ..

lemma intact_run (h : s.tables.Intact) (evs : List RegionalEvent) :
    (s.run env evs).tables.Intact := by
  induction evs generalizing s with
  | nil => exact h
  | cons ev evs ih => exact ih (intact_step h ev)

end RegionalApplier

/-! ### Both -/

/-- **Integrity in delta mode.**  Intact tables are intact after any sequence of
changes, under either applier; under the global one they are also intact wherever
the calls of one further change stop. -/
theorem integrity {d : TargetTables Content} (hd : d.Intact) :
    (∀ p nodes cs c k, let s := (DeltaState.mk nodes d).run p cs
      s.tables.Intact ∧ (s.execAll ((calls p s.nodes s.tables c).take k)).tables.Intact)
    ∧ ∀ env (s : RegionalApplier), s.tables = d → ∀ evs, (s.run env evs).tables.Intact := by
  constructor
  · intro p nodes cs c k
    have hrun := DeltaState.intact_run p (s := ⟨nodes, d⟩) hd cs
    exact ⟨hrun, (DeltaState.safe_calls p _ c).intact hrun k⟩
  · intro env s hs evs
    exact RegionalApplier.intact_run (hs ▸ hd) evs

/-! ### A street -/

/-- Tables of one street. -/
def oneStreet : TargetTables Content :=
  TargetTables.upsertEntity ⟨fun _ => [], fun _ => []⟩ .ways
    (geomRow 5 [] (some (.lineString [⟨0, 0⟩, ⟨1, 1⟩])))
    (.single (ascii "highway") (ascii "residential"))

lemma oneStreet_intact : oneStreet.Intact :=
  (TargetTables.intact_of_nil (fun _ => rfl) fun _ => rfl).upsertEntity (fun _ _ => rfl) _

theorem integrity_street : oneStreet.rowsOf .ways 5 ≠ []
    ∧ (∀ p nodes cs c k, let s := (DeltaState.mk nodes oneStreet).run p cs
      s.tables.Intact ∧ (s.execAll ((calls p s.nodes s.tables c).take k)).tables.Intact)
    ∧ ∀ env (s : RegionalApplier), s.tables = oneStreet → ∀ evs, (s.run env evs).tables.Intact :=
  ⟨by decide, integrity oneStreet_intact⟩

end Gpsxdb
