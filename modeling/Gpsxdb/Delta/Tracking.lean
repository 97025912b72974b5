import Mathlib.Tactic
import Gpsxdb.Delta.Promotion
import Gpsxdb.Delta.Attempts
import Gpsxdb.Delta.Integrity
import Gpsxdb.Delta.NodeRows
import Gpsxdb.Regional.Refresh

/-!
A regional target against the master, over the same diffs.

* `Restricts`: tables that hold of each row of the others what a test keeps, with its tag
  rows; `Restricts.upsert`, `Restricts.delete` and the rest: the operations that keep it;
* `RegionalEnv.keeps`: a row that lies in the region;
* `TrackOk`, `TrackOkAlong`: what a change has to meet: a created node is new, and the nodes
  of a way resolve to their coordinates on the master;
* `restricts_step`, `restricts_run`: the target follows; `restricts_install`: the bundle it
  starts from;
* `target_tracks_master`: **nodes, ways and areas of the target are those of the master that
  lie in the region**, tag rows included, after any run.

Relations are left out: on the target their geometry is that of the members it has.
-/

namespace Gpsxdb

/-! ### Operations, table by table -/

namespace TargetTables

variable {C : Type} (d : TargetTables C) (t u : OsmTable) (r : Row C) (tags : Tags) (i id : ℤ)
  (key : Text)

lemma rowAt_upsert : (d.upsertEntity t r tags).rowAt u id
    = if u = t ∧ r.id = id then (if hasSurvivingTag tags (t = .nodes) then some r else none)
      else d.rowAt u id := by
  by_cases hu : u = t
  · subst hu
    simp only [rowAt_upsertEntity, true_and]
  · rw [if_neg fun h => hu h.1, rowAt, rowAt, rowsOf_upsertEntity_of_ne hu]

lemma rowAt_delete : (d.deleteEntity t i).rowAt u id
    = if u = t ∧ i = id then none else d.rowAt u id := by
  by_cases hu : u = t
  · subst hu
    simp only [rowAt_deleteEntity, true_and]
  · rw [if_neg fun h => hu h.1, rowAt, rowAt, rowsOf_deleteEntity_of_ne hu]

lemma valuesOf_upsert : valuesOf ((d.upsertEntity t r tags).tags u) id key
    = if u = t ∧ r.id = id then
        (upsertOp (valuesFor tags (t = .nodes) key)).act (valuesOf (d.tags u) id key)
      else valuesOf (d.tags u) id key := by
  by_cases hu : u = t
  · subst hu
    rw [tags_upsertEntity_self, valuesOf_diffTags]
    simp only [true_and, eq_comm]
  · rw [if_neg fun h => hu h.1, tags_upsertEntity_of_ne hu]

lemma valuesOf_delete : valuesOf ((d.deleteEntity t i).tags u) id key
    = if u = t ∧ i = id then [] else valuesOf (d.tags u) id key := by
  by_cases hu : u = t
  · subst hu
    rw [tags_deleteEntity_self, valuesOf_filter_id]
    simp only [true_and, eq_comm]
  · rw [if_neg fun h => hu h.1, tags_deleteEntity_of_ne hu]

/-- Deletions from two tables, in either order. -/
lemma deleteEntity_comm {t u : OsmTable} (h : t ≠ u) :
    (d.deleteEntity t i).deleteEntity u id = (d.deleteEntity u id).deleteEntity t i := by
  simp only [deleteEntity, Function.update_of_ne h, Function.update_of_ne h.symm,
    Function.update_comm h]

end TargetTables

/-- With one value at most, there and to come, what comes replaces what is there. -/
lemma act_upsertOp {vs l : List Text} (hvs : vs.length ≤ 1) (hl : l.length ≤ 1) :
    (upsertOp vs).act l = vs := by
  rcases vs with _ | ⟨v, _ | ⟨v', vs⟩⟩
  · rfl
  · rcases l with _ | ⟨w, _ | ⟨w', l⟩⟩
    · rfl
    · rw [upsertOp, BagOp.act, setAll, if_neg (by simp), List.append_nil]
      split
      · simp_all
      · rfl
    · simp at hl
  · simp at hvs

lemma filter_ite_of_true {α : Type*} {keep : α → Bool} {a : α} (h : keep a = true) (c : Prop)
    [Decidable c] : (if c then some a else none).filter keep = if c then some a else none := by
  by_cases hc : c <;> simp [hc, h]

lemma filter_ite_of_false {α : Type*} {keep : α → Bool} {a : α} (h : keep a = false) (c : Prop)
    [Decidable c] : (if c then some a else none).filter keep = none := by
  by_cases hc : c <;> simp [hc, h]

lemma eq_of_perm_of_length_le_one {α : Type*} {l l' : List α} (h : l.Perm l')
    (hlen : l'.length ≤ 1) : l = l' := by
  rcases l' with _ | ⟨a, _ | ⟨b, l'⟩⟩
  · exact h.eq_nil
  · exact List.perm_singleton.mp h
  · simp at hlen

/-! ### Restricted tables -/

/-- The tables whose rows a region decides one by one. -/
def OsmTable.Local (t : OsmTable) : Prop := t = .nodes ∨ t = .ways ∨ t = .areas

/-- The same rows and tag rows in these tables. -/
def TargetTables.SameLocal {C : Type} (d e : TargetTables C) : Prop :=
  ∀ t, t.Local → e.rows t = d.rows t ∧ e.tags t = d.tags t

/-- Tables that hold of each row of `d` what the test keeps, with its tag rows. -/
structure Restricts {C : Type} (keep : Row C → Bool) (d d' : TargetTables C) : Prop where
  row : ∀ t, t.Local → ∀ id, d'.rowAt t id = (d.rowAt t id).filter keep
  tags : ∀ t, t.Local → ∀ id key, valuesOf (d'.tags t) id key
    = if (d'.rowAt t id).isSome then valuesOf (d.tags t) id key else []
  single : ∀ t, t.Local → ∀ id key, (valuesOf (d.tags t) id key).length ≤ 1

namespace Restricts

variable {C : Type} {keep : Row C → Bool} {d d' : TargetTables C} {t : OsmTable} {r : Row C}
  {tags : Tags} {i : ℤ}

/-- The tag cells of the tables in full stay single. -/
lemma single_upsert (h : Restricts keep d d')
    (htags : ∀ is_node key, (valuesFor tags is_node key).length ≤ 1) :
    ∀ u, u.Local → ∀ id key, (valuesOf ((d.upsertEntity t r tags).tags u) id key).length ≤ 1 := by
  intro u hu id key
  rw [TargetTables.valuesOf_upsert]
  split
  · rw [act_upsertOp (htags _ _) (h.single u hu id key)]
    exact htags _ _
  · exact h.single u hu id key

/-- The cells of restricted tables are single too. -/
lemma single_left (h : Restricts keep d d') {u : OsmTable} (hu : u.Local) (id : ℤ) (key : Text) :
    (valuesOf (d'.tags u) id key).length ≤ 1 := by
  rw [h.tags u hu id key]
  split
  · exact h.single u hu id key
  · exact Nat.zero_le _

/-- **A row that is kept** goes into both. -/
lemma upsert (h : Restricts keep d d') (hkeep : keep r = true)
    (htags : ∀ is_node key, (valuesFor tags is_node key).length ≤ 1) :
    Restricts keep (d.upsertEntity t r tags) (d'.upsertEntity t r tags) := by
  refine ⟨fun u hu id => ?_, fun u hu id key => ?_, h.single_upsert htags⟩
  · rw [TargetTables.rowAt_upsert, TargetTables.rowAt_upsert]
    split
    · exact (filter_ite_of_true hkeep _).symm
    · exact h.row u hu id
  · rw [TargetTables.rowAt_upsert, TargetTables.valuesOf_upsert, TargetTables.valuesOf_upsert]
    by_cases hid : u = t ∧ r.id = id
    · rw [if_pos hid, if_pos hid, if_pos hid, act_upsertOp (htags _ _) (h.single u hu id key),
        act_upsertOp (htags _ _) (h.single_left hu id key)]
      by_cases hsurvives : hasSurvivingTag tags (t = .nodes) = true
      · rw [if_pos hsurvives]
        rfl
      · rw [if_neg hsurvives]
        exact TargetTables.valuesFor_eq_nil.mpr (Bool.eq_false_iff.mpr hsurvives) key
    · rw [if_neg hid, if_neg hid, if_neg hid]
      exact h.tags u hu id key

/-- **A deletion** in both. -/
lemma delete (h : Restricts keep d d') :
    Restricts keep (d.deleteEntity t i) (d'.deleteEntity t i) := by
  refine ⟨fun u hu id => ?_, fun u hu id key => ?_, fun u hu id key => ?_⟩
  · rw [TargetTables.rowAt_delete, TargetTables.rowAt_delete]
    split
    · rfl
    · exact h.row u hu id
  · rw [TargetTables.rowAt_delete, TargetTables.valuesOf_delete, TargetTables.valuesOf_delete]
    split
    · rfl
    · exact h.tags u hu id key
  · rw [TargetTables.valuesOf_delete]
    split
    · exact Nat.zero_le _
    · exact h.single u hu id key

/-- **A row that is not kept** goes into the tables in full, and what was there of it goes
from the others. -/
lemma upsert_delete (h : Restricts keep d d') (hkeep : keep r = false)
    (htags : ∀ is_node key, (valuesFor tags is_node key).length ≤ 1) :
    Restricts keep (d.upsertEntity t r tags) (d'.deleteEntity t r.id) := by
  refine ⟨fun u hu id => ?_, fun u hu id key => ?_, h.single_upsert htags⟩
  · rw [TargetTables.rowAt_upsert, TargetTables.rowAt_delete]
    split
    · exact (filter_ite_of_false hkeep _).symm
    · exact h.row u hu id
  · rw [TargetTables.rowAt_delete, TargetTables.valuesOf_upsert, TargetTables.valuesOf_delete]
    split
    · rfl
    · exact h.tags u hu id key

/-- Where nothing was there of it, nothing has to go. -/
lemma upsert_left (h : Restricts keep d d') (hkeep : keep r = false)
    (hnew : d.rowAt t r.id = none)
    (htags : ∀ is_node key, (valuesFor tags is_node key).length ≤ 1) :
    Restricts keep (d.upsertEntity t r tags) d' := by
  have hnone : ∀ u, u.Local → ∀ id, u = t ∧ r.id = id → d'.rowAt u id = none := by
    rintro u hu id ⟨rfl, rfl⟩
    rw [h.row u hu, hnew]
    rfl
  refine ⟨fun u hu id => ?_, fun u hu id key => ?_, h.single_upsert htags⟩
  · rw [TargetTables.rowAt_upsert]
    split
    · rw [hnone u hu id ‹_›]
      exact (filter_ite_of_false hkeep _).symm
    · exact h.row u hu id
  · rw [TargetTables.valuesOf_upsert, h.tags u hu id key]
    by_cases hid : u = t ∧ r.id = id
    · rw [hnone u hu id hid]
      rfl
    · rw [if_neg hid]

/-- Other tables do not count. -/
lemma congr {e e' : TargetTables C} (h : Restricts keep d d') (hd : d.SameLocal e)
    (hd' : d'.SameLocal e') : Restricts keep e e' := by
  have hrow : ∀ {d e : TargetTables C}, d.SameLocal e → ∀ u, u.Local → ∀ id,
      e.rowAt u id = d.rowAt u id := fun hde u hu id => by
    rw [TargetTables.rowAt, TargetTables.rowAt, TargetTables.rowsOf, TargetTables.rowsOf,
      (hde u hu).1]
  refine ⟨fun u hu id => ?_, fun u hu id key => ?_, fun u hu id key => ?_⟩
  · rw [hrow hd u hu, hrow hd' u hu]
    exact h.row u hu id
  · rw [hrow hd' u hu, (hd u hu).2, (hd' u hu).2]
    exact h.tags u hu id key
  · rw [(hd u hu).2]
    exact h.single u hu id key

/-- **Restricted tables, row by row**, where ids are keys. -/
lemma perm (h : Restricts keep d d') (hd : d.Keyed) (hd' : d'.Keyed) (ht : t.Local) :
    (d'.rows t).Perm ((d.rows t).filter keep)
      ∧ (d'.tags t).Perm ((d.tags t).filter fun g => (d.rowAt t g.id).any keep) := by
  constructor
  · have hnodup : ((d.rows t).filter keep).Nodup := (List.Nodup.of_map _ (hd t)).filter _
    refine (List.perm_ext_iff_of_nodup (.of_map _ (hd' t)) hnodup).mpr fun q => ?_
    rw [hd'.mem_rows_iff, List.mem_filter, hd.mem_rows_iff, h.row t ht, Option.filter_eq_some_iff]
  · refine perm_tags_iff.mpr fun id key => .of_eq ?_
    rw [valuesOf_filter (fun i _ => (d.rowAt t i).any keep), h.tags t ht, h.row t ht,
      Option.isSome_filter]

end Restricts

/-! ### The target and the master -/

/-- The row lies in a region of the target. -/
def RegionalEnv.keeps (env : RegionalEnv) (r : Row Content) : Bool :=
  match r.content with
  | .node _ longitude_m latitude_m _ => env.nodeInRegion ⟨longitude_m, latitude_m⟩
  | .geom _ geog => geog.any env.inRegion

namespace RegionalApplier

/-- What the master makes of an event. -/
def masterStep (env : RegionalEnv) (m : DeltaState) : RegionalEvent → DeltaState
  | .change c => m.apply env.projection c
  | .flush => m

/-- The master after a run. -/
def masterRun (env : RegionalEnv) (m : DeltaState) (evs : List RegionalEvent) : DeltaState :=
  evs.foldl (masterStep env) m

/-- What an event has to meet: the tags of a change stay apart, a created node is new to the
master, and on the target the nodes of a way resolve as on the master. -/
def TrackOk (env : RegionalEnv) (m : DeltaState) (s : RegionalApplier) : RegionalEvent → Prop
  | .flush => True
  | .change c => c.TagsApart ∧ match c with
      | .node .create n => m.tables.rowAt .nodes n.id = none
      | .way .create w => ∀ ref ∈ w.node_refs, s.resolve env ref = m.nodes ref
      | .way .modify w => ∀ ref ∈ w.node_refs, s.resolve env ref = m.nodes ref
      | _ => True

/-- Each event of a run meets its condition in the states it finds. -/
def TrackOkAlong (env : RegionalEnv) (m : DeltaState) (s : RegionalApplier) :
    List RegionalEvent → Prop
  | [] => True
  | e :: evs => TrackOk env m s e ∧ TrackOkAlong env (masterStep env m e) (s.step env e) evs

variable {env : RegionalEnv} {m : DeltaState} {s : RegionalApplier}

/-- A node that is created or modified. -/
lemma keeps_updateNodeRow (env : RegionalEnv) (n : NodeEntry) :
    env.keeps (env.projection.updateNodeRow n)
      = env.nodeInRegion (env.projection.toMercator n.lon n.lat) := rfl

/-- **A way.** -/
lemma restricts_upsertWay (h : Restricts env.keeps m.tables s.tables) {w : WayEntry}
    (htags : ∀ is_node key, (valuesFor w.tags is_node key).length ≤ 1)
    (hrefs : ∀ ref ∈ w.node_refs, s.resolve env ref = m.nodes ref) :
    Restricts env.keeps (m.execAll (Gpsxdb.upsertWay m.nodes w)).tables
      (s.upsertWay env w).tables := by
  have hgeom : deltaWayGeom (s.resolve env) w = deltaWayGeom m.nodes w := by
    have hcoords : wayCoords (s.resolve env) w = wayCoords m.nodes w :=
      List.filterMap_congr fun ref href => hrefs ref href
    rw [deltaWayGeom, deltaWayGeom, hcoords]
  rw [Gpsxdb.upsertWay, upsertWay, hgeom]
  rcases deltaWayGeom m.nodes w with _ | ⟨geom, is_closed⟩
  · exact h
  · have hkeep : env.keeps (geomRow w.id w.name (some geom)) = env.inRegion geom := rfl
    cases hin : env.inRegion geom with
    | true =>
        cases is_closed with
        | true =>
            simp only [hin, Bool.not_true, Bool.false_eq_true, if_false, if_true,
              tables_promoteAll]
            exact h.delete.upsert (hkeep.trans hin) htags
        | false =>
            simp only [hin, Bool.not_true, Bool.false_eq_true, if_false, tables_promoteAll]
            exact h.delete.upsert (hkeep.trans hin) htags
    | false =>
        cases is_closed with
        | true =>
            simp only [hin, Bool.not_false, if_true]
            exact h.delete.upsert_delete (hkeep.trans hin) htags
        | false =>
            simp only [hin, Bool.not_false, if_true]
            -- the target clears the two tables in the other order
            have hne : OsmTable.ways ≠ .areas := by decide
            rw [s.tables.deleteEntity_comm w.id w.id hne]
            exact h.delete.upsert_delete (hkeep.trans hin) htags

/-- A table that no region decides. -/
lemma sameLocal_upsert {C : Type} {d e : TargetTables C} (h : d.SameLocal e) {t : OsmTable}
    (ht : ¬ t.Local) (r : Row C) (tags : Tags) : d.SameLocal (e.upsertEntity t r tags) := by
  intro u hu
  have hne : u ≠ t := fun heq => ht (heq ▸ hu)
  exact ⟨(TargetTables.rows_upsertEntity_of_ne hne ..).trans (h u hu).1,
    (TargetTables.tags_upsertEntity_of_ne hne ..).trans (h u hu).2⟩

lemma sameLocal_delete {C : Type} {d e : TargetTables C} (h : d.SameLocal e) {t : OsmTable}
    (ht : ¬ t.Local) (id : ℤ) : d.SameLocal (e.deleteEntity t id) := by
  intro u hu
  have hne : u ≠ t := fun heq => ht (heq ▸ hu)
  exact ⟨(TargetTables.rows_deleteEntity_of_ne hne _).trans (h u hu).1,
    (TargetTables.tags_deleteEntity_of_ne hne _).trans (h u hu).2⟩

lemma not_local_relations : ¬ OsmTable.relations.Local := by
  rintro (h | h | h) <;> cases h

lemma not_local_roads : ¬ OsmTable.roads.Local := by
  rintro (h | h | h) <;> cases h

/-- **Relations** are no matter of these tables, on the master and on the target. -/
lemma sameLocal_relation (type : ChangeType) (r : RelationEntry) :
    m.tables.SameLocal (m.apply env.projection (.relation type r)).tables
      ∧ s.tables.SameLocal (s.apply env (.relation type r)).tables := by
  have hrefl : ∀ d : TargetTables Content, d.SameLocal d := fun _ _ _ => ⟨rfl, rfl⟩
  have hdelete : ∀ (d : TargetTables Content) (id : ℤ),
      d.SameLocal ((d.deleteEntity .relations id).deleteEntity .roads id) := fun d id =>
    sameLocal_delete (sameLocal_delete (hrefl d) not_local_relations id) not_local_roads id
  have hmaster : m.tables.SameLocal (m.execAll (Gpsxdb.upsertRelation m.tables r)).tables := by
    have hrel := sameLocal_upsert (hrefl m.tables) not_local_relations
      (geomRow r.id r.name (buildRelationGeom m.tables r)) r.tags
    simp only [Gpsxdb.upsertRelation]
    split
    · exact sameLocal_upsert hrel not_local_roads _ _
    · exact sameLocal_delete hrel not_local_roads _
  have htarget : s.tables.SameLocal (s.upsertRelation env r).tables := by
    have hrel := sameLocal_upsert (hrefl s.tables) not_local_relations
      (geomRow r.id r.name (buildRelationGeom s.tables r)) r.tags
    simp only [upsertRelation]
    split
    · exact hdelete s.tables r.id
    · split
      · exact sameLocal_upsert hrel not_local_roads _ _
      · exact sameLocal_delete hrel not_local_roads _
  cases type with
  | create => exact ⟨hmaster, htarget⟩
  | modify => exact ⟨hmaster, htarget⟩
  | delete => exact ⟨hdelete m.tables r.id, hdelete s.tables r.id⟩

/-- **One event.** -/
lemma restricts_step {e : RegionalEvent} (h : Restricts env.keeps m.tables s.tables)
    (hok : TrackOk env m s e) :
    Restricts env.keeps (masterStep env m e).tables (s.step env e).tables := by
  cases e with
  | flush => exact h
  | change c =>
      obtain ⟨htags, hok⟩ := hok
      cases c with
      | node type n =>
          have hkeep := keeps_updateNodeRow env n
          cases type with
          | create =>
              simp only [masterStep, DeltaState.apply, calls, Gpsxdb.createNode, step, apply,
                createNode]
              split
              · exact h
              · cases hin : env.nodeInRegion (env.projection.toMercator n.lon n.lat) with
                | true => exact h.upsert (hkeep.trans hin) htags
                | false => exact h.upsert_left (hkeep.trans hin) hok htags
          | modify =>
              simp only [masterStep, DeltaState.apply, calls, Gpsxdb.modifyNode, step, apply,
                modifyNode]
              split
              · exact h.upsert (hkeep.trans ‹_›) htags
              · exact h.upsert_delete (hkeep.trans (Bool.eq_false_iff.mpr ‹_›)) htags
          | delete => exact h.delete
      | way type w =>
          cases type with
          | create => exact restricts_upsertWay h htags hok
          | modify => exact restricts_upsertWay h htags hok
          | delete => exact h.delete.delete
      | relation type r =>
          have hsame : m.tables.SameLocal (m.apply env.projection (.relation type r)).tables
              ∧ s.tables.SameLocal (s.apply env (.relation type r)).tables :=
            sameLocal_relation type r
          exact h.congr hsame.1 hsame.2

/-- **A run** whose events meet the condition. -/
lemma restricts_run {evs : List RegionalEvent} (h : Restricts env.keeps m.tables s.tables)
    (hok : TrackOkAlong env m s evs) :
    Restricts env.keeps (masterRun env m evs).tables (s.run env evs).tables := by
  induction evs generalizing m s with
  | nil => exact h
  | cons e evs ih => exact ih (restricts_step h hok.1) hok.2

lemma keyed_step (h : s.tables.Keyed) (e : RegionalEvent) : (s.step env e).tables.Keyed := by
  have hnode : ∀ n : NodeEntry,
      (s.tables.upsertEntity .nodes (env.projection.updateNodeRow n) n.tags).Keyed :=
    fun n => h.upsertEntity _ _ _
  have hway : ∀ w, (s.upsertWay env w).tables.Keyed := by
    intro w
    rw [upsertWay]
    split
    · exact h
    · split
      · exact (h.deleteEntity _ _).deleteEntity _ _
      · have hpromoted : (s.promoteAll env w).tables.Keyed := by
          rw [tables_promoteAll]
          exact h
        dsimp only
        split
        · exact (hpromoted.deleteEntity _ _).upsertEntity _ _ _
        · exact (hpromoted.deleteEntity _ _).upsertEntity _ _ _
  have hrelation : ∀ r, (s.upsertRelation env r).tables.Keyed := by
    intro r
    simp only [upsertRelation]
    split
    · exact (h.deleteEntity _ _).deleteEntity _ _
    · split
      · exact (h.upsertEntity _ _ _).upsertEntity _ _ _
      · exact (h.upsertEntity _ _ _).deleteEntity _ _
  cases e with
  | flush => exact h
  | change c =>
      cases c with
      | node type n =>
          cases type with
          | create =>
              simp only [step, apply, createNode]
              split
              · exact h
              · split
                · exact h
                · exact hnode n
          | modify =>
              simp only [step, apply, modifyNode]
              split
              · exact hnode n
              · exact h.deleteEntity _ _
          | delete => exact h.deleteEntity _ _
      | way type w =>
          cases type with
          | create => exact hway w
          | modify => exact hway w
          | delete => exact (h.deleteEntity _ _).deleteEntity _ _
      | relation type r =>
          cases type with
          | create => exact hrelation r
          | modify => exact hrelation r
          | delete => exact (h.deleteEntity _ _).deleteEntity _ _

lemma keyed_run (h : s.tables.Keyed) (evs : List RegionalEvent) : (s.run env evs).tables.Keyed := by
  induction evs generalizing s with
  | nil => exact h
  | cons e evs ih => exact ih (keyed_step h e)

lemma keyed_masterRun (h : m.tables.Keyed) (evs : List RegionalEvent) :
    (masterRun env m evs).tables.Keyed := by
  induction evs generalizing m with
  | nil => exact h
  | cons e evs ih =>
      cases e with
      | flush => exact ih h
      | change c => exact ih (DeltaState.keyed_execAll h _)

/-! ### From the export on -/

/-- A bundle of what the master holds in the region. -/
structure CutFrom (env : RegionalEnv) (d : TargetTables Content) (b : RegionBundle Content) :
    Prop where
  rows : ∀ t, t.Local → (b.rowList t).Perm ((d.rows t).filter env.keeps)
  tags : ∀ t, t.Local →
    (b.tagList t).Perm ((d.tags t).filter fun g => hasKey Row.id (b.rowList t) g.id)

/-- **The bundle, installed** on an empty target, is the restriction it was cut to. -/
lemma restricts_install {d d' : TargetTables Content} {b : RegionBundle Content} (hd : d.Keyed)
    (hsingle : ∀ t, t.Local → ∀ id key, (valuesOf (d.tags t) id key).length ≤ 1)
    (hcut : CutFrom env d b) (hrun : runScript b emptyTables = some d') :
    Restricts env.keeps d d' ∧ d'.Keyed := by
  have hrows : ∀ t, d'.rows t = b.rowList t := by
    intro t
    rw [(runScript_spec hrun t).1, newRows]
    exact (List.nil_append _).trans (List.filter_eq_self.mpr fun r _ => rfl)
  have hkeyed : d'.Keyed := fun t => by
    rw [hrows t]
    exact rowList_nodup b t
  have hrow : ∀ t, t.Local → ∀ id, d'.rowAt t id = (d.rowAt t id).filter env.keeps := by
    intro t ht id
    refine Option.ext fun q => ?_
    by_cases hid : q.id = id
    · subst hid
      rw [← hkeyed.mem_rows_iff, hrows t, (hcut.rows t ht).mem_iff, List.mem_filter,
        hd.mem_rows_iff, Option.filter_eq_some_iff]
    · have hne : ∀ d : TargetTables Content, d.rowAt t id ≠ some q := fun d hq => by
        have hmem := List.mem_of_mem_head? hq
        exact hid (by simpa using (List.mem_filter.mp hmem).2)
      simp only [Option.filter_eq_some_iff, hne, false_and]
  refine ⟨⟨hrow, fun t ht id key => ?_, hsingle⟩, hkeyed⟩
  have hnew : newRows b emptyTables t = b.rowList t :=
    List.filter_eq_self.mpr fun r _ => rfl
  have htags : d'.tags t = (b.tagList t).filter fun g => hasKey Row.id (b.rowList t) g.id := by
    rw [(runScript_spec hrun t).2, hnew]
    rfl
  have hcell : (valuesOf (b.tagList t) id key).Perm
      (if hasKey Row.id (b.rowList t) id then valuesOf (d.tags t) id key else []) := by
    rw [← valuesOf_filter fun i _ => hasKey Row.id (b.rowList t) i]
    exact perm_tags_iff.mp (hcut.tags t ht) id key
  have hlen : (if hasKey Row.id (b.rowList t) id then valuesOf (d.tags t) id key
      else []).length ≤ 1 := by
    split
    · exact hsingle t ht id key
    · exact Nat.zero_le _
  have hisSome : (d'.rowAt t id).isSome = hasKey Row.id (b.rowList t) id := by
    rw [Bool.eq_iff_iff, Option.isSome_iff_ne_none, ne_eq, TargetTables.rowAt_eq_none,
      TargetTables.rowsOf, hrows t]
    simp
  rw [htags, hisSome, valuesOf_filter fun i _ => hasKey Row.id (b.rowList t) i]
  by_cases hid : hasKey Row.id (b.rowList t) id = true
  · rw [if_pos hid] at hcell hlen
    rw [if_pos hid, if_pos hid, eq_of_perm_of_length_le_one hcell hlen]
  · rw [if_neg hid, if_neg hid]

/-- **A regional target tracks the master.**  Cut from the master and installed, it holds
after any run of changes those nodes, ways and areas of the master that lie in the region,
and the tag rows of these. -/
theorem target_tracks_master {b : RegionBundle Content} {d : TargetTables Content}
    {evs : List RegionalEvent} (hm : m.tables.Keyed)
    (hsingle : ∀ t, t.Local → ∀ id key, (valuesOf (m.tables.tags t) id key).length ≤ 1)
    (hcut : CutFrom env m.tables b) (hrun : runScript b emptyTables = some d)
    (hok : TrackOkAlong env m (start d) evs) {t : OsmTable} (ht : t.Local) :
    (((start d).run env evs).tables.rows t).Perm
        (((masterRun env m evs).tables.rows t).filter env.keeps)
      ∧ (((start d).run env evs).tables.tags t).Perm
        (((masterRun env m evs).tables.tags t).filter fun g =>
          ((masterRun env m evs).tables.rowAt t g.id).any env.keeps) := by
  obtain ⟨hinstalled, hkeyed⟩ := restricts_install hm hsingle hcut hrun
  have hafter : Restricts env.keeps (masterRun env m evs).tables
      ((start d).run env evs).tables := restricts_run (s := start d) hinstalled hok
  exact hafter.perm (keyed_masterRun hm evs) (keyed_run (s := start d) hkeyed evs) ht

/-! ### Two nodes that change sides -/

/-- The west side of a city. -/
def westSide : RegionalEnv where
  projection := wholeDegrees
  node_map := openRegion.node_map
  nodeInRegion c := c.lon_m = 0
  inRegion _ := true

/-- A fountain. -/
def fountain (id : ℤ) (lon : Double) : NodeEntry :=
  ⟨id, [], .single (ascii "amenity") (ascii "fountain"), lon, 0⟩

/-- Its tag row. -/
def fountainTag (id : ℤ) : TagRecord := ⟨id, ascii "amenity", ascii "fountain"⟩

/-- A master with a node on each side. -/
def bothSides : DeltaState where
  nodes := fun id => if id = 1 then some ⟨0, 0⟩ else if id = 2 then some ⟨5, 0⟩ else none
  tables := ⟨fun t => if t = .nodes then
      [wholeDegrees.updateNodeRow (fountain 1 0), wholeDegrees.updateNodeRow (fountain 2 5)]
    else [], fun t => if t = .nodes then [fountainTag 1, fountainTag 2] else []⟩

/-- What the west side is exported with. -/
def westBundle : RegionBundle Content where
  rows t := if t = .nodes then some [wholeDegrees.updateNodeRow (fountain 1 0)] else none
  tags t := if t = .nodes then some [fountainTag 1] else none
  nodes := none
  nodup t l h := by
    split at h
    · obtain rfl := Option.some.inj h
      exact List.nodup_singleton _
    · simp at h

/-- The nodes change sides, and a street joins them. -/
def sidesChange : List RegionalEvent :=
  [.change (.node .modify (fountain 1 5)), .change (.node .modify (fountain 2 0)),
    .change (.way .create street), .flush]

lemma bothSides_single (t : OsmTable) (id : ℤ) (key : Text) :
    (valuesOf (bothSides.tables.tags t) id key).length ≤ 1 := by
  cases t with
  | nodes =>
      have hids : ([fountainTag 1, fountainTag 2].filter fun g => g.id == id).length ≤ 1 := by
        by_cases hid : id = 1
        · subst hid
          exact le_of_eq rfl
        · have hfirst : ((fountainTag 1).id == id) = false := beq_false_of_ne (Ne.symm hid)
          rw [List.filter_cons_of_neg (by simp [hfirst])]
          exact List.length_filter_le ..
      calc (valuesOf [fountainTag 1, fountainTag 2] id key).length
          = ([fountainTag 1, fountainTag 2].filter fun g => g.id == id && g.key == key).length :=
            List.length_map ..
        _ ≤ ([fountainTag 1, fountainTag 2].filter fun g => g.id == id).length :=
            (List.monotone_filter_right _ fun g hg => (Bool.and_eq_true_iff.mp hg).1).length_le
        _ ≤ 1 := hids
  | _ => exact Nat.zero_le _

lemma westBundle_cut : CutFrom westSide bothSides.tables westBundle := by
  constructor
  · rintro t (rfl | rfl | rfl)
    · exact .of_eq (by decide)
    · exact .of_eq (by decide)
    · exact .of_eq (by decide)
  · rintro t (rfl | rfl | rfl)
    · exact .of_eq (by decide)
    · exact .of_eq (by decide)
    · exact .of_eq (by decide)

lemma trackOk_sidesChange (d : TargetTables Content) :
    TrackOkAlong westSide bothSides (start d) sidesChange := by
  have hapart : ∀ tags : Tags, tags.entries.length ≤ 1 → ∀ is_node key,
      (valuesFor tags is_node key).length ≤ 1 := fun tags h is_node key =>
    (length_valuesFor_le tags is_node key).trans h
  refine ⟨⟨hapart _ le_rfl, trivial⟩, ⟨hapart _ le_rfl, trivial⟩,
    ⟨hapart _ le_rfl, fun ref href => ?_⟩, trivial, trivial⟩
  rcases (by simpa [street] using href : ref = 1 ∨ ref = 2) with rfl | rfl
  · rfl
  · rfl

theorem target_tracks_master_sides : ∃ d, runScript westBundle emptyTables = some d
    ∧ (((start d).run westSide sidesChange).tables.rows .nodes).Perm
      [wholeDegrees.updateNodeRow (fountain 2 0)] := by
  obtain ⟨d, hrun⟩ : ∃ d, runScript westBundle emptyTables = some d := ⟨_, rfl⟩
  have hkeyed : bothSides.tables.Keyed := by
    intro t
    cases t <;> decide
  exact ⟨d, hrun, (target_tracks_master hkeyed (fun t _ => bothSides_single t) westBundle_cut
    hrun (trackOk_sidesChange d) (.inl rfl)).1.trans (.of_eq (by decide))⟩

end RegionalApplier

end Gpsxdb
