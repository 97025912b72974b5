import Mathlib.Tactic
import Gpsxdb.Library.Runs
import Gpsxdb.Regional.BundleTables
import Gpsxdb.Regional.Refresh

/-!
What the whole script of `regional_install` does to a target.

* `addedRows`: the rows of a bundle whose ids a target has not;
* `parents_spec`, `children_spec`, `children_isSome_iff`: all groups of one kind at
  once, since each touches a table of its own;
* `run_isSome_iff`, `run_spec`: **the script**;
* `runScript_of_run`: on the OSM tables it is the script of the OSM tables alone.
-/

namespace Gpsxdb

variable {C : Type}

/-- No file of a bundle has a key twice. -/
def TableBundle.Keyed (b : TableBundle C) : Prop := ∀ t, ((b.rowList t).map Row.id).Nodup

/-- No tag file comes without the file of its parents. -/
structure TableBundle.Complete (b : TableBundle C) : Prop where
  tags : ∀ t, (b.tags t).isSome → (b.rows (.osm t)).isSome
  airport_tags : b.airport_tags.isSome → (b.rows .airports).isSome

namespace InstallScript

variable {columns : AirportColumns C} {b : TableBundle C} {d d' : RegionTables C}

/-- The tables of the parent groups. -/
def parentTables : List MasterTable := kParents.map ParentGroup.table

lemma nodup_parentTables : parentTables.Nodup := by decide

/-- The rows of a bundle whose ids a target has not. -/
def addedRows (b : TableBundle C) (d : RegionTables C) (t : MasterTable) : List (Row C) :=
  (b.rowList t).filter fun r => !hasKey Row.id (d.rows t) r.id

lemma addedRows_nodup (hb : b.Keyed) (d : RegionTables C) (t : MasterTable) :
    ((addedRows b d t).map Row.id).Nodup :=
  ((List.filter_sublist).map Row.id).nodup (hb t)

lemma mem_addedRows {t : MasterTable} {r : Row C} :
    r ∈ addedRows b d t ↔ r ∈ b.rowList t ∧ ∀ q ∈ d.rows t, q.id ≠ r.id := by
  rw [addedRows, List.mem_filter, Bool.not_eq_true', hasKey_eq_false]

/-! ### The parents -/

/-- The table of a parent group, after it. -/
lemma rows_appendParentGroup (hb : b.Keyed) (s : Session C) (g : ParentGroup) :
    (appendParentGroup columns b s g).tables.rows g.table
      = s.tables.rows g.table ++ addedRows b s.tables g.table := by
  have hnd := hb g.table
  rw [TableBundle.rowList] at hnd
  rw [appendParentGroup, addedRows, TableBundle.rowList]
  cases h : b.rows g.table with
  | none => simp
  | some staging =>
      rw [h, Option.getD_some] at hnd
      simp [foldl_insertNew hnd]

/-- Its temporary table of new ids. -/
lemma new_ids_appendParentGroup (s : Session C) (g : ParentGroup) :
    (appendParentGroup columns b s g).new_ids g.table
      = if g.new_ids_temp ∧ (b.rows g.table).isSome
          then some ((addedRows b s.tables g.table).map Row.id) else s.new_ids g.table := by
  rw [appendParentGroup, addedRows, TableBundle.rowList]
  cases b.rows g.table with
  | none => simp
  | some staging => cases g.new_ids_temp <;> simp

/-- The `ident` column of the new airports. -/
lemma new_idents_appendParentGroup (s : Session C) (g : ParentGroup) :
    (appendParentGroup columns b s g).new_idents
      = if g.table = .airports ∧ g.new_ids_temp ∧ (b.rows g.table).isSome
          then some ((addedRows b s.tables g.table).map fun r => columns.ident r.content)
          else s.new_idents := by
  rw [appendParentGroup, addedRows, TableBundle.rowList]
  cases b.rows g.table with
  | none => simp
  | some staging => simp [and_comm]

/-- What a parent group may change. -/
def parentPart (t : MasterTable) (s : Session C) :
    List (Row C) × Option (List ℤ) × Option (List Text) :=
  (s.tables.rows t, s.new_ids t, if t = .airports then s.new_idents else none)

lemma parentPart_of_ne {s : Session C} {g : ParentGroup} {t : MasterTable} (h : t ≠ g.table) :
    parentPart t (appendParentGroup columns b s g) = parentPart t s := by
  have hidents : t = .airports →
      (appendParentGroup columns b s g).new_idents = s.new_idents := by
    rintro rfl
    rw [new_idents_appendParentGroup, if_neg fun hg => h hg.1.symm]
  have hsame : (appendParentGroup columns b s g).tables.rows t = s.tables.rows t
      ∧ (appendParentGroup columns b s g).new_ids t = s.new_ids t := by
    rw [appendParentGroup]
    cases b.rows g.table with
    | none => exact ⟨rfl, rfl⟩
    | some staging => cases g.new_ids_temp <;> simp [h]
  rw [parentPart, parentPart, hsame.1, hsame.2]
  split
  · rw [hidents ‹_›]
  · rfl

/-- What it changes there depends on what is there. -/
lemma parentPart_congr (hb : b.Keyed) {s r : Session C} {g : ParentGroup}
    (h : parentPart g.table s = parentPart g.table r) :
    parentPart g.table (appendParentGroup columns b s g)
      = parentPart g.table (appendParentGroup columns b r g) := by
  rw [parentPart, parentPart, Prod.mk.injEq, Prod.mk.injEq] at h
  obtain ⟨hrows, hids, hidents⟩ := h
  rw [parentPart, parentPart, rows_appendParentGroup hb, rows_appendParentGroup hb,
    new_ids_appendParentGroup, new_ids_appendParentGroup, new_idents_appendParentGroup,
    new_idents_appendParentGroup, addedRows, addedRows, hrows, hids]
  cases decEq g.table .airports with
  | isTrue hair =>
      rw [if_pos hair, if_pos hair] at hidents
      rw [hidents]
  | isFalse hair => rw [if_neg hair, if_neg hair]

lemma tags_appendParentGroup (columns : AirportColumns C) (b : TableBundle C) (s : Session C)
    (g : ParentGroup) :
    (appendParentGroup columns b s g).tables.tags = s.tables.tags
      ∧ (appendParentGroup columns b s g).tables.airport_tags = s.tables.airport_tags := by
  rw [appendParentGroup]
  cases b.rows g.table <;> exact ⟨rfl, rfl⟩

/-- **All parent groups.** -/
lemma parents_spec (columns : AirportColumns C) (hb : b.Keyed) (d : RegionTables C)
    {s : Session C}
    (hs : kParents.foldl (appendParentGroup columns b) ⟨d, fun _ => none, none⟩ = s) :
    (s.tables.tags = d.tags ∧ s.tables.airport_tags = d.airport_tags)
      ∧ (∀ t, s.tables.rows t = d.rows t ++ if t ∈ parentTables then addedRows b d t else [])
      ∧ (∀ t, s.new_ids (.osm t)
        = if (b.rows (.osm t)).isSome then some ((addedRows b d (.osm t)).map Row.id) else none)
      ∧ s.new_idents = if (b.rows .airports).isSome
          then some ((addedRows b d .airports).map fun r => columns.ident r.content) else none := by
  have hfold : kParents.foldlM (fun s g => some (appendParentGroup columns b s g))
      ⟨d, fun _ => none, none⟩ = some s := by
    rw [← hs]
    exact List.foldlM_pure
  obtain ⟨hin, hout⟩ := foldlM_distinct parentPart ParentGroup.table
    (fun s g => some (appendParentGroup columns b s g))
    (fun s g s' t h ht => by rw [← Option.some.inj h, parentPart_of_ne ht])
    (fun s r g h => congrArg some (parentPart_congr hb h)) nodup_parentTables hfold
  have hgroup : ∀ g ∈ kParents, parentPart g.table s
      = parentPart g.table (appendParentGroup columns b ⟨d, fun _ => none, none⟩ g) :=
    fun g hg => (Option.some.inj (hin g hg)).symm
  have htags : ∀ (gs : List ParentGroup) (r : Session C),
      (gs.foldl (appendParentGroup columns b) r).tables.tags = r.tables.tags
        ∧ (gs.foldl (appendParentGroup columns b) r).tables.airport_tags
          = r.tables.airport_tags := by
    intro gs
    induction gs with
    | nil => exact fun r => ⟨rfl, rfl⟩
    | cons g gs ih =>
        intro r
        obtain ⟨h1, h2⟩ := ih (appendParentGroup columns b r g)
        obtain ⟨h3, h4⟩ := tags_appendParentGroup columns b r g
        exact ⟨h1.trans h3, h2.trans h4⟩
  refine ⟨hs ▸ htags kParents _, fun t => ?_, fun t => ?_, ?_⟩
  · split
    · obtain ⟨g, hg, rfl⟩ := List.mem_map.mp ‹t ∈ parentTables›
      exact (congrArg Prod.fst (hgroup g hg)).trans (rows_appendParentGroup hb _ g)
    · rw [List.append_nil]
      exact congrArg Prod.fst (hout t ‹_›)
  · have hmem : (⟨.osm t, true⟩ : ParentGroup) ∈ kParents := by cases t <;> decide
    have h := congrArg (fun p => p.2.1) (hgroup _ hmem)
    refine (h.trans (new_ids_appendParentGroup _ _)).trans ?_
    simp
  · have h := congrArg (fun p => p.2.2) (hgroup ⟨.airports, true⟩ (by decide))
    refine (h.trans (new_idents_appendParentGroup _ _)).trans ?_
    simp

/-! ### The children -/

/-- One child group. -/
lemma appendChildGroup_map (s : Session C) (t : OsmTable) :
    (appendChildGroup b s t).map (fun s => s.tables.tags t)
      = if (b.tags t).isSome ∧ s.new_ids (.osm t) = none then none
        else some (s.tables.tags t
          ++ joinNewIds (b.tagList t) ((s.new_ids (.osm t)).getD [])) := by
  rw [appendChildGroup, TableBundle.tagList]
  cases b.tags t with
  | none => simp [joinNewIds]
  | some staging => cases s.new_ids (.osm t) <;> simp

lemma of_appendChildGroup {s s' : Session C} {t : OsmTable} (h : appendChildGroup b s t = some s') :
    s'.tables.rows = s.tables.rows ∧ s'.tables.airport_tags = s.tables.airport_tags
      ∧ s'.new_ids = s.new_ids ∧ s'.new_idents = s.new_idents
      ∧ ∀ u, u ≠ t → s'.tables.tags u = s.tables.tags u := by
  rw [appendChildGroup] at h
  cases htags : b.tags t with
  | none =>
      rw [htags] at h
      obtain rfl := Option.some.inj h
      exact ⟨rfl, rfl, rfl, rfl, fun _ _ => rfl⟩
  | some staging =>
      rw [htags] at h
      cases hids : s.new_ids (.osm t) with
      | none => simp [hids] at h
      | some ids =>
          simp only [hids] at h
          obtain rfl := Option.some.inj h
          exact ⟨rfl, rfl, rfl, rfl, fun u hu => Function.update_of_ne hu ..⟩

/-- What a child group reads or may change. -/
def childPart (t : OsmTable) (s : Session C) : List TagRecord × Option (List ℤ) :=
  (s.tables.tags t, s.new_ids (.osm t))

lemma childPart_of_ne {s s' : Session C} {t u : OsmTable} (h : appendChildGroup b s t = some s')
    (hu : u ≠ t) : childPart u s' = childPart u s := by
  obtain ⟨-, -, hids, -, htags⟩ := of_appendChildGroup h
  rw [childPart, childPart, hids, htags u hu]

lemma childPart_congr {s r : Session C} {t : OsmTable} (h : childPart t s = childPart t r) :
    (appendChildGroup b s t).map (childPart t) = (appendChildGroup b r t).map (childPart t) := by
  rw [childPart, childPart, Prod.mk.injEq] at h
  obtain ⟨htags, hids⟩ := h
  have hmap : ∀ s : Session C, (appendChildGroup b s t).map (childPart t)
      = ((appendChildGroup b s t).map fun s => s.tables.tags t).map
        fun tags => (tags, s.new_ids (.osm t)) := by
    intro s
    rw [Option.map_map]
    refine Option.map_congr fun s' hs' => ?_
    obtain ⟨-, -, hsame, -⟩ := of_appendChildGroup hs'
    rw [childPart, hsame, Function.comp_apply]
  rw [hmap, hmap, appendChildGroup_map, appendChildGroup_map, htags, hids]

lemma nodup_kChildren : (kChildren.map id).Nodup := by decide

lemma mem_kChildren (t : OsmTable) : t ∈ kChildren := by cases t <;> decide

/-- **All child groups.** -/
lemma children_spec {s s' : Session C} (h : kChildren.foldlM (appendChildGroup b) s = some s') :
    (s'.tables.rows = s.tables.rows ∧ s'.tables.airport_tags = s.tables.airport_tags
      ∧ s'.new_idents = s.new_idents)
    ∧ ∀ t, s'.tables.tags t
      = s.tables.tags t ++ joinNewIds (b.tagList t) ((s.new_ids (.osm t)).getD []) := by
  have hkept : s'.tables.rows = s.tables.rows ∧ s'.tables.airport_tags = s.tables.airport_tags
      ∧ s'.new_idents = s.new_idents := by
    refine foldlM_invariant (I := fun r => r.tables.rows = s.tables.rows
      ∧ r.tables.airport_tags = s.tables.airport_tags ∧ r.new_idents = s.new_idents)
      ?_ ⟨rfl, rfl, rfl⟩ h
    intro r t r' hr hstep
    obtain ⟨h1, h2, -, h3, -⟩ := of_appendChildGroup hstep
    exact ⟨h1.trans hr.1, h2.trans hr.2.1, h3.trans hr.2.2⟩
  refine ⟨hkept, fun t => ?_⟩
  have hown := (foldlM_distinct childPart id (appendChildGroup b)
    (fun s t s' u hstep hu => childPart_of_ne hstep hu) (fun s r t h => childPart_congr h)
    nodup_kChildren h).1 t (mem_kChildren t)
  have htags := congrArg (Option.map Prod.fst) hown
  rw [Option.map_map, Option.map_some] at htags
  have hmap := (appendChildGroup_map (b := b) s t).symm.trans htags
  split at hmap
  · simp at hmap
  · exact (Option.some.inj hmap).symm

/-- They go through where each tag file has its table of new ids. -/
lemma children_isSome_iff (s : Session C) : (kChildren.foldlM (appendChildGroup b) s).isSome
    ↔ ∀ t, (b.tags t).isSome → (s.new_ids (.osm t)).isSome := by
  have hall := foldlM_distinct_isSome childPart id (appendChildGroup b)
    (fun s t s' u hstep hu => childPart_of_ne hstep hu)
    (fun s r t h => childPart_congr h) nodup_kChildren s
  have hone : ∀ t, (appendChildGroup b s t).isSome
      ↔ ((b.tags t).isSome → (s.new_ids (.osm t)).isSome) := by
    intro t
    rw [← Option.isSome_map (f := fun s => s.tables.tags t), appendChildGroup_map]
    cases b.tags t <;> cases s.new_ids (.osm t) <;> simp
  exact hall.trans ⟨fun h t => (hone t).mp (h t (mem_kChildren t)), fun h t _ => (hone t).mpr (h t)⟩

/-! ### The script -/

lemma appendAirportTags_eq (s : Session C) : (appendAirportTags b s).map Session.tables
    = if b.airport_tags.isSome ∧ s.new_idents = none then none
      else some { s.tables with
        airport_tags := s.tables.airport_tags
          ++ joinOn AirportTag.airport_ident id b.airportTagList (s.new_idents.getD []) } := by
  rw [appendAirportTags, TableBundle.airportTagList]
  cases b.airport_tags with
  | none => simp [joinOn_nil_left]
  | some staging => cases s.new_idents <;> simp

/-- The script goes through where every tag file comes with its parents. -/
theorem run_isSome_iff (columns : AirportColumns C) (d : RegionTables C) (hb : b.Keyed) :
    (run columns b d).isSome ↔ b.Complete := by
  obtain ⟨s, hs⟩ : ∃ s, kParents.foldl (appendParentGroup columns b) ⟨d, fun _ => none, none⟩ = s :=
    ⟨_, rfl⟩
  obtain ⟨-, -, hids, hidents⟩ := parents_spec columns hb d hs
  have hchildren := children_isSome_iff (b := b) s
  have hidsome : ∀ t, (s.new_ids (.osm t)).isSome ↔ (b.rows (.osm t)).isSome := by
    intro t
    rw [hids]
    split <;> simp_all
  have hidentsome : s.new_idents.isSome ↔ (b.rows .airports).isSome := by
    rw [hidents]
    split <;> simp_all
  rw [run, hs]
  cases hc : kChildren.foldlM (appendChildGroup b) s with
  | none =>
      rw [hc] at hchildren
      refine ⟨fun h => by simp at h, fun h => ?_⟩
      exact absurd (hchildren.mpr fun t ht => (hidsome t).mpr (h.tags t ht)) (by simp)
  | some s' =>
      obtain ⟨⟨-, -, hsame⟩, -⟩ := children_spec hc
      have hlast : ((appendAirportTags b s').map Session.tables).isSome
          ↔ (b.airport_tags.isSome → (b.rows .airports).isSome) := by
        rw [appendAirportTags_eq, hsame, ← hidentsome]
        cases b.airport_tags <;> cases s.new_idents <;> simp
      rw [hc] at hchildren
      have htags := hchildren.mp rfl
      rw [Option.isSome_map] at hlast
      constructor
      · intro h
        refine ⟨fun t ht => (hidsome t).mp (htags t ht), hlast.mp ?_⟩
        cases ha : appendAirportTags b s' with
        | none => simp [ha] at h
        | some _ => rfl
      · intro h
        obtain ⟨r, hr⟩ := Option.isSome_iff_exists.mp (hlast.mpr h.airport_tags)
        simp [hr]

/-- **What the script does to a target.** -/
theorem run_spec (hb : b.Keyed) (h : run columns b d = some d') :
    (∀ t, d'.rows t = d.rows t ++ if t ∈ parentTables then addedRows b d t else [])
      ∧ (∀ t, d'.tags t = d.tags t
        ++ (b.tagList t).filter fun g => hasKey Row.id (addedRows b d (.osm t)) g.id)
      ∧ d'.airport_tags = d.airport_tags ++ joinOn AirportTag.airport_ident
        (fun a : Row C => columns.ident a.content) b.airportTagList (addedRows b d .airports) := by
  have hcomplete : b.Complete := (run_isSome_iff columns d hb).mp (by rw [h]; rfl)
  obtain ⟨s, hs⟩ : ∃ s, kParents.foldl (appendParentGroup columns b) ⟨d, fun _ => none, none⟩ = s :=
    ⟨_, rfl⟩
  obtain ⟨⟨htags, hair⟩, hrows, hids, hidents⟩ := parents_spec columns hb d hs
  rw [run, hs] at h
  cases hc : kChildren.foldlM (appendChildGroup b) s with
  | none => simp [hc] at h
  | some s' =>
      obtain ⟨⟨hrows', hair', hidents'⟩, htags'⟩ := children_spec hc
      have hlast : (appendAirportTags b s').map Session.tables = some d' := by
        cases ha : appendAirportTags b s' with
        | none => simp [hc, ha] at h
        | some s'' => simpa [hc, ha] using h
      rw [appendAirportTags_eq] at hlast
      split at hlast
      · simp at hlast
      · obtain rfl := Option.some.inj hlast
        refine ⟨fun t => by rw [← hrows t, hrows'], fun t => ?_, ?_⟩
        · show s'.tables.tags t = _
          rw [htags', htags, hids]
          congr 1
          -- the join is against the ids of the new rows, which are distinct
          have hjoin : joinNewIds (b.tagList t) ((addedRows b d (.osm t)).map Row.id)
              = (b.tagList t).filter fun g => hasKey Row.id (addedRows b d (.osm t)) g.id := by
            rw [joinNewIds_eq _ (addedRows_nodup hb d _)]
            refine List.filter_congr fun g _ => ?_
            rw [Bool.eq_iff_iff]
            simp
          split
          · exact hjoin
          · have hnone : addedRows b d (.osm t) = [] := by
              simp_all [addedRows, TableBundle.rowList]
            rw [hnone] at hjoin ⊢
            exact hjoin
        · show s'.tables.airport_tags ++ _ = _
          rw [hair', hair, hidents', hidents]
          congr 1
          split
          · rw [Option.getD_some]
            exact (joinOn_eq_of_keys ..).symm
          · have hnone : addedRows b d .airports = [] := by
              simp_all [addedRows, TableBundle.rowList]
            rw [hnone, Option.getD_none, joinOn_nil_right, joinOn_nil_right]

/-! ### The OSM tables alone -/

/-- The OSM tables. -/
def osmTables (d : RegionTables C) : TargetTables C := ⟨fun t => d.rows (.osm t), d.tags⟩

/-- The session as the OSM tables see it. -/
def osmSession (s : Session C) : Gpsxdb.Session C :=
  ⟨osmTables s.tables, fun t => s.new_ids (.osm t)⟩

lemma update_osm {β : Type*} (f : MasterTable → β) (t : OsmTable) (v : β) :
    (fun u => Function.update f (.osm t) v (.osm u))
      = Function.update (fun u => f (.osm u)) t v := by
  funext u
  cases decEq u t with
  | isTrue h =>
      subst h
      rw [Function.update_self, Function.update_self]
  | isFalse h => rw [Function.update_of_ne h, Function.update_of_ne (by simpa using h)]

variable {rb : RegionBundle C}

lemma osmSession_appendParentGroup (hrows : ∀ t, rb.rows t = b.rows (.osm t)) (s : Session C)
    (t : OsmTable) : osmSession (appendParentGroup columns b s ⟨.osm t, true⟩)
      = Gpsxdb.appendParentGroup rb (osmSession s) t := by
  rw [appendParentGroup, Gpsxdb.appendParentGroup, hrows]
  cases b.rows (.osm t) with
  | none => rfl
  | some staging =>
      show Gpsxdb.Session.mk _ _ = Gpsxdb.Session.mk _ _
      congr 1
      · show TargetTables.mk _ _ = TargetTables.mk _ _
        congr 1
        exact update_osm ..
      · exact update_osm ..

lemma osmSession_of_ne (s : Session C) {g : ParentGroup} (hg : ∀ t, g.table ≠ .osm t) :
    osmSession (appendParentGroup columns b s g) = osmSession s := by
  have hrows : ∀ t, (appendParentGroup columns b s g).tables.rows (.osm t) = s.tables.rows (.osm t)
      ∧ (appendParentGroup columns b s g).new_ids (.osm t) = s.new_ids (.osm t) := by
    intro t
    have hpart : parentPart (.osm t) (appendParentGroup columns b s g) = parentPart (.osm t) s :=
      parentPart_of_ne (hg t).symm
    exact ⟨congrArg Prod.fst hpart, congrArg (fun p => p.2.1) hpart⟩
  rw [osmSession, osmSession, osmTables, osmTables, (tags_appendParentGroup columns b s g).1]
  simp only [hrows]

lemma osmSession_appendChildGroup (htags : rb.tags = b.tags) (s : Session C) (t : OsmTable) :
    (appendChildGroup b s t).map osmSession = Gpsxdb.appendChildGroup rb (osmSession s) t := by
  rw [appendChildGroup, Gpsxdb.appendChildGroup, htags]
  cases b.tags t with
  | none => rfl
  | some staging =>
      dsimp only [osmSession]
      cases s.new_ids (.osm t) <;> rfl

/-- **On the OSM tables the script is the script of the OSM tables alone.** -/
theorem runScript_of_run (hrows : ∀ t, rb.rows t = b.rows (.osm t)) (htags : rb.tags = b.tags)
    (h : run columns b d = some d') : runScript rb (osmTables d) = some (osmTables d') := by
  have hparents : osmSession (kParents.foldl (appendParentGroup columns b)
      ⟨d, fun _ => none, none⟩)
      = Gpsxdb.kParents.foldl (Gpsxdb.appendParentGroup rb) ⟨osmTables d, fun _ => none⟩ := by
    have hsplit : kParents
        = Gpsxdb.kParents.map (fun t => ⟨.osm t, true⟩) ++ kParents.drop 5 := rfl
    have hrest : ∀ s : Session C,
        osmSession ((kParents.drop 5).foldl (appendParentGroup columns b) s) = osmSession s := by
      intro s
      refine List.foldlRecOn (motive := fun r => osmSession r = osmSession s) _ _ rfl ?_
      intro r hr g hg
      refine (osmSession_of_ne r fun t ht => ?_).trans hr
      cases t <;> revert ht <;> revert g <;> decide
    rw [hsplit, List.foldl_append, hrest, List.foldl_map]
    exact (List.foldl_hom osmSession fun s t => (osmSession_appendParentGroup hrows s t).symm).symm
  have hchildren : ∀ (ts : List OsmTable) (s : Session C),
      (ts.foldlM (appendChildGroup b) s).map osmSession
        = ts.foldlM (Gpsxdb.appendChildGroup rb) (osmSession s) := by
    intro ts
    induction ts with
    | nil => exact fun s => rfl
    | cons t ts ih =>
        intro s
        rw [List.foldlM_cons, List.foldlM_cons, ← osmSession_appendChildGroup htags]
        cases appendChildGroup b s t with
        | none => rfl
        | some s' => exact ih s'
  rw [run] at h
  rw [runScript, ← hparents]
  have hk : Gpsxdb.kParents = kChildren := rfl
  rw [hk, ← hchildren]
  cases hc : kChildren.foldlM (appendChildGroup b)
      (kParents.foldl (appendParentGroup columns b) ⟨d, fun _ => none, none⟩) with
  | none => simp [hc] at h
  | some s' =>
      cases ha : appendAirportTags b s' with
      | none => simp [hc, ha] at h
      | some s'' =>
          have hd : s''.tables = d' := by simpa [hc, ha] using h
          have hlast := appendAirportTags_eq (b := b) s'
          rw [ha, Option.map_some, hd] at hlast
          split at hlast
          · simp at hlast
          · rw [Option.some.inj hlast]
            rfl

end InstallScript

end Gpsxdb
