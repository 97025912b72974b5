import Mathlib.Tactic
import Gpsxdb.Library.Runs
import Gpsxdb.Delta.Tables

/-!
When reinstalling a region refreshes it.

* `runScript_spec`: the script adds the rows of new ids, and the tag rows of
  these;
* `TargetTables.Sound`: distinct ids, and no tag row without its row; every
  target reached is sound (`sound_of_reached`);
* `Refreshed`: the target holds the bundle's nodes, rows and tag rows;
* `refreshed_iff`: after an install it does exactly when each of them was new to
  the target or there already with the same content.
-/

namespace Gpsxdb

variable {C : Type}

/-! ### The script -/

/-- The rows of a bundle whose ids a target has not. -/
def newRows (b : RegionBundle C) (d : TargetTables C) (t : OsmTable) : List (Row C) :=
  (b.rowList t).filter fun r => !hasKey Row.id (d.rows t) r.id

lemma rowList_nodup (b : RegionBundle C) (t : OsmTable) : ((b.rowList t).map Row.id).Nodup := by
  rw [RegionBundle.rowList]
  rcases h : b.rows t with _ | l
  · exact List.nodup_nil
  · exact b.nodup t l h

lemma newRows_nodup (b : RegionBundle C) (d : TargetTables C) (t : OsmTable) :
    ((newRows b d t).map Row.id).Nodup :=
  ((List.filter_sublist).map Row.id).nodup (rowList_nodup b t)

/-- One parent group. -/
lemma appendParentGroup_spec (b : RegionBundle C) (s : Session C) (u t : OsmTable) :
    (appendParentGroup b s u).tables.tags = s.tables.tags
      ∧ (appendParentGroup b s u).tables.rows t
        = s.tables.rows t ++ (if t = u then newRows b s.tables t else [])
      ∧ (appendParentGroup b s u).new_ids t
        = if t = u ∧ (b.rows t).isSome then some ((newRows b s.tables t).map Row.id)
          else s.new_ids t := by
  rw [appendParentGroup]
  rcases h : b.rows u with _ | staging
  · by_cases htu : t = u
    · subst htu
      simp [newRows, RegionBundle.rowList, h]
    · simp [htu]
  · by_cases htu : t = u
    · subst htu
      simp [newRows, RegionBundle.rowList, h, foldl_insertNew (b.nodup t staging h)]
    · simp [htu]

/-- All parent groups. -/
lemma foldl_appendParentGroup (b : RegionBundle C) {ts : List OsmTable} (hts : ts.Nodup)
    (s : Session C) (t : OsmTable) :
    (ts.foldl (appendParentGroup b) s).tables.tags = s.tables.tags
      ∧ (ts.foldl (appendParentGroup b) s).tables.rows t
        = s.tables.rows t ++ (if t ∈ ts then newRows b s.tables t else [])
      ∧ (ts.foldl (appendParentGroup b) s).new_ids t
        = if t ∈ ts ∧ (b.rows t).isSome then some ((newRows b s.tables t).map Row.id)
          else s.new_ids t := by
  induction ts generalizing s with
  | nil => simp
  | cons u ts ih =>
      obtain ⟨hu, hts⟩ := List.nodup_cons.mp hts
      obtain ⟨h1, h2, h3⟩ := appendParentGroup_spec b s u t
      obtain ⟨h4, h5, h6⟩ := ih hts (appendParentGroup b s u)
      rw [List.foldl_cons]
      refine ⟨h4.trans h1, ?_, ?_⟩
      · by_cases htu : t = u
        · subst htu
          rw [h5, if_neg hu, h2]
          simp
        · have hnew : newRows b (appendParentGroup b s u).tables t = newRows b s.tables t := by
            rw [newRows, newRows, h2, if_neg htu, List.append_nil]
          rw [h5, h2, hnew]
          simp [htu]
      · by_cases htu : t = u
        · subst htu
          rw [h6, if_neg (fun h => hu h.1), h3]
          simp
        · have hnew : newRows b (appendParentGroup b s u).tables t = newRows b s.tables t := by
            rw [newRows, newRows, h2, if_neg htu, List.append_nil]
          rw [h6, h3, hnew]
          simp [htu]

/-- Against distinct ids the join keeps a staged tag row once or not at all. -/
lemma joinNewIds_eq (staging : List TagRecord) {ids : List ℤ} (hids : ids.Nodup) :
    joinNewIds staging ids = staging.filter fun c => ids.contains c.id := by
  rw [joinNewIds]
  induction staging with
  | nil => rfl
  | cons c staging ih =>
      rw [List.flatMap_cons, ih, List.filter_cons]
      have hcount : (ids.filter fun id => id == c.id) = if c.id ∈ ids then [c.id] else [] := by
        rw [List.filter_beq, hids.count]
        split <;> rfl
      rw [hcount]
      by_cases hc : c.id ∈ ids <;> simp [hc]

/-- All child groups. -/
lemma foldlM_appendChildGroup {b : RegionBundle C} {ts : List OsmTable} (hts : ts.Nodup)
    {s s' : Session C} (h : ts.foldlM (appendChildGroup b) s = some s') (t : OsmTable) :
    s'.tables.rows = s.tables.rows ∧ s'.new_ids = s.new_ids
      ∧ s'.tables.tags t = s.tables.tags t
        ++ (if t ∈ ts then joinNewIds (b.tagList t) ((s.new_ids t).getD []) else []) := by
  induction ts generalizing s with
  | nil =>
      obtain rfl := Option.some.inj h
      simp
  | cons u ts ih =>
      obtain ⟨hu, hts⟩ := List.nodup_cons.mp hts
      obtain ⟨r, hr, h⟩ := foldlM_cons_eq_some.mp h
      obtain ⟨h1, h2, h3⟩ := ih hts h
      have hstep : r.tables.rows = s.tables.rows ∧ r.new_ids = s.new_ids
          ∧ r.tables.tags t = s.tables.tags t
            ++ (if t = u then joinNewIds (b.tagList t) ((s.new_ids t).getD []) else []) := by
        rw [appendChildGroup] at hr
        rcases htags : b.tags u with _ | staging
        · rw [htags] at hr
          obtain rfl := Option.some.inj hr
          refine ⟨rfl, rfl, ?_⟩
          split
          · subst ‹t = u›
            simp [RegionBundle.tagList, htags, joinNewIds]
          · simp
        · rw [htags] at hr
          rcases hids : s.new_ids u with _ | ids
          · simp [hids] at hr
          · simp only [hids] at hr
            obtain rfl := Option.some.inj hr
            refine ⟨rfl, rfl, ?_⟩
            by_cases htu : t = u
            · subst htu
              simp [RegionBundle.tagList, htags, hids]
            · simp [htu]
      obtain ⟨h4, h5, h6⟩ := hstep
      refine ⟨h1.trans h4, h2.trans h5, ?_⟩
      rw [h3, h6, h5]
      by_cases htu : t = u
      · subst htu
        simp [hu]
      · simp [htu]

/-- **What the script does to a table.** -/
theorem runScript_spec {b : RegionBundle C} {d d' : TargetTables C}
    (h : runScript b d = some d') (t : OsmTable) :
    d'.rows t = d.rows t ++ newRows b d t
      ∧ d'.tags t = d.tags t
        ++ (b.tagList t).filter fun c => hasKey Row.id (newRows b d t) c.id := by
  have hmem : t ∈ kParents := by cases t <;> decide
  have hnd : kParents.Nodup := by decide
  rw [runScript, Option.map_eq_some_iff] at h
  obtain ⟨s, hs, rfl⟩ := h
  obtain ⟨h1, h2, h3⟩ := foldl_appendParentGroup b hnd ⟨d, fun _ => none⟩ t
  obtain ⟨h4, -, h6⟩ := foldlM_appendChildGroup hnd hs t
  refine ⟨by rw [h4, h2, if_pos hmem], ?_⟩
  rw [h6, h1, if_pos hmem, h3]
  congr 1
  have hjoin : joinNewIds (b.tagList t) ((newRows b d t).map Row.id)
      = (b.tagList t).filter fun c => hasKey Row.id (newRows b d t) c.id := by
    rw [joinNewIds_eq _ (newRows_nodup b d t)]
    refine List.filter_congr fun c _ => ?_
    rw [Bool.eq_iff_iff]
    simp
  by_cases hrows : (b.rows t).isSome
  · simpa [hmem, hrows] using hjoin
  · have hnil : newRows b d t = [] := by
      simp [newRows, RegionBundle.rowList, Option.not_isSome_iff_eq_none.mp hrows]
    simp [hrows, hnil, joinNewIds, hasKey]

/-! ### Sound targets -/

/-- Distinct ids, and no tag row without its row. -/
structure TargetTables.Sound (d : TargetTables C) : Prop where
  nodup : ∀ t, ((d.rows t).map Row.id).Nodup
  tagged : ∀ t, ∀ g ∈ d.tags t, hasKey Row.id (d.rows t) g.id

/-- `diffTags` makes rows of its entity only. -/
lemma id_of_mem_diffTags {id : ℤ} {tags : Tags} {is_node : Bool} {rows : List TagRecord}
    {g : TagRecord} (h : g ∈ diffTags id tags is_node rows) :
    g.id = id ∨ ∃ g' ∈ rows, g'.id = g.id := by
  have hfold : ∀ (ts : List (Text × Text)) (s : List TagRecord × (Text → Option Text)),
      (∀ x ∈ s.1, x.id = id ∨ ∃ g' ∈ rows, g'.id = x.id) →
      ∀ x ∈ (ts.foldl (diffTag id) s).1, x.id = id ∨ ∃ g' ∈ rows, g'.id = x.id := by
    intro ts
    induction ts with
    | nil => exact fun s hs => hs
    | cons tag ts ih =>
        intro s hs
        refine ih _ fun x hx => ?_
        simp only [diffTag] at hx
        split at hx
        · rcases List.mem_append.mp hx with hx | hx
          · exact hs x hx
          · obtain rfl := List.mem_singleton.mp hx
            exact Or.inl rfl
        · split at hx
          · obtain ⟨y, hy, rfl⟩ := List.mem_map.mp hx
            split
            · exact hs y hy
            · exact hs y hy
          · exact hs x hx
  rw [diffTags] at h
  exact hfold _ _ (fun x hx => Or.inr ⟨x, hx, rfl⟩) g (List.mem_of_mem_filter h)

/-- Where no tag survives `diffTags` leaves no row of its entity. -/
lemma id_ne_of_mem_diffTags {id : ℤ} {tags : Tags} {is_node : Bool} {rows : List TagRecord}
    (hno : hasSurvivingTag tags is_node = false) {g : TagRecord}
    (h : g ∈ diffTags id tags is_node rows) : g.id ≠ id := by
  rw [diffTags, survivingTags_eq_nil.mpr hno] at h
  obtain ⟨hmem, hkeep⟩ := List.mem_filter.mp h
  rintro rfl
  have hnone : ∀ x ∈ rows, x.id = g.id → x.key ≠ g.key := by simpa using hkeep
  exact hnone g hmem rfl rfl

lemma sound_upsertEntity {d : TargetTables C} (h : d.Sound) (t : OsmTable) (r : Row C)
    (tags : Tags) : (d.upsertEntity t r tags).Sound := by
  refine ⟨TargetTables.Keyed.upsertEntity h.nodup t r tags, fun u g hg => ?_⟩
  by_cases hu : u = t
  · subst hu
    simp only [TargetTables.upsertEntity, Function.update_self] at hg ⊢
    have hid := id_of_mem_diffTags hg
    split
    · refine hasKey_iff.mpr (List.mem_map.mp (mem_keys_upsert.mpr ?_))
      rcases hid with hid | ⟨g', hg', hid⟩
      · exact Or.inl hid
      · rw [← hid]
        exact Or.inr (List.mem_map.mpr (hasKey_iff.mp (h.tagged u g' hg')))
    · have hne := id_ne_of_mem_diffTags (Bool.eq_false_iff.mpr ‹_›) hg
      rcases hid with hid | ⟨g', hg', hid⟩
      · exact absurd hid hne
      · obtain ⟨q, hq, hqid⟩ := hasKey_iff.mp (h.tagged u g' hg')
        refine hasKey_iff.mpr ⟨q, List.mem_filter.mpr ⟨hq, ?_⟩, hqid.trans hid⟩
        rw [hqid, hid]
        simpa using hne
  · simp only [TargetTables.upsertEntity, Function.update_of_ne hu] at hg ⊢
    exact h.tagged u g hg

lemma sound_deleteEntity {d : TargetTables C} (h : d.Sound) (t : OsmTable) (id : ℤ) :
    (d.deleteEntity t id).Sound := by
  refine ⟨TargetTables.Keyed.deleteEntity h.nodup t id, fun u g hg => ?_⟩
  by_cases hu : u = t
  · subst hu
    simp only [TargetTables.deleteEntity, Function.update_self] at hg ⊢
    obtain ⟨hmem, hne⟩ := List.mem_filter.mp hg
    obtain ⟨q, hq, hid⟩ := hasKey_iff.mp (h.tagged u g hmem)
    exact hasKey_iff.mpr ⟨q, List.mem_filter.mpr ⟨hq, by rw [hid]; exact hne⟩, hid⟩
  · simp only [TargetTables.deleteEntity, Function.update_of_ne hu] at hg ⊢
    exact h.tagged u g hg

lemma sound_runScript {b : RegionBundle C} {d d' : TargetTables C} (h : d.Sound)
    (hrun : runScript b d = some d') : d'.Sound := by
  refine ⟨fun t => ?_, fun t g hg => ?_⟩
  · obtain ⟨hrows, -⟩ := runScript_spec hrun t
    rw [hrows]
    exact nodup_append_new (h.nodup t) (newRows_nodup b d t) fun r hr => by
      simpa using (List.mem_filter.mp hr).2
  · obtain ⟨hrows, htags⟩ := runScript_spec hrun t
    rw [htags] at hg
    rw [hrows]
    rcases List.mem_append.mp hg with hg | hg
    · obtain ⟨q, hq, hid⟩ := hasKey_iff.mp (h.tagged t g hg)
      exact hasKey_iff.mpr ⟨q, List.mem_append_left _ hq, hid⟩
    · obtain ⟨q, hq, hid⟩ := hasKey_iff.mp (List.mem_filter.mp hg).2
      exact hasKey_iff.mpr ⟨q, List.mem_append_right _ hq, hid⟩

namespace RegionalTarget

variable {σ σ' : RegionalTarget C} {b : RegionBundle C}

/-- What an install consists of. -/
lemma install_eq (h : σ.install b = some σ') :
    runScript b σ.tables = some σ'.tables ∧ σ'.nodes = installNodes b σ.nodes := by
  rw [install, Option.map_eq_some_iff] at h
  obtain ⟨d, hd, rfl⟩ := h
  exact ⟨hd, rfl⟩

/-- **Every target reached is sound.** -/
lemma sound_of_reached (h : Reached σ) : σ.tables.Sound := by
  induction h with
  | empty => exact ⟨fun _ => List.nodup_nil, fun _ g hg => by simp [empty] at hg⟩
  | install _ hinst ih => exact sound_runScript ih (install_eq hinst).1
  | script _ hrun ih => exact sound_runScript ih hrun
  | upsert t r tags _ ih => exact sound_upsertEntity ih t r tags
  | delete t id _ ih => exact sound_deleteEntity ih t id

/-! ### Refreshed targets -/

/-- The target holds what the bundle holds. -/
structure Refreshed (b : RegionBundle C) (σ : RegionalTarget C) : Prop where
  nodes : ∀ m, b.nodes = some m → ∃ n, σ.nodes = some n ∧
    ∀ rec ∈ m.records, n.select rec.id = some rec.coord
  rows : ∀ t, ∀ r ∈ b.rowList t, r ∈ σ.tables.rows t
  tags : ∀ t, ∀ r ∈ b.rowList t, (σ.tables.tagsOf t r.id).Perm (b.tagsOf t r.id)

/-- Whatever the target has under an id of the bundle is what the bundle has. -/
structure UpToDate (b : RegionBundle C) (σ : RegionalTarget C) : Prop where
  nodes : ∀ m n, b.nodes = some m → σ.nodes = some n → ∀ rec ∈ m.records,
    ∀ c, n.select rec.id = some c → c = rec.coord
  rows : ∀ t, ∀ r ∈ b.rowList t, ∀ q ∈ σ.tables.rows t, q.id = r.id →
    q = r ∧ (σ.tables.tagsOf t r.id).Perm (b.tagsOf t r.id)

/-- A node file refreshes exactly where the ids it shares have the same
coordinates. -/
lemma installNodes_iff (b : RegionBundle C) (nodes : Option RegionalNodeMap) :
    (∀ m, b.nodes = some m → ∃ n, installNodes b nodes = some n ∧
        ∀ rec ∈ m.records, n.select rec.id = some rec.coord)
      ↔ ∀ m n, b.nodes = some m → nodes = some n → ∀ rec ∈ m.records,
        ∀ c, n.select rec.id = some c → c = rec.coord := by
  rcases hb : b.nodes with _ | m
  · simp
  have hself : ∀ rec ∈ m.records, m.select rec.id = some rec.coord := fun rec hrec =>
    RegionalNodeMap.select_eq_some_iff.mpr hrec
  rcases nodes with _ | n
  · simp only [installNodes, hb]
    constructor
    · intro _ m' n _ hn
      simp at hn
    · rintro - m' hm
      obtain rfl := Option.some.inj hm
      exact ⟨m, rfl, hself⟩
  · simp only [installNodes, hb]
    constructor
    · intro h m' n' hm hn rec hrec c hc
      obtain rfl := Option.some.inj hm
      obtain rfl := Option.some.inj hn
      obtain ⟨k, hk, hsel⟩ := h m rfl
      obtain rfl := Option.some.inj hk
      have hor := hsel rec hrec
      rw [RegionalNodeMap.select_merge, hc, Option.some_or] at hor
      exact Option.some.inj hor
    · intro h m' hm
      obtain rfl := Option.some.inj hm
      refine ⟨n.merge m, rfl, fun rec hrec => ?_⟩
      rw [RegionalNodeMap.select_merge]
      rcases hc : n.select rec.id with _ | c
      · rw [Option.none_or]
        exact hself rec hrec
      · rw [Option.some_or, h m n rfl rfl rec hrec c hc]

/-- A row of a new id comes with exactly its tag rows. -/
lemma tagsOf_of_new {d d' : TargetTables C} (hd : d.Sound) (hrun : runScript b d = some d')
    {t : OsmTable} {r : Row C} (hr : r ∈ b.rowList t)
    (hnew : hasKey Row.id (d.rows t) r.id = false) :
    r ∈ d'.rows t ∧ d'.tagsOf t r.id = b.tagsOf t r.id := by
  obtain ⟨hrows, htags⟩ := runScript_spec hrun t
  have hmem : r ∈ newRows b d t := List.mem_filter.mpr ⟨hr, by simp [hnew]⟩
  refine ⟨by rw [hrows]; exact List.mem_append_right _ hmem, ?_⟩
  have hnil : ((d.tags t).filter fun g => g.id == r.id) = [] := by
    refine List.filter_eq_nil_iff.mpr fun g hg hid => ?_
    have hkey := hd.tagged t g hg
    rw [beq_iff_eq.mp hid, hnew] at hkey
    simp at hkey
  rw [TargetTables.tagsOf, htags, List.filter_append, hnil, List.nil_append, List.filter_filter,
    RegionBundle.tagsOf]
  refine List.filter_congr fun c _ => ?_
  by_cases hc : c.id = r.id
  · have hkey : hasKey Row.id (newRows b d t) c.id = true := hasKey_iff.mpr ⟨r, hmem, hc.symm⟩
    simp [hc, hc ▸ hkey]
  · simp [hc]

/-- A row under an id the target has stays as it is, tag rows included. -/
lemma tagsOf_of_old {d d' : TargetTables C} (hd : d.Sound) (hrun : runScript b d = some d')
    {t : OsmTable} {q : Row C} (hq : q ∈ d.rows t) :
    (∀ r ∈ d'.rows t, r.id = q.id → r = q) ∧ d'.tagsOf t q.id = d.tagsOf t q.id := by
  obtain ⟨hrows, htags⟩ := runScript_spec hrun t
  have hnew : ∀ r ∈ newRows b d t, r.id ≠ q.id := by
    intro r hr hid
    have hno := (List.mem_filter.mp hr).2
    simp only [Bool.not_eq_true', hasKey_eq_false] at hno
    exact hno q hq hid.symm
  have hqd : q ∈ d'.rows t := by
    rw [hrows]
    exact List.mem_append_left _ hq
  refine ⟨fun r hr hid => ?_, ?_⟩
  · exact List.inj_on_of_nodup_map ((sound_runScript hd hrun).nodup t) hr hqd hid
  · have hnil : (((b.tagList t).filter fun c => hasKey Row.id (newRows b d t) c.id).filter
        fun g => g.id == q.id) = [] := by
      refine List.filter_eq_nil_iff.mpr fun g hg hid => ?_
      obtain ⟨r, hr, hrid⟩ := hasKey_iff.mp (List.mem_filter.mp hg).2
      exact hnew r hr (hrid.trans (beq_iff_eq.mp hid))
    rw [TargetTables.tagsOf, htags, List.filter_append, hnil, List.append_nil]
    rfl

/-- **When a reinstall refreshes.** -/
theorem refreshed_iff (h : Reached σ) (hinst : σ.install b = some σ') :
    Refreshed b σ' ↔ UpToDate b σ := by
  obtain ⟨hrun, hnodes⟩ := install_eq hinst
  have hsound := sound_of_reached h
  have hnodesIff := installNodes_iff b σ.nodes
  rw [← hnodes] at hnodesIff
  constructor
  · rintro ⟨h1, h2, h3⟩
    refine ⟨hnodesIff.mp h1, fun t r hr q hq hid => ?_⟩
    obtain ⟨hsame, htags⟩ := tagsOf_of_old hsound hrun hq
    have hrq := hsame r (h2 t r hr) hid.symm
    have hperm := h3 t r hr
    rw [← hid, htags, hid] at hperm
    exact ⟨hrq.symm, hperm⟩
  · rintro ⟨h1, h2⟩
    have hcase : ∀ t, ∀ r ∈ b.rowList t,
        r ∈ σ'.tables.rows t ∧ (σ'.tables.tagsOf t r.id).Perm (b.tagsOf t r.id) := by
      intro t r hr
      by_cases hkey : hasKey Row.id (σ.tables.rows t) r.id = true
      · obtain ⟨q, hq, hid⟩ := hasKey_iff.mp hkey
        obtain ⟨rfl, hperm⟩ := h2 t r hr q hq hid
        refine ⟨?_, ?_⟩
        · rw [(runScript_spec hrun t).1]
          exact List.mem_append_left _ hq
        · rw [(tagsOf_of_old hsound hrun hq).2]
          exact hperm
      · obtain ⟨hmem, htags⟩ := tagsOf_of_new hsound hrun hr (Bool.eq_false_iff.mpr hkey)
        exact ⟨hmem, by rw [htags]⟩
    exact ⟨hnodesIff.mpr h1, fun t r hr => (hcase t r hr).1, fun t r hr => (hcase t r hr).2⟩

/-! ### Two exports of one region -/

/-- A bundle of one way with one tag, and one node. -/
def oneWay (name value : Text) (c : Coord) : RegionBundle Text where
  rows := fun t => if t = .ways then some [⟨7, name⟩] else none
  tags := fun t => if t = .ways then some [⟨7, ascii "highway", value⟩] else none
  nodes := some ⟨[⟨1, c⟩], List.pairwise_singleton ..⟩
  nodup := by
    intro t l h
    split at h
    · obtain rfl := Option.some.inj h
      exact List.nodup_singleton _
    · simp at h

/-- A first export. -/
def firstExport : RegionBundle Text := oneWay (ascii "A") (ascii "primary") ⟨0, 0⟩

/-- A later one: the node has moved, the way has another name and another tag. -/
def laterExport : RegionBundle Text := oneWay (ascii "B") (ascii "secondary") ⟨1, 1⟩

/-- A later export of a wider region: what the first one has, another node and another
way. -/
def widerExport : RegionBundle Text where
  rows := fun t => if t = .ways then some [⟨7, ascii "A"⟩, ⟨8, ascii "B"⟩] else none
  tags := fun t => if t = .ways then some [⟨7, ascii "highway", ascii "primary"⟩,
    ⟨8, ascii "highway", ascii "secondary"⟩] else none
  nodes := some ⟨[⟨1, ⟨0, 0⟩⟩, ⟨2, ⟨1, 1⟩⟩], by decide⟩
  nodup := by
    intro t l h
    split at h
    · obtain rfl := Option.some.inj h
      decide
    · simp at h

/-- A target that holds a part of the bundle, and lacks the rest. -/
theorem refreshed_iff_wider : ∃ σ σ' : RegionalTarget Text,
    empty.install firstExport = some σ ∧ σ.install widerExport = some σ'
      ∧ Refreshed widerExport σ' := by
  refine ⟨_, _, rfl, rfl, (refreshed_iff
    (Reached.install (b := firstExport) .empty rfl) rfl).mpr
    ⟨fun m n hm hn rec hrec c hc => ?_, fun t r hr q hq hid => ?_⟩⟩
  · obtain rfl := Option.some.inj hm
    obtain rfl := Option.some.inj hn
    have hrecord : rec = ⟨1, ⟨0, 0⟩⟩ ∨ rec = ⟨2, ⟨1, 1⟩⟩ := by simpa using hrec
    rcases hrecord with rfl | rfl
    · exact (Option.some.inj hc).symm
    · exact nomatch hc
  · by_cases ht : t = .ways
    · subst ht
      obtain rfl : q = ⟨7, ascii "A"⟩ := List.mem_singleton.mp hq
      have hrow : r = ⟨7, ascii "A"⟩ ∨ r = ⟨8, ascii "B"⟩ := by
        simpa [RegionBundle.rowList, widerExport] using hr
      rcases hrow with rfl | rfl
      · exact ⟨rfl, List.Perm.refl _⟩
      · exact absurd hid (by decide)
    · simp [RegionBundle.rowList, widerExport, ht] at hr

/-- **A reinstall refreshes nothing that is there already**: the node stays where
it was, the way keeps its name and its tag. -/
theorem reinstall_keeps_stale : ∃ σ σ' : RegionalTarget Text,
    empty.install firstExport = some σ ∧ σ.install laterExport = some σ'
      ∧ (σ'.nodes.bind fun n => n.select 1) = some ⟨0, 0⟩
      ∧ σ'.tables.rows .ways = [⟨7, ascii "A"⟩]
      ∧ σ'.tables.tags .ways = [⟨7, ascii "highway", ascii "primary"⟩]
      ∧ ¬ Refreshed laterExport σ' := by
  refine ⟨_, _, rfl, rfl, ?_, rfl, rfl, fun h => ?_⟩
  · refine (RegionalNodeMap.select_merge ..).trans ?_
    decide
  · have hrow := h.rows .ways ⟨7, ascii "B"⟩ (List.mem_singleton_self _)
    exact absurd hrow (by decide)

end RegionalTarget

end Gpsxdb
