import Mathlib.Tactic
import Gpsxdb.Library.Windows
import Gpsxdb.Export.ExactFilter
import Gpsxdb.Regional.ScriptSpec

/-!
Export and then install, as a restriction of the master to a region.

* `selectedRows`, `selectedTags`, `selectedAirportTags`: what a region is to get;
* `perm_rowList_files`, `rowList_of_reordered`: what is in the files of a bundle;
  `bins_of_export`: for the big tables it is what `processPair` leaves;
* `Restores`: a target holds exactly what is selected;
* `restores_iff`: **an export followed by an install on an empty target restores the
  region exactly where** no route and no flight restriction is selected, no tagged ident
  belongs to two selected airports, and no selected tile is lost between the parts.
-/

namespace Gpsxdb

variable {C : Type} {α : Type*}

namespace RegionExport

variable (cfg : RegionExport C)

/-! ### What a region is to get -/

/-- Whether a row is selected: by its own geometry, by that of its airport, or, in the
global tables, always. -/
def selects : MasterTable → Row C → Bool
  | .countries, _ => true
  | .regions, _ => true
  | .frequencies, r => hasKey Row.id cfg.airportsInside (cfg.columns.airport_ref r.content)
  | .runways, r => hasKey Row.id cfg.airportsInside (cfg.columns.airport_ref r.content)
  | t, r => cfg.intersects t r

/-- The rows of the master that are selected. -/
def selectedRows (t : MasterTable) : List (Row C) := (cfg.master.rows t).filter (cfg.selects t)

/-- The tag rows of selected rows. -/
def selectedTags (t : OsmTable) : List TagRecord :=
  (cfg.master.tags t).filter fun g => hasKey Row.id (cfg.selectedRows (.osm t)) g.id

/-- The tag rows of selected airports. -/
def selectedAirportTags : List AirportTag :=
  cfg.master.airport_tags.filter fun g =>
    (cfg.selectedRows .airports).any fun a => cfg.columns.ident a.content = g.airport_ident

/-- A target holds exactly what is selected, each row once. -/
structure Restores (d : RegionTables C) : Prop where
  rows : ∀ t, (d.rows t).Perm (cfg.selectedRows t)
  tags : ∀ t, (d.tags t).Perm (cfg.selectedTags t)
  airport_tags : d.airport_tags.Perm cfg.selectedAirportTags

/-- Where an export and an install restore a region. -/
structure Restorable : Prop where
  no_route : cfg.selectedRows .military_training_routes = []
  no_tfr : cfg.selectedRows .national_defense_tfr = []
  tiles : ∀ r ∈ cfg.selectedRows .terrain, 0 ≤ r.id ∨ cfg.nthreads ∣ r.id
  idents : ∀ g ∈ cfg.master.airport_tags,
    ((cfg.selectedRows .airports).countP fun a => cfg.columns.ident a.content = g.airport_ident)
      ≤ 1

/-! ### The files -/

variable {cfg}

lemma nthreads_pos : 0 < cfg.nthreads := by
  rw [nthreads]
  omega

/-- A row of `terrain` is in a part where its remainder is not negative. -/
lemma tmod_eq_iff {id n : ℤ} (hn : 0 < n) : (∃ k < n.toNat, id.tmod n = k) ↔ 0 ≤ id ∨ n ∣ id := by
  constructor
  · rintro ⟨k, -, hk⟩
    by_contra hneg
    push Not at hneg
    obtain ⟨hid, hdvd⟩ := hneg
    have hle : 0 ≤ (-id).tmod n := Int.tmod_nonneg n (by omega)
    rw [Int.neg_tmod] at hle
    exact hdvd (Int.dvd_of_tmod_eq_zero (by omega))
  · intro h
    have hrange : 0 ≤ id.tmod n ∧ id.tmod n < n := by
      cases h with
      | inl hid => exact ⟨Int.tmod_nonneg n hid, Int.tmod_lt_of_pos id hn⟩
      | inr hdvd =>
          rw [Int.tmod_eq_zero_of_dvd hdvd]
          exact ⟨le_rfl, hn⟩
    exact ⟨(id.tmod n).toNat, by omega, by omega⟩

/-- The parts of `terrain` together. -/
lemma perm_copyOutTerrainParallel (rows : List (Row C)) :
    (cfg.copyOutTerrainParallel rows).Perm
      (rows.filter fun r => 0 ≤ r.id ∨ cfg.nthreads ∣ r.id) := by
  have hn : 0 < cfg.nthreads := nthreads_pos
  have hpart : cfg.copyOutTerrainParallel rows = (List.range cfg.nthreads.toNat).flatMap fun k =>
      (rows.filter fun r => 0 ≤ r.id ∨ cfg.nthreads ∣ r.id).filter
        fun r => (r.id.tmod cfg.nthreads).toNat = k := by
    rw [copyOutTerrainParallel]
    refine List.flatMap_congr fun k hk => ?_
    rw [List.filter_filter]
    refine List.filter_congr fun r _ => ?_
    rw [Bool.eq_iff_iff, Bool.and_eq_true, decide_eq_true_eq, decide_eq_true_eq,
      decide_eq_true_eq]
    constructor
    · intro h
      exact ⟨by omega, (tmod_eq_iff hn).mp ⟨k, List.mem_range.mp hk, h⟩⟩
    · rintro ⟨h, hin⟩
      obtain ⟨j, -, hj⟩ := (tmod_eq_iff hn).mpr hin
      omega
  rw [hpart]
  refine perm_flatMap_filter_index fun r hr => ?_
  have hin := of_decide_eq_true (List.mem_filter.mp hr).2
  obtain ⟨j, hj, hmod⟩ := (tmod_eq_iff hn).mpr hin
  omega

lemma airportsInside_nodup : (cfg.airportsInside.map Row.id).Nodup :=
  ((List.filter_sublist).map Row.id).nodup (cfg.nodup .airports)

/-- The join with the airports is a filter, since their ids are distinct. -/
lemma select_ofAirport (t : MasterTable) : cfg.select t .ofAirport
    = (cfg.master.rows t).filter fun r =>
      hasKey Row.id cfg.airportsInside (cfg.columns.airport_ref r.content) :=
  joinOn_eq_filter _ airportsInside_nodup

/-- **What is in the file of a table**: what is selected, but for the tiles between the
parts of `terrain`. -/
lemma perm_rowList_files (t : MasterTable) : (cfg.files.rowList t).Perm
    ((cfg.selectedRows t).filter
      fun r => t ≠ .terrain ∨ 0 ≤ r.id ∨ cfg.nthreads ∣ r.id) := by
  have hall : ∀ l : List (Row C), t ≠ .terrain →
      (l.filter fun r => t ≠ .terrain ∨ 0 ≤ r.id ∨ cfg.nthreads ∣ r.id) = l := fun l ht =>
    List.filter_eq_self.mpr fun r _ => by simp [ht]
  cases t with
  | osm t =>
      rw [hall _ (by simp), TableBundle.rowList, files]
      cases h : cfg.master.rows (.osm t) with
      | nil => simp [selectedRows, h]
      | cons r rows => exact .of_eq (by simp [bigRows, selectedRows, h]; rfl)
  | terrain =>
      refine (perm_copyOutTerrainParallel _).trans (.of_eq (List.filter_congr fun r _ => ?_))
      simp
  | frequencies =>
      rw [hall _ (by simp)]
      exact .of_eq (select_ofAirport _)
  | runways =>
      rw [hall _ (by simp)]
      exact .of_eq (select_ofAirport _)
  | countries =>
      rw [hall _ (by simp)]
      exact .of_eq (List.filter_eq_self.mpr fun _ _ => rfl).symm
  | regions =>
      rw [hall _ (by simp)]
      exact .of_eq (List.filter_eq_self.mpr fun _ _ => rfl).symm
  | _ =>
      rw [hall _ (by simp)]
      exact List.Perm.refl _

lemma tagList_files (t : OsmTable) : cfg.files.tagList t = cfg.selectedTags t := by
  show (if (cfg.master.rows (.osm t)).isEmpty then none else some (cfg.bigTags t)).getD []
    = cfg.bigTags t
  cases h : cfg.master.rows (.osm t) with
  | nil => simp [bigTags, bigRows, h, hasKey]
  | cons r rows => rfl

/-! ### What `processPair` leaves -/

open PairExport (copyBinary) in
/-- A `.bin` is the `COPY` of some rows, in any order. -/
def CopyOf (copy : α → CopyRow) (bytes : List UInt8) (rows : List α) : Prop :=
  ∃ written : List CopyRow, written.Perm (rows.map copy)
    ∧ bytes = copyBinary (written.map CopyRow.raw)

/-- **The files of a big table are what `processPair` leaves**, where the rows it reads
are those of the master and its polygon test is the test of the region. -/
theorem bins_of_export {G : Type} {pair : PairExport G} (hregions : pair.regions.length ≤ 32)
    (honly : pair.extra_vertices_only = false) {t : OsmTable} {copyRow : Row C → CopyRow}
    {copyTag : TagRecord → CopyRow} (hrow : ∀ r, (copyRow r).id = r.id)
    (htag : ∀ g, (copyTag g).id = g.id)
    (hparent : pair.parent.rows = (cfg.master.rows (.osm t)).map copyRow)
    (hchild : pair.child.rows = (cfg.master.tags t).map copyTag) {ri : ℕ}
    (hri : ri < pair.regions.length)
    (hmatches : ∀ r, pair.rowMatches (copyRow r) ri = cfg.intersects (.osm t) r)
    {d d' : ExportDir} (hfresh : pair.Fresh d) {schedule schedule' : List (Fin pair.nthreads)}
    (h : pair.processPair d schedule schedule' = some d') :
    Option.Rel (CopyOf copyRow) (d'.parent_bin ri) (cfg.files.rows (.osm t))
      ∧ Option.Rel (CopyOf copyTag) (d'.child_bin ri) (cfg.files.tags t) := by
  have hparents : pair.matchingParents ri = (cfg.bigRows t).map copyRow := by
    rw [PairExport.matchingParents, hparent, List.filter_map, bigRows]
    congr 1
    exact List.filter_congr fun r _ => hmatches r
  have hchildren : pair.matchingChildren ri = (cfg.bigTags t).map copyTag := by
    rw [PairExport.matchingChildren, hchild, List.filter_map, bigTags]
    congr 1
    refine List.filter_congr fun g _ => ?_
    rw [Function.comp_apply, Bool.eq_iff_iff, decide_eq_true_eq, hasKey_iff,
      PairExport.idMatches, hparent, htag]
    constructor
    · rintro ⟨q, hq, hid, hmatch⟩
      obtain ⟨r, hr, rfl⟩ := List.mem_map.mp hq
      exact ⟨r, List.mem_filter.mpr ⟨hr, (hmatches r).symm.trans hmatch⟩, (hrow r).symm.trans hid⟩
    · rintro ⟨r, hr, hid⟩
      obtain ⟨hr, hmatch⟩ := List.mem_filter.mp hr
      exact ⟨copyRow r, List.mem_map_of_mem hr, (hrow r).trans hid, (hmatches r).trans hmatch⟩
  obtain ⟨hrows, htags⟩ := PairExport.bins_of_processPair hregions honly hfresh h hri
  obtain ⟨hsome, hsome'⟩ := PairExport.bins_isSome_of_processPair honly hfresh h hri
  rw [hparents] at hrows
  rw [hchildren] at htags
  rw [hparent, ne_eq, List.map_eq_nil_iff] at hsome hsome'
  have hempty : (cfg.master.rows (.osm t)).isEmpty = true ↔ cfg.master.rows (.osm t) = [] :=
    List.isEmpty_iff
  have hfiles : cfg.files.rows (.osm t)
      = if (cfg.master.rows (.osm t)).isEmpty then none else some (cfg.bigRows t) := rfl
  have hfiles' : cfg.files.tags t
      = if (cfg.master.rows (.osm t)).isEmpty then none else some (cfg.bigTags t) := rfl
  rw [hfiles, hfiles']
  cases hp : d'.parent_bin ri with
  | none =>
      have hnil : cfg.master.rows (.osm t) = [] := by simpa [hp] using hsome
      have hnone : d'.child_bin ri = none := by simpa [hnil] using hsome'
      rw [hnone, if_pos (hempty.mpr hnil), if_pos (hempty.mpr hnil)]
      exact ⟨.none, .none⟩
  | some bytes =>
      have hne : cfg.master.rows (.osm t) ≠ [] := hsome.mp (by rw [hp]; rfl)
      obtain ⟨bytes', hc⟩ := Option.isSome_iff_exists.mp (hsome'.mpr hne)
      rw [hp] at hrows
      rw [hc] at htags ⊢
      rw [if_neg fun h => hne (hempty.mp h), if_neg fun h => hne (hempty.mp h)]
      exact ⟨.some hrows, .some htags⟩

/-! ### The install -/

variable {b : TableBundle C}

lemma perm_getD {l l' : Option (List α)} (h : Option.Rel List.Perm l l') :
    (l.getD []).Perm (l'.getD []) := by
  cases h with
  | some h => exact h
  | none => exact List.Perm.refl _

lemma isSome_of_rel {l l' : Option (List α)} (h : Option.Rel List.Perm l l') :
    l.isSome = l'.isSome := by
  cases h <;> rfl

/-- A bundle has every key once. -/
lemma keyed_of_reordered (hb : b.Reordered cfg.files) : b.Keyed := by
  intro t
  have hperm := (perm_getD (hb.rows t)).trans (perm_rowList_files t)
  refine (hperm.map Row.id).nodup_iff.mpr ?_
  exact ((List.filter_sublist.trans List.filter_sublist).map Row.id).nodup (cfg.nodup t)

/-- Its tag files come with their parents. -/
lemma complete_of_reordered (hb : b.Reordered cfg.files) : b.Complete := by
  refine ⟨fun t ht => ?_, fun _ => ?_⟩
  · rw [isSome_of_rel (hb.tags t)] at ht
    rw [isSome_of_rel (hb.rows (.osm t))]
    have hrows : cfg.files.rows (.osm t)
        = if (cfg.master.rows (.osm t)).isEmpty then none else some (cfg.bigRows t) := rfl
    have htags : cfg.files.tags t
        = if (cfg.master.rows (.osm t)).isEmpty then none else some (cfg.bigTags t) := rfl
    rw [htags] at ht
    rw [hrows]
    split
    · rw [if_pos ‹_›] at ht
      exact ht
    · rfl
  · rw [isSome_of_rel (hb.rows .airports)]
    rfl

lemma addedRows_empty (b : TableBundle C) (t : MasterTable) :
    InstallScript.addedRows b .empty t = b.rowList t := by
  refine List.filter_eq_self.mpr fun r _ => ?_
  simp [RegionTables.empty, hasKey]

/-- **What an install on an empty target leaves.** -/
lemma run_empty_spec (hb : b.Reordered cfg.files) {d : RegionTables C}
    (h : InstallScript.run cfg.columns b .empty = some d) :
    (∀ t, (d.rows t).Perm (if t ∈ InstallScript.parentTables then
        (cfg.selectedRows t).filter fun r => t ≠ .terrain ∨ 0 ≤ r.id ∨ cfg.nthreads ∣ r.id
      else []))
      ∧ (∀ t, (d.tags t).Perm (cfg.selectedTags t))
      ∧ d.airport_tags.Perm (joinOn AirportTag.airport_ident
        (fun a : Row C => cfg.columns.ident a.content)
        (joinOn AirportTag.airport_ident (fun a : Row C => cfg.columns.ident a.content)
          cfg.master.airport_tags (cfg.selectedRows .airports)) (cfg.selectedRows .airports)) := by
  obtain ⟨hrows, htags, hair⟩ := InstallScript.run_spec (keyed_of_reordered hb) h
  have hfile : ∀ t, (b.rowList t).Perm
      ((cfg.selectedRows t).filter fun r => t ≠ .terrain ∨ 0 ≤ r.id ∨ cfg.nthreads ∣ r.id) :=
    fun t => (perm_getD (hb.rows t)).trans (perm_rowList_files t)
  have hwhole : ∀ t, t ≠ .terrain → (b.rowList t).Perm (cfg.selectedRows t) := by
    intro t ht
    refine (hfile t).trans (.of_eq (List.filter_eq_self.mpr fun r _ => ?_))
    simp [ht]
  refine ⟨fun t => ?_, fun t => ?_, ?_⟩
  · rw [hrows]
    split
    · rw [addedRows_empty]
      exact hfile t
    · exact List.Perm.refl _
  · -- every exported tag row is one of an exported row
    rw [htags, addedRows_empty]
    refine ((perm_getD (hb.tags t)).filter _).trans (.of_eq ?_)
    refine (congrArg (List.filter _) (tagList_files t)).trans (List.filter_eq_self.mpr ?_)
    intro g hg
    obtain ⟨r, hr, hid⟩ := hasKey_iff.mp (List.mem_filter.mp hg).2
    exact hasKey_iff.mpr ⟨r, (hwhole (.osm t) (by simp)).mem_iff.mpr hr, hid⟩
  · rw [hair, addedRows_empty]
    exact joinOn_perm (perm_getD hb.airport_tags) (hwhole .airports (by simp))

/-- **When an export and an install restore a region.** -/
theorem restores_iff (cfg : RegionExport C) (hb : b.Reordered cfg.files) :
    (∃ d, InstallScript.run cfg.columns b .empty = some d ∧ cfg.Restores d) ↔ cfg.Restorable := by
  obtain ⟨d, hd⟩ := Option.isSome_iff_exists.mp
    ((InstallScript.run_isSome_iff cfg.columns .empty (keyed_of_reordered hb)).mpr
      (complete_of_reordered hb))
  obtain ⟨hrows, htags, hair⟩ := run_empty_spec hb hd
  have hunique : (∃ d, InstallScript.run cfg.columns b .empty = some d ∧ cfg.Restores d)
      ↔ cfg.Restores d := by
    constructor
    · rintro ⟨d', hd', h⟩
      rw [hd] at hd'
      exact Option.some.inj hd' ▸ h
    · exact fun h => ⟨d, hd, h⟩
  have hmiss : ∀ t, t ∉ InstallScript.parentTables →
      ((d.rows t).Perm (cfg.selectedRows t) ↔ cfg.selectedRows t = []) := by
    intro t ht
    have hnil : d.rows t = [] := by
      have hperm := hrows t
      rw [if_neg ht] at hperm
      exact hperm.eq_nil
    rw [hnil]
    exact ⟨fun h => h.symm.eq_nil, fun h => .of_eq h.symm⟩
  have htags' := joinOn_joinOn_perm_filter_iff AirportTag.airport_ident
    (fun a : Row C => cfg.columns.ident a.content) cfg.master.airport_tags
    (cfg.selectedRows .airports)
  rw [hunique]
  constructor
  · intro h
    refine ⟨(hmiss _ (by decide)).mp (h.rows _), (hmiss _ (by decide)).mp (h.rows _), ?_, ?_⟩
    · have hperm := (hrows .terrain).symm.trans (h.rows .terrain)
      rw [if_pos (by decide)] at hperm
      have hself := List.length_filter_eq_length_iff.mp hperm.length_eq
      exact fun r hr => by simpa using hself r hr
    · exact htags'.mp (hair.symm.trans h.airport_tags)
  · rintro ⟨hroute, htfr, htiles, hidents⟩
    refine ⟨fun t => ?_, htags, hair.trans (htags'.mpr hidents)⟩
    by_cases ht : t ∈ InstallScript.parentTables
    · have hperm := hrows t
      rw [if_pos ht] at hperm
      refine hperm.trans (.of_eq (List.filter_eq_self.mpr fun r hr => ?_))
      cases decEq t .terrain with
      | isTrue htt =>
          subst htt
          simpa using htiles r hr
      | isFalse htt => simp [htt]
    · have hcase : t = .military_training_routes ∨ t = .national_defense_tfr := by
        revert ht
        cases t <;> (try cases ‹OsmTable›) <;> decide
      refine (hmiss t ht).mpr ?_
      cases hcase with
      | inl h => exact h ▸ hroute
      | inr h => exact h ▸ htfr

/-! ### Fixed masters -/

/-- A master with one tagged airport. -/
def oneAirport : RegionExport Text where
  master :=
    { rows := fun t => if t = .airports then [⟨1, ascii "KSEA"⟩] else []
      tags := fun _ => []
      airport_tags := [⟨ascii "KSEA", ascii "airport", ascii "keyword", none⟩] }
  nodup := by
    intro t
    dsimp only
    split
    · exact List.nodup_singleton _
    · exact List.nodup_nil
  columns := ⟨id, fun _ => 0⟩
  intersects _ _ := true
  threads := 4

theorem restores_iff_airport : ∃ d,
    InstallScript.run oneAirport.columns oneAirport.files .empty = some d
      ∧ oneAirport.Restores d :=
  (restores_iff oneAirport (.refl _)).mpr
    ⟨by decide, by decide, by decide, by decide⟩

/-- A master with one military training route. -/
def oneRoute : RegionExport Text where
  master :=
    { rows := fun t => if t = .military_training_routes then [⟨1, ascii "VR-1355"⟩] else []
      tags := fun _ => []
      airport_tags := [] }
  nodup := by
    intro t
    dsimp only
    split
    · exact List.nodup_singleton _
    · exact List.nodup_nil
  columns := ⟨id, fun _ => 0⟩
  intersects _ _ := true
  threads := 4

/-- **An exported table that nothing installs**: the route is in the bundle, and no
install brings it to the target. -/
theorem route_not_installed :
    oneRoute.files.rows .military_training_routes = some [⟨1, ascii "VR-1355"⟩]
      ∧ ¬ ∃ d, InstallScript.run oneRoute.columns oneRoute.files .empty = some d
        ∧ oneRoute.Restores d := by
  refine ⟨by decide, ?_⟩
  rintro ⟨d, hd, h⟩
  have hperm := (run_empty_spec (.refl _) hd).1 .military_training_routes
  rw [if_neg (by decide)] at hperm
  have hrows := hperm.symm.trans (h.rows .military_training_routes)
  exact absurd hrows.symm.eq_nil (by decide)

end RegionExport

end Gpsxdb
