import Mathlib.Tactic
import Gpsxdb.Regional.Restriction

/-!
Installing bundles is a union.

* `Snapshot`, `Snapshot.Cut`: a master at one moment, and the bundles cut from it;
  `cut_of_export`: those of the exporter are;
* `Holds`: a target holds exactly the rows of some bundles and, for each of them, the
  tag rows of the master; `holds_run`: one more bundle;
* `run_of_covered`: a bundle whose rows are there already changes nothing;
* `install_union`: **any bundles, in any order and with any repetitions**.
-/

namespace Gpsxdb

open InstallScript (addedRows parentTables)

variable {C : Type}

/-- A master at one moment: its ids and the idents of its airports are unique. -/
structure Snapshot (C : Type) where
  tables : RegionTables C
  columns : AirportColumns C
  nodup_ids : ∀ t, ((tables.rows t).map Row.id).Nodup
  nodup_idents : ((tables.rows .airports).map fun a => columns.ident a.content).Nodup

/-- The same rows in all tables, in any order. -/
structure RegionTables.Same (d d' : RegionTables C) : Prop where
  rows : ∀ t, (d.rows t).Perm (d'.rows t)
  tags : ∀ t, (d.tags t).Perm (d'.tags t)
  airport_tags : d.airport_tags.Perm d'.airport_tags

/-- Installs one after the other, as long as they go through. -/
def installAll (columns : AirportColumns C) (bs : List (TableBundle C)) (d : RegionTables C) :
    Option (RegionTables C) :=
  bs.foldlM (fun d b => InstallScript.run columns b d) d

namespace Snapshot

variable {s : Snapshot C} {b : TableBundle C} {bs : List (TableBundle C)} {d d' : RegionTables C}

/-- A bundle cut from a snapshot: its rows are rows of the snapshot, each id once, and
its tag files hold all tag rows of these. -/
structure Cut (s : Snapshot C) (b : TableBundle C) : Prop where
  keyed : b.Keyed
  complete : b.Complete
  rows : ∀ t, ∀ r ∈ b.rowList t, r ∈ s.tables.rows t
  tags : ∀ t, ∀ r ∈ b.rowList (.osm t), ((b.tagList t).filter fun g => g.id = r.id).Perm
    ((s.tables.tags t).filter fun g => g.id = r.id)
  airport_tags : ∀ a ∈ b.rowList .airports,
    (b.airportTagList.filter fun g => g.airport_ident = s.columns.ident a.content).Perm
      (s.tables.airport_tags.filter fun g => g.airport_ident = s.columns.ident a.content)

/-- Some airport among the rows has the ident. -/
def hasIdent (s : Snapshot C) (rows : List (Row C)) (ident : Text) : Bool :=
  rows.any fun a => s.columns.ident a.content = ident

/-- A target holds what some bundles of a snapshot hold. -/
structure Holds (s : Snapshot C) (bs : List (TableBundle C)) (d : RegionTables C) : Prop where
  nodup : ∀ t, ((d.rows t).map Row.id).Nodup
  rows : ∀ t r, r ∈ d.rows t ↔ t ∈ parentTables ∧ ∃ b ∈ bs, r ∈ b.rowList t
  tags : ∀ t, (d.tags t).Perm
    ((s.tables.tags t).filter fun g => hasKey Row.id (d.rows (.osm t)) g.id)
  airport_tags : d.airport_tags.Perm
    (s.tables.airport_tags.filter fun g => s.hasIdent (d.rows .airports) g.airport_ident)

lemma holds_empty (s : Snapshot C) : s.Holds [] .empty :=
  ⟨fun _ => List.nodup_nil, by simp [RegionTables.empty], by simp [RegionTables.empty, hasKey],
    by simp [RegionTables.empty, hasIdent]⟩

/-- What a target holds are rows of the snapshot. -/
lemma Holds.mem_master (h : s.Holds bs d) (hbs : ∀ b ∈ bs, s.Cut b) {t : MasterTable} {r : Row C}
    (hr : r ∈ d.rows t) : r ∈ s.tables.rows t := by
  obtain ⟨-, b, hb, hr⟩ := (h.rows t r).mp hr
  exact (hbs b hb).rows t r hr

/-- A row of a bundle is new, or there as it is. -/
lemma mem_or_new (h : s.Holds bs d) (hbs : ∀ b ∈ bs, s.Cut b) (hb : s.Cut b) {t : MasterTable}
    {r : Row C} (hr : r ∈ b.rowList t) : r ∈ d.rows t ∨ r ∈ addedRows b d t := by
  by_cases hnew : ∀ q ∈ d.rows t, q.id ≠ r.id
  · exact Or.inr (InstallScript.mem_addedRows.mpr ⟨hr, hnew⟩)
  · push Not at hnew
    obtain ⟨q, hq, hid⟩ := hnew
    have hqr := List.inj_on_of_nodup_map (s.nodup_ids t) (h.mem_master hbs hq) (hb.rows t r hr) hid
    exact Or.inl (hqr ▸ hq)

/-- The tag rows that come with the new rows are those of the snapshot. -/
lemma perm_new_tags (hb : s.Cut b) (d : RegionTables C) (t : OsmTable) :
    ((b.tagList t).filter fun g => hasKey Row.id (addedRows b d (.osm t)) g.id).Perm
      ((s.tables.tags t).filter fun g => hasKey Row.id (addedRows b d (.osm t)) g.id) := by
  refine perm_filter_of_keys (k := TagRecord.id) fun id hid => ?_
  obtain ⟨r, hr, rfl⟩ := hasKey_iff.mp hid
  exact hb.tags t r (InstallScript.mem_addedRows.mp hr).1

/-- So are those that come with the new airports. -/
lemma perm_new_airport_tags (hb : s.Cut b) (d : RegionTables C) :
    (joinOn AirportTag.airport_ident (fun a : Row C => s.columns.ident a.content) b.airportTagList
        (addedRows b d .airports)).Perm
      (s.tables.airport_tags.filter fun g =>
        s.hasIdent (addedRows b d .airports) g.airport_ident) := by
  have hsub : (addedRows b d .airports).map (fun a => s.columns.ident a.content)
      |>.Nodup := by
    refine List.Nodup.map_on (fun a ha a' ha' hident => ?_)
      (InstallScript.addedRows_nodup hb.keyed d .airports).of_map
    have hmem := hb.rows .airports a (InstallScript.mem_addedRows.mp ha).1
    have hmem' := hb.rows .airports a' (InstallScript.mem_addedRows.mp ha').1
    exact List.inj_on_of_nodup_map s.nodup_idents hmem hmem' hident
  rw [joinOn_eq_filter _ hsub]
  refine perm_filter_of_keys (k := AirportTag.airport_ident)
    (p := s.hasIdent (addedRows b d .airports)) fun ident hident => ?_
  obtain ⟨a, ha, hident⟩ := List.any_eq_true.mp hident
  rw [← of_decide_eq_true hident]
  exact hb.airport_tags a (InstallScript.mem_addedRows.mp ha).1

/-- **One more bundle.** -/
theorem holds_run (h : s.Holds bs d) (hbs : ∀ b ∈ bs, s.Cut b) (hb : s.Cut b)
    (hrun : InstallScript.run s.columns b d = some d') : s.Holds (bs ++ [b]) d' := by
  obtain ⟨hrows, htags, hair⟩ := InstallScript.run_spec hb.keyed hrun
  have hosm : ∀ t, MasterTable.osm t ∈ parentTables := by
    intro t
    cases t <;> decide
  refine ⟨fun t => ?_, fun t r => ?_, fun t => ?_, ?_⟩
  · rw [hrows]
    split
    · refine nodup_append_new (h.nodup t) (InstallScript.addedRows_nodup hb.keyed d t)
        fun r hr => ?_
      exact hasKey_eq_false.mpr (InstallScript.mem_addedRows.mp hr).2
    · rw [List.append_nil]
      exact h.nodup t
  · have hold := h.rows t r
    have hcase := fun hr => mem_or_new h hbs hb (t := t) (r := r) hr
    have hnew : r ∈ addedRows b d t → r ∈ b.rowList t := fun hr =>
      (InstallScript.mem_addedRows.mp hr).1
    rw [hrows, List.mem_append]
    constructor
    · rintro (hr | hr)
      · obtain ⟨ht, b', hb', hr⟩ := hold.mp hr
        exact ⟨ht, b', List.mem_append_left _ hb', hr⟩
      · split at hr
        · exact ⟨‹_›, b, by simp, hnew hr⟩
        · simp at hr
    · rintro ⟨ht, b', hb', hr⟩
      rw [if_pos ht]
      cases List.mem_append.mp hb' with
      | inl hb' => exact Or.inl (hold.mpr ⟨ht, b', hb', hr⟩)
      | inr hb' =>
          obtain rfl := List.mem_singleton.mp hb'
          exact hcase hr
  · have hdisjoint : ∀ g ∈ s.tables.tags t, hasKey Row.id (d.rows (.osm t)) g.id = true →
        hasKey Row.id (addedRows b d (.osm t)) g.id = false := by
      intro g _ hg
      obtain ⟨q, hq, hid⟩ := hasKey_iff.mp hg
      exact hasKey_eq_false.mpr fun r hr hrid =>
        (InstallScript.mem_addedRows.mp hr).2 q hq (hid.trans hrid.symm)
    rw [htags, hrows, if_pos (hosm t)]
    refine ((h.tags t).append (perm_new_tags hb d t)).trans
      ((perm_filter_append hdisjoint).trans (.of_eq (List.filter_congr fun g _ => ?_)))
    rw [hasKey, hasKey, hasKey, List.any_append]
  · have hmaster : ∀ r ∈ addedRows b d .airports, r ∈ s.tables.rows .airports := fun r hr =>
      hb.rows _ r (InstallScript.mem_addedRows.mp hr).1
    have hdisjoint : ∀ g ∈ s.tables.airport_tags,
        s.hasIdent (d.rows .airports) g.airport_ident = true →
        s.hasIdent (addedRows b d .airports) g.airport_ident = false := by
      intro g _ hg
      obtain ⟨q, hq, hident⟩ := List.any_eq_true.mp hg
      refine List.any_eq_false.mpr fun r hr hrident => ?_
      have hqr := List.inj_on_of_nodup_map s.nodup_idents (h.mem_master hbs hq) (hmaster r hr)
        ((of_decide_eq_true hident).trans (of_decide_eq_true hrident).symm)
      exact (InstallScript.mem_addedRows.mp hr).2 q hq (hqr ▸ rfl)
    rw [hair, hrows, if_pos (by decide)]
    refine (h.airport_tags.append (perm_new_airport_tags hb d)).trans
      ((perm_filter_append hdisjoint).trans (.of_eq (List.filter_congr fun g _ => ?_)))
    rw [hasIdent, hasIdent, hasIdent, List.any_append]

/-- The installs go through, and the target holds what the bundles hold. -/
theorem holds_installAll (h : s.Holds bs d) (hbs : ∀ b ∈ bs, s.Cut b)
    {bs' : List (TableBundle C)} (hbs' : ∀ b ∈ bs', s.Cut b) :
    ∃ d', installAll s.columns bs' d = some d' ∧ s.Holds (bs ++ bs') d' := by
  induction bs' generalizing bs d with
  | nil => exact ⟨d, rfl, by rwa [List.append_nil]⟩
  | cons b bs' ih =>
      obtain ⟨hb, hbs'⟩ := List.forall_mem_cons.mp hbs'
      obtain ⟨u, hu⟩ := Option.isSome_iff_exists.mp
        ((InstallScript.run_isSome_iff s.columns d hb.keyed).mpr hb.complete)
      have hall : ∀ b' ∈ bs ++ [b], s.Cut b' := by
        intro b' hb'
        cases List.mem_append.mp hb' with
        | inl hb' => exact hbs b' hb'
        | inr hb' => exact List.mem_singleton.mp hb' ▸ hb
      obtain ⟨d', hd', hholds⟩ := ih (holds_run h hbs hb hu) hall hbs'
      refine ⟨d', ?_, by simpa using hholds⟩
      rw [installAll, foldlM_cons_of_step hu]
      exact hd'

/-- **A bundle that is covered changes nothing.** -/
theorem run_of_covered (hb : s.Cut b)
    (hcovered : ∀ t ∈ parentTables, ∀ r ∈ b.rowList t, r ∈ d.rows t) :
    InstallScript.run s.columns b d = some d := by
  obtain ⟨d', hd'⟩ := Option.isSome_iff_exists.mp
    ((InstallScript.run_isSome_iff s.columns d hb.keyed).mpr hb.complete)
  obtain ⟨hrows, htags, hair⟩ := InstallScript.run_spec hb.keyed hd'
  have hnone : ∀ t ∈ parentTables, addedRows b d t = [] := by
    intro t ht
    refine List.eq_nil_iff_forall_not_mem.mpr fun r hr => ?_
    obtain ⟨hr, hnew⟩ := InstallScript.mem_addedRows.mp hr
    exact hnew r (hcovered t ht r hr) rfl
  have hosm : ∀ t, addedRows b d (.osm t) = [] := fun t => hnone _ (by cases t <;> decide)
  have hrows' : d'.rows = d.rows := by
    funext t
    rw [hrows]
    split
    · rw [hnone t ‹_›, List.append_nil]
    · rw [List.append_nil]
  have htags' : d'.tags = d.tags := by
    funext t
    rw [htags, hosm]
    simp [hasKey]
  have hair' : d'.airport_tags = d.airport_tags := by
    rw [hair, hnone _ (by decide), joinOn_nil_right, List.append_nil]
  have hsame : d' = d := by
    cases d
    cases d'
    simp_all
  rw [hd', hsame]

/-! ### The bundles of the exporter -/

/-- **A bundle of the exporter is cut from its master**, if the idents are unique. -/
theorem cut_of_export {cfg : RegionExport C} (hmaster : cfg.master = s.tables)
    (hcolumns : cfg.columns = s.columns) (hb : b.Reordered cfg.files) : s.Cut b := by
  have hsub : ∀ t, ∀ r ∈ b.rowList t, r ∈ cfg.selectedRows t := fun t r hr =>
    List.mem_of_mem_filter (((RegionExport.perm_getD (hb.rows t)).trans
      (RegionExport.perm_rowList_files t)).mem_iff.mp hr)
  refine ⟨RegionExport.keyed_of_reordered hb, RegionExport.complete_of_reordered hb,
    fun t r hr => ?_, fun t r hr => ?_, fun a ha => ?_⟩
  · rw [← hmaster]
    exact List.mem_of_mem_filter (hsub t r hr)
  · have hperm := RegionExport.perm_getD (hb.tags t)
    have hfile : (cfg.files.tags t).getD [] = cfg.selectedTags t := RegionExport.tagList_files t
    rw [hfile] at hperm
    refine (hperm.filter _).trans (.of_eq ?_)
    rw [RegionExport.selectedTags, List.filter_filter, hmaster]
    refine List.filter_congr fun g _ => ?_
    have hkey : g.id = r.id → hasKey Row.id (cfg.selectedRows (.osm t)) g.id = true := fun hid =>
      hasKey_iff.mpr ⟨r, hsub _ r hr, hid.symm⟩
    rw [Bool.eq_iff_iff, Bool.and_eq_true, decide_eq_true_eq]
    exact ⟨fun h => h.1, fun h => ⟨h, hkey h⟩⟩
  · have hnodup : (cfg.airportsInside.map fun a => cfg.columns.ident a.content).Nodup := by
      have hall := s.nodup_idents
      rw [← hmaster, ← hcolumns] at hall
      exact ((List.filter_sublist).map _).nodup hall
    have hfile : (cfg.files.airport_tags).getD [] = cfg.selectedAirportTags :=
      joinOn_eq_filter _ hnodup
    have hperm := RegionExport.perm_getD hb.airport_tags
    rw [hfile] at hperm
    refine (hperm.filter _).trans (.of_eq ?_)
    rw [RegionExport.selectedAirportTags, List.filter_filter, hmaster, hcolumns]
    refine List.filter_congr fun g _ => ?_
    have hin := hsub .airports a ha
    rw [Bool.eq_iff_iff, Bool.and_eq_true, decide_eq_true_eq, List.any_eq_true]
    exact ⟨fun h => h.1, fun h => ⟨h, a, hin, decide_eq_true h.symm⟩⟩

/-! ### The union -/

/-- What a target holds depends on the bundles alone, not on their order or number. -/
lemma Holds.same {bs' : List (TableBundle C)} (h : s.Holds bs d) (h' : s.Holds bs' d')
    (hsame : ∀ b, b ∈ bs' ↔ b ∈ bs) : d'.Same d := by
  have hmem : ∀ t r, r ∈ d'.rows t ↔ r ∈ d.rows t := by
    intro t r
    rw [h.rows, h'.rows]
    exact and_congr_right fun _ => exists_congr fun b => and_congr_left fun _ => hsame b
  refine ⟨fun t => ?_, fun t => ?_, ?_⟩
  · exact (List.perm_ext_iff_of_nodup (h'.nodup t).of_map (h.nodup t).of_map).mpr (hmem t)
  · refine (h'.tags t).trans ((List.Perm.of_eq ?_).trans (h.tags t).symm)
    refine List.filter_congr fun g _ => ?_
    rw [Bool.eq_iff_iff, hasKey_iff, hasKey_iff]
    exact exists_congr fun r => and_congr_left fun _ => hmem _ r
  · refine h'.airport_tags.trans ((List.Perm.of_eq ?_).trans h.airport_tags.symm)
    refine List.filter_congr fun g _ => ?_
    rw [Bool.eq_iff_iff, hasIdent, hasIdent, List.any_eq_true, List.any_eq_true]
    exact exists_congr fun r => and_congr_left fun _ => hmem _ r

/-- **Installing is a union.**  Bundles of one snapshot, installed on an empty target in
any order and with any repetitions, leave the union of their rows and, for each row,
exactly its tag rows; the order leaves no trace, and a bundle that is covered changes
nothing. -/
theorem install_union (s : Snapshot C) (hbs : ∀ b ∈ bs, s.Cut b) :
    ∃ d, installAll s.columns bs .empty = some d
      ∧ (∀ t ∈ parentTables, ((d.rows t).map Row.id).Nodup
        ∧ ∀ r, r ∈ d.rows t ↔ ∃ b ∈ bs, r ∈ b.rowList t)
      ∧ (∀ t, (d.tags t).Perm
        ((s.tables.tags t).filter fun g => hasKey Row.id (d.rows (.osm t)) g.id))
      ∧ d.airport_tags.Perm (s.tables.airport_tags.filter fun g =>
        s.hasIdent (d.rows .airports) g.airport_ident)
      ∧ (∀ bs', (∀ b, b ∈ bs' ↔ b ∈ bs) → ∃ d',
        installAll s.columns bs' .empty = some d' ∧ d'.Same d)
      ∧ ∀ b, s.Cut b → (∀ t ∈ parentTables, ∀ r ∈ b.rowList t, r ∈ d.rows t) →
        InstallScript.run s.columns b d = some d := by
  have hnone : ∀ b ∈ ([] : List (TableBundle C)), s.Cut b := by simp
  obtain ⟨d, hd, h⟩ := holds_installAll s.holds_empty hnone hbs
  refine ⟨d, hd, fun t ht => ⟨h.nodup t, fun r => ?_⟩, h.tags, h.airport_tags,
    fun bs' hsame => ?_, fun b hb hcovered => run_of_covered hb hcovered⟩
  · rw [h.rows]
    exact and_iff_right ht
  · obtain ⟨d', hd', h'⟩ := holds_installAll s.holds_empty hnone
      fun b hb => hbs b ((hsame b).mp hb)
    exact ⟨d', hd', h.same h' hsame⟩

/-- Three airports, of which the second lies in two regions. -/
def threeAirports : Snapshot Text where
  tables :=
    { rows := fun t => if t = .airports then
        [⟨1, ascii "KSEA"⟩, ⟨2, ascii "KPDX"⟩, ⟨3, ascii "KBOI"⟩] else []
      tags := fun _ => []
      airport_tags := [⟨ascii "KPDX", ascii "airport", ascii "keyword", none⟩] }
  columns := ⟨id, fun _ => 0⟩
  nodup_ids := by
    intro t
    dsimp only
    split <;> decide
  nodup_idents := by decide

/-- The export of the airports of a region. -/
def exportOf (inside : ℤ → Bool) : RegionExport Text where
  master := threeAirports.tables
  nodup := threeAirports.nodup_ids
  columns := threeAirports.columns
  intersects _ r := inside r.id
  threads := 1

theorem install_union_overlap : ∃ d,
    installAll threeAirports.columns
        [(exportOf (· ≤ 2)).files, (exportOf (2 ≤ ·)).files, (exportOf (· ≤ 2)).files] .empty
      = some d
      ∧ ⟨1, ascii "KSEA"⟩ ∈ d.rows .airports ∧ ⟨3, ascii "KBOI"⟩ ∈ d.rows .airports
      ∧ ((d.rows .airports).map Row.id).Nodup := by
  have hcut : ∀ b ∈ [(exportOf (· ≤ 2)).files, (exportOf (2 ≤ ·)).files, (exportOf (· ≤ 2)).files],
      threeAirports.Cut b := by
    intro b hb
    simp only [List.mem_cons, List.not_mem_nil, or_false] at hb
    rcases hb with rfl | rfl | rfl <;> exact cut_of_export rfl rfl (.refl _)
  obtain ⟨d, hd, hrows, -⟩ := install_union threeAirports hcut
  obtain ⟨hnodup, hmem⟩ := hrows .airports (by decide)
  exact ⟨d, hd, (hmem _).mpr ⟨_, List.mem_cons_self .., by decide⟩,
    (hmem _).mpr ⟨(exportOf (2 ≤ ·)).files, by simp, by decide⟩, hnodup⟩

end Snapshot

end Gpsxdb
