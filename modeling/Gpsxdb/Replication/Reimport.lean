import Mathlib.Tactic
import Gpsxdb.Import.FullImport
import Gpsxdb.Delta.Mirror

/-!
Replication against a new import of the changed file.

* `OsmData.ofFile`: the nodes and ways of a file; `Imports`: a run that has imported it;
* `ImportRun.leaves`: the node store and the tables, as a delta finds them;
* `keyed_leaves`, `rowAt_leaves`, `tags_leaves`: what they are of the file;
* `mirrors_leaves`: an import leaves a mirror of its file;
* `replication_mirrors_import`: **where no way is outdated, changes leave what a new import
  leaves** of the file they have been applied to.
-/

namespace Gpsxdb

/-! ### Tags of many rows -/

/-- The values of one id among the tag rows of many rows, if only one of these has any. -/
lemma valuesOf_flatMap_of_unique {α : Type} {l : List α} {g : α → List TagRecord} {id : ℤ}
    {key : Text} {a : α} (hnd : l.Nodup) (ha : a ∈ l)
    (hother : ∀ b ∈ l, b ≠ a → valuesOf (g b) id key = []) :
    valuesOf (l.flatMap g) id key = valuesOf (g a) id key := by
  have hnil : ∀ m : List α, (∀ b ∈ m, valuesOf (g b) id key = []) →
      valuesOf (m.flatMap g) id key = [] := by
    intro m
    induction m with
    | nil => exact fun _ => rfl
    | cons b m ih =>
        intro hm
        obtain ⟨hb, hm⟩ := List.forall_mem_cons.mp hm
        rw [List.flatMap_cons, valuesOf_append, hb, ih hm]
        rfl
  obtain ⟨pre, post, rfl⟩ := List.append_of_mem ha
  have hne := List.nodup_middle.mp hnd
  obtain ⟨hnot, -⟩ := List.nodup_cons.mp hne
  rw [List.mem_append, not_or] at hnot
  have hpre : ∀ b ∈ pre, valuesOf (g b) id key = [] := fun b hb =>
    hother b (List.mem_append_left _ hb) fun heq => hnot.1 (heq ▸ hb)
  have hpost : ∀ b ∈ post, valuesOf (g b) id key = [] := fun b hb =>
    hother b (List.mem_append_right _ (List.mem_cons_of_mem _ hb)) fun heq => hnot.2 (heq ▸ hb)
  rw [List.flatMap_append, List.flatMap_cons, valuesOf_append, valuesOf_append, hnil pre hpre,
    hnil post hpost, List.nil_append, List.append_nil]

/-- No tag row of another id. -/
lemma valuesOf_keptTags_of_ne {i id : ℤ} (h : i ≠ id) (tags : Tags) (key : Text) :
    valuesOf (keptTags i tags false) id key = [] := by
  rw [valuesOf, List.map_eq_nil_iff, List.filter_eq_nil_iff]
  intro g hg hmatch
  have hid := id_of_mem_keptTags hg
  exact h (hid.symm.trans (by simpa using (Bool.and_eq_true_iff.mp hmatch).1))

/-! ### What a file says -/

/-- The nodes and ways of a file. -/
def OsmData.ofFile (env : NodeEnv) (ns : List NodeEntry) (f : OsmFile) : OsmData where
  nodes := ImportRun.nodeMap env ns
  ways id := f.ways.find? fun w => w.id == id

section Files

variable {env : NodeEnv} {ns : List NodeEntry} {f : OsmFile} {id : ℤ} {t : Table} {k : Kept}

/-- The way of an id is the one the file has. -/
lemma OsmFile.find_way {w : WayEntry} : (f.ways.find? fun w => w.id == id) = some w
    ↔ w ∈ f.ways ∧ w.id = id := by
  constructor
  · intro h
    exact ⟨List.mem_of_find?_eq_some h, by simpa using List.find?_some h⟩
  · rintro ⟨hw, rfl⟩
    cases hfind : f.ways.find? fun w' => w'.id == w.id with
    | none => exact absurd (List.find?_eq_none.mp hfind w hw) (by simp)
    | some w' =>
        have hid : w'.id = w.id := by simpa using List.find?_some hfind
        rw [OsmFile.eq_of_id f.way_nodup (List.mem_of_find?_eq_some hfind) hw hid]

/-- **What is stored of the way of an id** is what the file gives rise to under it, as long as
the id is no relation's. -/
lemma OsmData.keptIn_ofFile (hpos : 0 < id) (ht : t = .ways ∨ t = .areas) :
    (OsmData.ofFile env ns f).keptIn t.osm id = some k
      ↔ k ∈ f.kept (ImportRun.nodeMap env ns) ∧ k.table = t ∧ k.row.id = id := by
  have hosm : ∀ t' : Table, t'.osm = t.osm ↔ t' = t := by
    intro t'
    cases t' <;> cases t <;> simp [Table.osm]
  have hway : k ∈ f.kept (ImportRun.nodeMap env ns) ∧ k.table = t ∧ k.row.id = id
      ↔ ∃ w ∈ f.ways, w.id = id ∧ k ∈ wayKept (ImportRun.nodeMap env ns) w ∧ k.table = t := by
    rw [OsmFile.kept, List.mem_append, OsmFile.mem_waysKept, OsmFile.mem_relationsKept]
    constructor
    · rintro ⟨⟨w, hw, hk⟩ | ⟨r, hr, hk⟩, htable, hid⟩
      · exact ⟨w, hw, (mem_wayKept hk).1.symm.trans hid, hk, htable⟩
      · have hr := f.relation_pos r hr
        rcases mem_relationKept hk with ⟨-, hneg, -⟩ | ⟨hno, -, -⟩
        · omega
        · rw [htable] at hno
          rcases ht with rfl | rfl <;> rcases hno with hno | hno <;> cases hno
    · rintro ⟨w, hw, rfl, hk, htable⟩
      exact ⟨.inl ⟨w, hw, hk⟩, htable, (mem_wayKept hk).1⟩
  rw [hway, OsmData.keptIn, Option.bind_eq_some_iff]
  constructor
  · rintro ⟨w, hw, hfind⟩
    obtain ⟨hw, hid⟩ := OsmFile.find_way.mp hw
    have htable := List.find?_some hfind
    exact ⟨w, hw, hid, List.mem_of_find?_eq_some hfind, (hosm _).mp (of_decide_eq_true htable)⟩
  · rintro ⟨w, hw, hid, hk, htable⟩
    refine ⟨w, OsmFile.find_way.mpr ⟨hw, hid⟩, ?_⟩
    show ((wayKept (ImportRun.nodeMap env ns) w).find? fun k => k.table.osm = t.osm) = some k
    cases hfind : (wayKept (ImportRun.nodeMap env ns) w).find? fun k => k.table.osm = t.osm with
    | none =>
        exact absurd (List.find?_eq_none.mp hfind k hk) (by simp [htable])
    | some k' => rw [wayKept_eq (List.mem_of_find?_eq_some hfind) hk]

end Files

/-! ### What an import leaves -/

namespace ImportRun

variable {lz : LZ4F} {N T : ℕ} {env : NodeEnv} {ns : List NodeEntry} {f : OsmFile}
  {σ : ImportRun lz N T}

/-- The node store and the tables, as the delta mode finds them. -/
def leaves (σ : ImportRun lz N T) : DeltaState where
  nodes id := if IsInt64 id then σ.nodes.store.merged.select id else none
  tables :=
    { rows := fun t => if t = .nodes then σ.nodes.tables.rows .nodes else σ.ways.db.osm.rows t
      tags := fun t => if t = .nodes then σ.nodes.tables.tags .nodes else σ.ways.db.osm.tags t }

lemma rows_leaves (σ : ImportRun lz N T) (t : Table) :
    σ.leaves.tables.rows t.osm = (σ.ways.db.rows t).map GeomRecord.toRow := by
  rw [← Database.rows_osm]
  cases t <;> rfl

lemma tags_leaves (σ : ImportRun lz N T) (t : Table) :
    σ.leaves.tables.tags t.osm = σ.ways.db.tags t := by
  cases t <;> rfl

/-- The store has the nodes of the file, and no others. -/
lemma nodes_leaves (h : Imported env ns f σ) {max_id : ℤ} (hmax : IsInt64 max_id)
    (hrange : ∀ n ∈ ns, 0 ≤ n.id ∧ n.id ≤ max_id) : σ.leaves.nodes = nodeMap env ns := by
  funext id
  show (if IsInt64 id then σ.nodes.store.merged.select id else none) = nodeMap env ns id
  split
  · exact h.select id ‹_›
  · -- an id that is no 64-bit integer is none of the file
    rename_i hno
    have hnone : (ns.find? fun n => n.id == id) = none := by
      refine List.find?_eq_none.mpr fun n hn hid => hno ?_
      obtain rfl : n.id = id := by simpa using hid
      obtain ⟨h0, hle⟩ := hrange n hn
      exact ⟨by omega, lt_of_le_of_lt hle hmax.2⟩
    rw [nodeMap, hnone]
    rfl

/-- No two rows of a table of a file have one id. -/
lemma nodup_ids_ofKept (f : OsmFile) (select : ℤ → Option Coord) (t : Table) :
    (((Database.ofKept (f.kept select)).rows t).map GeomRecord.id).Nodup := by
  rw [Database.ofKept, List.map_map]
  refine List.Nodup.map_on (fun k hk k' hk' hid => ?_) (OsmFile.kept_nodup.filter _)
  simp only [List.mem_filter, decide_eq_true_eq] at hk hk'
  exact OsmFile.kept_unique hk.1 hk'.1 (hk.2.trans hk'.2.symm) hid

/-- **Ids are keys**, in every table. -/
lemma keyed_leaves (h : Imported env ns f σ) (hdistinct : (ns.map NodeEntry.id).Nodup) :
    σ.leaves.tables.Keyed := by
  have hosm : ∀ t : Table, ((σ.leaves.tables.rows t.osm).map Row.id).Nodup := by
    intro t
    have hids : (σ.ways.db.rows t).map GeomRecord.id
        = (σ.leaves.tables.rows t.osm).map Row.id := by
      rw [rows_leaves, List.map_map]
      rfl
    rw [← hids]
    exact (((h.tables t).1.map _).nodup_iff).mpr (nodup_ids_ofKept f _ t)
  intro t
  cases t with
  | nodes =>
      have hids : (env.rowsFor ns).map Row.id
          = (ns.filter fun n => hasSurvivingTag n.tags true).map NodeEntry.id := by
        rw [NodeEnv.rowsFor, List.map_map]
        rfl
      refine ((h.rows.map Row.id).nodup_iff).mpr ?_
      rw [hids]
      exact (List.filter_sublist.map NodeEntry.id).nodup hdistinct
  | ways => exact hosm .ways
  | areas => exact hosm .areas
  | roads => exact hosm .roads
  | relations => exact hosm .relations

/-- **The rows of the ways** are those of the file. -/
lemma rowAt_leaves (h : Imported env ns f σ) (hdistinct : (ns.map NodeEntry.id).Nodup)
    {t : Table} (ht : t = .ways ∨ t = .areas) {id : ℤ} (hpos : 0 < id) :
    σ.leaves.tables.rowAt t.osm id = (OsmData.ofFile env ns f).rowOf t.osm id := by
  have hkeyed := keyed_leaves h hdistinct
  have hat : ∀ q, σ.leaves.tables.rowAt t.osm id = some q
      ↔ q ∈ σ.leaves.tables.rows t.osm ∧ q.id = id := by
    intro q
    constructor
    · intro hq
      have hmem := List.mem_of_mem_head? hq
      have hid : q.id = id := by simpa using (List.mem_filter.mp hmem).2
      exact ⟨(List.mem_filter.mp hmem).1, hid⟩
    · rintro ⟨hq, rfl⟩
      exact hkeyed.mem_rows_iff.mp hq
  refine Option.ext fun q => ?_
  rw [hat, OsmData.rowOf, Option.map_eq_some_iff, rows_leaves, List.mem_map]
  constructor
  · rintro ⟨⟨r, hr, rfl⟩, hid⟩
    obtain ⟨k, hk, htable, rfl⟩ := Database.mem_rows_ofKept.mp ((h.tables t).1.mem_iff.mp hr)
    exact ⟨k, (OsmData.keptIn_ofFile hpos ht).mpr ⟨hk, htable, hid⟩, rfl⟩
  · rintro ⟨k, hk, rfl⟩
    obtain ⟨hk, htable, hid⟩ := (OsmData.keptIn_ofFile hpos ht).mp hk
    exact ⟨⟨k.row, (h.tables t).1.mem_iff.mpr (Database.mem_rows_ofKept.mpr ⟨k, hk, htable, rfl⟩),
      rfl⟩, hid⟩

/-- The tag rows of a file carry the ids of their rows. -/
lemma valuesOf_kept_of_ne {select : ℤ → Option Coord} {k : Kept} (hk : k ∈ f.kept select) {id : ℤ}
    (hid : k.row.id ≠ id) (key : Text) : valuesOf k.tags id key = [] := by
  obtain ⟨i, tags, htags, hrow⟩ : ∃ i tags, k.tags = keptTags i tags false ∧ k.row.id = i := by
    rcases List.mem_append.mp hk with hk | hk
    · obtain ⟨w, -, hk⟩ := OsmFile.mem_waysKept.mp hk
      exact ⟨_, _, (mem_wayKept hk).2.2, (mem_wayKept hk).1⟩
    · obtain ⟨r, -, hk⟩ := OsmFile.mem_relationsKept.mp hk
      rcases mem_relationKept hk with ⟨-, hrow, htags⟩ | ⟨-, hrow, htags⟩
      · exact ⟨_, _, htags, hrow⟩
      · exact ⟨_, _, htags, hrow⟩
  rw [htags]
  exact valuesOf_keptTags_of_ne (hrow ▸ hid) tags key

/-- **Their tag rows** too, up to the order of the values of a key. -/
lemma valuesOf_leaves (h : Imported env ns f σ) {t : Table} (ht : t = .ways ∨ t = .areas) {id : ℤ}
    (hpos : 0 < id) (key : Text) : (valuesOf (σ.leaves.tables.tags t.osm) id key).Perm
      ((OsmData.ofFile env ns f).tagsOf t.osm id key) := by
  let ks := (f.kept (nodeMap env ns)).filter fun k => k.table = t
  have hks : ∀ k, k ∈ ks ↔ k ∈ f.kept (nodeMap env ns) ∧ k.table = t := fun k => by
    simp only [ks, List.mem_filter, decide_eq_true_eq]
  have hperm : (valuesOf (σ.leaves.tables.tags t.osm) id key).Perm
      (valuesOf (ks.flatMap Kept.tags) id key) := by
    rw [tags_leaves]
    exact perm_tags_iff.mp (h.tables t).2 id key
  refine hperm.trans (.of_eq ?_)
  rw [OsmData.tagsOf]
  cases hkept : (OsmData.ofFile env ns f).keptIn t.osm id with
  | none =>
      have hall : ∀ k ∈ ks, valuesOf k.tags id key = [] := by
        intro k hk
        obtain ⟨hk, htable⟩ := (hks k).mp hk
        refine valuesOf_kept_of_ne hk (fun hid => ?_) key
        have hsome := (OsmData.keptIn_ofFile hpos ht).mpr ⟨hk, htable, hid⟩
        exact absurd (hsome.symm.trans hkept) (Option.some_ne_none _)
      rw [Option.elim_none, valuesOf, List.map_eq_nil_iff, List.filter_eq_nil_iff]
      intro g hg hmatch
      obtain ⟨k, hk, hg⟩ := List.mem_flatMap.mp hg
      have hnil := hall k hk
      rw [valuesOf, List.map_eq_nil_iff, List.filter_eq_nil_iff] at hnil
      exact hnil g hg hmatch
  | some k =>
      obtain ⟨hk, htable, hid⟩ := (OsmData.keptIn_ofFile hpos ht).mp hkept
      rw [Option.elim_some]
      refine valuesOf_flatMap_of_unique (OsmFile.kept_nodup.filter _) ((hks k).mpr ⟨hk, htable⟩)
        fun k' hk' hne => ?_
      obtain ⟨hk', htable'⟩ := (hks k').mp hk'
      refine valuesOf_kept_of_ne hk' (fun hid' => hne ?_) key
      exact OsmFile.kept_unique hk' hk (htable'.trans htable.symm) (hid'.trans hid.symm)

/-- No two tags that are stored of a way clean to one key. -/
def TagsApart (f : OsmFile) : Prop :=
  ∀ w ∈ f.ways, ∀ key, (valuesOf (keptTags w.id w.tags false) w.id key).length ≤ 1

/-- The tables of ways. -/
lemma exists_table_of_kind {t : OsmTable} (h : t.kind = .way) :
    ∃ t' : Table, (t' = .ways ∨ t' = .areas) ∧ t'.osm = t := by
  cases t with
  | ways => exact ⟨.ways, .inl rfl, rfl⟩
  | areas => exact ⟨.areas, .inr rfl, rfl⟩
  | _ => cases h

/-- **An import leaves a mirror of its file.** -/
lemma mirrors_leaves (h : Imported env ns f σ) (hdistinct : (ns.map NodeEntry.id).Nodup)
    {max_id : ℤ} (hmax : IsInt64 max_id) (hrange : ∀ n ∈ ns, 0 ≤ n.id ∧ n.id ≤ max_id)
    (hapart : TagsApart f) : Mirrors (.ofFile env ns f) (fun _ => false) σ.leaves := by
  have hsingle : ∀ (t : Table) id key, t = .ways ∨ t = .areas → 0 < id →
      ((OsmData.ofFile env ns f).tagsOf t.osm id key).length ≤ 1 := by
    intro t id key ht hpos
    rw [OsmData.tagsOf]
    cases hkept : (OsmData.ofFile env ns f).keptIn t.osm id with
    | none => exact Nat.zero_le _
    | some k =>
        obtain ⟨w, hway, hfind⟩ := Option.bind_eq_some_iff.mp hkept
        obtain ⟨hw, rfl⟩ := OsmFile.find_way.mp hway
        rw [Option.elim_some, (mem_wayKept (List.mem_of_find?_eq_some hfind)).2.2]
        exact hapart w hw key
  have htags : ∀ (t : Table) id key, t = .ways ∨ t = .areas → 0 < id →
      valuesOf (σ.leaves.tables.tags t.osm) id key
        = (OsmData.ofFile env ns f).tagsOf t.osm id key := fun t id key ht hpos =>
    eq_of_perm_of_length_le_one (valuesOf_leaves h ht hpos key) (hsingle t id key ht hpos)
  refine ⟨nodes_leaves h hmax hrange, fun t hkind id hpos _ => ?_, fun t hkind id hpos _ key => ?_,
    fun t hkind id hpos key => ?_, fun id _ hold => absurd hold Bool.false_ne_true⟩
  · obtain ⟨t, ht, rfl⟩ := exists_table_of_kind hkind
    exact rowAt_leaves h hdistinct ht hpos
  · obtain ⟨t, ht, rfl⟩ := exists_table_of_kind hkind
    exact htags t id key ht hpos
  · obtain ⟨t, ht, rfl⟩ := exists_table_of_kind hkind
    rw [htags t id key ht hpos]
    exact hsingle t id key ht hpos

end ImportRun

/-! ### Two ways to the same tables -/

open ImportRun

/-- A run that imports a file, each node under an id of its own and in range, and that cannot
go on. -/
structure Imports {lz : LZ4F} {N T : ℕ} (env : NodeEnv) (max_id queue_size : ℤ)
    (blobs : List Blob) (ns : List NodeEntry) (f : OsmFile) (σ : ImportRun lz N T) : Prop where
  lossless : lz.Lossless
  max : IsInt64 max_id
  node_threads : 0 < N
  way_threads : 0 < T
  size : 0 < queue_size
  file : PlanetFile blobs ns f
  range : ∀ n ∈ ns, 0 ≤ n.id ∧ n.id ≤ max_id
  refs : ∀ w ∈ f.ways, ∀ ref ∈ w.node_refs, IsInt64 ref
  ran : ∃ dir s₀ full moves, ShardStore.openForImport lz dir max_id N = some s₀
    ∧ Producer.producer .nodes N blobs .absent = some full
    ∧ (start queue_size full s₀).run env moves = some σ
  halted : σ.Halted env

section

variable {lz : LZ4F} {N T : ℕ} {env : NodeEnv} {max_id queue_size : ℤ} {blobs : List Blob}
  {ns : List NodeEntry} {f : OsmFile} {σ : ImportRun lz N T}

lemma Imports.imported (h : Imports env max_id queue_size blobs ns f σ) : Imported env ns f σ := by
  obtain ⟨dir, s₀, full, moves, h₀, hfull, hrun⟩ := h.ran
  exact (imported_of_halted h.lossless h.max h.node_threads h.way_threads h.size h₀ h.file h.range
    h.refs hfull hrun h.halted).2

/-- Tables with keys hold the same rows under some ids if they do so id by id. -/
lemma TargetTables.Keyed.perm_filter {d d' : TargetTables Content} (h : d.Keyed) (h' : d'.Keyed)
    {t : OsmTable} {p : ℤ → Bool} (hrow : ∀ id, p id = true → d.rowAt t id = d'.rowAt t id) :
    ((d.rows t).filter fun r => p r.id).Perm ((d'.rows t).filter fun r => p r.id) := by
  have hnodup : ∀ {d : TargetTables Content}, d.Keyed →
      ((d.rows t).filter fun r => p r.id).Nodup := fun h => (List.Nodup.of_map _ (h t)).filter _
  refine (List.perm_ext_iff_of_nodup (hnodup h) (hnodup h')).mpr fun q => ?_
  rw [List.mem_filter, List.mem_filter, h.mem_rows_iff, h'.mem_rows_iff]
  refine and_congr_left fun hp => ?_
  rw [hrow q.id hp]

/-- **Replication mirrors an import.**  A file is imported, and then changes are applied: their
ways are stored as an import would store them, and in the end no way has nodes that have
changed behind it.  Where a second file is what the changes make of the first, the node store
and the stored rows and tags of the ways are those an import of the second file leaves, with
any numbers of threads and in any order. -/
theorem replication_mirrors_import {lz' : LZ4F} {N' T' : ℕ} {max_id' queue_size' : ℤ}
    {blobs' : List Blob} {ns' : List NodeEntry} {f' : OsmFile} {σ' : ImportRun lz' N' T'}
    (h : Imports env max_id queue_size blobs ns f σ)
    (h' : Imports env max_id' queue_size' blobs' ns' f' σ') (hapart : TagsApart f)
    {cs : List OSCChange} (hok : (OsmData.ofFile env ns f).PatchOkAlong env.projection cs)
    (hpatch : ((OsmData.ofFile env ns f).patchAll env.projection (fun _ => false) cs).1
      = .ofFile env ns' f')
    (hclean : ∀ id, 0 < id →
      ((OsmData.ofFile env ns f).patchAll env.projection (fun _ => false) cs).2 id = false) :
    (σ.leaves.run env.projection cs).nodes = σ'.leaves.nodes
      ∧ ∀ t : OsmTable, t.kind = .way →
        (((σ.leaves.run env.projection cs).tables.rows t).filter fun r => 0 < r.id).Perm
            ((σ'.leaves.tables.rows t).filter fun r => 0 < r.id)
          ∧ (((σ.leaves.run env.projection cs).tables.tags t).filter fun g => 0 < g.id).Perm
            ((σ'.leaves.tables.tags t).filter fun g => 0 < g.id) := by
  have hmirrors := mirrors_run
    (mirrors_leaves h.imported h.file.distinct h.max h.range hapart) hok
  rw [hpatch] at hmirrors
  have hkeyed := keyed_leaves h.imported h.file.distinct
  have hkeyed' := keyed_leaves h'.imported h'.file.distinct
  refine ⟨hmirrors.nodes.trans (nodes_leaves h'.imported h'.max h'.range).symm,
    fun t hkind => ⟨?_, ?_⟩⟩
  · refine (DeltaState.keyed_run hkeyed _ cs).perm_filter (p := fun id => 0 < id) hkeyed'
      fun id hid => ?_
    have hpos : 0 < id := of_decide_eq_true hid
    obtain ⟨t, ht, rfl⟩ := exists_table_of_kind hkind
    rw [hmirrors.row t.osm hkind id hpos (hclean id hpos),
      rowAt_leaves h'.imported h'.file.distinct ht hpos]
  · refine perm_tags_iff.mpr fun id key => ?_
    rw [valuesOf_filter fun i _ => decide (0 < i), valuesOf_filter fun i _ => decide (0 < i)]
    split
    · have hpos : 0 < id := of_decide_eq_true ‹_›
      obtain ⟨t, ht, rfl⟩ := exists_table_of_kind hkind
      rw [hmirrors.tags t.osm hkind id hpos (hclean id hpos)]
      exact (valuesOf_leaves h'.imported ht hpos key).symm
    · exact .refl _

end

/-! ### A road that is made longer -/

namespace ImportRun

open ImportState (roadFile)

/-- A node behind the end of the road. -/
def roadEnd : NodeEntry := ⟨4, [], .empty, 2, 1⟩

/-- The road up to it. -/
def longerRoad : WayEntry := ⟨1, [], .single (ascii "highway") (ascii "primary"), [1, 2, 3, 4]⟩

/-- The changes. -/
def roadChanges : List OSCChange := [.node .create roadEnd, .way .modify longerRoad]

/-- The ways and relations of the file after them. -/
def longerFile : OsmFile := { roadFile with
  ways := [longerRoad]
  way_nodup := List.nodup_singleton _
  way_pos := List.forall_mem_singleton.mpr Int.one_pos }

/-- The file after them. -/
def longerBlobs : List Blob :=
  [⟨29, by decide, none⟩, ⟨307, by decide, some ((roadNodes ++ [roadEnd]).map .node)⟩,
    ⟨97, by decide, some (longerFile.ways.map .way ++ longerFile.relations.map .relation)⟩]

/-- One node thread and one way thread. -/
def longerRun (a w : Fin 1) : List (ImportActor 1 1) :=
  let turns : List (ℕ × ImportActor 1 1) :=
    [(4, .node .push), (1, .node .shutdown), (16, .node (.thread a 300)), (3, .producer),
      (13, .way w)]
  turns.flatMap fun x => List.replicate x.1 x.2

/-- Coordinates as they are. -/
def planeEnv : NodeEnv := ⟨planeProjection, true⟩

/-- A run that has ended, from what it evaluates to. -/
lemma imports_of_ended {N T : ℕ} (max_id queue_size : ℤ) {blobs : List Blob}
    {ns : List NodeEntry} {f : OsmFile} (moves : List (ImportActor N T)) (hmax : IsInt64 max_id)
    (hN : 0 < N) (hT : 0 < T) (hsize : 0 < queue_size) (hfile : PlanetFile blobs ns f)
    (hrange : ∀ n ∈ ns, 0 ≤ n.id ∧ n.id ≤ max_id)
    (hrefs : ∀ w ∈ f.ways, ∀ ref ∈ w.node_refs, IsInt64 ref)
    (heval : (do
      let s₀ ← ShardStore.openForImport tagged .empty max_id N
      let full ← Producer.producer .nodes N blobs .absent
      let σ ← (start queue_size full s₀ : ImportRun tagged N T).run planeEnv moves
      some σ.ended) = some true) :
    ∃ σ : ImportRun tagged N T, Imports planeEnv max_id queue_size blobs ns f σ := by
  simp only [Option.bind_eq_bind, Option.bind_eq_some_iff] at heval
  obtain ⟨s₀, h₀, full, hfull, σ, hrun, hended⟩ := heval
  exact ⟨σ, tagged_lossless, hmax, hN, hT, hsize, hfile, hrange, hrefs,
    ⟨_, s₀, full, moves, h₀, hfull, hrun⟩, halted_of_ended (Option.some.inj hended)⟩

lemma planetFile_longer : PlanetFile longerBlobs (roadNodes ++ [roadEnd]) longerFile :=
  ⟨rfl, by decide⟩

lemma tagsApart_road : TagsApart roadFile := by
  refine List.forall_mem_singleton.mpr fun key => ?_
  calc (valuesOf (keptTags 1 (.single (ascii "highway") (ascii "primary")) false) 1 key).length
      ≤ (keptTags 1 (.single (ascii "highway") (ascii "primary")) false).length := by
        rw [valuesOf, List.length_map]
        exact List.length_filter_le ..
    _ ≤ 1 := le_of_eq rfl

lemma storedAlike_longerRoad {P : OsmData} (h : 2 ≤ (wayCoords P.nodes longerRoad).length)
    (harea : closesUp P.nodes longerRoad = false) : P.StoredAlike longerRoad := by
  refine ⟨fun key => (length_valuesFor_le _ _ _).trans le_rfl, fun _ kv hkv => ?_, .inl h,
    .inr (.inl harea)⟩
  obtain rfl := List.mem_singleton.mp hkv.1
  rfl

/-- The changes make the second file of the first, and outdate no way. -/
lemma patchAll_road : (OsmData.ofFile planeEnv roadNodes roadFile).patchAll planeProjection
      (fun _ => false) roadChanges
    = (.ofFile planeEnv (roadNodes ++ [roadEnd]) longerFile, fun _ => false) := by
  refine Prod.ext ?_ (funext fun id => ?_)
  · show OsmData.mk (Function.update (nodeMap planeEnv roadNodes) 4 (some ⟨2, 1⟩))
        (Function.update (fun id => roadFile.ways.find? fun w => w.id == id) 1 (some longerRoad))
      = .ofFile planeEnv (roadNodes ++ [roadEnd]) longerFile
    rw [OsmData.ofFile, OsmData.mk.injEq]
    constructor
    · funext id
      by_cases hid : id = 4
      · subst hid
        rfl
      · have hno : ([roadEnd].find? fun n => n.id == id) = none := by
          simpa [roadEnd] using Ne.symm hid
        rw [Function.update_of_ne hid, nodeMap, nodeMap, List.find?_append, hno, Option.or_none]
    · funext id
      by_cases hid : id = 1
      · subst hid
        rfl
      · rw [Function.update_of_ne hid]
        simp [roadFile, longerFile, longerRoad, Ne.symm hid]
  · have hno : ((roadFile.ways.find? fun w => w.id == id).any
        fun w => w.node_refs.contains roadEnd.id) = false := by
      by_cases hid : id = 1
      · subst hid
        rfl
      · simp [roadFile, Ne.symm hid]
    show ((false || _ && _) && _) = false
    rw [show (OsmData.ofFile planeEnv roadNodes roadFile).ways id
      = roadFile.ways.find? fun w => w.id == id from rfl, hno]
    rfl

theorem replication_mirrors_import_road : ∃ σ : ImportRun tagged 2 1, ∃ σ' : ImportRun tagged 1 1,
    Imports planeEnv 10 5 roadBlobs roadNodes roadFile σ
      ∧ Imports planeEnv 10 5 longerBlobs (roadNodes ++ [roadEnd]) longerFile σ'
      ∧ (((σ.leaves.run planeProjection roadChanges).tables.rows .ways).filter
          fun r => 0 < r.id).Perm ((σ'.leaves.tables.rows .ways).filter fun r => 0 < r.id) := by
  obtain ⟨σ, hσ⟩ := imports_of_ended 10 5 (roadRun 0 1 0) (by decide) two_pos one_pos
    (by decide) planetFile_road (by decide) (by decide) (by decide +kernel)
  obtain ⟨σ', hσ'⟩ := imports_of_ended 10 5 (longerRun 0 0) (by decide) one_pos one_pos
    (by decide) planetFile_longer (by decide) (by decide) (by decide +kernel)
  have hok : (OsmData.ofFile planeEnv roadNodes roadFile).PatchOkAlong planeProjection
      roadChanges :=
    ⟨trivial, ⟨Int.one_pos, storedAlike_longerRoad (by decide) (by decide)⟩, trivial⟩
  exact ⟨σ, σ', hσ, hσ', ((replication_mirrors_import hσ hσ' tagsApart_road hok
    (congrArg Prod.fst patchAll_road)
    fun id _ => congrFun (congrArg Prod.snd patchAll_road) id).2 .ways rfl).1⟩

end ImportRun

end Gpsxdb
