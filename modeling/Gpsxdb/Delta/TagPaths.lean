import Mathlib.Tactic
import Gpsxdb.Delta.Agreement
import Gpsxdb.Delta.NodeRows
import Gpsxdb.Delta.Integrity

/-!
The tags of one entity by way of the bulk insert, and by way of an update.

* `Entity`: what `insertNode`, `updateNode` and their siblings are called with;
* `Database.settle`, `runJobs`: the transactions of a connection with their
  retries; `settle_done`: there are never more of them than allowed for;
* `bulkInsert`: an insert of `NavDB` and the flushes of its destructor, in empty
  tables; `rows_bulkInsert`, `tags_bulkInsert`;
* `mem_diffTags_nil`: the tag rows of an update in empty tables;
* `same_tags_iff`: **when the two agree**.

The filters differ on generic buildings, whose tag only the insert stores, and the
inserts of roads and relations have no filter for the row itself.
-/

namespace Gpsxdb

/-! ### Entities -/

/-- What is stored. -/
inductive Entity where
  | node (id : ℤ) (name : Text) (longitude_m latitude_m : Double) (geog : Text)
  | way (id : ℤ) (name : Text) (geog : Geog)
  | area (id : ℤ) (name : Text) (geog : Geog)
  | road (id : ℤ) (name : Text) (geog : Geog)
  | relation (id : ℤ) (name : Text) (geog : Option Geog)

namespace Entity

/-- Its table. -/
def table : Entity → OsmTable
  | node .. => .nodes
  | way .. => .ways
  | area .. => .areas
  | road .. => .roads
  | relation .. => .relations

/-- Its row. -/
def row : Entity → Row Content
  | node id name longitude_m latitude_m geog => ⟨id, .node name longitude_m latitude_m geog⟩
  | way id name geog => geomRow id name (some geog)
  | area id name geog => geomRow id name (some geog)
  | road id name geog => geomRow id name (some geog)
  | relation id name geog => geomRow id name geog

end Entity

/-! ### The transactions of a connection -/

namespace Database

/-- A transaction, with what it leaves to be done tried again so many times. -/
def settle : ℕ → Database → Job → Database × Option Job
  | 0, d, job => (d, some job)
  | tries + 1, d, job =>
      match d.exec job with
      | (d, none) => (d, none)
      | (d, some again) => settle tries d again

end Database

/-- How often a transaction is tried at most: each row of the batch may be rejected
once. -/
def Job.tries : Job → ℕ
  | .copy _ buf _ => buf.length + 2
  | .tags _ _ => 1

/-- Transactions in turn. -/
def Database.runJobs (d : Database) (jobs : List Job) : Database :=
  jobs.foldl (fun d job => (d.settle job.tries job).1) d

/-- The row `COPY` rejects is one of the batch. -/
lemma firstRejected_lt {taken : List ℤ} {buf : List GeomRecord} {line : ℕ}
    (h : firstRejected taken buf = some line) : line < buf.length := by
  induction buf generalizing taken line with
  | nil => simp [firstRejected] at h
  | cons r rs ih =>
      rw [firstRejected] at h
      split at h
      · obtain rfl := Option.some.inj h
        exact Nat.zero_lt_succ _
      · obtain ⟨line, hline, rfl⟩ := Option.map_eq_some_iff.mp h
        exact Nat.succ_lt_succ (ih hline)

/-- A batch that is tried again loses a row each time. -/
lemma settle_retry (t : Table) (tries : ℕ) (d : Database) (buf : List GeomRecord)
    (h : buf.length < tries) : (d.settle tries (.copy t buf true)).2 = none := by
  induction tries generalizing buf with
  | zero => omega
  | succ tries ih =>
      rw [Database.settle, Database.exec]
      rcases hline : firstRejected ((d.rows t).map GeomRecord.id) buf with _ | line
      · rfl
      · have hlt := firstRejected_lt hline
        have hlen := List.length_eraseIdx_of_lt hlt
        by_cases hnil : buf.eraseIdx line = []
        · simp [hnil]
        · simp only [if_true, hnil, if_false]
          exact ih _ (by omega)

/-- **The tries suffice.** -/
lemma settle_done (d : Database) (job : Job) : (d.settle job.tries job).2 = none := by
  cases job with
  | tags t buf => rfl
  | copy t buf retry =>
      cases retry with
      | true => exact settle_retry t _ d buf (by simp [Job.tries])
      | false =>
          rw [Job.tries, Database.settle, Database.exec]
          rcases firstRejected ((d.rows t).map GeomRecord.id) buf with _ | line
          · rfl
          · by_cases hnil : buf = []
            · simp [hnil]
            · simp only [Bool.false_eq_true, hnil, if_false]
              exact settle_retry t _ d buf (by omega)

/-! ### The bulk insert -/

/-- What a connection leaves in empty tables: an insert, and then the flushes of its
destructor. -/
def written (thread_id : ℕ) (insert : NavDB → NavDB × List Job) : TargetTables Content :=
  let (n, jobs) := insert (.connect thread_id)
  let (_, jobs') := n.flushAll [.ways, .areas, .roads, .relations]
  (Database.empty.runJobs (jobs ++ jobs')).osm

/-- The bulk insert of an entity. -/
def bulkInsert (thread_id : ℕ) (tags : Tags) : Entity → TargetTables Content
  | .node id name longitude_m latitude_m geog =>
      ((⟨emptyTables, [], []⟩ : NodeThread).insertNode ⟨id, .node name longitude_m latitude_m geog⟩
        tags).flushNodes.finalizeTags.db
  | .way id name geog => written thread_id fun n => n.insertWay id name tags geog
  | .area id name geog => written thread_id fun n => n.insertArea id name tags geog
  | .road id name geog => written thread_id fun n => n.insertRoad id name tags geog
  | .relation id name geog => written thread_id fun n => n.insertRelation id name tags geog

/-- The update of an entity that is not there. -/
def updateEntity (tags : Tags) (e : Entity) : TargetTables Content :=
  emptyTables.upsertEntity e.table e.row tags

/-- An insert that passes over the entity leaves nothing. -/
lemma written_skip (thread_id : ℕ) : written thread_id (fun n => (n, [])) = Database.empty.osm := by
  simp [written, NavDB.flushAll, NavDB.flush, NavDB.connect, Database.runJobs]

/-- An insert that buffers the entity leaves its row and its tag rows. -/
lemma written_insert (thread_id : ℕ) (t : Table) (r : GeomRecord) (tags : List TagRecord)
    (full : NavDB → ℕ → Bool) (hfull : full (.connect thread_id) 1 = false) :
    (written thread_id fun n => n.insert t r tags (full n)).rows t.osm = [r.toRow]
      ∧ (written thread_id fun n => n.insert t r tags (full n)).tags t.osm = tags := by
  have hjobs : ((NavDB.connect thread_id).insert t r tags (full (.connect thread_id))).2
      ++ (((NavDB.connect thread_id).insert t r tags (full (.connect thread_id))).1.flushAll
        [.ways, .areas, .roads, .relations]).2 = [.copy t [r] false, .tags t tags] := by
    have hbuf : (Function.update (NavDB.connect thread_id).buf t
        ((NavDB.connect thread_id).buf t ++ [r]) t).length = 1 := by
      simp [NavDB.connect]
    rw [NavDB.insert]
    dsimp only
    rw [hbuf, hfull]
    cases t <;> simp [NavDB.flushAll, NavDB.flush, NavDB.connect]
  have hwritten : written thread_id (fun n => n.insert t r tags (full n))
      = (Database.empty.runJobs [.copy t [r] false, .tags t tags]).osm := by
    rw [← hjobs]
    rfl
  rw [hwritten]
  cases t <;> exact ⟨rfl, rfl⟩

/-- The inserts of roads and relations buffer every row. -/
def Entity.filtered : Entity → Bool
  | node .. | way .. | area .. => true
  | road .. | relation .. => false

/-- The bulk insert keeps the entity. -/
def Entity.inserted (e : Entity) (tags : Tags) : Bool :=
  !e.filtered || hasSurvivingTag tags (e.table = .nodes)

/-- **What the bulk insert leaves**: the row and its tag rows, or nothing. -/
lemma bulkInsert_spec (thread_id : ℕ) (tags : Tags) (e : Entity) :
    (bulkInsert thread_id tags e).rows e.table = (if e.inserted tags then [e.row] else [])
      ∧ (bulkInsert thread_id tags e).tags e.table
        = if e.inserted tags then keptTags e.row.id tags (e.table = .nodes) else [] := by
  have hle : ∀ n : NavDB, n = .connect thread_id → ¬ n.way_buffer_size ≤ 1 := by
    rintro n rfl
    simp only [NavDB.connect, NavDB.WAY_BUFFER_SIZE]
    omega
  have hlt : ∀ n : NavDB, n = .connect thread_id → ¬ n.way_buffer_size < 1 := fun n hn h =>
    hle n hn h.le
  cases e with
  | node id name longitude_m latitude_m geog =>
      rw [bulkInsert, NodeThread.insertNode]
      by_cases h : hasSurvivingTag tags true = true
      · simp [h, Entity.inserted, Entity.table, Entity.row, NODE_BUFFER_SIZE, NodeThread.flushNodes,
          NodeThread.finalizeTags, emptyTables]
      · simp [h, Entity.inserted, Entity.filtered, Entity.table, NodeThread.flushNodes,
          NodeThread.finalizeTags, emptyTables]
  | way id name geog =>
      by_cases h : hasSurvivingTag tags false = true
      · have hwritten := written_insert thread_id .ways ⟨id, name, some geog⟩
          (keptTags id tags false) (fun n => (n.way_buffer_size ≤ ·)) (by simpa using hle _ rfl)
        simpa [bulkInsert, NavDB.insertWay, h, Entity.inserted, Entity.table, Entity.row, Table.osm,
          GeomRecord.toRow] using hwritten
      · simp [bulkInsert, NavDB.insertWay, h, Entity.inserted, Entity.filtered, Entity.table,
          written_skip, Database.empty, Database.osm]
  | area id name geog =>
      by_cases h : hasSurvivingTag tags false = true
      · have hwritten := written_insert thread_id .areas ⟨id, name, some geog⟩
          (keptTags id tags false) (fun n => (n.way_buffer_size < ·)) (by simpa using hlt _ rfl)
        simpa [bulkInsert, NavDB.insertArea, h, Entity.inserted, Entity.table, Entity.row,
          Table.osm, GeomRecord.toRow] using hwritten
      · simp [bulkInsert, NavDB.insertArea, h, Entity.inserted, Entity.filtered, Entity.table,
          written_skip, Database.empty, Database.osm]
  | road id name geog =>
      exact written_insert thread_id .roads ⟨id, name, some geog⟩ (keptTags id tags false)
        (fun n => (n.way_buffer_size < ·)) (by simpa using hlt _ rfl)
  | relation id name geog =>
      exact written_insert thread_id .relations ⟨id, name, geog⟩ (keptTags id tags false)
        (fun n => (n.way_buffer_size < ·)) (by simpa using hlt _ rfl)

/-! ### The tag rows of both -/

/-- The tags both filters look at: not dropped, and with something left of them. -/
def keptEntry (tags : Tags) (is_node : Bool) (kv : Text × Text) : Prop :=
  kv ∈ tags.entries ∧ isDroppedTag is_node (is_node && hasElevationTag tags) kv.1 kv.2 = false
    ∧ isBlankTag kv.1 kv.2 = false

/-- A generic building. -/
def genericBuilding (kv : Text × Text) : Bool :=
  kv.1 == ascii "building" && !isAviationRelevantBuildingValue kv.2

/-- The row of a tag. -/
def tagRow (id : ℤ) (kv : Text × Text) : TagRecord := ⟨id, sanitizeTag kv.1, sanitizeTag kv.2⟩

lemma mem_keptTags {id : ℤ} {tags : Tags} {is_node : Bool} {g : TagRecord} :
    g ∈ keptTags id tags is_node ↔ ∃ kv, keptEntry tags is_node kv ∧ tagRow id kv = g := by
  rw [keptTags, List.mem_filterMap]
  refine exists_congr fun kv => ?_
  by_cases hd : isDroppedTag is_node (is_node && hasElevationTag tags) kv.1 kv.2 = true
  · simp [keptEntry, hd]
  · by_cases hb : isBlankTag kv.1 kv.2 = true
    · simp [keptEntry, hb]
    · simp [keptEntry, tagRow, hd, hb]

/-- The cleaned tags of an update: generic buildings are passed over. -/
lemma mem_survivingTags {tags : Tags} {is_node : Bool} {key value : Text} :
    (key, value) ∈ survivingTags tags is_node
      ↔ ∃ kv, (keptEntry tags is_node kv ∧ genericBuilding kv = false)
        ∧ sanitizeTag kv.1 = key ∧ sanitizeTag kv.2 = value := by
  rw [survivingTags, List.mem_map]
  refine exists_congr fun kv => ?_
  rw [List.mem_filter, Prod.mk.injEq, keptEntry, genericBuilding]
  refine and_congr_left fun _ => ?_
  simp only [Bool.and_eq_true, Bool.not_eq_true']
  tauto

/-- An update in empty tables leaves the row of each. -/
lemma mem_diffTags_nil {id : ℤ} {tags : Tags} {is_node : Bool} {g : TagRecord} :
    g ∈ diffTags id tags is_node []
      ↔ ∃ kv, (keptEntry tags is_node kv ∧ genericBuilding kv = false) ∧ tagRow id kv = g := by
  have hcount := count_eq_count_valuesOf (diffTags id tags is_node []) g
  have hact : ∀ vs : List Text, (upsertOp vs).act [] = vs := by
    intro vs
    cases vs <;> simp [upsertOp, BagOp.act, setAll]
  have hnil : valuesOf [] g.id g.key = [] := rfl
  rw [← List.count_pos_iff, hcount, List.count_pos_iff, valuesOf_diffTags, hnil, hact]
  by_cases hid : g.id = id
  · subst hid
    have hunder : g.value ∈ valuesFor tags is_node g.key
        ↔ (g.key, g.value) ∈ survivingTags tags is_node := by
      simp [valuesFor, valuesUnder]
    rw [if_pos rfl, hunder, mem_survivingTags]
    refine exists_congr fun kv => and_congr_right fun _ => ?_
    rw [tagRow]
    constructor
    · rintro ⟨hkey, hvalue⟩
      rw [hkey, hvalue]
    · intro hrow
      rw [← hrow]
      exact ⟨rfl, rfl⟩
  · rw [if_neg hid]
    constructor
    · exact fun h => absurd h List.not_mem_nil
    · rintro ⟨kv, -, rfl⟩
      exact absurd rfl hid

/-! ### Agreement -/

/-- The same row of the entity, and the same tag rows. -/
structure SameTags (d d' : TargetTables Content) (t : OsmTable) : Prop where
  kept : d.rows t = d'.rows t
  tags : ∀ g, g ∈ d.tags t ↔ g ∈ d'.tags t

/-- A generic building whose tag row is also that of another tag. -/
def Doubled (tags : Tags) (is_node : Bool) (kv : Text × Text) : Prop :=
  ∃ kv', keptEntry tags is_node kv' ∧ genericBuilding kv' = false
    ∧ sanitizeTag kv'.1 = sanitizeTag kv.1 ∧ sanitizeTag kv'.2 = sanitizeTag kv.2

/-- **Insert and update keep the same tags** exactly where a tag survives and no
generic building is among the tags that are stored (unless another tag has the same
row), or where none survives and the entity is no road and no relation. -/
theorem same_tags_iff (thread_id : ℕ) (tags : Tags) (e : Entity) :
    SameTags (bulkInsert thread_id tags e) (updateEntity tags e) e.table
      ↔ (hasSurvivingTag tags (e.table = .nodes) = true
          ∧ ∀ kv, keptEntry tags (e.table = .nodes) kv → genericBuilding kv = true →
            Doubled tags (e.table = .nodes) kv)
        ∨ (hasSurvivingTag tags (e.table = .nodes) = false
          ∧ e.table ≠ .roads ∧ e.table ≠ .relations) := by
  obtain ⟨hrows, htags⟩ := bulkInsert_spec thread_id tags e
  have hrows' :=
    TargetTables.rows_upsertEntity_of_nil (d := emptyTables) (t := e.table) rfl e.row tags
  have htags' := emptyTables.tags_upsertEntity_self e.table e.row tags
  have hfiltered : e.filtered = true ↔ e.table ≠ .roads ∧ e.table ≠ .relations := by
    cases e <;> simp [Entity.filtered, Entity.table]
  by_cases hk : hasSurvivingTag tags (e.table = .nodes) = true
  · have hinserted : e.inserted tags = true := by simp [Entity.inserted, hk]
    rw [hinserted, if_pos rfl] at hrows htags
    rw [if_pos hk] at hrows'
    simp only [hk, true_and, Bool.true_eq_false, false_and, or_false]
    constructor
    · rintro ⟨-, hsame⟩ kv hkv -
      have hmem := (hsame (tagRow e.row.id kv)).mp (htags ▸ mem_keptTags.mpr ⟨kv, hkv, rfl⟩)
      rw [updateEntity, htags'] at hmem
      obtain ⟨kv', ⟨hkept, hgeneric⟩, hrow⟩ := mem_diffTags_nil.mp hmem
      rw [tagRow, tagRow, TagRecord.mk.injEq] at hrow
      exact ⟨kv', hkept, hgeneric, hrow.2⟩
    · intro hdoubled
      refine ⟨hrows.trans hrows'.symm, fun g => ?_⟩
      rw [htags, updateEntity, htags', mem_keptTags]
      refine Iff.trans ?_ mem_diffTags_nil.symm
      constructor
      · rintro ⟨kv, hkv, rfl⟩
        by_cases hgeneric : genericBuilding kv = true
        · obtain ⟨kv', hkept, hgeneric', hkey, hvalue⟩ := hdoubled kv hkv hgeneric
          exact ⟨kv', ⟨hkept, hgeneric'⟩, by rw [tagRow, tagRow, hkey, hvalue]⟩
        · exact ⟨kv, ⟨hkv, Bool.eq_false_iff.mpr hgeneric⟩, rfl⟩
      · rintro ⟨kv, ⟨hkv, -⟩, rfl⟩
        exact ⟨kv, hkv, rfl⟩
  · rw [if_neg hk] at hrows'
    simp only [hk, Bool.false_eq_true, false_and, false_or, ← hfiltered, true_and]
    constructor
    · rintro ⟨hkept, -⟩
      rw [hrows, updateEntity, hrows'] at hkept
      by_contra hf
      simp [Entity.inserted, hf] at hkept
    · intro hf
      have hinserted : e.inserted tags = false := by simp [Entity.inserted, hf, hk]
      rw [hinserted] at hrows htags
      refine ⟨hrows.trans hrows'.symm, fun g => ?_⟩
      rw [htags, updateEntity, htags']
      have hnil := survivingTags_eq_nil.mpr (Bool.eq_false_iff.mpr hk)
      simp [diffTags, hnil, emptyTables]

/-! ### A school -/

/-- A school building. -/
def schoolTags : Tags where
  entries := [(ascii "amenity", ascii "school"), (ascii "building", ascii "yes")]
  nodup := by decide

/-- The outline of the school. -/
def schoolArea : Entity := .area 5 [] (.polygon [[⟨0, 0⟩, ⟨0, 1⟩, ⟨1, 1⟩, ⟨0, 0⟩]])

/-- An update drops a tag that the insert stores, and a relation that the insert
keeps. -/
theorem school_loses_building :
    ¬ SameTags (bulkInsert 0 schoolTags schoolArea) (updateEntity schoolTags schoolArea) .areas
    ∧ ¬ SameTags (bulkInsert 0 .empty (.relation 9 [] none))
      (updateEntity .empty (.relation 9 [] none)) .relations := by
  refine ⟨fun h => ?_, fun h => ?_⟩
  · have hstored : ⟨5, ascii "building", ascii "yes"⟩
        ∈ (bulkInsert 0 schoolTags schoolArea).tags .areas := by decide
    have hdropped : ⟨5, ascii "building", ascii "yes"⟩
        ∉ (updateEntity schoolTags schoolArea).tags .areas := by decide
    exact hdropped ((h.tags _).mp hstored)
  · exact absurd h.kept (by decide)

end Gpsxdb
