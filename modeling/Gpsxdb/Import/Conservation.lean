import Mathlib.Tactic
import Gpsxdb.Import.WayThread

/-!
What every move of a way thread conserves: the rows and tag rows in the tables,
in the buffers, in the transactions under way and still to come.

* `Kept`, `wayKept`, `relationKept`: the rows an entry gives rise to;
* `Item`, `WayThread.items`, `ImportState.items`: everything a table holds or is
  going to hold;
* `Database.exec_items`: a transaction moves items into the tables, or drops a
  row that is there already;
* `WayThread.writes`: what a thread buffers and issues; one lemma for each piece
  of local work (`endEntry_writes`, `processWay_writes`, `storeArea_writes`, ...);
* the same with the relation a thread holds (`processWay_items`, ...).
-/

namespace Gpsxdb

/-! ### What an entry is stored as -/

/-- A row to be stored, with its tags. -/
structure Kept where
  table : Table
  row : GeomRecord
  tags : List TagRecord

/-- The row a way gives rise to, if any. -/
def wayKept (select : ℤ → Option Coord) (w : WayEntry) : List Kept :=
  match buildWayGeom (wayCoords select w) with
  | none => []
  | some (geog, is_closed) =>
      if hasSurvivingTag w.tags false then
        [⟨if isArea is_closed w.tags then .areas else .ways, ⟨w.id, w.name, some geog⟩,
          keptTags w.id w.tags false⟩]
      else []

/-- The area a multipolygon gives rise to, if any. -/
def areaKept (r : RelationEntry) (coords_map : ℤ → List Coord) : List Kept :=
  match buildMultipolygon r coords_map with
  | none => []
  | some geog =>
      if hasSurvivingTag r.tags false then
        [⟨.areas, ⟨-r.id, r.name, some geog⟩, keptTags (-r.id) r.tags false⟩]
      else []

/-- The rows any other relation gives rise to. -/
def routeKept (r : RelationEntry) (geoms : List Geog) : List Kept :=
  ⟨.relations, ⟨r.id, r.name, relationGeom geoms⟩, keptTags r.id r.tags false⟩ ::
    match relationGeom geoms with
    | none => []
    | some geog =>
        if isRoad r.tags then [⟨.roads, ⟨r.id, r.name, some geog⟩, keptTags r.id r.tags false⟩]
        else []

/-! ### Items -/

/-- A row or a tag row of some table. -/
abbrev Item := GeomRecord ⊕ TagRecord

/-- The items of rows and tag rows. -/
def itemsOf (rows : List GeomRecord) (tags : List TagRecord) : Multiset Item :=
  (rows.map Sum.inl : List Item) + (tags.map Sum.inr : List Item)

/-- What a table and its tag table hold. -/
def Database.items (d : Database) (s : Table) : Multiset Item := itemsOf (d.rows s) (d.tags s)

/-- What the buffers hold for a table. -/
def NavDB.items (n : NavDB) (s : Table) : Multiset Item := itemsOf (n.buf s) (n.tag_buf s)

/-- What a transaction is to write to a table. -/
def Job.items : Job → Table → Multiset Item
  | .copy t buf _, s => if s = t then itemsOf buf [] else 0
  | .tags t buf, s => if s = t then itemsOf [] buf else 0

/-- What a list of transactions is to write to a table. -/
def jobsItems (jobs : List Job) (s : Table) : Multiset Item := (jobs.map fun j => j.items s).sum

/-- What an entry is to add to a table. -/
def Kept.items (k : Kept) (s : Table) : Multiset Item :=
  if s = k.table then itemsOf [k.row] k.tags else 0

/-- What several rows are to add to a table. -/
def keptItems (ks : List Kept) (s : Table) : Multiset Item := (ks.map fun k => k.items s).sum

@[simp] lemma jobsItems_nil (s : Table) : jobsItems [] s = 0 := rfl

@[simp] lemma jobsItems_cons (j : Job) (jobs : List Job) (s : Table) :
    jobsItems (j :: jobs) s = j.items s + jobsItems jobs s := by
  simp [jobsItems]

@[simp] lemma jobsItems_append (jobs jobs' : List Job) (s : Table) :
    jobsItems (jobs ++ jobs') s = jobsItems jobs s + jobsItems jobs' s := by
  simp [jobsItems]

@[simp] lemma keptItems_nil (s : Table) : keptItems [] s = 0 := rfl

@[simp] lemma keptItems_cons (k : Kept) (ks : List Kept) (s : Table) :
    keptItems (k :: ks) s = k.items s + keptItems ks s := by
  simp [keptItems]

@[simp] lemma keptItems_append (ks ks' : List Kept) (s : Table) :
    keptItems (ks ++ ks') s = keptItems ks s + keptItems ks' s := by
  simp [keptItems]

@[simp] lemma itemsOf_nil : itemsOf [] [] = 0 := rfl

lemma itemsOf_append (rows rows' : List GeomRecord) (tags tags' : List TagRecord) :
    itemsOf (rows ++ rows') (tags ++ tags') = itemsOf rows tags + itemsOf rows' tags' := by
  simp only [itemsOf, List.map_append, ← Multiset.coe_add]
  abel

@[simp] lemma inl_mem_itemsOf {r : GeomRecord} {rows : List GeomRecord} {tags : List TagRecord} :
    Sum.inl r ∈ itemsOf rows tags ↔ r ∈ rows := by
  simp [itemsOf]

@[simp] lemma inr_mem_itemsOf {g : TagRecord} {rows : List GeomRecord} {tags : List TagRecord} :
    Sum.inr g ∈ itemsOf rows tags ↔ g ∈ tags := by
  simp [itemsOf]

lemma mem_keptItems {ks : List Kept} {s : Table} {x : Item} :
    x ∈ keptItems ks s ↔ ∃ k ∈ ks, k.table = s ∧ x ∈ itemsOf [k.row] k.tags := by
  induction ks with
  | nil => simp
  | cons k ks ih =>
      rw [keptItems_cons, Multiset.mem_add, ih, Kept.items]
      by_cases h : s = k.table
      · simp [h]
      · simp [h, Ne.symm h]

/-- The rows among the items of entries. -/
lemma inl_mem_keptItems {ks : List Kept} {s : Table} {r : GeomRecord} :
    Sum.inl r ∈ keptItems ks s ↔ ∃ k ∈ ks, k.table = s ∧ k.row = r := by
  rw [mem_keptItems]
  simp [eq_comm]

/-! ### Buffers -/

namespace NavDB

/-- A flush moves items from the buffers to the transactions it issues. -/
lemma flush_items (n : NavDB) (t s : Table) :
    (n.flush t).1.items s + jobsItems (n.flush t).2 s = n.items s := by
  rw [flush]
  split
  · simp
  · by_cases hs : s = t
    · subst hs
      simp [items, Job.items, ← itemsOf_append]
    · simp [items, Job.items, hs]

lemma flushAll_items (n : NavDB) (ts : List Table) (s : Table) :
    (n.flushAll ts).1.items s + jobsItems (n.flushAll ts).2 s = n.items s := by
  induction ts generalizing n with
  | nil => simp [flushAll]
  | cons t ts ih =>
      simp only [flushAll, jobsItems_append]
      rw [← n.flush_items t s, ← ih (n.flush t).1]
      abel

lemma insert_items (n : NavDB) (t s : Table) (r : GeomRecord) (tags : List TagRecord)
    (full : ℕ → Bool) :
    (n.insert t r tags full).1.items s + jobsItems (n.insert t r tags full).2 s
      = n.items s + (Kept.mk t r tags).items s := by
  have hbuf : ({ n with
      buf := Function.update n.buf t (n.buf t ++ [r])
      tag_buf := Function.update n.tag_buf t (n.tag_buf t ++ tags) } : NavDB).items s
      = n.items s + (Kept.mk t r tags).items s := by
    by_cases hs : s = t
    · subst hs
      simp [items, Kept.items, itemsOf_append]
    · simp [items, Kept.items, hs]
  rw [insert]
  split
  · rw [flush_items, hbuf]
  · rw [jobsItems_nil, add_zero, hbuf]

lemma insertWay_items (n : NavDB) (id : ℤ) (name : Text) (tags : Tags) (geog : Geog) (s : Table) :
    (n.insertWay id name tags geog).1.items s + jobsItems (n.insertWay id name tags geog).2 s
      = n.items s + keptItems (if hasSurvivingTag tags false then
          [⟨.ways, ⟨id, name, some geog⟩, keptTags id tags false⟩] else []) s := by
  rw [insertWay]
  by_cases h : hasSurvivingTag tags false = true
  · simp [h, insert_items]
  · simp [h]

lemma insertArea_items (n : NavDB) (id : ℤ) (name : Text) (tags : Tags) (geog : Geog) (s : Table) :
    (n.insertArea id name tags geog).1.items s + jobsItems (n.insertArea id name tags geog).2 s
      = n.items s + keptItems (if hasSurvivingTag tags false then
          [⟨.areas, ⟨id, name, some geog⟩, keptTags id tags false⟩] else []) s := by
  rw [insertArea]
  by_cases h : hasSurvivingTag tags false = true
  · simp [h, insert_items]
  · simp [h]

lemma insertRoad_items (n : NavDB) (id : ℤ) (name : Text) (tags : Tags) (geog : Geog) (s : Table) :
    (n.insertRoad id name tags geog).1.items s + jobsItems (n.insertRoad id name tags geog).2 s
      = n.items s + (Kept.mk .roads ⟨id, name, some geog⟩ (keptTags id tags false)).items s :=
  n.insert_items ..

lemma insertRelation_items (n : NavDB) (id : ℤ) (name : Text) (tags : Tags) (geog : Option Geog)
    (s : Table) : (n.insertRelation id name tags geog).1.items s
      + jobsItems (n.insertRelation id name tags geog).2 s
      = n.items s + (Kept.mk .relations ⟨id, name, geog⟩ (keptTags id tags false)).items s :=
  n.insert_items ..

/-- The buffer of a table just flushed is empty, and stays so. -/
lemma flush_buf_self (n : NavDB) (t : Table) : (n.flush t).1.buf t = [] := by
  rw [flush]
  split
  · assumption
  · simp

lemma flush_buf_eq_nil {n : NavDB} {t s : Table} (h : n.buf s = []) : (n.flush t).1.buf s = [] := by
  rw [flush]
  split
  · exact h
  · by_cases hs : s = t
    · simp [hs]
    · simpa [hs] using h

lemma flushAll_buf_eq_nil {n : NavDB} {ts : List Table} {s : Table} (h : n.buf s = [] ∨ s ∈ ts) :
    (n.flushAll ts).1.buf s = [] := by
  induction ts generalizing n with
  | nil => simpa [flushAll] using h
  | cons t ts ih =>
      simp only [flushAll]
      refine ih ?_
      rcases h with h | h
      · exact Or.inl (flush_buf_eq_nil h)
      · rcases List.mem_cons.mp h with rfl | h
        · exact Or.inl (flush_buf_self n s)
        · exact Or.inr h

end NavDB

/-! ### Transactions -/

/-- A batch goes through exactly when its ids are new and distinct. -/
lemma firstRejected_eq_none {taken : List ℤ} {buf : List GeomRecord} :
    firstRejected taken buf = none
      ↔ (buf.map GeomRecord.id).Nodup ∧ ∀ r ∈ buf, r.id ∉ taken := by
  induction buf generalizing taken with
  | nil => simp [firstRejected]
  | cons r buf ih =>
      rw [firstRejected]
      by_cases h : r.id ∈ taken
      · simp [h]
      · simp only [List.contains_iff_mem, h, if_false, Option.map_eq_none_iff, ih, List.map_cons,
          List.nodup_cons, List.mem_cons, List.mem_map, forall_eq_or_imp, not_false_eq_true,
          true_and, not_or]
        constructor
        · rintro ⟨hnd, hnew⟩
          exact ⟨⟨fun ⟨x, hx, hid⟩ => (hnew x hx).1 hid, hnd⟩, fun x hx => (hnew x hx).2⟩
        · rintro ⟨⟨hr, hnd⟩, hnew⟩
          exact ⟨hnd, fun x hx => ⟨fun hid => hr ⟨x, hx, hid⟩, hnew x hx⟩⟩

/-- The line named by a rejection is a row whose id is taken, by the table or by
a row of the batch that stays. -/
lemma firstRejected_eq_some {taken : List ℤ} {buf : List GeomRecord} {line : ℕ}
    (h : firstRejected taken buf = some line) :
    ∃ r, (r :: buf.eraseIdx line).Perm buf
      ∧ (r.id ∈ taken ∨ ∃ r' ∈ buf.eraseIdx line, r'.id = r.id) := by
  induction buf generalizing taken line with
  | nil => simp [firstRejected] at h
  | cons q buf ih =>
      rw [firstRejected] at h
      split at h
      · rename_i hq
        obtain rfl := Option.some.inj h
        exact ⟨q, by simp, Or.inl (by simpa using hq)⟩
      · rw [Option.map_eq_some_iff] at h
        obtain ⟨k, hk, rfl⟩ := h
        obtain ⟨r, hperm, htaken⟩ := ih hk
        refine ⟨r, ?_, ?_⟩
        · rw [List.eraseIdx_cons_succ]
          exact (List.Perm.swap q r _).trans (hperm.cons q)
        · rw [List.eraseIdx_cons_succ]
          rcases htaken with ht | ⟨r', hr', hid⟩
          · rcases List.mem_cons.mp ht with ht | ht
            · exact Or.inr ⟨q, List.mem_cons_self .., ht.symm⟩
            · exact Or.inl ht
          · exact Or.inr ⟨r', List.mem_cons_of_mem _ hr', hid⟩

/-- The items a transaction leaves to be written. -/
def againItems (again : Option Job) (s : Table) : Multiset Item := jobsItems again.toList s

/-- **One transaction** either moves items, or drops a row whose id is taken by
a row that stays; and no table gets an id twice. -/
lemma Database.exec_items (d : Database) (j : Job) :
    ((∀ s, (d.exec j).1.items s + againItems (d.exec j).2 s = d.items s + j.items s)
      ∨ ∃ t r r', (∀ s, (d.exec j).1.items s + againItems (d.exec j).2 s
            + (if s = t then {Sum.inl r} else 0) = d.items s + j.items s)
          ∧ Sum.inl r' ∈ (d.exec j).1.items t + againItems (d.exec j).2 t ∧ r'.id = r.id)
    ∧ ∀ t, ((d.rows t).map GeomRecord.id).Nodup
      → (((d.exec j).1.rows t).map GeomRecord.id).Nodup := by
  cases j with
  | tags t buf =>
      refine ⟨Or.inl fun s => ?_, fun _ h => h⟩
      by_cases hs : s = t
      · subst hs
        have h := itemsOf_append (d.rows s) [] (d.tags s) buf
        rw [List.append_nil] at h
        simp [exec, items, againItems, Job.items, h]
      · simp [exec, items, againItems, Job.items, hs]
  | copy t buf retry =>
      rw [exec]
      rcases hrej : firstRejected ((d.rows t).map GeomRecord.id) buf with _ | line
      · obtain ⟨hnd, hnew⟩ := firstRejected_eq_none.mp hrej
        refine ⟨Or.inl fun s => ?_, fun u hu => ?_⟩
        · by_cases hs : s = t
          · subst hs
            have h := itemsOf_append (d.rows s) buf (d.tags s) []
            rw [List.append_nil] at h
            simp [items, againItems, Job.items, h]
          · simp [items, againItems, Job.items, hs]
        · by_cases hut : u = t
          · subst hut
            simp only [Function.update_self, List.map_append, List.nodup_append]
            refine ⟨hu, hnd, fun a ha b hb hab => ?_⟩
            obtain ⟨r, hr, rfl⟩ := List.mem_map.mp hb
            exact hnew r hr (hab ▸ ha)
          · simpa [hut] using hu
      · -- the batch is not committed: it is tried again, without the line if it was a retry
        refine ⟨?_, fun _ h => h⟩
        have hagain : ∀ rest s, againItems (if rest = [] then none else some (.copy t rest true)) s
            = if s = t then itemsOf rest [] else 0 := by
          intro rest s
          split
          · simp [againItems, ‹rest = []›]
          · simp [againItems, Job.items]
        cases retry with
        | false =>
            refine Or.inl fun s => ?_
            simp only [Bool.false_eq_true, if_false, hagain, Job.items]
        | true =>
            obtain ⟨r, hperm, htaken⟩ := firstRejected_eq_some hrej
            obtain ⟨r', hr', hid⟩ : ∃ r', r' ∈ d.rows t ++ buf.eraseIdx line ∧ r'.id = r.id := by
              rcases htaken with ht | ⟨r', hr', hid⟩
              · obtain ⟨r', hr', hid⟩ := List.mem_map.mp ht
                exact ⟨r', List.mem_append_left _ hr', hid⟩
              · exact ⟨r', List.mem_append_right _ hr', hid⟩
            refine Or.inr ⟨t, r, r', fun s => ?_, ?_, hid⟩
            · simp only [if_true, hagain, Job.items]
              by_cases hs : s = t
              · have hitems : itemsOf buf [] = itemsOf (buf.eraseIdx line) [] + {Sum.inl r} := by
                  have hmap := (hperm.map (Sum.inl : GeomRecord → Item)).symm
                  simp only [itemsOf, List.map_nil, Multiset.coe_nil, add_zero,
                    Multiset.coe_eq_coe.mpr hmap]
                  rw [List.map_cons, ← Multiset.cons_coe, ← Multiset.singleton_add, add_comm]
                simp only [hs, if_true, hitems]
                abel
              · simp [hs]
            · simp only [if_true, hagain, Multiset.mem_add, items, inl_mem_itemsOf]
              exact List.mem_append.mp hr'

/-! ### What a thread writes -/

/-- What a thread has in hand for a table: its buffers and its transactions. -/
def WayThread.writes (th : WayThread) (s : Table) : Multiset Item :=
  th.db.items s + jobsItems th.jobs s

namespace WayThread

/-- The end of a turn keeps what the turn has buffered and issued. -/
lemma endEntry_writes (th : WayThread) (n : NavDB) (jobs : List Job) (s : Table) :
    (th.endEntry n jobs).writes s = n.items s + jobsItems jobs s := by
  rw [← n.flush_items .roads s]
  simp only [writes, endEntry, jobsItems_append]
  abel

/-- The end of a thread keeps what is buffered. -/
lemma finish_writes (th : WayThread) (s : Table) : th.finish.writes s = th.db.items s :=
  th.db.flushAll_items [.relations, .ways, .areas, .roads, .relations] s

/-- `finalize_ways` keeps what is buffered. -/
lemma finalizeWays_writes (th : WayThread) (held : Option RelationEntry) (s : Table) :
    (th.finalizeWays held).writes s = th.db.items s :=
  th.db.flushAll_items [.ways, .areas] s

lemma startRelation_writes (th : WayThread) (r : RelationEntry) (s : Table) :
    (th.startRelation r).writes s = th.writes s := rfl

lemma processRelation_writes {th : WayThread} (hjobs : th.jobs = []) (r : RelationEntry)
    (s : Table) : (th.processRelation r).writes s = th.db.items s := by
  rw [processRelation]
  split
  · rw [startRelation_writes, writes, hjobs, jobsItems_nil, add_zero]
  · exact th.finalizeWays_writes _ s

lemma leaveLoop_writes (th : WayThread) (s : Table) : th.leaveLoop.writes s = th.db.items s := by
  rw [leaveLoop]
  split
  · exact th.finish_writes s
  · exact th.finalizeWays_writes none s

/-- A popped way is buffered as the row it gives rise to. -/
lemma processWay_writes {env : ImportEnv} (hskip : env.skip_ways = false) (th : WayThread)
    (w : WayEntry) (s : Table) : (th.processWay env w).writes s
      = th.db.items s + keptItems (wayKept env.select w) s := by
  rw [processWay, hskip, if_neg (by simp), wayKept]
  rcases buildWayGeom (wayCoords env.select w) with _ | ⟨geog, is_closed⟩
  · simp [endEntry_writes]
  · simp only [endEntry_writes]
    by_cases ha : isArea is_closed w.tags = true
    · simp only [ha, if_true]
      exact th.db.insertArea_items ..
    · simp only [ha, Bool.false_eq_true, if_false]
      exact th.db.insertWay_items ..

/-- A multipolygon is buffered as the area it gives rise to. -/
lemma storeArea_writes (th : WayThread) (r : RelationEntry) (coords_map : ℤ → List Coord)
    (s : Table) : (th.storeArea r coords_map).writes s
      = th.db.items s + keptItems (areaKept r coords_map) s := by
  rw [storeArea, areaKept]
  rcases buildMultipolygon r coords_map with _ | geog
  · simp [endEntry_writes]
  · simp only [endEntry_writes]
    exact th.db.insertArea_items ..

/-- Any other relation is buffered as the rows it gives rise to. -/
lemma storeRelation_writes (th : WayThread) (r : RelationEntry) (geoms : List Geog) (s : Table) :
    (th.storeRelation r geoms).writes s = th.db.items s + keptItems (routeKept r geoms) s := by
  have hrel := fun g => th.db.insertRelation_items r.id r.name r.tags g s
  rw [storeRelation, routeKept]
  rcases relationGeom geoms with _ | geog
  · simp only [endEntry_writes, keptItems_cons, keptItems_nil, add_zero]
    exact hrel none
  · by_cases hroad : isRoad r.tags = true
    · simp only [hroad, if_true, endEntry_writes, jobsItems_append, keptItems_cons, keptItems_nil,
        add_zero]
      rw [← add_assoc (th.db.items s), ← hrel, add_right_comm _ (jobsItems _ s),
        ← NavDB.insertRoad_items]
      abel
    · simp only [hroad, Bool.false_eq_true, if_false, endEntry_writes, keptItems_cons,
        keptItems_nil, add_zero]
      exact hrel (some geog)

end WayThread

/-! ### Threads -/

/-- The tables that hold exactly the given rows. -/
def Database.ofKept (ks : List Kept) : Database where
  rows t := (ks.filter fun k => k.table = t).map Kept.row
  tags t := (ks.filter fun k => k.table = t).flatMap Kept.tags

namespace OsmFile

variable (f : OsmFile) (select : ℤ → Option Coord)

/-- The rows the ways of a file give rise to. -/
def waysKept : List Kept := f.ways.flatMap (wayKept select)

/-- The tables as the way phase leaves them. -/
def wayTables : Database := Database.ofKept (f.waysKept select)

/-- The rows a relation gives rise to after the way phase. -/
def relationKept (r : RelationEntry) : List Kept :=
  if isMultipolygon r.tags then
    areaKept r ((f.wayTables select).getWayCoordsMap (r.way_members.map RelationMember.id))
  else routeKept r (r.way_members.filterMap fun m => (f.wayTables select).getWay m.id)

/-- The rows the relations of a file give rise to. -/
def relationsKept : List Kept := f.relations.flatMap (f.relationKept select)

/-- The rows an entry of the queue gives rise to. -/
def entryKept : OSMEntry → List Kept
  | .way w => wayKept select w
  | .relation r => f.relationKept select r

end OsmFile

/-- The relation a thread has popped and not yet stored. -/
def Stage.held : Stage → Option RelationEntry
  | .loop => none
  | .arriving held => held
  | .waiting _ held => held
  | .rings item => some item
  | .geoms item _ _ => some item
  | .finished => none

section

variable (f : OsmFile) (select : ℤ → Option Coord)

/-- The rows of a relation a thread has popped. -/
def heldKept (held : Option RelationEntry) : List Kept :=
  held.toList.flatMap (f.relationKept select)

@[simp] lemma heldKept_none : heldKept f select none = [] := rfl

@[simp] lemma heldKept_some (r : RelationEntry) :
    heldKept f select (some r) = f.relationKept select r := by
  simp [heldKept]

/-- Everything a thread is still to write to a table. -/
def WayThread.items (th : WayThread) (s : Table) : Multiset Item :=
  th.db.items s + jobsItems th.jobs s + keptItems (heldKept f select th.stage.held) s

namespace WayThread

/-- A thread holds what it writes and the relation it has popped. -/
lemma items_eq_writes (th : WayThread) (s : Table) : th.items f select s
    = th.writes s + keptItems (heldKept f select th.stage.held) s := rfl

lemma items_of_loop {th : WayThread} (h : th.stage = .loop) (s : Table) :
    th.items f select s = th.writes s := by
  rw [items_eq_writes, h, Stage.held, heldKept_none, keptItems_nil, add_zero]

lemma finish_items (th : WayThread) (s : Table) :
    th.finish.items f select s = th.db.items s := by
  rw [items_eq_writes, finish_writes, finish_stage, Stage.held, heldKept_none, keptItems_nil,
    add_zero]

/-- `finalize_ways` keeps what is buffered and what the thread has popped. -/
lemma finalizeWays_items (th : WayThread) (held : Option RelationEntry) (s : Table) :
    (th.finalizeWays held).items f select s
      = th.db.items s + keptItems (heldKept f select held) s := by
  rw [items_eq_writes, finalizeWays_writes]
  rfl

/-- The start of a relation only takes hold of it. -/
lemma startRelation_items (th : WayThread) (r : RelationEntry) (s : Table) :
    (th.startRelation r).items f select s
      = th.db.items s + jobsItems th.jobs s + keptItems (f.relationKept select r) s := by
  rw [items, startRelation]
  split <;> simp [Stage.held]

/-- A popped relation is held. -/
lemma processRelation_items {th : WayThread} (hjobs : th.jobs = []) (r : RelationEntry)
    (s : Table) : (th.processRelation r).items f select s
      = th.db.items s + keptItems (f.relationKept select r) s := by
  rw [processRelation]
  split
  · rw [startRelation_items, hjobs, jobsItems_nil, add_zero]
  · rw [finalizeWays_items, heldKept_some]

lemma leaveLoop_items (th : WayThread) (s : Table) :
    th.leaveLoop.items f select s = th.db.items s := by
  rw [leaveLoop]
  split
  · exact finish_items f select th s
  · rw [finalizeWays_items]
    simp

lemma storeArea_items (th : WayThread) (r : RelationEntry) (coords_map : ℤ → List Coord)
    (s : Table) : (th.storeArea r coords_map).items f select s
      = th.db.items s + keptItems (areaKept r coords_map) s := by
  rw [items_of_loop f select (storeArea_stage ..), storeArea_writes]

lemma storeRelation_items (th : WayThread) (r : RelationEntry) (geoms : List Geog) (s : Table) :
    (th.storeRelation r geoms).items f select s
      = th.db.items s + keptItems (routeKept r geoms) s := by
  rw [items_of_loop f select (storeRelation_stage ..), storeRelation_writes]

/-- A popped way is buffered as the row it gives rise to. -/
lemma processWay_items {env : ImportEnv} (hskip : env.skip_ways = false) (th : WayThread)
    (w : WayEntry) (s : Table) : (th.processWay env w).items f env.select s
      = th.db.items s + keptItems (wayKept env.select w) s := by
  rw [items_of_loop f env.select (processWay_stage ..), processWay_writes hskip]

end WayThread

end

end Gpsxdb
