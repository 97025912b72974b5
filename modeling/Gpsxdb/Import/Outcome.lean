import Mathlib.Tactic
import Gpsxdb.Import.Invariant

/-!
What an import ends with.

* `NavDB.Tidy`: no tag row is buffered without a row of its table; a thread that
  has left its loop buffers nothing at all (`flushed_of_run`);
* `invariant_start`: the invariant at the start, on tables that hold none but
  rows of the file, with all of the ways' under `-R relations`;
* `rows_of_done`, `tags_of_done`: every finished run leaves the rows of the file,
  each once, and the tag rows there were together with those of the entries it
  has read.
-/

namespace Gpsxdb

/-! ### Nothing stays buffered -/

namespace NavDB

/-- No tag row is buffered without a row of its table. -/
structure Tidy (n : NavDB) : Prop where
  nil : ∀ t, n.buf t = [] → n.tag_buf t = []

lemma tidy_flush {n : NavDB} (h : n.Tidy) (t : Table) : (n.flush t).1.Tidy := by
  rw [flush]
  split
  · exact h
  · refine ⟨fun s hs => ?_⟩
    by_cases hst : s = t
    · simp [hst]
    · simp only [Function.update_of_ne hst] at hs ⊢
      exact h.nil s hs

lemma tidy_flushAll {n : NavDB} (h : n.Tidy) (ts : List Table) : (n.flushAll ts).1.Tidy := by
  induction ts generalizing n with
  | nil => exact h
  | cons t ts ih => exact ih (tidy_flush h t)

lemma tidy_insert {n : NavDB} (h : n.Tidy) (t : Table) (r : GeomRecord) (tags : List TagRecord)
    (full : ℕ → Bool) : (n.insert t r tags full).1.Tidy := by
  have hbuf : ({ n with
      buf := Function.update n.buf t (n.buf t ++ [r])
      tag_buf := Function.update n.tag_buf t (n.tag_buf t ++ tags) } : NavDB).Tidy := by
    refine ⟨fun s hs => ?_⟩
    by_cases hst : s = t
    · subst hst
      simp at hs
    · simp only [Function.update_of_ne hst] at hs ⊢
      exact h.nil s hs
  rw [insert]
  split
  · exact tidy_flush hbuf t
  · exact hbuf

lemma tidy_insertWay {n : NavDB} (h : n.Tidy) (id : ℤ) (name : Text) (tags : Tags) (geog : Geog) :
    (n.insertWay id name tags geog).1.Tidy := by
  rw [insertWay]
  split
  · exact h
  · exact tidy_insert h ..

lemma tidy_insertArea {n : NavDB} (h : n.Tidy) (id : ℤ) (name : Text) (tags : Tags) (geog : Geog) :
    (n.insertArea id name tags geog).1.Tidy := by
  rw [insertArea]
  split
  · exact h
  · exact tidy_insert h ..

/-- Tidy and empty buffers hold no items. -/
lemma items_eq_zero {n : NavDB} (h : n.Tidy) {t : Table} (ht : n.buf t = []) : n.items t = 0 := by
  rw [items, ht, h.nil t ht, itemsOf_nil]

end NavDB

/-- A thread's buffers are tidy, and empty once it has left its loop. -/
def WayThread.Flushed (th : WayThread) : Prop :=
  th.db.Tidy ∧ (th.stage = .finished → ∀ t, th.db.buf t = [])

namespace WayThread

lemma flushed_endEntry (th : WayThread) {n : NavDB} (h : n.Tidy) (jobs : List Job) :
    (th.endEntry n jobs).Flushed :=
  ⟨NavDB.tidy_flush h .roads, fun hs => by simp at hs⟩

lemma flushed_finish {th : WayThread} (h : th.db.Tidy) : th.finish.Flushed := by
  refine ⟨NavDB.tidy_flushAll h [.relations, .ways, .areas, .roads, .relations], fun _ t => ?_⟩
  have hmem : t ∈ [.relations, .ways, .areas, .roads, .relations] := by cases t <;> simp
  exact NavDB.flushAll_buf_eq_nil (Or.inr hmem)

lemma flushed_processWay {th : WayThread} (env : ImportEnv) (h : th.db.Tidy) (w : WayEntry) :
    (th.processWay env w).Flushed := by
  rw [processWay]
  split
  · exact flushed_endEntry _ h _
  · rcases buildWayGeom (wayCoords env.select w) with _ | ⟨geog, is_closed⟩
    · exact flushed_endEntry _ h _
    · by_cases ha : isArea is_closed w.tags = true
      · simp only [ha, if_true]
        exact flushed_endEntry _ (NavDB.tidy_insertArea h ..) _
      · simp only [ha, Bool.false_eq_true, if_false]
        exact flushed_endEntry _ (NavDB.tidy_insertWay h ..) _

lemma flushed_finalizeWays {th : WayThread} (h : th.db.Tidy) (held : Option RelationEntry) :
    (th.finalizeWays held).Flushed :=
  ⟨NavDB.tidy_flushAll h [.ways, .areas], fun hs => by simp at hs⟩

lemma flushed_startRelation {th : WayThread} (h : th.db.Tidy) (r : RelationEntry) :
    (th.startRelation r).Flushed := by
  refine ⟨h, fun hs => ?_⟩
  rw [startRelation] at hs
  split at hs <;> simp at hs

end WayThread

namespace ImportState

variable {T : ℕ} {f : OsmFile} {env : ImportEnv} {σ σ' : ImportState T} {i : Fin T}

/-- A move keeps its thread's buffers tidy, and empties them at the end. -/
lemma flushed_move (h : Move env σ i σ') (hf : (σ.threads i).Flushed) :
    (σ'.threads i).Flushed := by
  have ht := hf.1
  cases h with
  | job =>
      rw [threads_setThread_self]
      exact hf
  | leave =>
      rw [threads_setThread_self, WayThread.leaveLoop]
      split
      · exact WayThread.flushed_finish ht
      · exact WayThread.flushed_finalizeWays ht _
  | way =>
      rw [threads_setThread_self]
      exact WayThread.flushed_processWay env ht _
  | relation =>
      rw [threads_setThread_self, WayThread.processRelation]
      split
      · exact WayThread.flushed_startRelation ht _
      · exact WayThread.flushed_finalizeWays ht _
  | arrive =>
      rw [threads_setThread_self]
      exact ⟨ht, fun hs => by simp at hs⟩
  | pass =>
      rw [threads_setThread_self]
      exact WayThread.flushed_startRelation ht _
  | passEnd =>
      rw [threads_setThread_self]
      exact WayThread.flushed_finish ht
  | rings =>
      rw [threads_setThread_self, WayThread.storeArea]
      split
      · exact WayThread.flushed_endEntry _ ht _
      · exact WayThread.flushed_endEntry _ (NavDB.tidy_insertArea ht ..) _
  | read =>
      rw [threads_setThread_self]
      exact ⟨ht, fun hs => by simp at hs⟩
  | store =>
      have hrel := fun r geoms => NavDB.tidy_insert ht .relations r geoms
        ((σ.threads i).db.way_buffer_size < ·)
      rw [threads_setThread_self]
      simp only [WayThread.storeRelation]
      split
      · exact WayThread.flushed_endEntry _ (hrel ..) _
      · split
        · exact WayThread.flushed_endEntry _ (NavDB.tidy_insert (hrel ..) ..) _
        · exact WayThread.flushed_endEntry _ (hrel ..) _

/-- The buffers of every thread of a run. -/
lemma flushed_of_run {σ₀ : ImportState T} (h₀ : ∀ j, (σ₀.threads j).Flushed)
    {moves : List (Fin T)} (h : σ₀.run env moves = some σ) : ∀ j, (σ.threads j).Flushed :=
  foldlM_invariant (I := fun σ : ImportState T => ∀ j, (σ.threads j).Flushed)
    (fun _ _ _ hI hstep => (move_of_step hstep).forall_threads
      (flushed_move (move_of_step hstep) (hI _)) hI) h₀ h

/-! ### The start -/

/-- The queue of an import: ways and relations, or relations alone where the
ways are skipped. -/
def queueOf (f : OsmFile) (skip_ways : Bool) : List OSMEntry :=
  if skip_ways then f.relationEntries else f.entries

/-- The rows of the entries an import reads. -/
def todo (f : OsmFile) (env : ImportEnv) : List Kept :=
  if env.skip_ways then f.relationsKept env.select else f.kept env.select

lemma flatMap_queueOf :
    (queueOf f env.skip_ways).flatMap (f.entryKept env.select) = todo f env := by
  have hrel : f.relationEntries.flatMap (f.entryKept env.select) = f.relationsKept env.select := by
    rw [OsmFile.relationEntries, List.flatMap_map]
    rfl
  rw [queueOf, todo]
  split
  · exact hrel
  · rw [OsmFile.entries, List.flatMap_append, List.flatMap_map]
    exact congrArg _ hrel

/-- Tables an import can start on: none but rows of the file, no id twice, and
all rows of the ways where these are skipped. -/
structure Startable (f : OsmFile) (env : ImportEnv) (d : Database) : Prop where
  rows : ∀ s, ∀ r ∈ d.rows s, Sum.inl r ∈ keptItems (f.kept env.select) s
  nodup : ∀ s, ((d.rows s).map GeomRecord.id).Nodup
  ways : env.skip_ways = true → ∀ k ∈ f.waysKept env.select, k.row ∈ d.rows k.table

/-- The copies of each tag row an import ends with. -/
def tagsAfter (f : OsmFile) (env : ImportEnv) (d : Database) (s : Table) (g : TagRecord) : ℕ :=
  (d.items s + keptItems (todo f env) s).count (Sum.inr g)

lemma start_thread_items (d : Database) (queue : List OSMEntry) (j : Fin T) (s : Table) :
    ((start env d queue : ImportState T).threads j).items f env.select s = 0 := by
  simp [start, WayThread.items, NavDB.items, NavDB.connect, Stage.held]

lemma start_items (d : Database) (s : Table) :
    (start env d (queueOf f env.skip_ways) : ImportState T).items f env.select s
      = d.items s + keptItems (todo f env) s := by
  rw [items, pending, Finset.sum_eq_zero fun j _ => start_thread_items d _ j s, zero_add]
  exact congrArg (fun ks => d.items s + keptItems ks s) flatMap_queueOf

lemma barrier_start (d : Database) :
    Barrier f env (start env d (queueOf f env.skip_ways) : ImportState T) := by
  have hq : (start env d (queueOf f env.skip_ways) : ImportState T).queue
      = queueOf f env.skip_ways := rfl
  have hclear : ∀ j, ((start env d (queueOf f env.skip_ways) : ImportState T).threads j).clear
      = env.skip_ways := fun j => WayThread.clear_of_loop rfl
  have hpassed : ∀ j, ((start env d (queueOf f env.skip_ways) : ImportState T).threads j).passed
      = env.skip_ways := fun j => WayThread.passed_of_loop rfl
  have hno : env.skip_ways = true → ∀ w, OSMEntry.way w ∉ queueOf f env.skip_ways := by
    intro hskip w
    rw [queueOf, hskip]
    simp [OsmFile.relationEntries]
  refine ⟨?_, ?_, ?_, ?_, ?_, ?_, ?_, ?_, ?_, ?_⟩
  · rw [hq, queueOf]
    split
    · exact ⟨[], f.relations, rfl⟩
    · exact ⟨f.ways, f.relations, rfl⟩
  · intro r hr
    rw [hq, queueOf] at hr
    split at hr
    · simpa [OsmFile.relationEntries] using hr
    · simpa [OsmFile.entries] using hr
  · intro j r hr
    simp [start, Stage.held] at hr
  · rw [hq]
    exact hno
  · exact fun hskip _ => hskip
  · exact fun _ => trivial
  · intro j hj w
    rw [hq]
    rcases hj with hj | ⟨held, hj⟩
    · rw [hclear j] at hj
      exact hno hj w
    · simp [start] at hj
  · intro j _
    constructor <;> intro r hr <;> rw [start_thread_items] at hr <;> simp at hr
  · intro hskip
    refine (Finset.card_eq_zero.mpr (Finset.filter_eq_empty_iff.mpr fun j _ => ?_)).symm
    rw [hclear j, hskip]
    simp
  · intro j hj k
    rw [hpassed j] at hj
    rw [hclear k, hj]

lemma stored_start {d : Database} (hd : Startable f env d) :
    Stored f env (tagsAfter f env d)
      (start env d (queueOf f env.skip_ways) : ImportState T) := by
  refine ⟨fun s r => ?_, hd.nodup, fun s g => by rw [start_items]; rfl⟩
  rw [start_items, Multiset.mem_add, Database.items, inl_mem_itemsOf]
  constructor
  · rintro (hr | hr)
    · exact hd.rows s r hr
    · rw [inl_mem_keptItems] at hr ⊢
      obtain ⟨k, hk, hks⟩ := hr
      refine ⟨k, ?_, hks⟩
      rw [todo] at hk
      split at hk
      · exact List.mem_append_right _ hk
      · exact hk
  · intro hr
    obtain ⟨k, hk, rfl, rfl⟩ := inl_mem_keptItems.mp hr
    by_cases hskip : env.skip_ways = true
    · rcases List.mem_append.mp hk with hk | hk
      · exact Or.inl (hd.ways hskip k hk)
      · exact Or.inr (inl_mem_keptItems.mpr ⟨k, by rw [todo, if_pos hskip]; exact hk, rfl, rfl⟩)
    · exact Or.inr (inl_mem_keptItems.mpr ⟨k, by rw [todo, if_neg hskip]; exact hk, rfl, rfl⟩)

/-- **The invariant of an import**, at every point of every run. -/
lemma invariant_of_import {d : Database} (hd : Startable f env d) {moves : List (Fin T)}
    (h : (start env d (queueOf f env.skip_ways)).run env moves = some σ) :
    Barrier f env σ ∧ Stored f env (tagsAfter f env d) σ :=
  invariant_of_run (barrier_start d) (stored_start hd) h

/-! ### The end -/

/-- The copies of a tag row a table holds. -/
lemma count_items (d : Database) (s : Table) (g : TagRecord) :
    (d.items s).count (Sum.inr g) = (d.tags s).count g := by
  have hnot : (Sum.inr g : Item) ∉ ((d.rows s).map Sum.inl : List Item) := by simp
  have hinr := Multiset.count_map_eq_count' (Sum.inr : TagRecord → Item) (d.tags s)
    Sum.inr_injective g
  rw [Multiset.map_coe] at hinr
  rw [Database.items, itemsOf, Multiset.count_add, Multiset.count_eq_zero.mpr hnot, zero_add]
  exact hinr.trans (Multiset.coe_count ..)

/-- A finished run has nothing pending. -/
lemma pending_of_done (hf : ∀ j, (σ.threads j).Flushed) (hdone : σ.Done) (s : Table) :
    σ.pending f env.select s = 0 := by
  rw [pending, hdone.1, List.flatMap_nil, keptItems_nil, add_zero]
  refine Finset.sum_eq_zero fun j _ => ?_
  obtain ⟨hstage, hjobs⟩ := hdone.2 j
  rw [WayThread.items, hjobs, hstage, NavDB.items_eq_zero (hf j).1 ((hf j).2 hstage s)]
  simp [Stage.held]

lemma flushed_of_import {d : Database} {moves : List (Fin T)}
    (h : (start env d (queueOf f env.skip_ways)).run env moves = some σ) :
    ∀ j, (σ.threads j).Flushed :=
  flushed_of_run (fun _ => ⟨⟨fun _ _ => rfl⟩, fun hs => by simp [start] at hs⟩) h

/-- **The rows a finished import leaves**: those of the file, each once. -/
theorem rows_of_done {d : Database} (hd : Startable f env d) {moves : List (Fin T)}
    (h : (start env d (queueOf f env.skip_ways)).run env moves = some σ) (hdone : σ.Done)
    (s : Table) : (σ.db.rows s).Nodup
      ∧ ∀ r, r ∈ σ.db.rows s ↔ Sum.inl r ∈ keptItems (f.kept env.select) s := by
  obtain ⟨-, hs⟩ := invariant_of_import hd h
  refine ⟨(hs.nodup s).of_map _, fun r => ?_⟩
  rw [← hs.rows s r, items, pending_of_done (flushed_of_import h) hdone, add_zero,
    Database.items, inl_mem_itemsOf]

/-- **The tag rows a finished import leaves**: those there were, and those of the
entries it has read. -/
theorem tags_of_done {d : Database} (hd : Startable f env d) {moves : List (Fin T)}
    (h : (start env d (queueOf f env.skip_ways)).run env moves = some σ) (hdone : σ.Done)
    (s : Table) (g : TagRecord) :
    (σ.db.tags s).count g
      = (d.tags s).count g + (keptItems (todo f env) s).count (Sum.inr g) := by
  obtain ⟨-, hs⟩ := invariant_of_import hd h
  have htags := hs.tags s g
  rw [items, pending_of_done (flushed_of_import h) hdone, add_zero, count_items,
    tagsAfter, Multiset.count_add, count_items] at htags
  exact htags

end ImportState

end Gpsxdb
