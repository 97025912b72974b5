import Mathlib.Tactic
import Gpsxdb.Import.WayBarrier
import Gpsxdb.Import.Resume

/-!
What a run of the way phase over its bounded queue leaves of a file.

* `fileEntries`: the entries of a file whose nodes are all read by then;
* `OsmFile.kept_nodup`, `OsmFile.kept_congr`: its rows, each one once, depend on the nodes
  that the ways refer to;
* `Carried`: the invariants of the import, kept by the producer and by every thread;
  `carried_step`, `carried_run`;
* `tables_of_halted`: where nobody can move **the tables are those of the file**.
-/

namespace Gpsxdb

/-- The ways and relations of a file, as the producer pushes them. -/
def fileEntries (f : OsmFile) : List QueueEntry := f.entries.map QueueEntry.entry

lemma toEntry_fileEntries (f : OsmFile) :
    (fileEntries f).filterMap QueueEntry.toEntry = f.entries := by
  rw [fileEntries, List.filterMap_map]
  exact List.filterMap_some

lemma waysFirst_fileEntries (f : OsmFile) : WayPhaseRun.WaysFirst (fileEntries f) :=
  ⟨f.ways, f.relations, toEntry_fileEntries f⟩

/-! ### No nodes on the way -/

namespace QueueEntry

/-- Not a node. -/
def Counts (e : QueueEntry) : Prop := ∃ item, e.toEntry = some item

lemma length_filterMap_toEntry {l : List QueueEntry} (h : ∀ e ∈ l, e.Counts) :
    (l.filterMap toEntry).length = l.length := by
  induction l with
  | nil => rfl
  | cons e l ih =>
      obtain ⟨item, he⟩ := h e List.mem_cons_self
      rw [List.filterMap_cons_some he, List.length_cons, List.length_cons,
        ih fun e he => h e (List.mem_cons_of_mem _ he)]

end QueueEntry

/-! ### The tables of a file -/

namespace OsmFile

variable {f : OsmFile} {select select' : ℤ → Option Coord}

/-- A relation gives rise to different rows. -/
lemma relationKept_nodup (r : RelationEntry) : (f.relationKept select r).Nodup := by
  rw [relationKept]
  split
  · rw [areaKept]
    split
    · exact List.nodup_nil
    · split
      · exact List.nodup_singleton _
      · exact List.nodup_nil
  · rw [routeKept]
    split
    · exact List.nodup_singleton _
    · split
      · simp
      · exact List.nodup_singleton _

/-- **No row of a file twice.** -/
lemma kept_nodup : (f.kept select).Nodup := by
  refine List.nodup_append.mpr ⟨waysKept_nodup.of_map _, ?_, fun k hk k' hk' heq => ?_⟩
  · refine List.nodup_flatMap.mpr ⟨fun r _ => relationKept_nodup r, ?_⟩
    refine (List.pairwise_map.mp f.relation_nodup).imp_of_mem fun hr hr' hne k hk hk' => hne ?_
    have hpos := f.relation_pos _ hr
    have hpos' := f.relation_pos _ hr'
    rcases mem_relationKept hk with ⟨-, h1, -⟩ | ⟨-, h1, -⟩ <;>
      rcases mem_relationKept hk' with ⟨-, h2, -⟩ | ⟨-, h2, -⟩ <;> omega
  · subst heq
    obtain ⟨w, hw, hkw⟩ := mem_waysKept.mp hk
    obtain ⟨r, hr, hkr⟩ := mem_relationsKept.mp hk'
    obtain ⟨h1, h2, -⟩ := mem_wayKept hkw
    have hpos := f.way_pos w hw
    have hpos' := f.relation_pos r hr
    rcases mem_relationKept hkr with ⟨-, h3, -⟩ | ⟨h3, -, -⟩
    · omega
    · rcases h2 with h2 | h2 <;> simp [h2] at h3

/-- The rows of one table. -/
lemma rows_kept_nodup (s : Table) : ((Database.ofKept (f.kept select)).rows s).Nodup := by
  refine List.Nodup.map_on (fun k hk k' hk' heq => ?_) (kept_nodup.filter _)
  simp only [List.mem_filter, decide_eq_true_eq] at hk hk'
  exact kept_unique hk.1 hk'.1 (hk.2.trans hk'.2.symm) (congrArg GeomRecord.id heq)

/-- **The tables depend on the nodes that the ways refer to**, and no others. -/
lemma kept_congr (h : ∀ w ∈ f.ways, ∀ ref ∈ w.node_refs, select ref = select' ref) :
    f.kept select = f.kept select' := by
  have hways : f.waysKept select = f.waysKept select' := by
    refine List.flatMap_congr fun w hw => ?_
    have hcoords : wayCoords select w = wayCoords select' w :=
      List.filterMap_congr fun ref href => h w hw ref href
    rw [wayKept, wayKept, hcoords]
  have hrelation : ∀ r, f.relationKept select r = f.relationKept select' r := by
    intro r
    rw [relationKept, relationKept, wayTables, wayTables, hways]
  rw [kept, kept, relationsKept, relationsKept, hways]
  exact congrArg _ (List.flatMap_congr fun r _ => hrelation r)

end OsmFile

/-- The tag rows of a file. -/
lemma count_tags_ofKept (ks : List Kept) (s : Table) (g : TagRecord) :
    ((Database.ofKept ks).tags s).count g = (keptItems ks s).count (Sum.inr g) := by
  have htags : ∀ ks : List Kept, (Database.ofKept ks).tags s
      = (ks.filter fun k => k.table = s).flatMap Kept.tags := fun _ => rfl
  induction ks with
  | nil => rfl
  | cons k ks ih =>
      rw [keptItems_cons, Multiset.count_add, ← ih, htags, htags]
      by_cases hs : k.table = s
      · subst hs
        have hitem : (k.items k.table).count (Sum.inr g) = k.tags.count g := by
          rw [Kept.items, if_pos rfl]
          exact ImportState.count_items ⟨fun _ => [k.row], fun _ => k.tags⟩ k.table g
        rw [hitem, List.filter_cons_of_pos (by simp), List.flatMap_cons, List.count_append]
      · have hitem : (k.items s).count (Sum.inr g) = 0 := by
          rw [Kept.items, if_neg (Ne.symm hs)]
          rfl
        rw [hitem, zero_add, List.filter_cons_of_neg (by simp [hs])]

/-- The tables once nothing is pending. -/
lemma ImportState.sameTables_of_done {T : ℕ} {f : OsmFile} {env : ImportEnv} {σ : ImportState T}
    (hs : Stored f env (tagsAfter f env .empty) σ) (hskip : env.skip_ways = false)
    (hflushed : ∀ j, (σ.threads j).Flushed) (hdone : σ.Done) :
    SameTables σ.db (.ofKept (f.kept env.select)) := by
  have hitems : ∀ s, σ.items f env.select s = σ.db.items s := fun s => by
    rw [items, pending_of_done hflushed hdone, add_zero]
  have htodo : todo f env = f.kept env.select := by
    rw [todo, hskip]
    rfl
  intro s
  constructor
  · refine (List.perm_ext_iff_of_nodup ((hs.nodup s).of_map _)
      (OsmFile.rows_kept_nodup s)).mpr fun r => ?_
    rw [Database.mem_rows_ofKept, ← inl_mem_keptItems, ← hs.rows s r, hitems, Database.items,
      inl_mem_itemsOf]
  · refine List.perm_iff_count.mpr fun g => ?_
    have htags := hs.tags s g
    rw [hitems, count_items, tagsAfter, Multiset.count_add, count_items, htodo] at htags
    rw [htags, count_tags_ofKept]
    exact zero_add _

namespace WayPhaseRun

variable {T : ℕ} {f : OsmFile} {env : ImportEnv} {queue_size : ℤ} {c c' : WayPhaseRun T}
  {a : Actor T} {i : Fin T}

/-- The entries nobody has popped yet. -/
def entriesLeft (c : WayPhaseRun T) : List QueueEntry := c.way_q.q ++ c.unread

/-- A step only takes entries from the front. -/
lemma entriesLeft_step (h : c.step env a = some c') : c'.entriesLeft <:+ c.entriesLeft := by
  cases a with
  | producer =>
      rcases producer_cases h with ⟨e, unread, hu, rfl⟩ | ⟨hu, -, rfl⟩
      · simp [entriesLeft, hu]
      · exact List.suffix_refl _
  | thread i =>
      rw [step] at h
      split at h
      · obtain ⟨⟨r, way_q⟩, hpop, rfl⟩ := Option.map_eq_some_iff.mp h
        rcases BlockingQueue.of_pop hpop with ⟨item, q, hq, -, rfl⟩ | ⟨-, -, -, rfl⟩
        · exact ⟨[item], by simp [entriesLeft, hq]⟩
        · exact List.suffix_refl _
      · obtain ⟨σ, -, rfl⟩ := Option.map_eq_some_iff.mp h
        exact List.suffix_refl _

/-- Without nodes in the queue nothing is skipped. -/
lemma not_skip (hcounts : ∀ e ∈ c.entriesLeft, e.Counts) (hleft : c'.entriesLeft <:+ c.entriesLeft)
    (hunread : c'.unread = c.unread) (hlen : c'.way_q.q.length < c.way_q.q.length)
    (h : c.all.Skip i c'.all) : False := by
  obtain ⟨-, -, hall⟩ := h
  have hqueue : c'.all.queue = c.all.queue := by
    rw [hall]
    rfl
  have hsame : c'.entriesLeft.length = c.entriesLeft.length := by
    rw [← QueueEntry.length_filterMap_toEntry hcounts,
      ← QueueEntry.length_filterMap_toEntry fun e he => hcounts e (hleft.subset he)]
    exact congrArg List.length hqueue
  rw [entriesLeft, entriesLeft, List.length_append, List.length_append, hunread] at hsame
  omega

/-- **The invariants of an import**, for a run over the queue. -/
structure Carried (f : OsmFile) (env : ImportEnv) (queue_size : ℤ) (c : WayPhaseRun T) :
    Prop where
  sound : c.Sound queue_size
  barrier : ImportState.Barrier f env c.all
  stored : ImportState.Stored f env (ImportState.tagsAfter f env .empty) c.all
  flushed : ∀ j, (c.all.threads j).Flushed
  drained : c.all.Drained
  counts : ∀ e ∈ c.entriesLeft, e.Counts

lemma all_start (env : ImportEnv) (queue_size : ℤ) (f : OsmFile) (d : Database) :
    (start env queue_size (fileEntries f) d : WayPhaseRun T).all
      = ImportState.start env d f.entries := by
  simp only [start, all, ImportState.start, List.nil_append, toEntry_fileEntries]

lemma carried_start (hskip : env.skip_ways = false) (queue_size : ℤ) :
    Carried f env queue_size (start env queue_size (fileEntries f) .empty : WayPhaseRun T) := by
  have hqueue : f.entries = ImportState.queueOf f env.skip_ways := by
    rw [ImportState.queueOf, hskip]
    rfl
  have hall := all_start (T := T) env queue_size f .empty
  refine ⟨sound_start hskip queue_size (waysFirst_fileEntries f) .empty, ?_, ?_, ?_, ?_, ?_⟩
  · rw [hall, hqueue]
    exact ImportState.barrier_start .empty
  · rw [hall, hqueue]
    exact ImportState.stored_start (ImportState.startable_empty hskip)
  · rw [hall]
    exact fun _ => ⟨⟨fun _ _ => rfl⟩, fun hs => by simp [ImportState.start] at hs⟩
  · rw [hall]
    exact fun _ he => by simp [ImportState.start, Stage.ending] at he
  · intro e he
    obtain ⟨item, -, rfl⟩ := List.mem_map.mp he
    exact ⟨item, rfl⟩

/-- **Every step keeps them.** -/
lemma carried_step (h : c.step env a = some c') (hc : Carried f env queue_size c) :
    Carried f env queue_size c' := by
  have hleft := entriesLeft_step h
  have hsound := sound_step h hc.sound
  have hcounts : ∀ e ∈ c'.entriesLeft, e.Counts := fun e he => hc.counts e (hleft.subset he)
  rcases step_cases h hc.sound.orderly with ⟨-, heq⟩ | ⟨i, rfl, hmove | ⟨hskip, hlen⟩⟩
  · exact ⟨hsound, heq ▸ hc.barrier, heq ▸ hc.stored, heq ▸ hc.flushed, heq ▸ hc.drained, hcounts⟩
  · exact ⟨hsound, ImportState.barrier_move hmove hc.barrier hc.stored,
      ImportState.stored_move hmove hc.barrier hc.stored,
      hmove.forall_threads (ImportState.flushed_move hmove (hc.flushed i)) hc.flushed,
      ImportState.drained_move hmove hc.drained, hcounts⟩
  · exact (not_skip hc.counts hleft (thread_queue h).1 hlen hskip).elim

/-! ### The end -/

/-- **A run that cannot go on** leaves the tables of the file. -/
lemma tables_of_halted (hskip : env.skip_ways = false) (hT : 0 < T) (hsize : 0 < queue_size)
    (hc : Carried f env queue_size c) (h : c.Halted env) :
    (∀ i, (c.threads i).stage = .finished ∧ (c.threads i).jobs = [])
      ∧ SameTables c.db (.ofKept (f.kept env.select)) := by
  have hfin := finished_of_halted hc.sound h (Or.inl hsize)
  have hqueue : c.all.queue = [] := hc.drained ⟨0, hT⟩ (by
    show (c.threads ⟨0, hT⟩).stage.ending = true
    rw [(hfin _).1]
    rfl)
  exact ⟨hfin, ImportState.sameTables_of_done hc.stored hskip hc.flushed ⟨hqueue, hfin⟩⟩

end WayPhaseRun

end Gpsxdb
