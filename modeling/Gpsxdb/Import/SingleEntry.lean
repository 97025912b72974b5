import Mathlib.Tactic
import Gpsxdb.Import.Outcome

/-!
The import of a single entry on tables of any content.

* `entryRows`: the rows the entry gives rise to, a relation's read off the tables
  there are;
* `Reading`, `Written`: the two halves of such an import, before and after the
  entry is stored; `step_reading`, `step_written`;
* `items_of_single`: **a finished import of one entry** leaves the tables as they
  were, and its rows.
-/

namespace Gpsxdb

/-- The rows a relation gives rise to on given tables. -/
def relationRows (d : Database) (r : RelationEntry) : List Kept :=
  if isMultipolygon r.tags then
    areaKept r (d.getWayCoordsMap (r.way_members.map RelationMember.id))
  else routeKept r (r.way_members.filterMap fun m => d.getWay m.id)

/-- The rows an entry gives rise to on given tables. -/
def entryRows (env : ImportEnv) (d : Database) : OSMEntry → List Kept
  | .way w => if env.skip_ways then [] else wayKept env.select w
  | .relation r => relationRows d r

/-- A file without entries: the items of a state whose queue is empty do not
depend on the file. -/
def noEntries : OsmFile where
  ways := []
  relations := []
  way_nodup := List.nodup_nil
  way_pos := by simp
  relation_nodup := List.nodup_nil
  relation_pos := by simp
  member_pos := by simp

namespace WayThread

/-- Nothing is buffered and nothing is to be issued. -/
def Blank (th : WayThread) : Prop := (∀ t, th.db.buf t = [] ∧ th.db.tag_buf t = []) ∧ th.jobs = []

lemma flushAll_of_nil {n : NavDB} (h : ∀ t, n.buf t = []) (ts : List Table) :
    n.flushAll ts = (n, []) := by
  induction ts with
  | nil => rfl
  | cons t ts ih =>
      have hf : n.flush t = (n, []) := by rw [NavDB.flush, if_pos (h t)]
      simp [NavDB.flushAll, hf, ih]

lemma blank_finalizeWays {th : WayThread} (h : th.Blank) (held : Option RelationEntry) :
    (th.finalizeWays held).Blank := by
  have hf := flushAll_of_nil (fun t => (h.1 t).1) [.ways, .areas]
  simp [finalizeWays, hf, Blank, h.1]

lemma blank_finish {th : WayThread} (h : th.Blank) : th.finish.Blank := by
  have hf := flushAll_of_nil (fun t => (h.1 t).1) [.relations, .ways, .areas, .roads, .relations]
  simp [finish, hf, Blank, h.1]

lemma blank_leaveLoop {th : WayThread} (h : th.Blank) : th.leaveLoop.Blank := by
  rw [leaveLoop]
  split
  · exact blank_finish h
  · exact blank_finalizeWays h _

lemma held_leaveLoop (th : WayThread) : th.leaveLoop.stage.held = none := by
  rw [leaveLoop]
  split <;> rfl

/-- A blank thread without a relation has nothing to write. -/
lemma Blank.items_eq_zero {th : WayThread} (h : th.Blank) (hheld : th.stage.held = none)
    (f : OsmFile) (select : ℤ → Option Coord) (s : Table) : th.items f select s = 0 := by
  simp [items, NavDB.items, h.1 s, h.2, hheld]

end WayThread

/-- A thread that has popped the relation, between the pop and the store: what it
has read is what the tables hold. -/
def Stage.Reads (d : Database) (r : RelationEntry) : Stage → Prop
  | .arriving (some q) => q = r
  | .waiting _ (some q) => q = r
  | .rings q => q = r ∧ isMultipolygon r.tags = true
  | .geoms q rest gs => q = r ∧ isMultipolygon r.tags = false
      ∧ gs ++ rest.filterMap (fun m => d.getWay m.id)
        = r.way_members.filterMap fun m => d.getWay m.id
  | _ => False

namespace ImportState

variable {T : ℕ} {env : ImportEnv} {d : Database} {e : OSMEntry} {σ σ' : ImportState T} {i : Fin T}

/-- The entry is not stored yet: the tables are as they were, and the entry is in
the queue or with one thread. -/
structure Reading (d : Database) (e : OSMEntry) (σ : ImportState T) : Prop where
  db : σ.db = d
  blank : ∀ j, (σ.threads j).Blank
  place : (σ.queue = [e] ∧ ∀ j, (σ.threads j).stage.held = none)
    ∨ (σ.queue = [] ∧ ∃ r i, e = .relation r ∧ (σ.threads i).stage.Reads d r
      ∧ ∀ j, j ≠ i → (σ.threads j).stage.held = none)

/-- The entry is stored: its rows are in the tables, in a buffer or under way. -/
structure Written (env : ImportEnv) (d : Database) (ks : List Kept) (σ : ImportState T) :
    Prop where
  queue : σ.queue = []
  held : ∀ j, (σ.threads j).stage.held = none
  items : ∀ s, σ.items noEntries env.select s = d.items s + keptItems ks s

/-! ### The second half -/

/-- The rows among items. -/
def rowPart (m : Multiset Item) : Multiset GeomRecord := m.filterMap Sum.getLeft?

lemma rowPart_add (m m' : Multiset Item) : rowPart (m + m') = rowPart m + rowPart m' :=
  Multiset.filterMap_add ..

lemma mem_rowPart {m : Multiset Item} {r : GeomRecord} : r ∈ rowPart m ↔ Sum.inl r ∈ m := by
  simp [rowPart, Multiset.mem_filterMap]

@[simp] lemma rowPart_itemsOf (rows : List GeomRecord) (tags : List TagRecord) :
    rowPart (itemsOf rows tags) = rows := by
  have hrows : (rows.map Sum.inl).filterMap (Sum.getLeft? : Item → Option GeomRecord) = rows := by
    rw [List.filterMap_map]
    exact List.filterMap_some
  have htags : (tags.map Sum.inr).filterMap (Sum.getLeft? : Item → Option GeomRecord) = [] := by
    rw [List.filterMap_map]
    exact List.filterMap_none tags
  rw [itemsOf, rowPart_add, rowPart, rowPart, Multiset.filterMap_coe, Multiset.filterMap_coe, hrows,
    htags]
  simp

/-- The rows of entries in a table. -/
def keptRows (ks : List Kept) (s : Table) : List GeomRecord :=
  (ks.filter fun k => k.table = s).map Kept.row

lemma rowPart_keptItems (ks : List Kept) (s : Table) :
    rowPart (keptItems ks s) = keptRows ks s := by
  induction ks with
  | nil => rfl
  | cons k ks ih =>
      rw [keptItems_cons, rowPart_add, ih, Kept.items, keptRows, keptRows, List.filter_cons]
      by_cases h : s = k.table
      · simp [h]
      · rw [if_neg h, if_neg (by simpa using Ne.symm h)]
        exact zero_add _

/-- No id is taken twice once the rows of the entry are stored. -/
def Fresh (d : Database) (ks : List Kept) : Prop :=
  ∀ s, ((d.rows s ++ keptRows ks s).map GeomRecord.id).Nodup

lemma rowPart_total (d : Database) (ks : List Kept) (s : Table) :
    rowPart (d.items s + keptItems ks s) = (d.rows s ++ keptRows ks s : List GeomRecord) := by
  rw [rowPart_add, rowPart_keptItems, Database.items, rowPart_itemsOf, Multiset.coe_add]

/-- **A move after the store** keeps the items: no row is dropped, since no id is
taken twice. -/
lemma step_written {ks : List Kept} (hnd : Fresh d ks) (h : Written env d ks σ)
    (hm : Move env σ i σ') : Written env d ks σ' := by
  have hstages : σ'.queue = [] ∧ (σ'.threads i).stage.held = none := by
    have hheld := h.held i
    cases hm with
    | job => exact ⟨h.queue, by rw [threads_setThread_self]; exact hheld⟩
    | leave => exact ⟨h.queue, by rw [threads_setThread_self]; exact WayThread.held_leaveLoop _⟩
    | way _ _ hq => simp [h.queue] at hq
    | relation _ _ hq => simp [h.queue] at hq
    | arrive _ hstage =>
        rw [hstage] at hheld
        exact ⟨h.queue, by rw [threads_setThread_self]; exact hheld⟩
    | pass _ hstage => simp [hstage, Stage.held] at hheld
    | passEnd => exact ⟨h.queue, by rw [threads_setThread_self]; rfl⟩
    | rings _ hstage => simp [hstage, Stage.held] at hheld
    | read _ hstage => simp [hstage, Stage.held] at hheld
    | store _ hstage => simp [hstage, Stage.held] at hheld
  refine ⟨hstages.1, fun j => ?_, fun s => ?_⟩
  · by_cases hj : j = i
    · rw [hj]
      exact hstages.2
    · rw [hm.threads_of_ne hj]
      exact h.held j
  · have hreads : ReadsOk noEntries env.select σ.db (σ.threads i) := by
      refine ⟨fun r hr => ?_, fun r rest gs hr => ?_⟩
      · simpa [hr, Stage.held] using h.held i
      · simpa [hr, Stage.held] using h.held i
    rcases move_items noEntries hm hreads (by simp [h.queue]) with
      hkeep | ⟨t, r, r', hdrop, hr', hid⟩
    · rw [hkeep s, h.items s]
    · -- the dropped row and the one that stays would share an id
      have hids : ((rowPart (σ.items noEntries env.select t)).map GeomRecord.id).Nodup := by
        rw [h.items t, rowPart_total]
        exact hnd t
      rw [← hdrop t, if_pos rfl, rowPart_add, Multiset.map_add, Multiset.nodup_add] at hids
      refine absurd (Multiset.mem_map_of_mem GeomRecord.id (mem_rowPart.mpr hr'))
        (Multiset.disjoint_right.mp hids.2.2 ?_)
      rw [hid]
      exact Multiset.mem_map_of_mem _ (mem_rowPart.mpr (Multiset.mem_singleton_self _))

/-! ### The first half -/

/-- A thread that has stored the entry while the others are blank. -/
lemma written_of_store {ks : List Kept} (hblank : ∀ j, (σ.threads j).Blank)
    (hothers : ∀ j, j ≠ i → (σ.threads j).stage.held = none)
    {th : WayThread} (hheld : th.stage.held = none)
    (hitems : ∀ s, th.items noEntries env.select s = keptItems ks s) {queue : List OSMEntry}
    (hqueue : queue = []) :
    Written env σ.db ks ({ σ with queue := queue }.setThread i th) := by
  have hth : ∀ j, j ≠ i → ({ σ with queue := queue }.setThread i th).threads j = σ.threads j :=
    fun j hj => threads_setThread_of_ne _ _ hj
  refine ⟨hqueue, fun j => ?_, fun s => ?_⟩
  · by_cases hj : j = i
    · rw [hj, threads_setThread_self]
      exact hheld
    · rw [hth j hj]
      exact hothers j hj
  · rw [items, pending, Finset.sum_eq_single i, threads_setThread_self, hitems s, queue_setThread,
      hqueue]
    · simp
    · intro j _ hj
      rw [hth j hj]
      exact (hblank j).items_eq_zero (hothers j hj) ..
    · simp

/-- A thread that moves without storing anything keeps the tables. -/
lemma blank_setThread (hblank : ∀ j, (σ.threads j).Blank) {th : WayThread} (hth : th.Blank)
    (j : Fin T) : ((σ.setThread i th).threads j).Blank := by
  by_cases hj : j = i
  · rw [hj, threads_setThread_self]
    exact hth
  · rw [threads_setThread_of_ne _ _ hj]
    exact hblank j

/-- The entry stays where it is: the thread that moves holds it before and after,
or neither. -/
lemma place_setThread {th : WayThread} {q : List OSMEntry} (hq : q = σ.queue)
    (h : (σ.queue = [e] ∧ ∀ j, (σ.threads j).stage.held = none)
      ∨ (σ.queue = [] ∧ ∃ r i, e = .relation r ∧ (σ.threads i).stage.Reads d r
        ∧ ∀ j, j ≠ i → (σ.threads j).stage.held = none))
    (hnone : (σ.threads i).stage.held = none → th.stage.held = none)
    (hreads : ∀ r, (σ.threads i).stage.Reads d r → th.stage.Reads d r) :
    (q = [e] ∧ ∀ j, ((σ.setThread i th).threads j).stage.held = none)
      ∨ (q = [] ∧ ∃ r k, e = .relation r ∧ ((σ.setThread i th).threads k).stage.Reads d r
        ∧ ∀ j, j ≠ k → ((σ.setThread i th).threads j).stage.held = none) := by
  have hothers : ∀ j, (σ.threads j).stage.held = none →
      ((σ.setThread i th).threads j).stage.held = none := by
    intro j hj
    by_cases hji : j = i
    · rw [hji, threads_setThread_self]
      exact hnone (hji ▸ hj)
    · rw [threads_setThread_of_ne _ _ hji]
      exact hj
  rcases h with ⟨h1, h2⟩ | ⟨h1, r, k, he, hk, h2⟩
  · exact Or.inl ⟨hq.trans h1, fun j => hothers j (h2 j)⟩
  · refine Or.inr ⟨hq.trans h1, r, k, he, ?_, fun j hj => hothers j (h2 j hj)⟩
    by_cases hki : k = i
    · rw [hki, threads_setThread_self]
      exact hreads r (hki ▸ hk)
    · rw [threads_setThread_of_ne _ _ hki]
      exact hk

/-- A stage that reads holds the relation. -/
lemma held_of_reads {st : Stage} {r : RelationEntry} (h : st.Reads d r) : st.held = some r := by
  rcases st with _ | (_ | q) | ⟨_, _ | q⟩ | q | ⟨q, rest, gs⟩ | _
  · exact h.elim
  · exact h.elim
  · exact congrArg some h
  · exact h.elim
  · exact congrArg some h
  · exact congrArg some h.1
  · exact congrArg some h.1
  · exact h.elim

/-- A stage that holds the relation after a piece of local work reads it. -/
lemma reads_startRelation (th : WayThread) (r : RelationEntry) :
    (th.startRelation r).stage.Reads d r := by
  rw [WayThread.startRelation]
  by_cases hm : isMultipolygon r.tags = true
  · simp [hm, Stage.Reads]
  · simp [hm, Stage.Reads]

lemma blank_startRelation {th : WayThread} (h : th.Blank) (r : RelationEntry) :
    (th.startRelation r).Blank := h

/-- The thread at work on a relation is the one that holds the entry. -/
lemma Reading.holder (h : Reading d e σ) {r : RelationEntry}
    (hheld : (σ.threads i).stage.held = some r) :
    σ.queue = [] ∧ e = .relation r ∧ (σ.threads i).stage.Reads d r
      ∧ ∀ j, j ≠ i → (σ.threads j).stage.held = none := by
  rcases h.place with ⟨-, hnone⟩ | ⟨hq, q, k, he, hk, hnone⟩
  · rw [hnone i] at hheld
    simp at hheld
  · by_cases hki : i = k
    · subst hki
      have hqr : q = r := Option.some.inj ((held_of_reads hk).symm.trans hheld)
      subst hqr
      exact ⟨hq, he, hk, hnone⟩
    · rw [hnone i hki] at hheld
      simp at hheld

/-- **A move before the store** keeps the entry in place, or stores it. -/
lemma step_reading (h : Reading d e σ) (hm : Move env σ i σ') :
    Reading d e σ' ∨ Written env d (entryRows env d e) σ' := by
  have hblank := h.blank
  cases hm with
  | job hjobs => simp [(hblank i).2] at hjobs
  | leave _ hstage _ =>
      refine Or.inl ⟨h.db, blank_setThread hblank (WayThread.blank_leaveLoop (hblank i)), ?_⟩
      refine place_setThread rfl h.place (fun _ => WayThread.held_leaveLoop _) fun r hr => ?_
      simp [hstage, Stage.Reads] at hr
  | @way w queue _ hstage hq =>
      rcases h.place with ⟨hqueue, hnone⟩ | ⟨hqueue, -⟩
      · rw [hqueue] at hq
        obtain ⟨rfl, hnil⟩ := List.cons.inj hq
        refine Or.inr (h.db ▸ written_of_store hblank (fun j _ => hnone j) ?_ (fun s => ?_)
          hnil.symm)
        · rw [WayThread.processWay_stage]
          rfl
        · have hzero : (σ.threads i).db.items s = 0 := by
            simp [NavDB.items, (hblank i).1 s]
          by_cases hskip : env.skip_ways = true
          · rw [WayThread.items_of_loop _ _ (WayThread.processWay_stage ..),
              WayThread.processWay, if_pos hskip, WayThread.endEntry_writes, entryRows,
              if_pos hskip, hzero]
            simp
          · rw [WayThread.processWay_items noEntries (Bool.eq_false_iff.mpr hskip), entryRows,
              if_neg hskip, hzero, zero_add]
      · simp [hqueue] at hq
  | @relation r queue _ hstage hq =>
      rcases h.place with ⟨hqueue, hnone⟩ | ⟨hqueue, -⟩
      · rw [hqueue] at hq
        obtain ⟨rfl, hnil⟩ := List.cons.inj hq
        have hnew : ((σ.threads i).processRelation r).Blank
            ∧ ((σ.threads i).processRelation r).stage.Reads d r := by
          rw [WayThread.processRelation]
          split
          · exact ⟨blank_startRelation (hblank i) r, reads_startRelation _ r⟩
          · exact ⟨WayThread.blank_finalizeWays (hblank i) _, rfl⟩
        refine Or.inl ⟨h.db, blank_setThread (σ := { σ with queue := queue }) hblank hnew.1,
          Or.inr ⟨hnil.symm, r, i, rfl, ?_, fun j hj => ?_⟩⟩
        · rw [threads_setThread_self]
          exact hnew.2
        · rw [threads_setThread_of_ne _ _ hj]
          exact hnone j
      · simp [hqueue] at hq
  | @arrive held _ hstage =>
      refine Or.inl ⟨h.db, blank_setThread (σ := { σ with arrivals := σ.arrivals + 1 }) hblank
        ⟨(hblank i).1, rfl⟩, ?_⟩
      refine place_setThread (σ := { σ with arrivals := σ.arrivals + 1 }) rfl h.place
        (fun hn => ?_) fun r hr => ?_
      · rw [hstage] at hn
        exact hn
      · rw [hstage] at hr
        cases held <;> exact hr
  | @pass phase r _ hstage =>
      obtain ⟨hq, rfl, -, hnone⟩ := h.holder (i := i) (r := r) (by rw [hstage]; rfl)
      refine Or.inl ⟨h.db, blank_setThread hblank (blank_startRelation (hblank i) r), ?_⟩
      refine place_setThread rfl h.place (fun hn => ?_) fun q hq => ?_
      · simp [hstage, Stage.held] at hn
      · rw [hstage] at hq
        obtain rfl := hq
        exact reads_startRelation _ r
  | passEnd _ hstage =>
      refine Or.inl ⟨h.db, blank_setThread hblank (WayThread.blank_finish (hblank i)), ?_⟩
      refine place_setThread rfl h.place (fun _ => rfl) fun r hr => ?_
      simp [hstage, Stage.Reads] at hr
  | @rings r _ hstage =>
      obtain ⟨hq, rfl, hreads, hnone⟩ := h.holder (i := i) (r := r) (by rw [hstage]; rfl)
      rw [hstage] at hreads
      refine Or.inr (h.db ▸ written_of_store hblank hnone ?_ (fun s => ?_) hq)
      · rw [WayThread.storeArea_stage]
        rfl
      · rw [WayThread.storeArea_items, NavDB.items, ((hblank i).1 s).1, ((hblank i).1 s).2,
          itemsOf_nil, zero_add, entryRows, relationRows, if_pos hreads.2]
  | @read r m rest gs _ hstage =>
      obtain ⟨hq, rfl, hreads, hnone⟩ := h.holder (i := i) (r := r) (by rw [hstage]; rfl)
      rw [hstage] at hreads
      refine Or.inl ⟨h.db, blank_setThread hblank ⟨(hblank i).1, rfl⟩, ?_⟩
      refine place_setThread rfl h.place (fun hn => ?_) fun q hq => ?_
      · simp [hstage, Stage.held] at hn
      · rw [hstage] at hq
        refine ⟨hq.1, hq.2.1, ?_⟩
        rw [← hq.2.2, h.db, List.filterMap_cons]
        cases d.getWay m.id <;> simp
  | @store r gs _ hstage =>
      obtain ⟨hq, rfl, hreads, hnone⟩ := h.holder (i := i) (r := r) (by rw [hstage]; rfl)
      rw [hstage] at hreads
      obtain ⟨-, hmulti, hgs⟩ := hreads
      rw [List.filterMap_nil, List.append_nil] at hgs
      refine Or.inr (h.db ▸ written_of_store hblank hnone ?_ (fun s => ?_) hq)
      · rw [WayThread.storeRelation_stage]
        rfl
      · rw [WayThread.storeRelation_items, NavDB.items, ((hblank i).1 s).1, ((hblank i).1 s).2,
          itemsOf_nil, zero_add, entryRows, relationRows, hmulti, if_neg (by simp), hgs, h.db]

/-! ### The whole import -/

lemma reading_start (env : ImportEnv) (d : Database) (e : OSMEntry) :
    Reading d e (start env d [e] : ImportState T) :=
  ⟨rfl, fun _ => ⟨fun _ => ⟨rfl, rfl⟩, rfl⟩, Or.inl ⟨rfl, fun _ => rfl⟩⟩

/-- A finished run has stored the entry. -/
lemma not_reading_of_done (hdone : σ.Done) : ¬ Reading d e σ := by
  intro h
  rcases h.place with ⟨hq, -⟩ | ⟨-, r, i, -, hreads, -⟩
  · simp [hdone.1] at hq
  · rw [(hdone.2 i).1] at hreads
    exact hreads

/-- **A finished import of one entry** leaves the tables as they were, and its
rows, where these take no id that is taken. -/
theorem items_of_single (hnd : Fresh d (entryRows env d e))
    {moves : List (Fin T)} (h : (start env d [e]).run env moves = some σ) (hdone : σ.Done)
    (s : Table) : σ.db.items s = d.items s + keptItems (entryRows env d e) s := by
  have hinv : Reading d e σ ∨ Written env d (entryRows env d e) σ := by
    refine foldlM_invariant (I := fun σ => Reading d e σ ∨ Written env d (entryRows env d e) σ)
      (fun σ i σ' hI hstep => ?_) (Or.inl (reading_start env d e)) h
    have hm := move_of_step hstep
    rcases hI with hI | hI
    · exact step_reading hI hm
    · exact Or.inr (step_written hnd hI hm)
  have hflushed : ∀ j, (σ.threads j).Flushed :=
    flushed_of_run (fun _ => ⟨⟨fun _ _ => rfl⟩, fun hs => by simp [start] at hs⟩) h
  have hwritten := hinv.resolve_left (not_reading_of_done hdone)
  have hitems := hwritten.items s
  rw [items, pending_of_done hflushed hdone, add_zero] at hitems
  exact hitems

/-- The rows a finished import of one entry leaves. -/
theorem rows_of_single (hnd : Fresh d (entryRows env d e))
    {moves : List (Fin T)} (h : (start env d [e]).run env moves = some σ) (hdone : σ.Done)
    (s : Table) : (σ.db.rows s).Perm (d.rows s ++ keptRows (entryRows env d e) s) := by
  have hrows := congrArg rowPart (items_of_single hnd h hdone s)
  rw [rowPart_total, Database.items, rowPart_itemsOf] at hrows
  exact Multiset.coe_eq_coe.mp hrows

/-! ### The places of the rows -/

/-- The table and the id of each row. -/
def keptKeys (ks : List Kept) : List (Table × ℤ) := ks.map fun k => (k.table, k.row.id)

lemma keptRows_ids (ks : List Kept) (s : Table) :
    (keptRows ks s).map GeomRecord.id
      = ((keptKeys ks).filter fun key => key.1 = s).map Prod.snd := by
  rw [keptRows, keptKeys, List.map_map, List.filter_map, List.map_map]
  rfl

lemma rowsOf_eq_nil {d : Database} {t : Table} {id : ℤ} :
    d.rowsOf t id = [] ↔ id ∉ (d.rows t).map GeomRecord.id := by
  simp [Database.rowsOf, List.filter_eq_nil_iff]

/-- Distinct places that the tables do not have are no conflict. -/
lemma fresh_of_keys {ks : List Kept} (hd : ∀ s, ((d.rows s).map GeomRecord.id).Nodup)
    (hks : (keptKeys ks).Nodup) (hnew : ∀ key ∈ keptKeys ks, d.rowsOf key.1 key.2 = []) :
    Fresh d ks := by
  intro s
  rw [List.map_append, keptRows_ids, List.nodup_append]
  refine ⟨hd s, ?_, fun a ha b hb hab => ?_⟩
  · refine (hks.filter _).map_on fun k hk k' hk' heq => ?_
    have h1 := of_decide_eq_true (List.mem_filter.mp hk).2
    have h2 := of_decide_eq_true (List.mem_filter.mp hk').2
    exact Prod.ext (h1.trans h2.symm) heq
  · obtain ⟨⟨t, i⟩, hkey, rfl⟩ := List.mem_map.mp hb
    obtain ⟨hmem, ht⟩ := List.mem_filter.mp hkey
    obtain rfl : t = s := of_decide_eq_true ht
    exact rowsOf_eq_nil.mp (hnew _ hmem) (hab ▸ ha)

/-- **The places that hold a row** once one entry is imported. -/
theorem rowsOf_of_single (hnd : Fresh d (entryRows env d e))
    {moves : List (Fin T)} (h : (start env d [e]).run env moves = some σ) (hdone : σ.Done)
    {s : Table} {id : ℤ} : σ.db.rowsOf s id = []
      ↔ d.rowsOf s id = [] ∧ (s, id) ∉ keptKeys (entryRows env d e) := by
  have hids := (rows_of_single hnd h hdone s).map GeomRecord.id
  rw [rowsOf_eq_nil, hids.mem_iff, List.map_append, List.mem_append, not_or, ← rowsOf_eq_nil,
    keptRows_ids]
  refine and_congr_right fun _ => not_congr ?_
  constructor
  · intro hmem
    obtain ⟨⟨t, i⟩, hkey, rfl⟩ := List.mem_map.mp hmem
    obtain ⟨hin, ht⟩ := List.mem_filter.mp hkey
    obtain rfl : t = s := of_decide_eq_true ht
    exact hin
  · intro hmem
    exact List.mem_map.mpr ⟨(s, id), List.mem_filter.mpr ⟨hmem, by simp⟩, rfl⟩

end ImportState

end Gpsxdb
