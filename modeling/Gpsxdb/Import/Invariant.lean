import Mathlib.Tactic
import Gpsxdb.Library.Runs
import Gpsxdb.Import.Lookup
import Gpsxdb.Import.Kept
import Gpsxdb.Import.WayPhase

/-!
The invariant of the way and relation phases, over whole runs.

* `Stored`: what the tables hold or are going to hold is, row for row, what the
  file gives rise to, no table holds an id twice, and no tag row is lost or made
  up;
* `rowsOf_of_clear`: once every thread has arrived at the barrier, the tables
  hold exactly the ways' rows, so every read of a member finds what the way
  phase leaves (`readsOk`);
* `barrier_move`, `stored_move`, `invariant_of_run`.
-/

namespace Gpsxdb

namespace ImportState

variable {T : ℕ} {f : OsmFile} {env : ImportEnv} {σ σ' : ImportState T} {i : Fin T}

/-- **The invariant of the rows**, given the number of copies of each tag row
that the tables end up with. -/
structure Stored (f : OsmFile) (env : ImportEnv) (n : Table → TagRecord → ℕ)
    (σ : ImportState T) : Prop where
  rows : ∀ s r, Sum.inl r ∈ σ.items f env.select s ↔ Sum.inl r ∈ keptItems (f.kept env.select) s
  nodup : ∀ s, ((σ.db.rows s).map GeomRecord.id).Nodup
  tags : ∀ s g, (σ.items f env.select s).count (Sum.inr g) = n s g

variable {n : Table → TagRecord → ℕ}

/-! ### Reads past the barrier -/

/-- With every thread at the barrier or past it, nothing of a way is pending. -/
lemma settled_pending (hb : Barrier f env σ) (hall : ∀ j, (σ.threads j).clear)
    (hq : ∀ w, .way w ∉ σ.queue) : Settled (σ.pending f env.select) := by
  have hqueue := settled_queue env.select hq hb.queue_mem
  constructor
  · intro r hr
    rcases Multiset.mem_add.mp hr with hr | hr
    · obtain ⟨j, -, hr⟩ := Multiset.mem_sum.mp hr
      exact (hb.settled j (hall j)).1 r hr
    · exact hqueue.1 r hr
  · intro r hr
    rcases Multiset.mem_add.mp hr with hr | hr
    · obtain ⟨j, -, hr⟩ := Multiset.mem_sum.mp hr
      exact (hb.settled j (hall j)).2 r hr
    · exact hqueue.2 r hr

/-- The rows of the ways are the only ones `ways` holds, and the only ones `areas`
holds under positive ids. -/
lemma mem_rows_of_clear (hb : Barrier f env σ) (hs : Stored f env n σ)
    (hall : ∀ j, (σ.threads j).clear) (hq : ∀ w, .way w ∉ σ.queue) {t : Table}
    (ht : t = .ways ∨ t = .areas) {r : GeomRecord} (hid : 0 < r.id) :
    r ∈ σ.db.rows t ↔ r ∈ (f.wayTables env.select).rows t := by
  have hsettled := settled_pending hb hall hq
  constructor
  · intro hr
    have hmem : Sum.inl r ∈ σ.items f env.select t :=
      Multiset.mem_add.mpr (Or.inl (inl_mem_itemsOf.mpr hr))
    obtain ⟨k, hk, hkt, rfl⟩ := inl_mem_keptItems.mp ((hs.rows t r).mp hmem)
    rcases List.mem_append.mp hk with hk | hk
    · exact Database.mem_rows_ofKept.mpr ⟨k, hk, hkt, rfl⟩
    · obtain ⟨q, hq', hk⟩ := OsmFile.mem_relationsKept.mp hk
      have hpos := f.relation_pos q hq'
      rcases mem_relationKept hk with ⟨-, h1, -⟩ | ⟨h1, -, -⟩
      · omega
      · rw [hkt] at h1
        rcases ht with rfl | rfl <;> simp at h1
  · intro hr
    obtain ⟨k, hk, hkt, hrow⟩ := Database.mem_rows_ofKept.mp hr
    have hmem : Sum.inl r ∈ σ.items f env.select t :=
      (hs.rows t r).mpr (inl_mem_keptItems.mpr ⟨k, List.mem_append_left _ hk, hkt, hrow⟩)
    rcases Multiset.mem_add.mp hmem with hmem | hmem
    · exact inl_mem_itemsOf.mp hmem
    · rcases ht with rfl | rfl
      · exact absurd hmem (hsettled.1 r)
      · exact absurd (hsettled.2 r hmem) (by omega)

/-- **Past the barrier the tables hold exactly the ways' rows.** -/
lemma rowsOf_of_clear (hb : Barrier f env σ) (hs : Stored f env n σ)
    (hall : ∀ j, (σ.threads j).clear) (hq : ∀ w, .way w ∉ σ.queue) {id : ℤ} (hid : 0 < id)
    {t : Table} (ht : t = .ways ∨ t = .areas) :
    σ.db.rowsOf t id = (f.wayTables env.select).rowsOf t id := by
  refine filter_eq_of_mem_iff (hs.nodup t) (OsmFile.wayTables_nodup t) fun r hr => ?_
  exact mem_rows_of_clear hb hs hall hq ht (by omega)

/-- A thread at work on a relation is past the barrier. -/
lemma passed_of_relation (hb : Barrier f env σ)
    (h : (∃ r, (σ.threads i).stage = .rings r)
      ∨ ∃ r rest gs, (σ.threads i).stage = .geoms r rest gs) :
    (σ.threads i).passed := by
  have hok := hb.stage i
  rcases h with ⟨r, h⟩ | ⟨r, rest, gs, h⟩
  · rw [StageOk, h] at hok
    exact WayThread.passed_of_done hok.1
  · rw [StageOk, h] at hok
    exact WayThread.passed_of_done hok.1

/-- The reads of a thread past the barrier find what the way phase leaves. -/
lemma rowsOf_of_passed (hb : Barrier f env σ) (hs : Stored f env n σ)
    (hp : (σ.threads i).passed) {id : ℤ} (hid : 0 < id) {t : Table}
    (ht : t = .ways ∨ t = .areas) :
    σ.db.rowsOf t id = (f.wayTables env.select).rowsOf t id :=
  rowsOf_of_clear hb hs (hb.passed i hp) (hb.left i (Or.inl (WayThread.clear_of_passed hp))) hid ht

lemma readsOk (hb : Barrier f env σ) (hs : Stored f env n σ) (i : Fin T) :
    ReadsOk f env.select σ.db (σ.threads i) := by
  have hok := hb.stage i
  refine ⟨fun r hr => ?_, fun r rest gs hr => ?_⟩
  · have hp := passed_of_relation hb (i := i) (Or.inl ⟨r, hr⟩)
    have hmem := hb.held_mem i r (by rw [hr]; rfl)
    rw [StageOk, hr] at hok
    refine ⟨hok.2, Database.getWayCoordsMap_congr fun id hid t ht => ?_⟩
    obtain ⟨m, hm, rfl⟩ := List.mem_map.mp hid
    exact rowsOf_of_passed hb hs hp (f.member_pos r hmem m hm) ht
  · rw [StageOk, hr] at hok
    exact ⟨hok.2.1, hok.2.2.2⟩

/-! ### One move -/

/-- What a thread is to write after a transaction it was to write before. -/
lemma items_of_job {select : ℤ → Option Coord} (h : Move env σ i σ')
    (hjobs : (σ.threads i).jobs ≠ []) (s : Table) (x : Item)
    (hx : x ∈ (σ'.threads i).items f select s) : x ∈ (σ.threads i).items f select s := by
  obtain ⟨j, jobs, hcons, rfl⟩ := h.job_of_ne_nil hjobs
  rw [threads_setThread_self, WayThread.items, jobsItems_append] at hx
  rw [WayThread.items, hcons, jobsItems_cons]
  simp only [Multiset.mem_add] at hx ⊢
  rcases hx with (hx | hx | hx) | hx
  · exact Or.inl (Or.inl hx)
  · exact Or.inl (Or.inr (Or.inl (mem_againItems hx)))
  · exact Or.inl (Or.inr (Or.inr hx))
  · exact Or.inr hx

/-- A thread that has arrived at the barrier is to write nothing of a way. -/
lemma settled_move (h : Move env σ i σ') (hb : Barrier f env σ) (hs : Stored f env n σ)
    (hc : (σ'.threads i).clear) : Settled ((σ'.threads i).items f env.select) := by
  have hways : ∀ w, .way w ∈ σ.queue → env.skip_ways = false := fun w hw =>
    Bool.eq_false_iff.mpr fun hskip => hb.skip_queue hskip w hw
  rcases clear_move h (hb.stage i).gate with ⟨hsame, -⟩ | ⟨-, -, -, -, held, hjobs, hstage⟩
  · rw [hsame] at hc
    have hold := hb.settled i hc
    by_cases hjobs : (σ.threads i).jobs = []
    · -- what is new was in the queue, which holds no way any more
      have hqueue := settled_queue env.select (hb.left i (Or.inl hc)) hb.queue_mem
      obtain ⟨-, hlocal⟩ := local_items f h hjobs (readsOk hb hs i) hways
      refine (hold.add hqueue).mono fun s x hx => ?_
      rw [← hlocal s]
      exact Multiset.mem_add.mpr (Or.inl hx)
    · exact hold.mono (items_of_job h hjobs)
  · -- on arrival the buffers are flushed and the transactions through
    have hok := hb.stage i
    rw [StageOk, hstage] at hok
    obtain ⟨-, hb1, hb2⟩ := hok
    have hheld : Settled fun s => keptItems (heldKept f env.select held) s := by
      rcases held with _ | r
      · simp [Settled]
      · rw [heldKept_some]
        exact settled_relationKept (hb.held_mem i r (by rw [hstage]; rfl))
    obtain ⟨-, hlocal⟩ := local_items f h hjobs (readsOk hb hs i) hways
    have hitems : Settled ((σ.threads i).items f env.select) := by
      have hbuf : Settled (σ.threads i).db.items := by
        refine ⟨fun r hr => ?_, fun r hr => ?_⟩
        · rw [NavDB.items, hb1, inl_mem_itemsOf] at hr
          simp at hr
        · rw [NavDB.items, hb2, inl_mem_itemsOf] at hr
          simp at hr
      refine (hbuf.add hheld).mono fun s x hx => ?_
      rw [WayThread.items, hjobs, jobsItems_nil, add_zero, hstage] at hx
      exact hx
    have hqueue := settled_queue env.select (hb.left i (Or.inr ⟨held, hstage⟩))
      hb.queue_mem
    refine (hitems.add hqueue).mono fun s x hx => ?_
    rw [← hlocal s]
    exact Multiset.mem_add.mpr (Or.inl hx)

/-- **One move keeps the invariant of the barrier.** -/
lemma barrier_move (h : Move env σ i σ') (hb : Barrier f env σ) (hs : Stored f env n σ) :
    Barrier f env σ' := by
  have hok := hb.stage i
  have hskip_of : (σ.threads i).way_phase_done = false → env.skip_ways = false := fun hd =>
    Bool.eq_false_iff.mpr fun hskip => by simp [hb.skip_done hskip i] at hd
  refine ⟨h.ways_first hb.ways_first, fun r hr => hb.queue_mem r (h.mem_queue hr), ?_,
    fun hskip w hw => hb.skip_queue hskip w (h.mem_queue hw), ?_, ?_, ?_, ?_,
    fun hskip => card_clear_move h hok.gate (hb.count hskip),
    passed_clear_move h hok.gate (fun hd => hb.count (hskip_of hd)) hb.passed⟩
  · exact h.forall_threads (P := fun th => ∀ r, th.stage.held = some r → r ∈ f.relations)
      (held_move h hb.queue_mem (hb.held_mem i)) hb.held_mem
  · intro hskip
    exact h.forall_threads (P := fun th => th.way_phase_done = true)
      (done_move h (hb.skip_done hskip i)) (hb.skip_done hskip)
  · refine h.forall_threads (stageOk_move h hok ?_ ?_) hb.stage
    · intro m r rest gs hstage
      have hp := passed_of_relation hb (i := i) (Or.inr ⟨r, m :: rest, gs, hstage⟩)
      have hmem := hb.held_mem i r (by rw [hstage]; rfl)
      rw [StageOk, hstage] at hok
      have hm := hok.2.2.1 m (List.mem_cons_self ..)
      exact Database.getWay_congr fun t ht =>
        rowsOf_of_passed hb hs hp (f.member_pos r hmem m hm) ht
    · intro held hstage
      rw [StageOk, hstage] at hok
      exact arrivals_lt (hb.count (hskip_of hok.1)) (j := i)
        (by simp [WayThread.clear, hstage, hok.1])
  · intro j hj
    by_cases hji : j = i
    · subst hji
      exact left_move h hok.gate hb.ways_first (hb.left j) hj
    · rw [h.threads_of_ne hji] at hj
      exact fun w hw => hb.left j hj w (h.mem_queue hw)
  · intro j hj
    by_cases hji : j = i
    · subst hji
      exact settled_move h hb hs hj
    · rw [h.threads_of_ne hji] at hj ⊢
      exact hb.settled j hj

/-- **One move keeps the invariant of the rows.** -/
lemma stored_move (h : Move env σ i σ') (hb : Barrier f env σ) (hs : Stored f env n σ) :
    Stored f env n σ' := by
  have hways : ∀ w, .way w ∈ σ.queue → env.skip_ways = false := fun w hw =>
    Bool.eq_false_iff.mpr fun hskip => hb.skip_queue hskip w hw
  have hnodup : ∀ s, ((σ'.db.rows s).map GeomRecord.id).Nodup := by
    intro s
    by_cases hjobs : (σ.threads i).jobs = []
    · rw [(local_items f h hjobs (readsOk hb hs i) hways).1]
      exact hs.nodup s
    · obtain ⟨j, jobs, -, rfl⟩ := h.job_of_ne_nil hjobs
      exact (σ.db.exec_items j).2 s (hs.nodup s)
  rcases move_items f h (readsOk hb hs i) hways with hsame | ⟨t, r, r', hdrop, hmem, hid⟩
  · exact ⟨fun s x => by rw [hsame s]; exact hs.rows s x, hnodup,
      fun s g => by rw [hsame s]; exact hs.tags s g⟩
  · -- the dropped row is one of the file, and so is the row that has its id: they are one row
    have hold : ∀ x, x ∈ σ'.items f env.select t → x ∈ σ.items f env.select t := fun x hx => by
      rw [← hdrop t]
      exact Multiset.mem_add.mpr (Or.inl hx)
    have hr : Sum.inl r ∈ σ.items f env.select t := by
      rw [← hdrop t, if_pos rfl]
      exact Multiset.mem_add.mpr (Or.inr (Multiset.mem_singleton_self _))
    obtain ⟨k, hk, hkt, hkr⟩ := inl_mem_keptItems.mp ((hs.rows t r).mp hr)
    obtain ⟨k', hk', hkt', hkr'⟩ := inl_mem_keptItems.mp ((hs.rows t r').mp (hold _ hmem))
    have hkk := OsmFile.kept_unique hk hk' (hkt.trans hkt'.symm) (by rw [hkr, hkr', hid])
    have hrr : r' = r := by rw [← hkr', ← hkk, hkr]
    refine ⟨fun s x => ?_, hnodup, fun s g => ?_⟩
    · rw [← hs.rows s x, ← hdrop s, Multiset.mem_add]
      by_cases hst : s = t
      · subst hst
        simp only [if_true, Multiset.mem_singleton, Sum.inl.injEq]
        constructor
        · exact Or.inl
        · rintro (hx | rfl)
          · exact hx
          · rw [← hrr]
            exact hmem
      · simp [hst]
    · rw [← hs.tags s g, ← hdrop s, Multiset.count_add]
      split <;> simp

/-! ### Whole runs -/

/-- **The invariant of a run.** -/
lemma invariant_of_run {σ₀ : ImportState T} (hb : Barrier f env σ₀) (hs : Stored f env n σ₀)
    {moves : List (Fin T)} {σ : ImportState T} (h : σ₀.run env moves = some σ) :
    Barrier f env σ ∧ Stored f env n σ := by
  refine foldlM_invariant (I := fun σ => Barrier f env σ ∧ Stored f env n σ) ?_ ⟨hb, hs⟩ h
  intro σ i σ' hI hstep
  have hmove := move_of_step hstep
  exact ⟨barrier_move hmove hI.1 hI.2, stored_move hmove hI.1 hI.2⟩

end ImportState

end Gpsxdb
