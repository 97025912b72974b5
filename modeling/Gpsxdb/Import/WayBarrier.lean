import Mathlib.Tactic
import Gpsxdb.Import.Members
import Gpsxdb.Import.Termination
import Gpsxdb.Import.WayQueue

/-!
The barrier between ways and relations, over any file and any run.

* `Gate`: nobody is past the barrier before everybody has arrived, and a thread
  that has left the way loop has seen the last way go; `gate_move`, `gate_skip`;
* `Committing`: every way is in the queue, in the buffers and transactions of a
  thread still to arrive, or in the tables;
* `arrivalsOf`: the arrivals of one thread over a run; `arrivalsOf_add_clear`:
  **a thread that has arrived has arrived once**;
* `halted_clear`, `fuel_step`: a run comes to an end, and where it cannot go on
  every thread has finished;
* `way_barrier`: **the way barrier** as a whole.
-/

namespace Gpsxdb

namespace ImportState

variable {T : ℕ} {env : ImportEnv} {σ σ' : ImportState T} {i : Fin T}

/-! ### The gate -/

/-- **The invariant of the gate**, whatever the rows are. -/
structure Gate (σ : ImportState T) : Prop where
  ways_first : ∃ (ws : List WayEntry) (rs : List RelationEntry),
    σ.queue = ws.map OSMEntry.way ++ rs.map OSMEntry.relation
  stage : ∀ i, GateOk (σ.threads i)
  left : ∀ i, ((σ.threads i).clear ∨ ∃ held, (σ.threads i).stage = .arriving held) →
    ∀ w, .way w ∉ σ.queue
  count : σ.arrivals = (Finset.univ.filter fun i => (σ.threads i).clear).card
  passed : ∀ i, (σ.threads i).passed → ∀ j, (σ.threads j).clear

/-- A move keeps the gate. -/
lemma gate_move (h : Move env σ i σ') (hg : Gate σ) : Gate σ' := by
  have hok := hg.stage i
  refine ⟨h.ways_first hg.ways_first, ?_, ?_, card_clear_move h hok hg.count,
    passed_clear_move h hok (fun _ => hg.count) hg.passed⟩
  · refine h.forall_threads (gateOk_move h hok fun held hstage => ?_) hg.stage
    rw [GateOk, hstage] at hok
    exact arrivals_lt hg.count (j := i) (by simp [WayThread.clear, hstage, hok.1])
  · intro j hj
    by_cases hji : j = i
    · subst hji
      exact left_move h hok hg.ways_first (hg.left j) hj
    · rw [h.threads_of_ne hji] at hj
      exact fun w hw => hg.left j hj w (h.mem_queue hw)

/-- A node that is ignored leaves the thread where it was. -/
lemma Skip.threads (h : Skip σ i σ') (j : Fin T) : (σ'.threads j).stage = (σ.threads j).stage
    ∧ (σ'.threads j).way_phase_done = (σ.threads j).way_phase_done := by
  obtain ⟨-, hstage, rfl⟩ := h
  by_cases hji : j = i
  · subst hji
    rw [threads_setThread_self]
    exact ⟨hstage.symm, rfl⟩
  · rw [threads_setThread_of_ne _ _ hji]
    exact ⟨rfl, rfl⟩

lemma Skip.clear (h : Skip σ i σ') (j : Fin T) : (σ'.threads j).clear = (σ.threads j).clear := by
  rw [WayThread.clear, WayThread.clear, (h.threads j).1, (h.threads j).2]

lemma Skip.passed (h : Skip σ i σ') (j : Fin T) :
    (σ'.threads j).passed = (σ.threads j).passed := by
  rw [WayThread.passed, WayThread.passed, (h.threads j).1, (h.threads j).2]

/-- So it keeps the gate. -/
lemma gate_skip (h : Skip σ i σ') (hg : Gate σ) : Gate σ' := by
  have hqueue : σ'.queue = σ.queue := by rw [h.2.2, queue_setThread]
  have harrivals : σ'.arrivals = σ.arrivals := by rw [h.2.2, arrivals_setThread]
  refine ⟨hqueue ▸ hg.ways_first, fun j => ?_, fun j hj => ?_, ?_, fun j hj k => ?_⟩
  · by_cases hji : j = i
    · subst hji
      rw [GateOk, (h.threads j).1, h.2.1]
      trivial
    · obtain ⟨-, -, rfl⟩ := h
      rw [threads_setThread_of_ne _ _ hji]
      exact hg.stage j
  · rw [h.clear, (h.threads j).1] at hj
    rw [hqueue]
    exact hg.left j hj
  · rw [harrivals, hg.count]
    simp only [h.clear]
  · rw [h.passed] at hj
    rw [h.clear]
    exact hg.passed j hj k

/-! ### Where the rows of the ways are -/

/-- Every way of the list is in the queue, or each of its rows is in the tables or
with a thread that has still to arrive. -/
def Committing (env : ImportEnv) (ws : List WayEntry) (σ : ImportState T) : Prop :=
  ∀ w ∈ ws, .way w ∈ σ.queue ∨ ∀ k ∈ wayKept env.select w, k.row ∈ σ.db.rows k.table
    ∨ ∃ i, (σ.threads i).clear = false ∧ Sum.inl k.row ∈ (σ.threads i).writes k.table

/-- The server takes a transaction without an error. -/
def accepts (d : Database) : Job → Bool
  | .copy t buf _ => (firstRejected ((d.rows t).map GeomRecord.id) buf).isNone
  | .tags _ _ => true

/-- The transaction the thread issues next, if any, meets no error. -/
def goesThrough (σ : ImportState T) (i : Fin T) : Bool :=
  match (σ.threads i).jobs with
  | [] => true
  | job :: _ => accepts σ.db job

/-- A transaction takes no row out of the tables. -/
lemma mem_rows_exec {d : Database} (j : Job) {t : Table} {r : GeomRecord} (hr : r ∈ d.rows t) :
    r ∈ (d.exec j).1.rows t := by
  cases j with
  | tags u buf => exact hr
  | copy u buf retry =>
      rw [Database.exec]
      split
      · by_cases htu : t = u
        · subst htu
          simp [hr]
        · simpa [htu] using hr
      · exact hr

lemma mem_rows_move (h : Move env σ i σ') {t : Table} {r : GeomRecord} (hr : r ∈ σ.db.rows t) :
    r ∈ σ'.db.rows t := by
  cases h with
  | job => exact mem_rows_exec _ hr
  | leave => exact hr
  | way => exact hr
  | relation => exact hr
  | arrive => exact hr
  | pass => exact hr
  | passEnd => exact hr
  | rings => exact hr
  | read => exact hr
  | store => exact hr

/-- A transaction without an error has its rows in the tables. -/
lemma mem_of_accepts {d : Database} {j : Job} (h : accepts d j) {t : Table} {r : GeomRecord}
    (hr : Sum.inl r ∈ j.items t) : r ∈ (d.exec j).1.rows t := by
  cases j with
  | tags u buf =>
      rw [Job.items] at hr
      split at hr
      · simp at hr
      · simp at hr
  | copy u buf retry =>
      rw [accepts, Option.isNone_iff_eq_none] at h
      rw [Job.items] at hr
      split at hr
      · have htu : t = u := ‹_›
        subst htu
        rw [inl_mem_itemsOf] at hr
        simp [Database.exec, h, hr]
      · simp at hr

/-- What the moving thread had in hand it still has, or the tables have it. -/
lemma writes_move (h : Move env σ i σ') (hskip : env.skip_ways = false) (hdb : σ.goesThrough i)
    {t : Table} {r : GeomRecord} (hr : Sum.inl r ∈ (σ.threads i).writes t) :
    Sum.inl r ∈ (σ'.threads i).writes t ∨ r ∈ σ'.db.rows t := by
  have hidle : (σ.threads i).jobs = [] → Sum.inl r ∈ (σ.threads i).db.items t := by
    intro hjobs
    rw [WayThread.writes, hjobs, jobsItems_nil, add_zero] at hr
    exact hr
  cases h with
  | @job j jobs hjobs =>
      rw [WayThread.writes, hjobs, jobsItems_cons] at hr
      rw [threads_setThread_self, WayThread.writes, jobsItems_append]
      simp only [Multiset.mem_add] at hr ⊢
      rcases hr with hr | hr | hr
      · exact Or.inl (Or.inl hr)
      · rw [goesThrough, hjobs] at hdb
        exact Or.inr (mem_of_accepts hdb hr)
      · exact Or.inl (Or.inr (Or.inr hr))
  | leave hjobs =>
      rw [threads_setThread_self, WayThread.leaveLoop_writes]
      exact Or.inl (hidle hjobs)
  | way hjobs =>
      rw [threads_setThread_self, WayThread.processWay_writes hskip]
      exact Or.inl (Multiset.mem_add.mpr (Or.inl (hidle hjobs)))
  | relation hjobs =>
      rw [threads_setThread_self, WayThread.processRelation_writes hjobs]
      exact Or.inl (hidle hjobs)
  | arrive hjobs =>
      rw [threads_setThread_self, WayThread.writes, jobsItems_nil, add_zero]
      exact Or.inl (hidle hjobs)
  | pass =>
      rw [threads_setThread_self, WayThread.startRelation_writes]
      exact Or.inl hr
  | passEnd hjobs =>
      rw [threads_setThread_self, WayThread.finish_writes]
      exact Or.inl (hidle hjobs)
  | rings hjobs =>
      rw [threads_setThread_self, WayThread.storeArea_writes]
      exact Or.inl (Multiset.mem_add.mpr (Or.inl (hidle hjobs)))
  | read hjobs =>
      rw [threads_setThread_self, WayThread.writes, jobsItems_nil, add_zero]
      exact Or.inl (hidle hjobs)
  | store hjobs =>
      rw [threads_setThread_self, WayThread.storeRelation_writes]
      exact Or.inl (Multiset.mem_add.mpr (Or.inl (hidle hjobs)))

/-- A thread that arrives has no row of a way in hand. -/
lemma writes_of_arriving {th : WayThread} (hok : GateOk th) (hjobs : th.jobs = [])
    {held : Option RelationEntry} (hstage : th.stage = .arriving held) {t : Table}
    (ht : t = .ways ∨ t = .areas) (r : GeomRecord) : Sum.inl r ∉ th.writes t := by
  rw [GateOk, hstage] at hok
  have hbuf : th.db.buf t = [] := by
    rcases ht with rfl | rfl
    · exact hok.2.1
    · exact hok.2.2
  rw [WayThread.writes, hjobs, jobsItems_nil, add_zero, NavDB.items, inl_mem_itemsOf, hbuf]
  exact List.not_mem_nil

/-- A popped way is in the hands of the thread that popped it. -/
lemma popped_way (h : Move env σ i σ') (hskip : env.skip_ways = false) (hg : Gate σ)
    {w : WayEntry} (hw : .way w ∈ σ.queue) (hw' : .way w ∉ σ'.queue) :
    (σ'.threads i).clear = false
      ∧ ∀ k ∈ wayKept env.select w, Sum.inl k.row ∈ (σ'.threads i).writes k.table := by
  have hclear : (σ.threads i).clear = false :=
    Bool.eq_false_iff.mpr fun hc => hg.left i (Or.inl hc) w hw
  cases h with
  | @way v queue hjobs hstage hq =>
      obtain rfl : w = v := by
        rw [hq, List.mem_cons] at hw
        rcases hw with hw | hw
        · exact OSMEntry.way.inj hw
        · exact absurd hw hw'
      refine ⟨?_, fun k hk => ?_⟩
      · rw [threads_setThread_self, WayThread.clear_of_loop (WayThread.processWay_stage ..),
          WayThread.processWay_done, ← WayThread.clear_of_loop hstage]
        exact hclear
      · rw [threads_setThread_self, WayThread.processWay_writes hskip]
        exact Multiset.mem_add.mpr (Or.inr (inl_mem_keptItems.mpr ⟨k, hk, rfl, rfl⟩))
  | relation _ _ hq => exact absurd hw (no_ways_of_relation hg.ways_first hq w)
  | job => exact absurd hw hw'
  | leave => exact absurd hw hw'
  | arrive => exact absurd hw hw'
  | pass => exact absurd hw hw'
  | passEnd => exact absurd hw hw'
  | rings => exact absurd hw hw'
  | read => exact absurd hw hw'
  | store => exact absurd hw hw'

/-- **A move without an error loses no way.** -/
lemma committing_move (h : Move env σ i σ') (hskip : env.skip_ways = false) (hg : Gate σ)
    (hdb : σ.goesThrough i) {ws : List WayEntry} (hc : Committing env ws σ) :
    Committing env ws σ' := by
  intro w hw
  by_cases hqueue' : .way w ∈ σ'.queue
  · exact Or.inl hqueue'
  refine Or.inr fun k hk => ?_
  cases hc w hw with
  | inl hqueue =>
      obtain ⟨hclear, hwrites⟩ := popped_way h hskip hg hqueue hqueue'
      exact Or.inr ⟨i, hclear, hwrites k hk⟩
  | inr hrows =>
      rcases hrows k hk with hrow | ⟨j, hclear, hrow⟩
      · exact Or.inl (mem_rows_move h hrow)
      · by_cases hji : j = i
        · subst hji
          rcases writes_move h hskip hdb hrow with hrow' | hrow'
          · rcases clear_move h (hg.stage j) with ⟨hsame, -⟩ | ⟨-, -, -, -, held, hjobs, hstage⟩
            · exact Or.inr ⟨j, hsame.trans hclear, hrow'⟩
            · exact absurd hrow (writes_of_arriving (hg.stage j) hjobs hstage
                (mem_wayKept hk).2.1 _)
          · exact Or.inl hrow'
        · refine Or.inr ⟨j, ?_, ?_⟩
          · rw [h.threads_of_ne hji]
            exact hclear
          · rw [h.threads_of_ne hji]
            exact hrow

lemma committing_skip (h : Skip σ i σ') {ws : List WayEntry} (hc : Committing env ws σ) :
    Committing env ws σ' := by
  have hwrites : ∀ j t, (σ'.threads j).writes t = (σ.threads j).writes t := by
    intro j t
    obtain ⟨hjobs, -, rfl⟩ := h
    by_cases hji : j = i
    · subst hji
      rw [threads_setThread_self, WayThread.endEntry_writes, WayThread.writes, hjobs]
    · rw [threads_setThread_of_ne _ _ hji]
  have hsame := h.clear
  obtain ⟨-, -, rfl⟩ := h
  intro w hw
  refine (hc w hw).imp id fun hrows k hk => (hrows k hk).imp id ?_
  rintro ⟨j, hclear, hrow⟩
  exact ⟨j, (hsame j).trans hclear, (hwrites j k.table).symm ▸ hrow⟩

/-- **Once everybody has arrived** and the last way is gone, the tables have the
rows of all ways. -/
lemma committed_of_clear {ws : List WayEntry} (hc : Committing env ws σ)
    (hclear : ∀ j, (σ.threads j).clear) (hq : ∀ w, .way w ∉ σ.queue) {w : WayEntry} (hw : w ∈ ws)
    {k : Kept} (hk : k ∈ wayKept env.select w) : k.row ∈ σ.db.rows k.table := by
  rcases (hc w hw).resolve_left (hq w) k hk with hrow | ⟨j, hno, -⟩
  · exact hrow
  · rw [hclear j] at hno
    simp at hno

end ImportState

namespace WayPhaseRun

variable {T : ℕ} {env : ImportEnv} {c c' : WayPhaseRun T} {a : Actor T} {i : Fin T}

/-! ### Runs -/

/-- The invariant of a run. -/
structure Sound (queue_size : ℤ) (c : WayPhaseRun T) : Prop where
  gate : c.all.Gate
  orderly : c.Orderly
  max_size : c.way_q.max_size = queue_size

lemma max_size_step (h : c.step env a = some c') : c'.way_q.max_size = c.way_q.max_size := by
  cases a with
  | producer =>
      rcases producer_cases h with ⟨e, unread, -, rfl⟩ | ⟨-, -, rfl⟩
      · rfl
      · rfl
  | thread i => rw [(thread_queue h).2.1]

/-- **A step keeps the invariant.** -/
lemma sound_step {queue_size : ℤ} (h : c.step env a = some c') (hs : c.Sound queue_size) :
    c'.Sound queue_size := by
  refine ⟨?_, orderly_step hs.orderly h, (max_size_step h).trans hs.max_size⟩
  rcases step_cases h hs.orderly with ⟨-, heq⟩ | ⟨i, -, hmove | ⟨hskip, -⟩⟩
  · rw [heq]
    exact hs.gate
  · exact ImportState.gate_move hmove hs.gate
  · exact ImportState.gate_skip hskip hs.gate

/-- All ways come before all relations. -/
def WaysFirst (entries : List QueueEntry) : Prop :=
  ∃ (ws : List WayEntry) (rs : List RelationEntry),
    entries.filterMap QueueEntry.toEntry = ws.map OSMEntry.way ++ rs.map OSMEntry.relation

lemma sound_start (hskip : env.skip_ways = false) (queue_size : ℤ) {entries : List QueueEntry}
    (hfirst : WaysFirst entries) (d : Database) :
    (start env queue_size entries d : WayPhaseRun T).Sound queue_size := by
  have hclear : ∀ j : Fin T,
      ((start env queue_size entries d : WayPhaseRun T).all.threads j).clear = false := by
    intro j
    simp [start, all, WayThread.clear, hskip]
  refine ⟨⟨hfirst, fun j => trivial, fun j hj => ?_, ?_, fun j hj => ?_⟩, fun h => ?_, rfl⟩
  · rcases hj with hj | ⟨held, hj⟩
    · rw [hclear j] at hj
      simp at hj
    · simp [start, all] at hj
  · simp only [hclear]
    simp [start, all]
  · simp [start, all, WayThread.passed, hskip] at hj
  · simp [start] at h

/-! ### Arrivals of one thread -/

/-- How often a thread arrives at `way_barrier` in a run: the arrivals that its own
steps add. -/
def arrivalsOf (env : ImportEnv) (i : Fin T) (c : WayPhaseRun T) : List (Actor T) → ℕ
  | [] => 0
  | a :: moves =>
      match c.step env a with
      | none => 0
      | some c' =>
          (if a = .thread i then c'.arrivals - c.arrivals else 0) + arrivalsOf env i c' moves

/-- One step: a thread counts as arrived once it has arrived. -/
lemma arrival_step (h : c.step env a = some c') (hg : c.all.Gate) (ho : c.Orderly) (i : Fin T) :
    (if a = .thread i then c'.arrivals - c.arrivals else 0) + (c.threads i).clear.toNat
      = (c'.threads i).clear.toNat := by
  rcases step_cases h ho with ⟨rfl, heq⟩ | ⟨j, rfl, hcases⟩
  · have hth : c'.threads = c.threads := congrArg ImportState.threads heq
    rw [if_neg (by simp), zero_add, hth]
  by_cases hji : j = i
  · subst hji
    rw [if_pos rfl]
    rcases hcases with hmove | ⟨hskip, -⟩
    · rcases ImportState.clear_move hmove (hg.stage j) with ⟨hsame, harr⟩ | ⟨hno, hyes, -, harr, -⟩
      · change (c'.threads j).clear = (c.threads j).clear at hsame
        change c'.arrivals = c.arrivals at harr
        rw [hsame, harr, Nat.sub_self, zero_add]
      · change (c.threads j).clear = false at hno
        change (c'.threads j).clear = true at hyes
        change c'.arrivals = c.arrivals + 1 at harr
        rw [hno, hyes, harr, Nat.add_sub_cancel_left]
        rfl
    · have hsame : (c'.threads j).clear = (c.threads j).clear := hskip.clear j
      have harr : c'.arrivals = c.arrivals := congrArg ImportState.arrivals hskip.2.2
      rw [hsame, harr, Nat.sub_self, zero_add]
  · have hth : c'.threads i = c.threads i := by
      rcases hcases with hmove | ⟨⟨-, -, heq⟩, -⟩
      · exact hmove.threads_of_ne (Ne.symm hji)
      · exact (congrArg (fun σ : ImportState T => σ.threads i) heq).trans
          (ImportState.threads_setThread_of_ne _ _ (Ne.symm hji))
    rw [if_neg fun heq => hji (Actor.thread.inj heq), zero_add, hth]

/-- **A thread that has arrived has arrived once**, any other not at all. -/
lemma arrivalsOf_add_clear {queue_size : ℤ} {moves : List (Actor T)}
    (hs : c.Sound queue_size) (h : c.run env moves = some c') (i : Fin T) :
    arrivalsOf env i c moves + (c.threads i).clear.toNat = (c'.threads i).clear.toNat := by
  induction moves generalizing c with
  | nil =>
      obtain rfl := Option.some.inj h
      exact zero_add _
  | cons a moves ih =>
      obtain ⟨u, hu, h⟩ := foldlM_cons_eq_some.mp h
      have hstep := arrival_step hu hs.gate hs.orderly i
      have hrest := ih (sound_step hu hs) h
      simp only [arrivalsOf, hu]
      omega

/-! ### The end of a run -/

/-- Nobody can move. -/
def Halted (env : ImportEnv) (c : WayPhaseRun T) : Prop := ∀ a, c.step env a = none

/-- Where nobody can move no thread waits for an entry. -/
lemma not_popping_of_halted (h : c.Halted env) (hsize : 0 < c.way_q.max_size ∨ c.way_q.stop)
    (i : Fin T) : (c.threads i).popping = false := by
  refine Bool.eq_false_iff.mpr fun hpop => ?_
  have hthread := h (.thread i)
  rw [step, if_pos hpop, Option.map_eq_none_iff, BlockingQueue.pop] at hthread
  cases hq : c.way_q.q with
  | cons e q => simp [hq] at hthread
  | nil =>
      simp only [hq] at hthread
      split at hthread
      · simp at hthread
      · -- the producer pushes into the empty queue, or shuts it down
        have hstop : c.way_q.stop = false := Bool.eq_false_iff.mpr ‹_›
        have hproducer := h .producer
        rw [step] at hproducer
        cases hu : c.unread with
        | nil => simp [hu, hstop] at hproducer
        | cons e unread =>
            have hpos := hsize.resolve_right (by simp [hstop])
            simp [hu, BlockingQueue.push, hq, hpos] at hproducer

/-- **A run that cannot go on is done**: every thread has arrived and finished. -/
lemma finished_of_halted {queue_size : ℤ} (hs : c.Sound queue_size) (h : c.Halted env)
    (hsize : 0 < queue_size ∨ c.way_q.stop) (i : Fin T) :
    (c.threads i).stage = .finished ∧ (c.threads i).jobs = [] := by
  have hstuck : ∀ j, (c.threads j).jobs = [] ∧ ((c.threads j).stage = .finished
      ∨ ∃ phase held, (c.threads j).stage = .waiting phase held
        ∧ ¬ phase < c.arrivals / T) := by
    intro j
    have hthread := h (.thread j)
    rw [step, if_neg, Option.map_eq_none_iff] at hthread
    · exact ImportState.stuck_cases hthread
    · rw [not_popping_of_halted h (hs.max_size ▸ hsize)]
      simp
  have hclear : ∀ j, (c.threads j).clear := by
    intro j
    rcases (hstuck j).2 with hstage | ⟨phase, held, hstage, -⟩ <;>
      simp [WayThread.clear, hstage]
  refine ⟨?_, (hstuck i).1⟩
  rcases (hstuck i).2 with hstage | ⟨phase, held, hstage, hwait⟩
  · exact hstage
  · have hok : GateOk (c.threads i) := hs.gate.stage i
    rw [GateOk, hstage] at hok
    have hcount : c.arrivals = (Finset.univ.filter fun j => (c.threads j).clear).card :=
      hs.gate.count
    rw [Finset.filter_true_of_mem fun k _ => hclear k, Finset.card_univ, Fintype.card_fin]
      at hcount
    rw [hok.2, hcount, Nat.div_self (i.pos)] at hwait
    exact absurd Nat.zero_lt_one hwait

/-- The steps a run may still take. -/
def fuel (c : WayPhaseRun T) : ℕ :=
  c.all.fuel + 2 * c.unread.length + c.way_q.q.length + if c.way_q.stop then 0 else 1

lemma fuel_skip {σ σ' : ImportState T} (h : σ.Skip i σ') : σ'.fuel ≤ σ.fuel := by
  obtain ⟨hjobs, hstage, rfl⟩ := h
  have hrest : ∑ j ∈ Finset.univ.erase i, ((σ.setThread i
      ((σ.threads i).endEntry (σ.threads i).db [])).threads j).fuel
        = ∑ j ∈ Finset.univ.erase i, (σ.threads j).fuel :=
    Finset.sum_congr rfl fun j hj => by
      rw [ImportState.threads_setThread_of_ne _ _ (Finset.ne_of_mem_erase hj)]
  have hth := (σ.threads i).endEntry_fuel (σ.threads i).db []
  have hidle := WayThread.fuel_of_idle hjobs
  rw [hstage, Stage.fuel] at hidle
  rw [jobsFuel_nil] at hth
  rw [ImportState.fuel, ImportState.fuel, ← Finset.add_sum_erase _ _ (Finset.mem_univ i),
    ← Finset.add_sum_erase (a := i) _ (fun j => (σ.threads j).fuel) (Finset.mem_univ i), hrest,
    ImportState.threads_setThread_self, ImportState.queue_setThread]
  omega

/-- **Every step uses up some of the fuel.** -/
lemma fuel_step (h : c.step env a = some c') (ho : c.Orderly) : c'.fuel < c.fuel := by
  have hcases := step_cases h ho
  cases a with
  | producer =>
      obtain ⟨-, heq⟩ := hcases.resolve_right (by simp)
      rw [fuel, fuel, heq]
      rcases producer_cases h with ⟨e, unread, hu, rfl⟩ | ⟨-, hstop, rfl⟩
      · simp only [hu, List.length_append, List.length_cons, List.length_nil]
        omega
      · simp [BlockingQueue.shutdown, hstop]
  | thread j =>
      obtain ⟨i, hi, hmove⟩ := hcases.resolve_left (by simp)
      obtain rfl := Actor.thread.inj hi
      obtain ⟨hunread, hway_q, hlen⟩ := thread_queue h
      have hstop : c'.way_q.stop = c.way_q.stop := by rw [hway_q]
      rw [fuel, fuel, hunread, hstop]
      rcases hmove with hmove | ⟨hskip, hlt⟩
      · have hlt := ImportState.fuel_move hmove
        omega
      · have hle := fuel_skip hskip
        omega

/-! ### The barrier as a whole -/

/-- No transaction of the run meets an error. -/
def noErrors (env : ImportEnv) (c : WayPhaseRun T) : List (Actor T) → Bool
  | [] => true
  | a :: moves =>
      (match a with
        | .producer => true
        | .thread i => c.workers.goesThrough i)
      && match c.step env a with
        | none => true
        | some c' => noErrors env c' moves

/-- The thread reads ways and areas for its relation. -/
def Reads (c : WayPhaseRun T) (i : Fin T) : Prop :=
  (∃ item, (c.threads i).stage = .rings item)
    ∨ ∃ item rest geoms, (c.threads i).stage = .geoms item rest geoms

/-- The ways of the entries. -/
def waysOf (entries : List QueueEntry) : List WayEntry :=
  entries.filterMap fun
    | .entry (.way item) => some item
    | _ => none

lemma sound_run {queue_size : ℤ} {moves : List (Actor T)} (hs : c.Sound queue_size)
    (h : c.run env moves = some c') : c'.Sound queue_size :=
  foldlM_invariant (I := Sound queue_size) (fun _ _ _ hI hstep => sound_step hstep hI) hs h

/-- A run without errors loses no way. -/
lemma committing_run (hskip : env.skip_ways = false) {queue_size : ℤ} {moves : List (Actor T)}
    {ws : List WayEntry} (hs : c.Sound queue_size) (hdb : noErrors env c moves)
    (hc : c.all.Committing env ws) (h : c.run env moves = some c') : c'.all.Committing env ws := by
  induction moves generalizing c with
  | nil =>
      obtain rfl := Option.some.inj h
      exact hc
  | cons a moves ih =>
      obtain ⟨u, hu, h⟩ := foldlM_cons_eq_some.mp h
      simp only [noErrors, hu, Bool.and_eq_true] at hdb
      refine ih (sound_step hu hs) hdb.2 ?_ h
      rcases step_cases hu hs.orderly with ⟨-, heq⟩ | ⟨i, rfl, hmove | ⟨hignored, -⟩⟩
      · rw [heq]
        exact hc
      · exact ImportState.committing_move hmove hskip hs.gate hdb.1 hc
      · exact ImportState.committing_skip hignored hc

/-- A thread that reads finds everybody at the barrier and the ways gone. -/
lemma clear_of_reads {queue_size : ℤ} (hs : c.Sound queue_size) (h : c.Reads i) :
    (∀ j, (c.all.threads j).clear) ∧ ∀ w, .way w ∉ c.all.queue := by
  have hok : GateOk (c.threads i) := hs.gate.stage i
  have hdone : (c.threads i).way_phase_done = true := by
    rcases h with ⟨item, h⟩ | ⟨item, rest, geoms, h⟩
    · rw [GateOk, h] at hok
      exact hok
    · rw [GateOk, h] at hok
      exact hok
  have hpassed : (c.all.threads i).passed := WayThread.passed_of_done hdone
  exact ⟨hs.gate.passed i hpassed, hs.gate.left i (Or.inl (WayThread.clear_of_passed hpassed))⟩

lemma committing_start (queue_size : ℤ) (entries : List QueueEntry) (d : Database) :
    (start env queue_size entries d : WayPhaseRun T).all.Committing env (waysOf entries) := by
  intro w hw
  obtain ⟨e, he, hew⟩ := List.mem_filterMap.mp hw
  refine Or.inl (List.mem_filterMap.mpr ⟨e, he, ?_⟩)
  cases e with
  | node => simp at hew
  | entry e =>
      cases e with
      | way item =>
          obtain rfl := Option.some.inj hew
          rfl
      | relation item => simp at hew

/-- **The way barrier.** For any number of threads, any file with its ways ahead of
its relations and any run: where a thread reads for a relation, the rows of all ways
are in the tables; a thread arrives at most once, and exactly once by the end; and
every run comes to its end. -/
theorem way_barrier (hskip : env.skip_ways = false) (queue_size : ℤ) {entries : List QueueEntry}
    (hfirst : WaysFirst entries) (d : Database) {moves : List (Actor T)} {c : WayPhaseRun T}
    (h : (start env queue_size entries d : WayPhaseRun T).run env moves = some c) :
    (noErrors env (start env queue_size entries d : WayPhaseRun T) moves →
      ∀ i, c.Reads i → ∀ w ∈ waysOf entries, ∀ k ∈ wayKept env.select w,
        k.row ∈ c.db.rows k.table)
    ∧ (∀ i, arrivalsOf env i (start env queue_size entries d) moves ≤ 1)
    ∧ (c.Halted env → 0 < queue_size ∨ c.way_q.stop → ∀ i, (c.threads i).stage = .finished
      ∧ (c.threads i).jobs = [] ∧ arrivalsOf env i (start env queue_size entries d) moves = 1)
    ∧ moves.length ≤ (start env queue_size entries d : WayPhaseRun T).fuel := by
  have hstart := sound_start (T := T) hskip queue_size hfirst d
  have hs := sound_run hstart h
  have harrivals := arrivalsOf_add_clear hstart h
  have hnot : ∀ i : Fin T,
      ((start env queue_size entries d : WayPhaseRun T).threads i).clear = false := by
    intro i
    simp [start, WayThread.clear, hskip]
  simp only [hnot, Bool.toNat_false, add_zero] at harrivals
  refine ⟨fun hdb i hreads w hw k hk => ?_, fun i => ?_, fun hhalt hsize i => ?_, ?_⟩
  · obtain ⟨hclear, hqueue⟩ := clear_of_reads hs hreads
    exact ImportState.committed_of_clear
      (committing_run hskip hstart hdb (committing_start queue_size entries d) h) hclear hqueue
      hw hk
  · rw [harrivals i]
    exact Bool.toNat_le _
  · obtain ⟨hstage, hjobs⟩ := finished_of_halted hs hhalt hsize i
    refine ⟨hstage, hjobs, ?_⟩
    rw [harrivals i]
    simp [WayThread.clear, hstage]
  · exact (Nat.le_add_right ..).trans (foldlM_length_le (I := Sound queue_size)
      (fun _ _ _ hI hstep => ⟨sound_step hstep hI, fuel_step hstep hI.orderly⟩) hstart h)

/-! ### A road over two threads -/

/-- A way and the route over it, a node between them. -/
def roadEntries : List QueueEntry :=
  [.entry (.way ⟨1, [], .single (ascii "highway") (ascii "primary"), [1, 2, 3]⟩), .node,
    .entry (.relation ⟨1, [], .single (ascii "route") (ascii "road"), [⟨1, []⟩]⟩)]

/-- The first thread buffers the way while the second one pops the relation and waits. -/
def roadMoves : List (Actor 2) :=
  [.producer, .thread 0, .producer, .thread 1, .producer, .thread 1, .producer, .thread 1,
    .thread 0, .thread 0, .thread 0, .thread 0, .thread 1]

/-- The second thread reads for its relation: the way of the first one is committed. -/
theorem way_barrier_two_threads : ∃ c : WayPhaseRun 2,
    (start (.mk ImportState.squareNodes 1 false) 1 roadEntries .empty).run
        (.mk ImportState.squareNodes 1 false) roadMoves = some c
      ∧ c.Reads 1 ∧ ∀ w ∈ waysOf roadEntries, ∀ k ∈ wayKept ImportState.squareNodes w,
        k.row ∈ c.db.rows k.table := by
  have hex : ∃ c : WayPhaseRun 2,
      (start (.mk ImportState.squareNodes 1 false) 1 roadEntries .empty).run
          (.mk ImportState.squareNodes 1 false) roadMoves = some c
        ∧ ∃ item rest geoms, (c.threads 1).stage = .geoms item rest geoms :=
    ⟨_, rfl, _, _, _, rfl⟩
  obtain ⟨c, hrun, hstage⟩ := hex
  have hfirst : WaysFirst roadEntries := ⟨[_], [_], rfl⟩
  exact ⟨c, hrun, Or.inr hstage,
    (way_barrier rfl 1 hfirst .empty hrun).1 rfl 1 (Or.inr hstage)⟩

end WayPhaseRun

end Gpsxdb
