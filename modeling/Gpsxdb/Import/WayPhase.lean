import Mathlib.Tactic
import Gpsxdb.Import.Moves

/-!
The barrier of the way and relation phases.

* `WayThread.clear`, `WayThread.passed`: a thread that has arrived at the
  barrier, or never goes there, and one that is past it;
* `GateOk`, `StageOk`: what a thread's stage says of its way to the barrier, and
  of the relation it holds;
* `Barrier`: the invariant of the barrier: nobody is past it before everybody
  has arrived, and a thread that has arrived holds nothing of a way any more;
* `gateOk_move`, `stageOk_move`, `clear_move`, `passed_move`: what one move does
  to the thread that makes it.
-/

namespace Gpsxdb

namespace WayThread

/-- The thread has arrived at the barrier, or does not go there. -/
def clear (th : WayThread) : Bool :=
  th.way_phase_done || match th.stage with
    | .waiting _ _ => true
    | .finished => true
    | _ => false

/-- The thread is past the barrier, or does not go there. -/
def passed (th : WayThread) : Bool :=
  th.way_phase_done || match th.stage with
    | .finished => true
    | _ => false

lemma clear_of_passed {th : WayThread} (h : th.passed) : th.clear := by
  rw [passed, Bool.or_eq_true] at h
  rw [clear, Bool.or_eq_true]
  refine h.imp id fun h => ?_
  cases hs : th.stage <;> simp_all

lemma passed_of_done {th : WayThread} (h : th.way_phase_done = true) : th.passed := by
  rw [passed, h, Bool.true_or]

/-- `finalize_ways` leaves nothing of a way in the buffers. -/
lemma finalizeWays_buf (th : WayThread) (held : Option RelationEntry) :
    (th.finalizeWays held).db.buf .ways = [] ∧ (th.finalizeWays held).db.buf .areas = [] := by
  have h : ∀ t ∈ [Table.ways, .areas], (th.db.flushAll [.ways, .areas]).1.buf t = [] :=
    fun t ht => NavDB.flushAll_buf_eq_nil (Or.inr ht)
  exact ⟨h .ways (by simp), h .areas (by simp)⟩

lemma clear_of_loop {th : WayThread} (h : th.stage = .loop) : th.clear = th.way_phase_done := by
  simp [clear, h]

lemma passed_of_loop {th : WayThread} (h : th.stage = .loop) : th.passed = th.way_phase_done := by
  simp [passed, h]

end WayThread

/-- Nothing of a way is among the items: no row of `ways`, and of `areas` only
rows under the negative ids of relations. -/
def Settled (m : Table → Multiset Item) : Prop :=
  (∀ r, Sum.inl r ∉ m .ways) ∧ ∀ r, Sum.inl r ∈ m .areas → r.id < 0

lemma Settled.mono {m m' : Table → Multiset Item} (h : Settled m)
    (hsub : ∀ s x, x ∈ m' s → x ∈ m s) : Settled m' :=
  ⟨fun r hr => h.1 r (hsub _ _ hr), fun r hr => h.2 r (hsub _ _ hr)⟩

lemma Settled.add {m m' : Table → Multiset Item} (h : Settled m) (h' : Settled m') :
    Settled fun s => m s + m' s := by
  refine ⟨fun r hr => ?_, fun r hr => ?_⟩
  · rcases Multiset.mem_add.mp hr with hr | hr
    · exact h.1 r hr
    · exact h'.1 r hr
  · rcases Multiset.mem_add.mp hr with hr | hr
    · exact h.2 r hr
    · exact h'.2 r hr

/-- The rows a relation gives rise to are none of a way's. -/
lemma settled_relationKept {f : OsmFile} {select : ℤ → Option Coord} {r : RelationEntry}
    (hr : r ∈ f.relations) : Settled fun s => keptItems (f.relationKept select r) s := by
  have hpos := f.relation_pos r hr
  have hkept : ∀ k ∈ f.relationKept select r,
      k.table ≠ .ways ∧ (k.table = .areas → k.row.id < 0) := by
    intro k hk
    rw [OsmFile.relationKept] at hk
    split at hk
    · rw [areaKept] at hk
      split at hk
      · simp at hk
      · split at hk
        · obtain rfl := List.mem_singleton.mp hk
          exact ⟨by simp, fun _ => by simpa using hpos⟩
        · simp at hk
    · rw [routeKept] at hk
      rcases List.mem_cons.mp hk with rfl | hk
      · simp
      · split at hk
        · simp at hk
        · split at hk
          · obtain rfl := List.mem_singleton.mp hk
            simp
          · simp at hk
  refine ⟨fun x hx => ?_, fun x hx => ?_⟩
  · obtain ⟨k, hk, hkt, -⟩ := inl_mem_keptItems.mp hx
    exact (hkept k hk).1 hkt
  · obtain ⟨k, hk, hkt, rfl⟩ := inl_mem_keptItems.mp hx
    exact (hkept k hk).2 hkt

/-- A queue of relations holds nothing of a way. -/
lemma settled_queue {f : OsmFile} (select : ℤ → Option Coord) {queue : List OSMEntry}
    (hq : ∀ w, .way w ∉ queue) (hr : ∀ r, .relation r ∈ queue → r ∈ f.relations) :
    Settled fun s => keptItems (queue.flatMap (f.entryKept select)) s := by
  induction queue with
  | nil => simp [Settled]
  | cons e queue ih =>
      have ih := ih (fun w hw => hq w (List.mem_cons_of_mem _ hw))
        fun r hr' => hr r (List.mem_cons_of_mem _ hr')
      simp only [List.flatMap_cons, keptItems_append]
      refine Settled.add ?_ ih
      cases e with
      | way w => exact absurd (List.mem_cons_self ..) (hq w)
      | relation r => exact settled_relationKept (hr r (List.mem_cons_self ..))

/-- What is left of a transaction is part of it. -/
lemma mem_againItems {d : Database} {j : Job} {s : Table} {x : Item}
    (hx : x ∈ againItems (d.exec j).2 s) : x ∈ j.items s := by
  cases j with
  | tags t buf => simp [Database.exec, againItems] at hx
  | copy t buf retry =>
      rw [Database.exec] at hx
      split at hx
      · simp [againItems] at hx
      · rename_i line hline
        have hsub : ∀ r ∈ (if retry = true then buf.eraseIdx line else buf), r ∈ buf := by
          intro r hr
          split at hr
          · exact List.mem_of_mem_eraseIdx hr
          · exact hr
        simp only [againItems] at hx
        generalize (if retry = true then buf.eraseIdx line else buf) = rest at hx hsub
        split at hx
        · simp at hx
        · simp only [Option.toList_some, jobsItems_cons, jobsItems_nil, add_zero, Job.items] at hx ⊢
          split at hx
          · rcases x with r | g
            · rw [if_pos ‹_›]
              exact inl_mem_itemsOf.mpr (hsub r (inl_mem_itemsOf.mp hx))
            · simp [itemsOf] at hx
          · simp at hx

/-! ### The barrier -/

/-- What a thread's stage says of it. -/
def StageOk (f : OsmFile) (select : ℤ → Option Coord) (th : WayThread) : Prop :=
  match th.stage with
  | .loop => True
  | .arriving _ => th.way_phase_done = false ∧ th.db.buf .ways = [] ∧ th.db.buf .areas = []
  | .waiting phase _ => th.way_phase_done = false ∧ phase = 0
  | .rings r => th.way_phase_done = true ∧ isMultipolygon r.tags = true
  | .geoms r rest gs => th.way_phase_done = true ∧ isMultipolygon r.tags = false
      ∧ (∀ m ∈ rest, m ∈ r.way_members)
      ∧ gs ++ rest.filterMap (fun m => (f.wayTables select).getWay m.id)
        = r.way_members.filterMap fun m => (f.wayTables select).getWay m.id
  | .finished => True

/-- What it says of the thread's way to the barrier. -/
def GateOk (th : WayThread) : Prop :=
  match th.stage with
  | .loop => True
  | .arriving _ => th.way_phase_done = false ∧ th.db.buf .ways = [] ∧ th.db.buf .areas = []
  | .waiting phase _ => th.way_phase_done = false ∧ phase = 0
  | .rings _ => th.way_phase_done = true
  | .geoms _ _ _ => th.way_phase_done = true
  | .finished => True

lemma StageOk.gate {f : OsmFile} {select : ℤ → Option Coord} {th : WayThread}
    (h : StageOk f select th) : GateOk th := by
  rw [StageOk] at h
  rw [GateOk]
  split <;> simp_all

namespace ImportState

variable {T : ℕ}

/-- **The invariant of the barrier.** -/
structure Barrier (f : OsmFile) (env : ImportEnv) (σ : ImportState T) : Prop where
  ways_first : ∃ (ws : List WayEntry) (rs : List RelationEntry),
    σ.queue = ws.map OSMEntry.way ++ rs.map OSMEntry.relation
  queue_mem : ∀ r, .relation r ∈ σ.queue → r ∈ f.relations
  held_mem : ∀ i r, (σ.threads i).stage.held = some r → r ∈ f.relations
  skip_queue : env.skip_ways = true → ∀ w, .way w ∉ σ.queue
  skip_done : env.skip_ways = true → ∀ i, (σ.threads i).way_phase_done = true
  stage : ∀ i, StageOk f env.select (σ.threads i)
  left : ∀ i, ((σ.threads i).clear ∨ ∃ held, (σ.threads i).stage = .arriving held) →
    ∀ w, .way w ∉ σ.queue
  settled : ∀ i, (σ.threads i).clear → Settled ((σ.threads i).items f env.select)
  count : env.skip_ways = false →
    σ.arrivals = (Finset.univ.filter fun i => (σ.threads i).clear).card
  passed : ∀ i, (σ.threads i).passed → ∀ j, (σ.threads j).clear

/-- A queue with no way left in front of a popped relation has no way at all. -/
lemma no_ways_of_relation {queue : List OSMEntry} {r : RelationEntry} {rest : List OSMEntry}
    (h : ∃ (ws : List WayEntry) (rs : List RelationEntry),
      queue = ws.map OSMEntry.way ++ rs.map OSMEntry.relation)
    (hq : queue = .relation r :: rest) : ∀ w, .way w ∉ queue := by
  obtain ⟨ws, rs, h⟩ := h
  rcases ws with _ | ⟨w, ws⟩
  · intro w hw
    rw [h] at hw
    simp at hw
  · rw [h] at hq
    simp at hq

/-- A property of all threads is checked on the one that moves. -/
lemma Move.forall_threads {env : ImportEnv} {σ σ' : ImportState T} {i : Fin T}
    (h : Move env σ i σ') {P : WayThread → Prop} (hi : P (σ'.threads i))
    (hall : ∀ j, P (σ.threads j)) (j : Fin T) : P (σ'.threads j) := by
  by_cases hj : j = i
  · rw [hj]
    exact hi
  · rw [h.threads_of_ne hj]
    exact hall j

/-- A move takes entries off the queue only. -/
lemma Move.mem_queue {env : ImportEnv} {σ σ' : ImportState T} {i : Fin T}
    (h : Move env σ i σ') {e : OSMEntry} (he : e ∈ σ'.queue) : e ∈ σ.queue := by
  cases h with
  | way _ _ hq => exact hq ▸ List.mem_cons_of_mem _ he
  | relation _ _ hq => exact hq ▸ List.mem_cons_of_mem _ he
  | job => exact he
  | leave => exact he
  | arrive => exact he
  | pass => exact he
  | passEnd => exact he
  | rings => exact he
  | read => exact he
  | store => exact he

/-- The thread that moves keeps what its stage says of its way to the barrier. -/
lemma gateOk_move {env : ImportEnv} {σ σ' : ImportState T} {i : Fin T} (h : Move env σ i σ')
    (hok : GateOk (σ.threads i))
    (hticket : ∀ held, (σ.threads i).stage = .arriving held → σ.arrivals < T) :
    GateOk (σ'.threads i) := by
  have hstart : ∀ (th : WayThread) (r : RelationEntry), GateOk (th.startRelation r) := by
    intro th r
    by_cases hm : isMultipolygon r.tags = true
    · simp [GateOk, WayThread.startRelation, hm]
    · simp [GateOk, WayThread.startRelation, hm]
  have hfinal : ∀ (th : WayThread) (held : Option RelationEntry), th.way_phase_done = false →
      GateOk (th.finalizeWays held) := fun th held hd => ⟨hd, th.finalizeWays_buf held⟩
  have hloop : ∀ th : WayThread, th.stage = .loop → GateOk th := by
    intro th hstage
    rw [GateOk, hstage]
    trivial
  cases h with
  | job =>
      rw [threads_setThread_self]
      exact hok
  | leave =>
      rw [threads_setThread_self, WayThread.leaveLoop]
      split
      · trivial
      · exact hfinal _ _ (Bool.eq_false_iff.mpr ‹_›)
  | way =>
      rw [threads_setThread_self]
      exact hloop _ (WayThread.processWay_stage ..)
  | relation =>
      rw [threads_setThread_self, WayThread.processRelation]
      split
      · exact hstart _ _
      · exact hfinal _ _ (Bool.eq_false_iff.mpr ‹_›)
  | arrive _ hstage =>
      rw [GateOk, hstage] at hok
      rw [threads_setThread_self]
      exact ⟨hok.1, Nat.div_eq_of_lt (hticket _ hstage)⟩
  | pass =>
      rw [threads_setThread_self]
      exact hstart _ _
  | passEnd =>
      rw [threads_setThread_self]
      trivial
  | rings =>
      rw [threads_setThread_self]
      exact hloop _ (WayThread.storeArea_stage ..)
  | read _ hstage =>
      rw [GateOk, hstage] at hok
      rw [threads_setThread_self]
      exact hok
  | store =>
      rw [threads_setThread_self]
      exact hloop _ (WayThread.storeRelation_stage ..)

/-- The thread that moves keeps what its stage says of it. -/
lemma stageOk_move {f : OsmFile} {env : ImportEnv} {σ σ' : ImportState T} {i : Fin T}
    (h : Move env σ i σ') (hok : StageOk f env.select (σ.threads i))
    (hreads : ∀ m r rest gs, (σ.threads i).stage = .geoms r (m :: rest) gs →
      σ.db.getWay m.id = (f.wayTables env.select).getWay m.id)
    (hticket : ∀ held, (σ.threads i).stage = .arriving held → σ.arrivals < T) :
    StageOk f env.select (σ'.threads i) := by
  have hstart : ∀ (th : WayThread) (r : RelationEntry),
      StageOk f env.select (th.startRelation r) := by
    intro th r
    by_cases hm : isMultipolygon r.tags = true
    · simp [StageOk, WayThread.startRelation, hm]
    · simp [StageOk, WayThread.startRelation, hm]
  have hfinal : ∀ (th : WayThread) (held : Option RelationEntry), th.way_phase_done = false →
      StageOk f env.select (th.finalizeWays held) := fun th held hd =>
    ⟨hd, th.finalizeWays_buf held⟩
  cases h with
  | job hjobs =>
      rw [threads_setThread_self]
      exact hok
  | leave _ hstage _ =>
      rw [threads_setThread_self, WayThread.leaveLoop]
      split
      · trivial
      · exact hfinal _ _ (Bool.eq_false_iff.mpr ‹_›)
  | way _ hstage _ =>
      rw [threads_setThread_self, StageOk, WayThread.processWay_stage]
      trivial
  | relation _ hstage _ =>
      rw [threads_setThread_self, WayThread.processRelation]
      split
      · exact hstart _ _
      · exact hfinal _ _ (Bool.eq_false_iff.mpr ‹_›)
  | arrive _ hstage =>
      rw [StageOk, hstage] at hok
      rw [threads_setThread_self]
      exact ⟨hok.1, Nat.div_eq_of_lt (hticket _ hstage)⟩
  | pass _ hstage _ =>
      rw [threads_setThread_self]
      exact hstart _ _
  | passEnd _ hstage _ =>
      rw [threads_setThread_self]
      trivial
  | rings _ hstage =>
      rw [threads_setThread_self, StageOk, WayThread.storeArea_stage]
      trivial
  | @read r m rest gs _ hstage =>
      rw [StageOk, hstage] at hok
      obtain ⟨hd, hm, hrest, hgs⟩ := hok
      rw [threads_setThread_self]
      refine ⟨hd, hm, fun m' hm' => hrest m' (List.mem_cons_of_mem _ hm'), ?_⟩
      rw [← hgs, hreads m r rest gs hstage, List.append_assoc]
      congr 1
      rw [List.filterMap_cons]
      rcases (f.wayTables env.select).getWay m.id with _ | g <;> rfl
  | store _ hstage =>
      rw [threads_setThread_self, StageOk, WayThread.storeRelation_stage]
      trivial

/-- The relation a thread holds is one of the file. -/
lemma held_move {f : OsmFile} {env : ImportEnv} {σ σ' : ImportState T} {i : Fin T}
    (h : Move env σ i σ') (hqueue : ∀ r, .relation r ∈ σ.queue → r ∈ f.relations)
    (hheld : ∀ r, (σ.threads i).stage.held = some r → r ∈ f.relations) (r : RelationEntry)
    (hr : (σ'.threads i).stage.held = some r) : r ∈ f.relations := by
  have hstart : ∀ (th : WayThread) (q : RelationEntry),
      (th.startRelation q).stage.held = some q := by
    intro th q
    rw [WayThread.startRelation]
    split <;> rfl
  cases h with
  | job =>
      rw [threads_setThread_self] at hr
      exact hheld r hr
  | leave =>
      rw [threads_setThread_self, WayThread.leaveLoop] at hr
      split at hr <;> simp [Stage.held] at hr
  | way =>
      rw [threads_setThread_self, WayThread.processWay_stage] at hr
      simp [Stage.held] at hr
  | @relation q queue _ _ hq =>
      have hq' : ((σ.threads i).processRelation q).stage.held = some q := by
        rw [WayThread.processRelation]
        split
        · exact hstart _ _
        · rfl
      rw [threads_setThread_self, hq'] at hr
      obtain rfl := Option.some.inj hr
      exact hqueue q (hq ▸ List.mem_cons_self ..)
  | arrive _ hstage =>
      rw [threads_setThread_self] at hr
      exact hheld r (by rw [hstage]; exact hr)
  | pass _ hstage _ =>
      rw [threads_setThread_self, hstart] at hr
      exact hheld r (by rw [hstage]; exact hr)
  | passEnd =>
      rw [threads_setThread_self] at hr
      simp [Stage.held] at hr
  | rings =>
      rw [threads_setThread_self, WayThread.storeArea_stage] at hr
      simp [Stage.held] at hr
  | read _ hstage =>
      rw [threads_setThread_self] at hr
      exact hheld r (by rw [hstage]; exact hr)
  | store =>
      rw [threads_setThread_self, WayThread.storeRelation_stage] at hr
      simp [Stage.held] at hr

/-- A move either leaves the thread as far from the barrier as it was, or is its
arrival there. -/
lemma clear_move {env : ImportEnv} {σ σ' : ImportState T} {i : Fin T}
    (h : Move env σ i σ') (hok : GateOk (σ.threads i)) :
    ((σ'.threads i).clear = (σ.threads i).clear ∧ σ'.arrivals = σ.arrivals)
      ∨ (σ.threads i).clear = false ∧ (σ'.threads i).clear = true
        ∧ (σ'.threads i).passed = false ∧ σ'.arrivals = σ.arrivals + 1
        ∧ ∃ held, (σ.threads i).jobs = [] ∧ (σ.threads i).stage = .arriving held := by
  cases h with
  | job =>
      rw [threads_setThread_self]
      exact Or.inl ⟨rfl, rfl⟩
  | leave _ hstage _ =>
      refine Or.inl ⟨?_, rfl⟩
      rw [threads_setThread_self, WayThread.clear_of_loop hstage, WayThread.leaveLoop]
      split
      · simp [WayThread.clear, ‹(σ.threads i).way_phase_done = true›]
      · simp [WayThread.clear]
  | way _ hstage _ =>
      refine Or.inl ⟨?_, rfl⟩
      rw [threads_setThread_self, WayThread.clear_of_loop (WayThread.processWay_stage ..),
        WayThread.processWay_done, WayThread.clear_of_loop hstage]
  | relation _ hstage _ =>
      refine Or.inl ⟨?_, rfl⟩
      rw [threads_setThread_self, WayThread.clear_of_loop hstage, WayThread.processRelation]
      split
      · simp [WayThread.clear, ‹(σ.threads i).way_phase_done = true›]
      · simp [WayThread.clear]
  | @arrive held hjobs hstage =>
      rw [GateOk, hstage] at hok
      refine Or.inr ⟨?_, ?_, ?_, rfl, held, hjobs, hstage⟩
      · simp [WayThread.clear, hstage, hok.1]
      · simp [WayThread.clear]
      · simp [WayThread.passed, hok.1]
  | pass _ hstage _ =>
      refine Or.inl ⟨?_, rfl⟩
      simp [WayThread.clear, hstage]
  | passEnd _ hstage _ =>
      refine Or.inl ⟨?_, rfl⟩
      simp [WayThread.clear, hstage]
  | rings _ hstage =>
      rw [GateOk, hstage] at hok
      refine Or.inl ⟨?_, rfl⟩
      rw [threads_setThread_self, WayThread.clear_of_loop (WayThread.storeArea_stage ..),
        WayThread.storeArea_done]
      simp [WayThread.clear, hok]
  | read _ hstage =>
      rw [GateOk, hstage] at hok
      refine Or.inl ⟨?_, rfl⟩
      simp [WayThread.clear, hok]
  | store _ hstage =>
      rw [GateOk, hstage] at hok
      refine Or.inl ⟨?_, rfl⟩
      rw [threads_setThread_self, WayThread.clear_of_loop (WayThread.storeRelation_stage ..),
        WayThread.storeRelation_done]
      simp [WayThread.clear, hok]

/-- Only the end of the barrier's phase takes a thread past it. -/
lemma passed_move {env : ImportEnv} {σ σ' : ImportState T} {i : Fin T}
    (h : Move env σ i σ') (hok : GateOk (σ.threads i))
    (hp : (σ'.threads i).passed) :
    (σ.threads i).passed ∨ 0 < σ.arrivals / T ∧ (σ.threads i).way_phase_done = false := by
  cases h with
  | job =>
      rw [threads_setThread_self] at hp
      exact Or.inl hp
  | leave _ hstage _ =>
      rw [threads_setThread_self, WayThread.leaveLoop] at hp
      split at hp
      · exact Or.inl (WayThread.passed_of_done ‹_›)
      · simp [WayThread.passed, ‹¬(σ.threads i).way_phase_done = true›] at hp
  | way _ hstage _ =>
      rw [threads_setThread_self, WayThread.passed_of_loop (WayThread.processWay_stage ..),
        WayThread.processWay_done] at hp
      exact Or.inl (WayThread.passed_of_done hp)
  | relation _ hstage _ =>
      rw [threads_setThread_self, WayThread.processRelation] at hp
      split at hp
      · exact Or.inl (WayThread.passed_of_done ‹_›)
      · simp [WayThread.passed, ‹¬(σ.threads i).way_phase_done = true›] at hp
  | arrive _ hstage =>
      rw [GateOk, hstage] at hok
      simp [WayThread.passed, hok.1] at hp
  | pass _ hstage hphase =>
      rw [GateOk, hstage] at hok
      exact Or.inr ⟨by omega, hok.1⟩
  | passEnd _ hstage hphase =>
      rw [GateOk, hstage] at hok
      exact Or.inr ⟨by omega, hok.1⟩
  | rings _ hstage =>
      rw [GateOk, hstage] at hok
      exact Or.inl (WayThread.passed_of_done hok)
  | read _ hstage =>
      rw [GateOk, hstage] at hok
      exact Or.inl (WayThread.passed_of_done hok)
  | store _ hstage =>
      rw [GateOk, hstage] at hok
      exact Or.inl (WayThread.passed_of_done hok)

/-- A move takes back no `way_phase_done`. -/
lemma done_move {env : ImportEnv} {σ σ' : ImportState T} {i : Fin T} (h : Move env σ i σ')
    (hd : (σ.threads i).way_phase_done = true) : (σ'.threads i).way_phase_done = true := by
  cases h with
  | job => simpa using hd
  | leave => simp [WayThread.leaveLoop, hd]
  | way => simpa [WayThread.processWay_done] using hd
  | relation => simp [WayThread.processRelation, hd]
  | arrive => simpa using hd
  | pass => simp
  | passEnd => simpa using hd
  | rings => simpa [WayThread.storeArea_done] using hd
  | read => simpa using hd
  | store => simpa [WayThread.storeRelation_done] using hd

/-- A move takes at most the first entry off the queue. -/
lemma Move.queue_cases {env : ImportEnv} {σ σ' : ImportState T} {i : Fin T}
    (h : Move env σ i σ') : σ'.queue = σ.queue ∨ ∃ e, σ.queue = e :: σ'.queue := by
  cases h with
  | way _ _ hq => exact Or.inr ⟨_, hq⟩
  | relation _ _ hq => exact Or.inr ⟨_, hq⟩
  | job => exact Or.inl rfl
  | leave => exact Or.inl rfl
  | arrive => exact Or.inl rfl
  | pass => exact Or.inl rfl
  | passEnd => exact Or.inl rfl
  | rings => exact Or.inl rfl
  | read => exact Or.inl rfl
  | store => exact Or.inl rfl

/-- The ways stay ahead of the relations. -/
lemma Move.ways_first {env : ImportEnv} {σ σ' : ImportState T} {i : Fin T} (h : Move env σ i σ')
    (hfirst : ∃ (ws : List WayEntry) (rs : List RelationEntry),
      σ.queue = ws.map OSMEntry.way ++ rs.map OSMEntry.relation) :
    ∃ (ws : List WayEntry) (rs : List RelationEntry),
      σ'.queue = ws.map OSMEntry.way ++ rs.map OSMEntry.relation := by
  obtain ⟨ws, rs, hq⟩ := hfirst
  cases h.queue_cases with
  | inl heq => exact ⟨ws, rs, heq.trans hq⟩
  | inr hpop =>
      obtain ⟨e, heq⟩ := hpop
      rw [heq] at hq
      cases ws with
      | cons w ws => exact ⟨ws, rs, by simpa using (List.cons.inj hq).2⟩
      | nil =>
          cases rs with
          | nil => simp at hq
          | cons r rs => exact ⟨[], rs, by simpa using (List.cons.inj hq).2⟩

/-- A thread that has left the way loop has seen the last way go. -/
lemma left_move {env : ImportEnv} {σ σ' : ImportState T} {i : Fin T} (h : Move env σ i σ')
    (hok : GateOk (σ.threads i))
    (hfirst : ∃ (ws : List WayEntry) (rs : List RelationEntry),
      σ.queue = ws.map OSMEntry.way ++ rs.map OSMEntry.relation)
    (hleft : ((σ.threads i).clear ∨ ∃ held, (σ.threads i).stage = .arriving held) →
      ∀ w, .way w ∉ σ.queue)
    (hl : (σ'.threads i).clear ∨ ∃ held, (σ'.threads i).stage = .arriving held) :
    ∀ w, .way w ∉ σ'.queue := by
  have hold : ((σ.threads i).clear ∨ ∃ held, (σ.threads i).stage = .arriving held) →
      ∀ w, .way w ∉ σ'.queue := fun hl w hw => hleft hl w (h.mem_queue hw)
  have hloop : (σ'.threads i).stage = .loop →
      (σ'.threads i).way_phase_done = (σ.threads i).way_phase_done →
      ∀ w, .way w ∉ σ'.queue := by
    intro hstage hdone
    rcases hl with hl | ⟨held, hl⟩
    · rw [WayThread.clear_of_loop hstage, hdone] at hl
      exact hold (Or.inl (WayThread.clear_of_passed (WayThread.passed_of_done hl)))
    · rw [hstage] at hl
      simp at hl
  cases h with
  | job =>
      rw [threads_setThread_self] at hl
      exact hold hl
  | leave _ _ hq =>
      rw [queue_setThread, hq]
      simp
  | way _ hstage _ =>
      refine hloop ?_ ?_
      · rw [threads_setThread_self, WayThread.processWay_stage]
      · rw [threads_setThread_self, WayThread.processWay_done]
  | relation _ _ hq =>
      intro w hw
      exact no_ways_of_relation hfirst hq w (hq ▸ List.mem_cons_of_mem _ hw)
  | arrive _ hstage => exact hold (Or.inr ⟨_, hstage⟩)
  | pass _ hstage _ => exact hold (Or.inl (by simp [WayThread.clear, hstage]))
  | passEnd _ hstage _ => exact hold (Or.inl (by simp [WayThread.clear, hstage]))
  | rings _ hstage =>
      refine hloop ?_ ?_
      · rw [threads_setThread_self, WayThread.storeArea_stage]
      · rw [threads_setThread_self, WayThread.storeArea_done]
  | read _ hstage =>
      rw [GateOk, hstage] at hok
      exact hold (Or.inl (by simp [WayThread.clear, hok]))
  | store _ hstage =>
      refine hloop ?_ ?_
      · rw [threads_setThread_self, WayThread.storeRelation_stage]
      · rw [threads_setThread_self, WayThread.storeRelation_done]

/-- A thread on its way to the barrier is missing among those that have arrived. -/
lemma arrivals_lt {σ : ImportState T}
    (hcount : σ.arrivals = (Finset.univ.filter fun i => (σ.threads i).clear).card) {j : Fin T}
    (hj : (σ.threads j).clear = false) : σ.arrivals < T := by
  rw [hcount]
  refine (Finset.card_lt_univ_of_notMem (x := j) ?_).trans_eq (Fintype.card_fin T)
  simp [hj]

/-- The arrivals are counted. -/
lemma card_clear_move {env : ImportEnv} {σ σ' : ImportState T} {i : Fin T}
    (h : Move env σ i σ') (hok : GateOk (σ.threads i))
    (hcount : σ.arrivals = (Finset.univ.filter fun i => (σ.threads i).clear).card) :
    σ'.arrivals = (Finset.univ.filter fun i => (σ'.threads i).clear).card := by
  rcases clear_move h hok with ⟨hsame, harr⟩ | ⟨hno, hyes, -, harr, -⟩
  · rw [harr, hcount]
    congr 1
    ext j
    by_cases hji : j = i
    · subst hji
      simp [hsame]
    · simp [h.threads_of_ne hji]
  · have hset : (Finset.univ.filter fun j => (σ'.threads j).clear)
        = insert i (Finset.univ.filter fun j => (σ.threads j).clear) := by
      ext j
      by_cases hji : j = i
      · subst hji
        simp [hyes]
      · simp [h.threads_of_ne hji, hji]
    rw [harr, hset, Finset.card_insert_of_notMem (by simp [hno]), hcount]

/-- A thread that has arrived stays so. -/
lemma clear_mono {env : ImportEnv} {σ σ' : ImportState T} {i : Fin T} (h : Move env σ i σ')
    (hok : GateOk (σ.threads i)) {j : Fin T} (hj : (σ.threads j).clear) :
    (σ'.threads j).clear := by
  by_cases hji : j = i
  · subst hji
    rcases clear_move h hok with ⟨hsame, -⟩ | ⟨hno, -⟩
    · rw [hsame]
      exact hj
    · rw [hno] at hj
      simp at hj
  · rw [h.threads_of_ne hji]
    exact hj

/-- **Nobody is past the barrier before everybody has arrived.** -/
lemma passed_clear_move {env : ImportEnv} {σ σ' : ImportState T} {i : Fin T}
    (h : Move env σ i σ') (hok : GateOk (σ.threads i))
    (hcount : (σ.threads i).way_phase_done = false →
      σ.arrivals = (Finset.univ.filter fun i => (σ.threads i).clear).card)
    (hpassed : ∀ i, (σ.threads i).passed → ∀ j, (σ.threads j).clear) (j : Fin T)
    (hj : (σ'.threads j).passed) (k : Fin T) : (σ'.threads k).clear := by
  by_cases hji : j = i
  · subst hji
    rcases passed_move h hok hj with hp | ⟨hphase, hd⟩
    · exact clear_mono h hok (hpassed j hp k)
    · refine clear_mono h hok ?_
      by_contra hk
      have hlt := arrivals_lt (hcount hd) (Bool.eq_false_iff.mpr hk)
      rw [Nat.div_eq_of_lt hlt] at hphase
      omega
  · rw [h.threads_of_ne hji] at hj
    exact clear_mono h hok (hpassed j hj k)

end ImportState

end Gpsxdb
