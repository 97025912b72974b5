import Mathlib.Tactic
import Gpsxdb.Import.Conservation

/-!
The moves of a way thread, read off `ImportState.step` once.

* `Move`: the kinds of moves, with what each requires and does; `move_of_step`;
* `ImportState.items`: what a table holds or is going to hold, over all threads
  and the queue; `items_of_local` reduces it to the thread that moves;
* `ReadsOk`: the reads of a relation's members find what the way phase leaves;
  `move_items`: under it every move keeps the items, or drops a row that is
  there already.
-/

namespace Gpsxdb

namespace ImportState

variable {T : ℕ}

/-- A move of a thread: what it requires, and the state it leads to. -/
inductive Move (env : ImportEnv) (σ : ImportState T) (i : Fin T) : ImportState T → Prop
  /-- the next transaction -/
  | job {j : Job} {jobs : List Job} : (σ.threads i).jobs = j :: jobs →
      Move env σ i ({ σ with db := (σ.db.exec j).1 }.setThread i
        { σ.threads i with jobs := (σ.db.exec j).2.toList ++ jobs })
  /-- a failed pop -/
  | leave : (σ.threads i).jobs = [] → (σ.threads i).stage = .loop → σ.queue = [] →
      Move env σ i (σ.setThread i (σ.threads i).leaveLoop)
  /-- a popped way -/
  | way {w : WayEntry} {queue : List OSMEntry} : (σ.threads i).jobs = [] →
      (σ.threads i).stage = .loop → σ.queue = .way w :: queue →
      Move env σ i ({ σ with queue := queue }.setThread i ((σ.threads i).processWay env w))
  /-- a popped relation -/
  | relation {r : RelationEntry} {queue : List OSMEntry} : (σ.threads i).jobs = [] →
      (σ.threads i).stage = .loop → σ.queue = .relation r :: queue →
      Move env σ i ({ σ with queue := queue }.setThread i ((σ.threads i).processRelation r))
  /-- an arrival at the barrier -/
  | arrive {held : Option RelationEntry} : (σ.threads i).jobs = [] →
      (σ.threads i).stage = .arriving held →
      Move env σ i ({ σ with arrivals := σ.arrivals + 1 }.setThread i
        { σ.threads i with jobs := [], stage := .waiting (σ.arrivals / T) held })
  /-- past the barrier with a relation -/
  | pass {phase : ℕ} {r : RelationEntry} : (σ.threads i).jobs = [] →
      (σ.threads i).stage = .waiting phase (some r) → phase < σ.arrivals / T →
      Move env σ i (σ.setThread i ((σ.threads i).startRelation r))
  /-- past the barrier at the end of the queue -/
  | passEnd {phase : ℕ} : (σ.threads i).jobs = [] →
      (σ.threads i).stage = .waiting phase none → phase < σ.arrivals / T →
      Move env σ i (σ.setThread i (σ.threads i).finish)
  /-- the coordinates of a multipolygon's members -/
  | rings {r : RelationEntry} : (σ.threads i).jobs = [] → (σ.threads i).stage = .rings r →
      Move env σ i (σ.setThread i ((σ.threads i).storeArea r
        (σ.db.getWayCoordsMap (r.way_members.map RelationMember.id))))
  /-- the geometry of the next member -/
  | read {r : RelationEntry} {m : RelationMember} {rest : List RelationMember}
      {geoms : List Geog} : (σ.threads i).jobs = [] →
      (σ.threads i).stage = .geoms r (m :: rest) geoms →
      Move env σ i (σ.setThread i { σ.threads i with
        jobs := []
        stage := .geoms r rest (geoms ++ (σ.db.getWay m.id).toList) })
  /-- the last member is read -/
  | store {r : RelationEntry} {geoms : List Geog} : (σ.threads i).jobs = [] →
      (σ.threads i).stage = .geoms r [] geoms →
      Move env σ i (σ.setThread i ((σ.threads i).storeRelation r geoms))

/-- **Every step is a move.** -/
lemma move_of_step {env : ImportEnv} {σ σ' : ImportState T} {i : Fin T}
    (h : σ.step env i = some σ') : Move env σ i σ' := by
  rw [step] at h
  rcases hjobs : (σ.threads i).jobs with _ | ⟨j, jobs⟩
  · simp only [hjobs] at h
    rcases hstage : (σ.threads i).stage with _ | held | ⟨phase, held⟩ | r | ⟨r, rest, geoms⟩ | _
    · simp only [hstage] at h
      rcases hq : σ.queue with _ | ⟨w | r, queue⟩
      · simp only [hq] at h
        obtain rfl := Option.some.inj h
        exact .leave hjobs hstage hq
      · simp only [hq] at h
        obtain rfl := Option.some.inj h
        exact .way hjobs hstage hq
      · simp only [hq] at h
        obtain rfl := Option.some.inj h
        exact .relation hjobs hstage hq
    · simp only [hstage] at h
      obtain rfl := Option.some.inj h
      exact .arrive hjobs hstage
    · simp only [hstage] at h
      split at h
      · rcases held with _ | r
        · obtain rfl := Option.some.inj h
          exact .passEnd hjobs hstage ‹_›
        · obtain rfl := Option.some.inj h
          exact .pass hjobs hstage ‹_›
      · simp at h
    · simp only [hstage] at h
      obtain rfl := Option.some.inj h
      exact .rings hjobs hstage
    · rcases rest with _ | ⟨m, rest⟩
      · simp only [hstage] at h
        obtain rfl := Option.some.inj h
        exact .store hjobs hstage
      · simp only [hstage] at h
        obtain rfl := Option.some.inj h
        exact .read hjobs hstage
    · simp only [hstage] at h
      simp at h
  · simp only [hjobs] at h
    obtain rfl := Option.some.inj h
    exact .job hjobs

/-- A thread that has transactions to run does run the first of them. -/
lemma Move.job_of_ne_nil {env : ImportEnv} {σ σ' : ImportState T} {i : Fin T}
    (h : Move env σ i σ') (hjobs : (σ.threads i).jobs ≠ []) :
    ∃ j jobs, (σ.threads i).jobs = j :: jobs
      ∧ σ' = { σ with db := (σ.db.exec j).1 }.setThread i
        { σ.threads i with jobs := (σ.db.exec j).2.toList ++ jobs } := by
  cases h with
  | job hcons => exact ⟨_, _, hcons, rfl⟩
  | leave hnil => exact absurd hnil hjobs
  | way hnil => exact absurd hnil hjobs
  | relation hnil => exact absurd hnil hjobs
  | arrive hnil => exact absurd hnil hjobs
  | pass hnil => exact absurd hnil hjobs
  | passEnd hnil => exact absurd hnil hjobs
  | rings hnil => exact absurd hnil hjobs
  | read hnil => exact absurd hnil hjobs
  | store hnil => exact absurd hnil hjobs

@[simp] lemma threads_setThread_self (σ : ImportState T) (i : Fin T) (th : WayThread) :
    (σ.setThread i th).threads i = th := Function.update_self ..

lemma threads_setThread_of_ne (σ : ImportState T) {i j : Fin T} (th : WayThread) (h : j ≠ i) :
    (σ.setThread i th).threads j = σ.threads j := Function.update_of_ne h ..

@[simp] lemma db_setThread (σ : ImportState T) (i : Fin T) (th : WayThread) :
    (σ.setThread i th).db = σ.db := rfl

@[simp] lemma queue_setThread (σ : ImportState T) (i : Fin T) (th : WayThread) :
    (σ.setThread i th).queue = σ.queue := rfl

@[simp] lemma arrivals_setThread (σ : ImportState T) (i : Fin T) (th : WayThread) :
    (σ.setThread i th).arrivals = σ.arrivals := rfl

/-- A move touches no other thread. -/
lemma Move.threads_of_ne {env : ImportEnv} {σ σ' : ImportState T} {i j : Fin T}
    (h : Move env σ i σ') (hj : j ≠ i) : σ'.threads j = σ.threads j := by
  cases h <;> exact threads_setThread_of_ne _ _ hj

/-! ### The items of a state -/

variable (f : OsmFile) (select : ℤ → Option Coord)

/-- What is still to be written to a table. -/
def pending (σ : ImportState T) (s : Table) : Multiset Item :=
  ∑ i, (σ.threads i).items f select s + keptItems (σ.queue.flatMap (f.entryKept select)) s

/-- What a table holds or is going to hold. -/
def items (σ : ImportState T) (s : Table) : Multiset Item :=
  σ.db.items s + σ.pending f select s

/-- Where one thread moves, the items change as those of the tables, the thread
and the queue do. -/
lemma items_of_local {σ σ' : ImportState T} {i : Fin T}
    (hth : ∀ j, j ≠ i → σ'.threads j = σ.threads j) {s : Table} {δ : Multiset Item}
    (h : σ'.db.items s + (σ'.threads i).items f select s
        + keptItems (σ'.queue.flatMap (f.entryKept select)) s + δ
      = σ.db.items s + (σ.threads i).items f select s
        + keptItems (σ.queue.flatMap (f.entryKept select)) s) :
    σ'.items f select s + δ = σ.items f select s := by
  have hrest : ∑ j ∈ Finset.univ.erase i, (σ'.threads j).items f select s
      = ∑ j ∈ Finset.univ.erase i, (σ.threads j).items f select s :=
    Finset.sum_congr rfl fun j hj => by rw [hth j (Finset.ne_of_mem_erase hj)]
  rw [items, items, pending, pending, ← Finset.add_sum_erase _ _ (Finset.mem_univ i),
    ← Finset.add_sum_erase (a := i) _ (fun j => (σ.threads j).items f select s)
      (Finset.mem_univ i), hrest]
  generalize ∑ j ∈ Finset.univ.erase i, (σ.threads j).items f select s = rest
  calc σ'.db.items s + ((σ'.threads i).items f select s + rest
        + keptItems (σ'.queue.flatMap (f.entryKept select)) s) + δ
      = (σ'.db.items s + (σ'.threads i).items f select s
        + keptItems (σ'.queue.flatMap (f.entryKept select)) s + δ) + rest := by abel
    _ = (σ.db.items s + (σ.threads i).items f select s
        + keptItems (σ.queue.flatMap (f.entryKept select)) s) + rest := by rw [h]
    _ = _ := by abel

/-- The reads a thread makes for its relation, and those it has made, find what
the way phase leaves. -/
structure ReadsOk (d : Database) (th : WayThread) : Prop where
  rings : ∀ r, th.stage = .rings r → isMultipolygon r.tags
    ∧ d.getWayCoordsMap (r.way_members.map RelationMember.id)
      = (f.wayTables select).getWayCoordsMap (r.way_members.map RelationMember.id)
  geoms : ∀ r rest gs, th.stage = .geoms r rest gs → isMultipolygon r.tags = false
    ∧ gs ++ rest.filterMap (fun m => (f.wayTables select).getWay m.id)
      = r.way_members.filterMap fun m => (f.wayTables select).getWay m.id

/-- A transaction of one thread changes the items as it changes tables and
transactions. -/
lemma items_of_exec (σ : ImportState T) {i : Fin T} {j : Job} {jobs : List Job}
    (hjobs : (σ.threads i).jobs = j :: jobs) {s : Table} {δ : Multiset Item}
    (h : (σ.db.exec j).1.items s + againItems (σ.db.exec j).2 s + δ
      = σ.db.items s + j.items s) :
    ({ σ with db := (σ.db.exec j).1 }.setThread i
        { σ.threads i with jobs := (σ.db.exec j).2.toList ++ jobs }).items f select s + δ
      = σ.items f select s := by
  refine items_of_local f select (σ := σ) (i := i) (fun k hk => Function.update_of_ne hk ..) ?_
  rw [againItems] at h
  rw [threads_setThread_self, db_setThread, queue_setThread, WayThread.items, WayThread.items,
    hjobs, jobsItems_append, jobsItems_cons]
  generalize keptItems (heldKept f select (σ.threads i).stage.held) s = held
  generalize keptItems (σ.queue.flatMap (f.entryKept select)) s = queue
  calc (σ.db.exec j).1.items s + ((σ.threads i).db.items s
        + (jobsItems (σ.db.exec j).2.toList s + jobsItems jobs s) + held) + queue + δ
      = ((σ.db.exec j).1.items s + jobsItems (σ.db.exec j).2.toList s + δ)
        + ((σ.threads i).db.items s + jobsItems jobs s + held + queue) := by abel
    _ = (σ.db.items s + j.items s)
        + ((σ.threads i).db.items s + jobsItems jobs s + held + queue) := by rw [h]
    _ = _ := by abel

/-- A move that is no transaction leaves the tables alone and keeps the items of
the thread and the queue together. -/
lemma local_items {env : ImportEnv} {σ σ' : ImportState T} {i : Fin T} (h : Move env σ i σ')
    (hjobs : (σ.threads i).jobs = []) (hreads : ReadsOk f env.select σ.db (σ.threads i))
    (hways : ∀ w, .way w ∈ σ.queue → env.skip_ways = false) :
    σ'.db = σ.db ∧ ∀ s, (σ'.threads i).items f env.select s
        + keptItems (σ'.queue.flatMap (f.entryKept env.select)) s
      = (σ.threads i).items f env.select s
        + keptItems (σ.queue.flatMap (f.entryKept env.select)) s := by
  cases h with
  | job hcons => simp [hjobs] at hcons
  | leave _ hstage hq =>
      refine ⟨rfl, fun s => ?_⟩
      rw [threads_setThread_self, queue_setThread, WayThread.leaveLoop_items, WayThread.items,
        hjobs, hstage]
      simp [Stage.held]
  | way _ hstage hq =>
      refine ⟨rfl, fun s => ?_⟩
      have hskip := hways _ (hq ▸ List.mem_cons_self ..)
      rw [threads_setThread_self, queue_setThread, WayThread.processWay_items f hskip,
        WayThread.items, hjobs, hstage, hq]
      simp only [Stage.held, heldKept_none, jobsItems_nil, keptItems_nil, List.flatMap_cons,
        keptItems_append, OsmFile.entryKept]
      abel
  | relation _ hstage hq =>
      refine ⟨rfl, fun s => ?_⟩
      rw [threads_setThread_self, queue_setThread,
        WayThread.processRelation_items f env.select hjobs, WayThread.items, hjobs, hstage, hq]
      simp only [Stage.held, heldKept_none, jobsItems_nil, keptItems_nil, List.flatMap_cons,
        keptItems_append, OsmFile.entryKept]
      abel
  | arrive _ hstage =>
      refine ⟨rfl, fun s => ?_⟩
      rw [threads_setThread_self, queue_setThread, WayThread.items, WayThread.items, hjobs, hstage]
      rfl
  | pass _ hstage hphase =>
      refine ⟨rfl, fun s => ?_⟩
      rw [threads_setThread_self, queue_setThread, WayThread.startRelation_items,
        WayThread.items, hjobs, hstage]
      simp [Stage.held]
  | passEnd _ hstage hphase =>
      refine ⟨rfl, fun s => ?_⟩
      rw [threads_setThread_self, queue_setThread, WayThread.finish_items, WayThread.items,
        hjobs, hstage]
      simp [Stage.held]
  | @rings r _ hstage =>
      refine ⟨rfl, fun s => ?_⟩
      obtain ⟨hmulti, hcoords⟩ := hreads.rings r hstage
      rw [threads_setThread_self, queue_setThread, WayThread.storeArea_items, WayThread.items,
        hjobs, hstage, hcoords]
      simp [Stage.held, OsmFile.relationKept, hmulti]
  | read _ hstage =>
      refine ⟨rfl, fun s => ?_⟩
      rw [threads_setThread_self, queue_setThread, WayThread.items, WayThread.items, hjobs, hstage]
      rfl
  | @store r geoms _ hstage =>
      refine ⟨rfl, fun s => ?_⟩
      obtain ⟨hmulti, hgeoms⟩ := hreads.geoms r [] geoms hstage
      rw [List.filterMap_nil, List.append_nil] at hgeoms
      rw [threads_setThread_self, queue_setThread, WayThread.storeRelation_items,
        WayThread.items, hjobs, hstage, hgeoms]
      simp [Stage.held, OsmFile.relationKept, hmulti]

/-- **A move keeps the items**, or drops a row whose id is taken by a row that
stays. -/
lemma move_items {env : ImportEnv} {σ σ' : ImportState T} {i : Fin T} (h : Move env σ i σ')
    (hreads : ReadsOk f env.select σ.db (σ.threads i))
    (hways : ∀ w, .way w ∈ σ.queue → env.skip_ways = false) :
    (∀ s, σ'.items f env.select s = σ.items f env.select s)
      ∨ ∃ t r r', (∀ s, σ'.items f env.select s + (if s = t then {Sum.inl r} else 0)
            = σ.items f env.select s)
          ∧ Sum.inl r' ∈ σ'.items f env.select t ∧ r'.id = r.id := by
  by_cases hjobs : (σ.threads i).jobs = []
  · obtain ⟨hdb, hlocal⟩ := local_items f h hjobs hreads hways
    refine Or.inl fun s => ?_
    rw [← items_of_local f env.select (fun j hj => h.threads_of_ne hj) (δ := 0) (s := s),
      add_zero]
    rw [add_zero, hdb, add_assoc, add_assoc, hlocal s]
  · obtain ⟨j, jobs, hcons, rfl⟩ := h.job_of_ne_nil hjobs
    obtain ⟨hexec | ⟨t, r, r', hexec, hmem, hid⟩, -⟩ := σ.db.exec_items j
    · refine Or.inl fun s => ?_
      rw [← items_of_exec f env.select σ hcons (δ := 0) (by rw [add_zero]; exact hexec s),
        add_zero]
    · refine Or.inr ⟨t, r, r', fun s => items_of_exec f env.select σ hcons (hexec s), ?_, hid⟩
      -- the row that stays is in the table, or in the batch to be tried again
      simp only [items, pending, db_setThread, Multiset.mem_add]
      rcases Multiset.mem_add.mp hmem with hdb | hagain
      · exact Or.inl hdb
      · refine Or.inr (Or.inl (Multiset.mem_sum.mpr ⟨i, Finset.mem_univ i, ?_⟩))
        rw [threads_setThread_self, WayThread.items, jobsItems_append]
        simp only [Multiset.mem_add]
        exact Or.inl (Or.inr (Or.inl hagain))

end ImportState

end Gpsxdb
