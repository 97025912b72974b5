import Mathlib.Tactic
import Gpsxdb.Import.Outcome

/-!
An import comes to an end.

* `Job.fuel`, `NavDB.fuel`, `Stage.fuel`, `ImportState.fuel`: a bound on the
  moves left, retries of a batch included; `fuel_move`, `run_length_le`;
* `Drained`: a thread leaves its loop only once the queue is empty;
* `done_of_halted`: where no thread can move, the import is done: nobody is left
  waiting at the barrier.
-/

namespace Gpsxdb

/-! ### What is left to be done -/

/-- The transactions a transaction may take, its retries included. -/
def Job.fuel : Job → ℕ
  | .copy _ buf retry => buf.length + if retry then 1 else 2
  | .tags _ _ => 1

/-- The transactions a list of transactions may take. -/
def jobsFuel (jobs : List Job) : ℕ := (jobs.map Job.fuel).sum

@[simp] lemma jobsFuel_nil : jobsFuel [] = 0 := rfl

@[simp] lemma jobsFuel_cons (j : Job) (jobs : List Job) :
    jobsFuel (j :: jobs) = j.fuel + jobsFuel jobs := rfl

@[simp] lemma jobsFuel_append (jobs jobs' : List Job) :
    jobsFuel (jobs ++ jobs') = jobsFuel jobs + jobsFuel jobs' := by
  simp [jobsFuel]

/-- Every transaction brings its batch nearer to its end: a retry takes a row
out. -/
lemma Database.exec_fuel (d : Database) (j : Job) : jobsFuel (d.exec j).2.toList < j.fuel := by
  cases j with
  | tags t buf => simp [exec, Job.fuel]
  | copy t buf retry =>
      rw [exec]
      rcases hrej : firstRejected ((d.rows t).map GeomRecord.id) buf with _ | line
      · simp only [Option.toList_none, jobsFuel_nil, Job.fuel]
        split <;> omega
      · obtain ⟨r, hperm, -⟩ := firstRejected_eq_some hrej
        have hlen := hperm.length_eq
        rw [List.length_cons] at hlen
        have hagain : ∀ rest : List GeomRecord,
            jobsFuel (if rest = [] then none else some (Job.copy t rest true)).toList
              ≤ rest.length + 1 := by
          intro rest
          split <;> simp [Job.fuel]
        have hle := hagain (if retry then buf.eraseIdx line else buf)
        cases retry
        · simp only [Bool.false_eq_true, if_false, Job.fuel] at hle ⊢
          omega
        · simp only [if_true, Job.fuel] at hle ⊢
          omega

namespace NavDB

/-- The transactions the buffered rows may take. -/
def fuel (n : NavDB) : ℕ :=
  4 * ((n.buf .ways).length + (n.buf .areas).length + (n.buf .roads).length
    + (n.buf .relations).length)

lemma flush_fuel (n : NavDB) (t : Table) :
    (n.flush t).1.fuel + jobsFuel (n.flush t).2 ≤ n.fuel := by
  rw [flush]
  split
  · simp
  · have hpos := List.length_pos_iff.mpr ‹¬n.buf t = []›
    cases t <;> simp [fuel, Job.fuel, Function.update] <;> omega

lemma flushAll_fuel (n : NavDB) (ts : List Table) :
    (n.flushAll ts).1.fuel + jobsFuel (n.flushAll ts).2 ≤ n.fuel := by
  induction ts generalizing n with
  | nil => simp [flushAll]
  | cons t ts ih =>
      have h1 := n.flush_fuel t
      have h2 := ih (n.flush t).1
      simp only [flushAll, jobsFuel_append]
      omega

lemma insert_fuel (n : NavDB) (t : Table) (r : GeomRecord) (tags : List TagRecord)
    (full : ℕ → Bool) :
    (n.insert t r tags full).1.fuel + jobsFuel (n.insert t r tags full).2 ≤ n.fuel + 4 := by
  have hbuf : ({ n with
      buf := Function.update n.buf t (n.buf t ++ [r])
      tag_buf := Function.update n.tag_buf t (n.tag_buf t ++ tags) } : NavDB).fuel
      = n.fuel + 4 := by
    cases t <;> simp [fuel, Function.update] <;> omega
  rw [insert, ← hbuf]
  split
  · exact flush_fuel _ t
  · simp

lemma insertWay_fuel (n : NavDB) (id : ℤ) (name : Text) (tags : Tags) (geog : Geog) :
    (n.insertWay id name tags geog).1.fuel + jobsFuel (n.insertWay id name tags geog).2
      ≤ n.fuel + 4 := by
  rw [insertWay]
  split
  · simp
  · exact insert_fuel ..

lemma insertArea_fuel (n : NavDB) (id : ℤ) (name : Text) (tags : Tags) (geog : Geog) :
    (n.insertArea id name tags geog).1.fuel + jobsFuel (n.insertArea id name tags geog).2
      ≤ n.fuel + 4 := by
  rw [insertArea]
  split
  · simp
  · exact insert_fuel ..

end NavDB

/-- The moves a stage may take before the next pop, with the rows it inserts. -/
def Stage.fuel : Stage → ℕ
  | .loop => 3
  | .arriving none => 2
  | .arriving (some item) => item.way_members.length + 14
  | .waiting _ none => 1
  | .waiting _ (some item) => item.way_members.length + 13
  | .rings _ => 8
  | .geoms _ rest _ => rest.length + 12
  | .finished => 0

/-- The thread has seen the queue empty. -/
def Stage.ending : Stage → Bool
  | .arriving none => true
  | .waiting _ none => true
  | .finished => true
  | _ => false

/-- The moves an entry of the queue may take. -/
def OSMEntry.fuel : OSMEntry → ℕ
  | .way _ => 5
  | .relation item => item.way_members.length + 12

namespace WayThread

/-- The moves a thread may take without another pop. -/
def fuel (th : WayThread) : ℕ := th.db.fuel + jobsFuel th.jobs + th.stage.fuel

lemma fuel_of_idle {th : WayThread} (h : th.jobs = []) :
    th.fuel = th.db.fuel + th.stage.fuel := by
  rw [fuel, h, jobsFuel_nil, add_zero]

lemma endEntry_fuel (th : WayThread) (n : NavDB) (jobs : List Job) :
    (th.endEntry n jobs).fuel ≤ n.fuel + jobsFuel jobs + 3 := by
  have h := n.flush_fuel .roads
  simp only [endEntry, fuel, jobsFuel_append, Stage.fuel]
  omega

lemma finish_fuel (th : WayThread) : th.finish.fuel ≤ th.db.fuel :=
  th.db.flushAll_fuel [.relations, .ways, .areas, .roads, .relations]

lemma finalizeWays_fuel (th : WayThread) (held : Option RelationEntry) :
    (th.finalizeWays held).fuel ≤ th.db.fuel + (Stage.arriving held).fuel :=
  Nat.add_le_add_right (th.db.flushAll_fuel [.ways, .areas]) _

lemma leaveLoop_fuel (th : WayThread) : th.leaveLoop.fuel ≤ th.db.fuel + 2 := by
  rw [leaveLoop]
  split
  · exact (th.finish_fuel).trans (Nat.le_add_right ..)
  · exact th.finalizeWays_fuel none

lemma startRelation_fuel {th : WayThread} (hjobs : th.jobs = []) (r : RelationEntry) :
    (th.startRelation r).fuel ≤ th.db.fuel + (r.way_members.length + 12) := by
  simp only [startRelation, fuel, hjobs, jobsFuel_nil]
  split <;> simp only [Stage.fuel] <;> omega

lemma processRelation_fuel {th : WayThread} (hjobs : th.jobs = []) (r : RelationEntry) :
    (th.processRelation r).fuel ≤ th.db.fuel + (r.way_members.length + 14) := by
  rw [processRelation]
  split
  · have h := startRelation_fuel hjobs r
    omega
  · exact th.finalizeWays_fuel (some r)

lemma processWay_fuel (env : ImportEnv) (th : WayThread) (w : WayEntry) :
    (th.processWay env w).fuel ≤ th.db.fuel + 7 := by
  have hnone := th.endEntry_fuel th.db []
  rw [jobsFuel_nil] at hnone
  rw [processWay]
  split
  · omega
  · rcases buildWayGeom (wayCoords env.select w) with _ | ⟨geog, is_closed⟩
    · dsimp only
      omega
    · by_cases ha : isArea is_closed w.tags = true
      · simp only [ha, if_true]
        have h1 := th.db.insertArea_fuel w.id w.name w.tags geog
        exact (endEntry_fuel ..).trans (by omega)
      · simp only [ha, Bool.false_eq_true, if_false]
        have h1 := th.db.insertWay_fuel w.id w.name w.tags geog
        exact (endEntry_fuel ..).trans (by omega)

lemma storeArea_fuel (th : WayThread) (r : RelationEntry) (coords_map : ℤ → List Coord) :
    (th.storeArea r coords_map).fuel ≤ th.db.fuel + 7 := by
  have hnone := th.endEntry_fuel th.db []
  rw [jobsFuel_nil] at hnone
  rw [storeArea]
  split
  · omega
  · rename_i geog _
    have h1 := th.db.insertArea_fuel (-r.id) r.name r.tags geog
    have h2 := th.endEntry_fuel (th.db.insertArea (-r.id) r.name r.tags geog).1
      (th.db.insertArea (-r.id) r.name r.tags geog).2
    dsimp only
    omega

lemma storeRelation_fuel (th : WayThread) (r : RelationEntry) (geoms : List Geog) :
    (th.storeRelation r geoms).fuel ≤ th.db.fuel + 11 := by
  have h1 : (th.db.insertRelation r.id r.name r.tags (relationGeom geoms)).1.fuel
      + jobsFuel (th.db.insertRelation r.id r.name r.tags (relationGeom geoms)).2
        ≤ th.db.fuel + 4 := NavDB.insert_fuel ..
  simp only [storeRelation]
  split
  · exact (endEntry_fuel ..).trans (by omega)
  · rename_i geog _
    split
    · set n := (th.db.insertRelation r.id r.name r.tags (relationGeom geoms)).1
      have h2 : (n.insertRoad r.id r.name r.tags geog).1.fuel
          + jobsFuel (n.insertRoad r.id r.name r.tags geog).2 ≤ n.fuel + 4 := NavDB.insert_fuel ..
      refine (endEntry_fuel ..).trans ?_
      rw [jobsFuel_append]
      omega
    · exact (endEntry_fuel ..).trans (by omega)

end WayThread

namespace ImportState

variable {T : ℕ} {f : OsmFile} {env : ImportEnv} {σ σ' : ImportState T} {i : Fin T}

/-- The moves an import may still take. -/
def fuel (σ : ImportState T) : ℕ :=
  ∑ i, (σ.threads i).fuel + (σ.queue.map OSMEntry.fuel).sum

/-- Where one thread moves, the fuel drops as that of the thread and the queue
does. -/
lemma fuel_lt_of_local (hth : ∀ j, j ≠ i → σ'.threads j = σ.threads j)
    (h : (σ'.threads i).fuel + (σ'.queue.map OSMEntry.fuel).sum
      < (σ.threads i).fuel + (σ.queue.map OSMEntry.fuel).sum) : σ'.fuel < σ.fuel := by
  have hrest : ∑ j ∈ Finset.univ.erase i, (σ'.threads j).fuel
      = ∑ j ∈ Finset.univ.erase i, (σ.threads j).fuel :=
    Finset.sum_congr rfl fun j hj => by rw [hth j (Finset.ne_of_mem_erase hj)]
  rw [fuel, fuel, ← Finset.add_sum_erase _ _ (Finset.mem_univ i),
    ← Finset.add_sum_erase (a := i) _ (fun j => (σ.threads j).fuel) (Finset.mem_univ i), hrest]
  omega

/-- **Every move uses up some of the fuel.** -/
lemma fuel_move (h : Move env σ i σ') : σ'.fuel < σ.fuel := by
  refine fuel_lt_of_local (fun j hj => h.threads_of_ne hj) ?_
  cases h with
  | @job j jobs hjobs =>
      have hexec := σ.db.exec_fuel j
      rw [threads_setThread_self, queue_setThread, WayThread.fuel, WayThread.fuel, hjobs,
        jobsFuel_append, jobsFuel_cons]
      dsimp only
      omega
  | leave hjobs hstage hq =>
      have hth := (σ.threads i).leaveLoop_fuel
      rw [threads_setThread_self, queue_setThread, WayThread.fuel_of_idle hjobs, hstage]
      simp only [Stage.fuel]
      omega
  | @way w queue hjobs hstage hq =>
      have hth := (σ.threads i).processWay_fuel env w
      rw [threads_setThread_self, queue_setThread, WayThread.fuel_of_idle hjobs, hstage, hq,
        List.map_cons, List.sum_cons]
      simp only [Stage.fuel, OSMEntry.fuel]
      omega
  | @relation r queue hjobs hstage hq =>
      have hth := WayThread.processRelation_fuel hjobs r
      rw [threads_setThread_self, queue_setThread, WayThread.fuel_of_idle hjobs, hstage, hq,
        List.map_cons, List.sum_cons]
      simp only [Stage.fuel, OSMEntry.fuel]
      omega
  | @arrive held hjobs hstage =>
      rw [threads_setThread_self, queue_setThread, WayThread.fuel, WayThread.fuel, hjobs, hstage]
      cases held <;> simp only [Stage.fuel] <;> omega
  | @pass phase r hjobs hstage hphase =>
      have hth := WayThread.startRelation_fuel hjobs r
      rw [threads_setThread_self, queue_setThread, WayThread.fuel_of_idle hjobs, hstage]
      simp only [Stage.fuel]
      omega
  | passEnd hjobs hstage hphase =>
      have hth := (σ.threads i).finish_fuel
      rw [threads_setThread_self, queue_setThread, WayThread.fuel_of_idle hjobs, hstage]
      simp only [Stage.fuel]
      omega
  | @rings r hjobs hstage =>
      have hth := (σ.threads i).storeArea_fuel r
        (σ.db.getWayCoordsMap (r.way_members.map RelationMember.id))
      rw [threads_setThread_self, queue_setThread, WayThread.fuel_of_idle hjobs, hstage]
      simp only [Stage.fuel]
      omega
  | read hjobs hstage =>
      rw [threads_setThread_self, queue_setThread, WayThread.fuel, WayThread.fuel, hjobs, hstage]
      simp only [Stage.fuel, List.length_cons]
      omega
  | @store r geoms hjobs hstage =>
      have hth := (σ.threads i).storeRelation_fuel r geoms
      rw [threads_setThread_self, queue_setThread, WayThread.fuel_of_idle hjobs, hstage]
      simp only [Stage.fuel, List.length_nil]
      omega

/-- **An import comes to an end**: no run is longer than the fuel at its start. -/
theorem run_length_le {moves : List (Fin T)} (h : σ.run env moves = some σ') :
    moves.length ≤ σ.fuel :=
  (Nat.le_add_right ..).trans
    (foldlM_length_le (I := fun _ => True)
      (fun _ _ _ _ hstep => ⟨trivial, fuel_move (move_of_step hstep)⟩) trivial h)

/-! ### No thread is left waiting -/

/-- Where a thread has left its loop for good the queue is empty. -/
def Drained (σ : ImportState T) : Prop :=
  ∀ i, (σ.threads i).stage.ending → σ.queue = []

lemma ending_startRelation (th : WayThread) (r : RelationEntry) :
    (th.startRelation r).stage.ending = false := by
  simp only [WayThread.startRelation]
  split <;> rfl

/-- A move that leaves the loop for good finds the queue empty. -/
lemma ending_move (h : Move env σ i σ') (he : (σ'.threads i).stage.ending) :
    (σ.threads i).stage.ending ∨ σ.queue = [] := by
  cases h with
  | job =>
      rw [threads_setThread_self] at he
      exact Or.inl he
  | leave _ _ hq => exact Or.inr hq
  | way => simp [WayThread.processWay_stage, Stage.ending] at he
  | relation =>
      rw [threads_setThread_self, WayThread.processRelation] at he
      split at he
      · simp [ending_startRelation] at he
      · simp [Stage.ending] at he
  | @arrive held _ hstage =>
      rw [threads_setThread_self] at he
      rw [hstage]
      cases held
      · exact Or.inl rfl
      · simp [Stage.ending] at he
  | pass => simp [ending_startRelation] at he
  | passEnd _ hstage _ =>
      rw [hstage]
      exact Or.inl rfl
  | rings => simp [WayThread.storeArea_stage, Stage.ending] at he
  | read => simp [Stage.ending] at he
  | store => simp [WayThread.storeRelation_stage, Stage.ending] at he

lemma drained_move (h : Move env σ i σ') (hd : σ.Drained) : σ'.Drained := by
  have hqueue : σ.queue = [] → σ'.queue = [] := by
    intro hq
    rcases h.queue_cases with heq | ⟨e, heq⟩
    · rw [heq, hq]
    · simp [hq] at heq
  intro j hj
  by_cases hji : j = i
  · subst hji
    rcases ending_move h hj with he | hq
    · exact hqueue (hd j he)
    · exact hqueue hq
  · rw [h.threads_of_ne hji] at hj
    exact hqueue (hd j hj)

lemma drained_of_import {d : Database} {queue : List OSMEntry} {moves : List (Fin T)}
    (h : (start env d queue).run env moves = some σ) : σ.Drained :=
  foldlM_invariant (I := Drained) (fun _ _ _ hI hstep => drained_move (move_of_step hstep) hI)
    (fun _ he => by simp [start, Stage.ending] at he) h

/-- No thread can move. -/
def Halted (env : ImportEnv) (σ : ImportState T) : Prop := ∀ i, σ.step env i = none

/-- A thread that cannot move has finished or waits for the others. -/
lemma stuck_cases (h : σ.step env i = none) : (σ.threads i).jobs = []
    ∧ ((σ.threads i).stage = .finished
      ∨ ∃ phase held, (σ.threads i).stage = .waiting phase held ∧ ¬ phase < σ.arrivals / T) := by
  rw [step] at h
  rcases hjobs : (σ.threads i).jobs with _ | ⟨j, jobs⟩
  · refine ⟨rfl, ?_⟩
    simp only [hjobs] at h
    rcases hstage : (σ.threads i).stage with _ | held | ⟨phase, held⟩ | r | ⟨r, rest, geoms⟩ | _
    · rcases hq : σ.queue with _ | ⟨w | r, queue⟩ <;> simp [hstage, hq] at h
    · simp [hstage] at h
    · refine Or.inr ⟨phase, held, rfl, fun hlt => ?_⟩
      cases held <;> simp [hstage, hlt] at h
    · simp [hstage] at h
    · rcases rest with _ | ⟨m, rest⟩ <;> simp [hstage] at h
    · exact Or.inl rfl
  · simp [hjobs] at h

/-- **An import that cannot go on is done**: with every thread at the barrier the
last to arrive lets all of them pass. -/
theorem done_of_halted (hT : 0 < T) (hb : Barrier f env σ) (hd : σ.Drained)
    (h : σ.Halted env) : σ.Done := by
  have hclear : ∀ j, (σ.threads j).clear := by
    intro j
    rcases (stuck_cases (h j)).2 with hstage | ⟨phase, held, hstage, -⟩ <;>
      simp [WayThread.clear, hstage]
  have hfinished : ∀ j, (σ.threads j).stage = .finished := by
    intro j
    rcases (stuck_cases (h j)).2 with hstage | ⟨phase, held, hstage, hwait⟩
    · exact hstage
    · have hok := hb.stage j
      rw [StageOk, hstage] at hok
      have hskip : env.skip_ways = false := Bool.eq_false_iff.mpr fun hskip => by
        simp [hb.skip_done hskip j] at hok
      have hcount := hb.count hskip
      rw [Finset.filter_true_of_mem fun k _ => hclear k, Finset.card_univ, Fintype.card_fin]
        at hcount
      rw [hok.2, hcount, Nat.div_self hT] at hwait
      exact absurd Nat.zero_lt_one hwait
  refine ⟨hd ⟨0, hT⟩ ?_, fun j => ⟨hfinished j, (stuck_cases (h j)).1⟩⟩
  rw [hfinished]
  rfl

lemma done_of_import (hT : 0 < T) {d : Database} (hd : Startable f env d) {moves : List (Fin T)}
    (h : (start env d (queueOf f env.skip_ways)).run env moves = some σ)
    (hhalt : σ.Halted env) : σ.Done :=
  done_of_halted hT (invariant_of_import hd h).1 (drained_of_import h) hhalt

end ImportState

end Gpsxdb
