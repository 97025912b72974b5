import Mathlib.Tactic
import Gpsxdb.Import.WayQueue
import Gpsxdb.Delta.NodeRows
import Gpsxdb.NodeStore.ShardLossless

/-!
The node phase of an import: `nodeThread` of `main.cpp`, any number of threads, each
with a queue of its own, and the barrier at which the shards are merged.

* `NodeWorker`, `NodeStage`: a thread with its queue and its buffers;
* `NodePhase`, `NodeActor`, `step`: the producer and the threads in any order;
* `Move`, `move_of_step`: **what a step does**.

The merge runs while all threads wait, so it is one step; the number with a thread's step
bounds the loops of `merge`.
-/

namespace Gpsxdb

/-! ### Threads -/

/-- Where a node thread stands. -/
inductive NodeStage where
  /-- at `pop` -/
  | loop
  /-- before `osmmap.insert` -/
  | inserting (item : NodeEntry)
  /-- before `db.insertNode` -/
  | storing (item : NodeEntry)
  /-- has left its loop, before `finalize_nodes` and `finalize_tags` -/
  | leaving
  /-- before `node_barrier` -/
  | arriving
  /-- at `node_barrier` -/
  | waiting
  | finished

/-- A node thread: its queue, the buffers of its connection, and where it stands. -/
structure NodeWorker where
  my_q : BlockingQueue NodeEntry
  node_buf : List (Row Content)
  tag_buf : List TagRecord
  stage : NodeStage

/-- What the threads share, and what the producer still has to push, each node with the
number of its queue. -/
structure NodePhase (lz : LZ4F) (N : ℕ) where
  unread : List (ℕ × NodeEntry)
  shut : Bool
  tables : TargetTables Content
  store : ShardStore lz
  arrivals : ℕ
  merge_done : Bool
  workers : Fin N → NodeWorker

/-- The projection of the process, and whether `-L` is not given. -/
structure NodeEnv where
  projection : Projection
  use_mercator : Bool

/-- The coordinate that goes to the node store. -/
def NodeEnv.coord (env : NodeEnv) (n : NodeEntry) : Coord :=
  if env.use_mercator then env.projection.toMercator n.lon n.lat else ⟨n.lon, n.lat⟩

/-- Who moves. -/
inductive NodeActor (N : ℕ) where
  /-- the producer pushes the next node -/
  | push
  /-- the producer shuts the queues down -/
  | shutdown
  | thread (i : Fin N) (fuel : ℕ)

namespace NodePhase

variable {lz : LZ4F} {N : ℕ}

/-- The state with one thread replaced. -/
def setWorker (σ : NodePhase lz N) (i : Fin N) (w : NodeWorker) : NodePhase lz N :=
  { σ with workers := Function.update σ.workers i w }

/-- A thread with the tables, as `NavDB` sees them. -/
def connection (σ : NodePhase lz N) (i : Fin N) : NodeThread :=
  ⟨σ.tables, (σ.workers i).node_buf, (σ.workers i).tag_buf⟩

/-- The thread after a call on its connection. -/
def setConnection (σ : NodePhase lz N) (i : Fin N) (th : NodeThread) (stage : NodeStage) :
    NodePhase lz N :=
  { σ with tables := th.db }.setWorker i
    { σ.workers i with node_buf := th.node_buf, tag_buf := th.tag_buf, stage := stage }

/-- `nodes` keeps its primary key during an import. -/
def keysOk (d : TargetTables Content) : Bool := ((d.rows .nodes).map Row.id).Nodup

/-- A step of a thread.  A `COPY` of an id that is taken throws, and the process ends. -/
def threadStep (env : NodeEnv) (σ : NodePhase lz N) (i : Fin N) (fuel : ℕ) :
    Option (NodePhase lz N) :=
  let w := σ.workers i
  match w.stage with
  | .loop => w.my_q.pop.map fun (item, my_q) =>
      σ.setWorker i { w with
        my_q := my_q
        stage := match item with
          | some item => .inserting item
          | none => .leaving }
  | .inserting item => (σ.store.insert i item.id (env.coord item)).map fun store =>
      { σ with store := store }.setWorker i { w with stage := .storing item }
  | .storing item =>
      let row := nodeThreadRow env.projection env.use_mercator item
      let th := (σ.connection i).insertNode row item.tags
      if keysOk th.db then some (σ.setConnection i th .loop) else none
  | .leaving =>
      let th := (σ.connection i).flushNodes.finalizeTags
      if keysOk th.db then some (σ.setConnection i th .arriving) else none
  | .arriving =>
      let σ' := { σ with arrivals := σ.arrivals + 1 }.setWorker i { w with stage := .waiting }
      -- the last one to arrive runs the completion of the barrier
      if σ.arrivals + 1 = N then
        (σ.store.merge fuel).map fun store => { σ' with store := store, merge_done := true }
      else some σ'
  | .waiting =>
      if σ.merge_done then some (σ.setWorker i { w with stage := .finished }) else none
  | .finished => none

/-- One step. -/
def step (env : NodeEnv) (σ : NodePhase lz N) : NodeActor N → Option (NodePhase lz N)
  | .push =>
      match σ.unread with
      | [] => none
      | (j, item) :: unread =>
          if h : j < N then
            ((σ.workers ⟨j, h⟩).my_q.push item).map fun my_q =>
              { σ with unread := unread }.setWorker ⟨j, h⟩ { σ.workers ⟨j, h⟩ with my_q := my_q }
          else none
  | .shutdown =>
      if σ.unread = [] ∧ σ.shut = false then
        some { σ with
          shut := true
          workers := fun i => { σ.workers i with my_q := (σ.workers i).my_q.shutdown } }
      else none
  | .thread i fuel => σ.threadStep env i fuel

/-- The start: empty queues, and the store with its shards open. -/
def start (queue_size : ℤ) (pushes : List (ℕ × NodeEntry)) (d : TargetTables Content)
    (s : ShardStore lz) : NodePhase lz N where
  unread := pushes
  shut := false
  tables := d
  store := s
  arrivals := 0
  merge_done := false
  workers _ := ⟨⟨queue_size, [], false⟩, [], [], .loop⟩

/-! ### What a step does -/

/-- The steps, with what each requires and does. -/
inductive Move (env : NodeEnv) (σ : NodePhase lz N) : NodePhase lz N → Prop
  | push {j : Fin N} {item : NodeEntry} {unread : List (ℕ × NodeEntry)}
      (hunread : σ.unread = ((j : ℕ), item) :: unread) :
      Move env σ ({ σ with unread := unread }.setWorker j
        { σ.workers j with my_q.q := (σ.workers j).my_q.q ++ [item] })
  | shutdown (hunread : σ.unread = []) (hshut : σ.shut = false) :
      Move env σ { σ with
        shut := true
        workers := fun i => { σ.workers i with my_q := (σ.workers i).my_q.shutdown } }
  | pop {i : Fin N} {item : NodeEntry} {q : List NodeEntry} (hstage : (σ.workers i).stage = .loop)
      (hq : (σ.workers i).my_q.q = item :: q) :
      Move env σ (σ.setWorker i { σ.workers i with my_q.q := q, stage := .inserting item })
  | leave {i : Fin N} (hstage : (σ.workers i).stage = .loop) (hq : (σ.workers i).my_q.q = [])
      (hstop : (σ.workers i).my_q.stop = true) :
      Move env σ (σ.setWorker i { σ.workers i with stage := .leaving })
  | insert {i : Fin N} {item : NodeEntry} {store : ShardStore lz}
      (hstage : (σ.workers i).stage = .inserting item)
      (hstore : σ.store.insert i item.id (env.coord item) = some store) :
      Move env σ ({ σ with store := store }.setWorker i
        { σ.workers i with stage := .storing item })
  | store {i : Fin N} {item : NodeEntry} (hstage : (σ.workers i).stage = .storing item) :
      Move env σ (σ.setConnection i ((σ.connection i).insertNode
        (nodeThreadRow env.projection env.use_mercator item) item.tags) .loop)
  | flush {i : Fin N} (hstage : (σ.workers i).stage = .leaving) :
      Move env σ (σ.setConnection i (σ.connection i).flushNodes.finalizeTags .arriving)
  | arrive {i : Fin N} (hstage : (σ.workers i).stage = .arriving) (hlast : σ.arrivals + 1 ≠ N) :
      Move env σ ({ σ with arrivals := σ.arrivals + 1 }.setWorker i
        { σ.workers i with stage := .waiting })
  | merge {i : Fin N} {fuel : ℕ} {store : ShardStore lz}
      (hstage : (σ.workers i).stage = .arriving) (hlast : σ.arrivals + 1 = N)
      (hstore : σ.store.merge fuel = some store) :
      Move env σ { ({ σ with arrivals := σ.arrivals + 1 }.setWorker i
        { σ.workers i with stage := .waiting }) with store := store, merge_done := true }
  | pass {i : Fin N} (hstage : (σ.workers i).stage = .waiting) (hmerged : σ.merge_done = true) :
      Move env σ (σ.setWorker i { σ.workers i with stage := .finished })

variable {env : NodeEnv} {σ σ' : NodePhase lz N}

/-- **Every step is a move.** -/
lemma move_of_step {a : NodeActor N} (h : σ.step env a = some σ') : Move env σ σ' := by
  cases a with
  | push =>
      rw [step] at h
      split at h
      · cases h
      · rename_i j item unread hunread
        split at h
        · obtain ⟨my_q, hpush, rfl⟩ := Option.map_eq_some_iff.mp h
          obtain ⟨-, rfl⟩ := BlockingQueue.of_push hpush
          exact .push hunread
        · cases h
  | shutdown =>
      rw [step] at h
      obtain ⟨⟨hunread, hshut⟩, h⟩ := Option.ite_none_right_eq_some.mp h
      obtain rfl := Option.some.inj h
      exact .shutdown hunread hshut
  | thread i fuel =>
      rw [step, threadStep] at h
      cases hstage : (σ.workers i).stage with
      | loop =>
          simp only [hstage] at h
          obtain ⟨⟨r, my_q⟩, hpop, rfl⟩ := Option.map_eq_some_iff.mp h
          rcases BlockingQueue.of_pop hpop with ⟨item, q, hq, rfl, rfl⟩ | ⟨hq, hstop, rfl, rfl⟩
          · exact .pop hstage hq
          · exact .leave hstage hq hstop
      | inserting item =>
          simp only [hstage] at h
          obtain ⟨store, hstore, rfl⟩ := Option.map_eq_some_iff.mp h
          exact .insert hstage hstore
      | storing item =>
          simp only [hstage] at h
          obtain ⟨-, h⟩ := Option.ite_none_right_eq_some.mp h
          obtain rfl := Option.some.inj h
          exact .store hstage
      | leaving =>
          simp only [hstage] at h
          obtain ⟨-, h⟩ := Option.ite_none_right_eq_some.mp h
          obtain rfl := Option.some.inj h
          exact .flush hstage
      | arriving =>
          simp only [hstage] at h
          split at h
          · obtain ⟨store, hstore, rfl⟩ := Option.map_eq_some_iff.mp h
            exact .merge hstage ‹_› hstore
          · obtain rfl := Option.some.inj h
            exact .arrive hstage ‹_›
      | waiting =>
          simp only [hstage] at h
          obtain ⟨hmerged, h⟩ := Option.ite_none_right_eq_some.mp h
          obtain rfl := Option.some.inj h
          exact .pass hstage hmerged
      | finished =>
          simp only [hstage] at h
          cases h

end NodePhase

end Gpsxdb
