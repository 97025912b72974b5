import Mathlib.Tactic
import Gpsxdb.Import.Moves

/-!
The way threads over the queue that the producer fills.

* `BlockingQueue`: the bounded queue of `main.cpp`, its calls `none` where they wait;
  `of_push`, `of_pop`: what a call that returns has done;
* `WayPhaseRun`: the entries the producer still has to read, `way_q` and the threads;
  `step`: one move of the producer or of a thread;
* `ImportState.Skip`: a popped node, which the threads ignore;
* `all`: the run with all entries in one list, the queue of `ImportState`;
  `step_cases`: **a step of the run is no step there, a move, or an ignored node**.
-/

namespace Gpsxdb

/-! ### The queue -/

/-- `BlockingQueue`. -/
structure BlockingQueue (α : Type) where
  max_size : ℤ
  q : List α
  stop : Bool

namespace BlockingQueue

variable {α : Type}

/-- `push`: it waits while the queue is full. -/
def push (b : BlockingQueue α) (item : α) : Option (BlockingQueue α) :=
  if b.q.length < b.max_size ∨ b.stop then some { b with q := b.q ++ [item] } else none

/-- `pop`: it waits while the queue is empty, and fails once it is shut down. -/
def pop (b : BlockingQueue α) : Option (Option α × BlockingQueue α) :=
  match b.q with
  | item :: q => some (some item, { b with q := q })
  | [] => if b.stop then some (none, b) else none

/-- `shutdown`. -/
def shutdown (b : BlockingQueue α) : BlockingQueue α := { b with stop := true }

variable {b b' : BlockingQueue α}

/-- **A `push` that returns** found room, or the queue shut down. -/
lemma of_push {item : α} (h : b.push item = some b') :
    (b.q.length < b.max_size ∨ b.stop = true) ∧ b' = { b with q := b.q ++ [item] } := by
  obtain ⟨hroom, h⟩ := Option.ite_none_right_eq_some.mp h
  exact ⟨hroom, (Option.some.inj h).symm⟩

/-- **A `pop` that returns** took the first item, or failed on an empty queue that is shut
down. -/
lemma of_pop {r : Option α} (h : b.pop = some (r, b')) :
    (∃ item q, b.q = item :: q ∧ r = some item ∧ b' = { b with q := q })
      ∨ b.q = [] ∧ b.stop = true ∧ r = none ∧ b' = b := by
  rw [pop] at h
  split at h
  · rename_i item q hq
    obtain ⟨rfl, rfl⟩ := Prod.mk.inj (Option.some.inj h)
    exact Or.inl ⟨item, q, hq, rfl, rfl⟩
  · rename_i hq
    obtain ⟨hstop, h⟩ := Option.ite_none_right_eq_some.mp h
    obtain ⟨rfl, rfl⟩ := Prod.mk.inj (Option.some.inj h)
    exact Or.inr ⟨hq, hstop, rfl, rfl⟩

end BlockingQueue

/-- What the producer pushes after the last node before the ways: an entry of the way
phase, or a node out of order. -/
inductive QueueEntry where
  | node
  | entry (e : OSMEntry)

/-- The entry of the way phase. -/
def QueueEntry.toEntry : QueueEntry → Option OSMEntry
  | .node => none
  | .entry e => some e

/-! ### The run -/

/-- The producer's entries, the queue, the tables, the arrivals at `way_barrier`, and
the threads. -/
structure WayPhaseRun (T : ℕ) where
  unread : List QueueEntry
  way_q : BlockingQueue QueueEntry
  db : Database
  arrivals : ℕ
  threads : Fin T → WayThread

/-- Who moves. -/
inductive Actor (T : ℕ) where
  | producer
  | thread (i : Fin T)
deriving DecidableEq

namespace WayThread

/-- The thread is at `pop`. -/
def popping (th : WayThread) : Bool :=
  th.jobs.isEmpty && match th.stage with
    | .loop => true
    | _ => false

/-- The body of the loop for what `pop` returns. -/
def afterPop (env : ImportEnv) (th : WayThread) : Option QueueEntry → WayThread
  | none => th.leaveLoop
  | some .node => th.endEntry th.db []
  | some (.entry (.way item)) => th.processWay env item
  | some (.entry (.relation item)) => th.processRelation item

end WayThread

namespace WayPhaseRun

variable {T : ℕ}

/-- The threads apart from the queue. -/
def workers (c : WayPhaseRun T) : ImportState T := ⟨[], c.db, c.arrivals, c.threads⟩

/-- One move: the producer pushes the next entry or shuts the queue down; a thread pops,
or does what does not involve the queue. -/
def step (env : ImportEnv) (c : WayPhaseRun T) : Actor T → Option (WayPhaseRun T)
  | .producer =>
      match c.unread with
      | e :: unread => (c.way_q.push e).map fun way_q => { c with unread := unread, way_q := way_q }
      | [] => if c.way_q.stop then none else some { c with way_q := c.way_q.shutdown }
  | .thread i =>
      if (c.threads i).popping then
        c.way_q.pop.map fun (item, way_q) =>
          { c with
            way_q := way_q
            threads := Function.update c.threads i ((c.threads i).afterPop env item) }
      else (c.workers.step env i).map fun σ =>
        { c with db := σ.db, arrivals := σ.arrivals, threads := σ.threads }

/-- A run of the way phase. -/
def run (env : ImportEnv) (c : WayPhaseRun T) (moves : List (Actor T)) :
    Option (WayPhaseRun T) :=
  moves.foldlM (step env) c

/-- The start, with an empty queue. -/
def start (env : ImportEnv) (queue_size : ℤ) (entries : List QueueEntry) (d : Database) :
    WayPhaseRun T where
  unread := entries
  way_q := ⟨queue_size, [], false⟩
  db := d
  arrivals := 0
  threads i := ⟨NavDB.connect (env.node_threads + i), [], env.skip_ways, .loop⟩

/-- The run with all entries not yet popped in one list. -/
def all (c : WayPhaseRun T) : ImportState T where
  queue := (c.way_q.q ++ c.unread).filterMap QueueEntry.toEntry
  db := c.db
  arrivals := c.arrivals
  threads := c.threads

end WayPhaseRun

namespace ImportState

variable {T : ℕ} {env : ImportEnv} {σ σ' : ImportState T} {i : Fin T}

/-- A thread pops a node and ignores it. -/
def Skip (σ : ImportState T) (i : Fin T) (σ' : ImportState T) : Prop :=
  (σ.threads i).jobs = [] ∧ (σ.threads i).stage = .loop
    ∧ σ' = σ.setThread i ((σ.threads i).endEntry (σ.threads i).db [])

/-- A move that is no pop is the same over any queue. -/
lemma Move.of_queue (h : Move env σ i σ') (hpop : (σ.threads i).popping = false)
    (queue : List OSMEntry) : Move env { σ with queue := queue } i { σ' with queue := queue } := by
  have hloop : (σ.threads i).jobs = [] → (σ.threads i).stage = .loop → False := by
    intro hjobs hstage
    simp [WayThread.popping, hjobs, hstage] at hpop
  cases h with
  | job hjobs => exact .job hjobs
  | leave hjobs hstage => exact (hloop hjobs hstage).elim
  | way hjobs hstage => exact (hloop hjobs hstage).elim
  | relation hjobs hstage => exact (hloop hjobs hstage).elim
  | arrive hjobs hstage => exact .arrive hjobs hstage
  | pass hjobs hstage hphase => exact .pass hjobs hstage hphase
  | passEnd hjobs hstage hphase => exact .passEnd hjobs hstage hphase
  | rings hjobs hstage => exact .rings hjobs hstage
  | read hjobs hstage => exact .read hjobs hstage
  | store hjobs hstage => exact .store hjobs hstage

end ImportState

namespace WayPhaseRun

variable {T : ℕ} {env : ImportEnv} {c c' : WayPhaseRun T} {a : Actor T} {i : Fin T}

/-- The producer shuts the queue down once it has read everything. -/
def Orderly (c : WayPhaseRun T) : Prop := c.way_q.stop = true → c.unread = []

lemma popping_iff {th : WayThread} : th.popping = true ↔ th.jobs = [] ∧ th.stage = .loop := by
  rw [WayThread.popping, Bool.and_eq_true, List.isEmpty_iff]
  refine and_congr_right fun _ => ?_
  cases th.stage <;> simp

/-- A thread only takes entries off the queue. -/
lemma thread_queue (h : c.step env (.thread i) = some c') : c'.unread = c.unread
    ∧ c'.way_q = { c.way_q with q := c'.way_q.q } ∧ c'.way_q.q.length ≤ c.way_q.q.length := by
  rw [step] at h
  split at h
  · obtain ⟨⟨r, way_q⟩, hpop, rfl⟩ := Option.map_eq_some_iff.mp h
    rcases BlockingQueue.of_pop hpop with ⟨item, q, hq, -, rfl⟩ | ⟨-, -, -, rfl⟩
    · exact ⟨rfl, rfl, by simp [hq]⟩
    · exact ⟨rfl, rfl, le_rfl⟩
  · obtain ⟨σ, -, rfl⟩ := Option.map_eq_some_iff.mp h
    exact ⟨rfl, rfl, le_rfl⟩

/-- **What the producer does**: it pushes the next entry, or shuts the queue down behind the
last one. -/
lemma producer_cases (h : c.step env .producer = some c') :
    (∃ e unread, c.unread = e :: unread
        ∧ c' = { c with unread := unread, way_q.q := c.way_q.q ++ [e] })
      ∨ c.unread = [] ∧ c.way_q.stop = false ∧ c' = { c with way_q := c.way_q.shutdown } := by
  rw [step] at h
  split at h
  · rename_i e unread hu
    obtain ⟨way_q, hpush, rfl⟩ := Option.map_eq_some_iff.mp h
    obtain ⟨-, rfl⟩ := BlockingQueue.of_push hpush
    exact Or.inl ⟨e, unread, hu, rfl⟩
  · rename_i hu
    obtain ⟨hstop, h⟩ := Option.ite_none_left_eq_some.mp h
    exact Or.inr ⟨hu, Bool.eq_false_iff.mpr hstop, (Option.some.inj h).symm⟩

/-- **What a step is** over the list of all entries. -/
lemma step_cases (h : c.step env a = some c') (hc : c.Orderly) :
    (a = .producer ∧ c'.all = c.all)
      ∨ ∃ i, a = .thread i ∧ (ImportState.Move env c.all i c'.all
        ∨ c.all.Skip i c'.all ∧ c'.way_q.q.length < c.way_q.q.length) := by
  cases a with
  | producer =>
      refine Or.inl ⟨rfl, ?_⟩
      rcases producer_cases h with ⟨e, unread, hu, rfl⟩ | ⟨hu, -, rfl⟩
      · simp [all, hu]
      · simp [all, BlockingQueue.shutdown, hu]
  | thread i =>
      refine Or.inr ⟨i, rfl, ?_⟩
      rw [step] at h
      split at h
      · rename_i hpop
        obtain ⟨hjobs, hstage⟩ := popping_iff.mp hpop
        obtain ⟨⟨r, way_q⟩, hret, rfl⟩ := Option.map_eq_some_iff.mp h
        rcases BlockingQueue.of_pop hret with ⟨e, q, hq, rfl, rfl⟩ | ⟨hq, hstop, rfl, rfl⟩
        · match e with
          | .node =>
              refine Or.inr ⟨⟨hjobs, hstage, ?_⟩, by simp [hq]⟩
              simp [all, ImportState.setThread, WayThread.afterPop, hq, QueueEntry.toEntry,
                List.filterMap_cons]
          | .entry (.way item) =>
              have hqueue : c.all.queue
                  = .way item :: (q ++ c.unread).filterMap QueueEntry.toEntry := by
                simp [all, hq, QueueEntry.toEntry]
              exact Or.inl (.way hjobs hstage hqueue)
          | .entry (.relation item) =>
              have hqueue : c.all.queue
                  = .relation item :: (q ++ c.unread).filterMap QueueEntry.toEntry := by
                simp [all, hq, QueueEntry.toEntry]
              exact Or.inl (.relation hjobs hstage hqueue)
        · have hempty : c.all.queue = [] := by simp [all, hq, hc hstop]
          exact Or.inl (.leave hjobs hstage hempty)
      · rename_i hpop
        obtain ⟨σ, hσ, rfl⟩ := Option.map_eq_some_iff.mp h
        exact Or.inl ((ImportState.move_of_step hσ).of_queue (Bool.eq_false_iff.mpr hpop) _)

/-- A step leaves the queue orderly. -/
lemma orderly_step (hc : c.Orderly) (h : c.step env a = some c') : c'.Orderly := by
  intro hstop
  cases a with
  | producer =>
      rcases producer_cases h with ⟨e, unread, hu, rfl⟩ | ⟨hu, -, rfl⟩
      · simp [hc hstop] at hu
      · exact hu
  | thread i =>
      obtain ⟨hunread, hway_q, -⟩ := thread_queue h
      rw [hway_q] at hstop
      exact hunread.trans (hc hstop)

end WayPhaseRun

end Gpsxdb
