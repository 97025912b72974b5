import Mathlib.Tactic
import Gpsxdb.Import.NodePhase

/-!
What the threads of the node phase conserve, and the barrier at which they meet.

* `nodesFor`, `uninserted`, `pending`: the nodes of a thread, those that its shard still
  lacks, and those that the tables and buffers still lack;
* `NodeThread.nodeTags_insertNode`, `nodeTags_flushNodes`: what a call makes of tag rows;
* `allRows`, `allTags`: what the tables hold or are going to hold; `totals_move`: **every
  move conserves it**;
* `Arrivals`: who has come how far, and with what; `arrivals_move`;
* `Arrivals.others_arrived`, `Arrivals.done`: the last thread to arrive finds all others
  there, and nothing is left of theirs.
-/

namespace Gpsxdb

/-! ### What is left to do -/

/-- The node store's record of a node. -/
def NodeEnv.record (env : NodeEnv) (n : NodeEntry) : NodeRecord := ⟨n.id, env.coord n⟩

/-- The rows of the nodes worth keeping. -/
def NodeEnv.rowsFor (env : NodeEnv) (ns : List NodeEntry) : List (Row Content) :=
  (ns.filter fun n => hasSurvivingTag n.tags true).map
    (nodeThreadRow env.projection env.use_mercator)

/-- Their tag rows. -/
def tagsFor (ns : List NodeEntry) : List TagRecord :=
  (ns.filter fun n => hasSurvivingTag n.tags true).flatMap fun n => keptTags n.id n.tags true

@[simp] lemma NodeEnv.rowsFor_append (env : NodeEnv) (ns ns' : List NodeEntry) :
    env.rowsFor (ns ++ ns') = env.rowsFor ns ++ env.rowsFor ns' := by
  simp [rowsFor]

@[simp] lemma tagsFor_append (ns ns' : List NodeEntry) :
    tagsFor (ns ++ ns') = tagsFor ns ++ tagsFor ns' := by
  simp [tagsFor]

/-- The nodes pushed to one queue. -/
def nodesFor (pushes : List (ℕ × NodeEntry)) (j : ℕ) : List NodeEntry :=
  (pushes.filter fun x => x.1 = j).map Prod.snd

lemma nodesFor_cons (x : ℕ × NodeEntry) (pushes : List (ℕ × NodeEntry)) (j : ℕ) :
    nodesFor (x :: pushes) j = (if x.1 = j then [x.2] else []) ++ nodesFor pushes j := by
  rw [nodesFor, List.filter_cons]
  by_cases h : x.1 = j <;> simp [h, nodesFor]

namespace NodeStage

/-- A node that has been popped and not been inserted. -/
def popped : NodeStage → List NodeEntry
  | inserting item => [item]
  | _ => []

/-- A node that has been popped and not been stored. -/
def held : NodeStage → List NodeEntry
  | inserting item => [item]
  | storing item => [item]
  | _ => []

/-- The loop is left. -/
def left : NodeStage → Bool
  | loop => false
  | inserting _ => false
  | storing _ => false
  | _ => true

/-- The buffers are flushed for the last time. -/
def flushed : NodeStage → Bool
  | arriving => true
  | waiting => true
  | finished => true
  | _ => false

/-- The barrier is reached. -/
def arrived : NodeStage → Bool
  | waiting => true
  | finished => true
  | _ => false

lemma flushed_of_arrived {stage : NodeStage} (h : stage.arrived = true) : stage.flushed = true := by
  cases stage <;> first | rfl | cases h

lemma left_of_flushed {stage : NodeStage} (h : stage.flushed = true) : stage.left = true := by
  cases stage <;> first | rfl | cases h

lemma held_of_left {stage : NodeStage} (h : stage.left = true) :
    stage.held = [] ∧ stage.popped = [] := by
  cases stage <;> first | exact ⟨rfl, rfl⟩ | cases h

end NodeStage

/-! ### Tag rows of a connection -/

namespace NodeThread

/-- The tag rows of nodes, those still buffered included. -/
def nodeTags (th : NodeThread) : List TagRecord := th.db.tags .nodes ++ th.tag_buf

lemma nodeTags_finalizeTags (th : NodeThread) : th.finalizeTags.nodeTags = th.nodeTags := by
  simp [nodeTags, finalizeTags]

lemma nodeRows_finalizeTags (th : NodeThread) : th.finalizeTags.nodeRows = th.nodeRows := rfl

lemma nodeTags_flushNodes (th : NodeThread) : th.flushNodes.nodeTags = th.nodeTags := by
  rw [flushNodes]
  split
  · rfl
  · exact nodeTags_finalizeTags _

lemma nodeTags_insertNode (th : NodeThread) (r : Row Content) (tags : Tags) :
    (th.insertNode r tags).nodeTags
      = th.nodeTags ++ if hasSurvivingTag tags true then keptTags r.id tags true else [] := by
  rw [insertNode]
  by_cases h : hasSurvivingTag tags true = true
  · simp only [h, Bool.not_true, Bool.false_eq_true, if_false, if_true]
    split
    · rw [nodeTags_flushNodes]
      simp [nodeTags]
    · simp [nodeTags]
  · simp [h]

/-- No tag rows without rows. -/
def Tidy (th : NodeThread) : Prop := th.node_buf = [] → th.tag_buf = []

lemma tidy_finalizeTags (th : NodeThread) : th.finalizeTags.Tidy := fun _ => rfl

lemma tidy_flushNodes {th : NodeThread} (h : th.Tidy) : th.flushNodes.Tidy := by
  rw [flushNodes]
  split
  · exact h
  · exact tidy_finalizeTags _

lemma tidy_insertNode {th : NodeThread} (h : th.Tidy) (r : Row Content) (tags : Tags) :
    (th.insertNode r tags).Tidy := by
  have hpush : ∀ (rows : List (Row Content)) (ts : List TagRecord),
      ({ th with tag_buf := ts, node_buf := rows ++ [r] } : NodeThread).Tidy :=
    fun rows ts hnil => absurd hnil (by simp)
  rw [insertNode]
  split
  · exact h
  · dsimp only
    split
    · exact tidy_flushNodes (hpush _ _)
    · exact hpush _ _

/-- The last flush leaves nothing buffered. -/
lemma node_buf_flushNodes (th : NodeThread) : th.flushNodes.node_buf = [] := by
  rw [flushNodes]
  split
  · assumption
  · rfl

end NodeThread

namespace NodePhase

variable {lz : LZ4F} {N : ℕ}

/-- The nodes of a thread that its shard still lacks. -/
def uninserted (σ : NodePhase lz N) (i : Fin N) : List NodeEntry :=
  (σ.workers i).stage.popped ++ (σ.workers i).my_q.q ++ nodesFor σ.unread i

/-- The nodes of a thread that the tables and buffers still lack. -/
def pending (σ : NodePhase lz N) (i : Fin N) : List NodeEntry :=
  (σ.workers i).stage.held ++ (σ.workers i).my_q.q ++ nodesFor σ.unread i

/-- What the table of nodes holds or is going to hold. -/
def allRows (env : NodeEnv) (σ : NodePhase lz N) : Multiset (Row Content) :=
  (σ.tables.rows .nodes : Multiset (Row Content))
    + ∑ i, ((σ.workers i).node_buf + env.rowsFor (σ.pending i) : Multiset (Row Content))

/-- What its tag table holds or is going to hold. -/
def allTags (σ : NodePhase lz N) : Multiset TagRecord :=
  (σ.tables.tags .nodes : Multiset TagRecord)
    + ∑ i, ((σ.workers i).tag_buf + tagsFor (σ.pending i) : Multiset TagRecord)

@[simp] lemma setWorker_self (σ : NodePhase lz N) (i : Fin N) (w : NodeWorker) :
    (σ.setWorker i w).workers i = w := Function.update_self ..

lemma setWorker_of_ne (σ : NodePhase lz N) {i j : Fin N} (w : NodeWorker) (h : j ≠ i) :
    (σ.setWorker i w).workers j = σ.workers j := Function.update_of_ne h ..

/-! ### Nothing is lost on the way to the tables -/

variable {env : NodeEnv} {σ σ' : NodePhase lz N}

/-- A step that is about one thread only. -/
lemma total_eq {M : Type*} [AddCommMonoid M] {t t' : M} {c c' : Fin N → M} (i : Fin N)
    (hne : ∀ j, j ≠ i → c' j = c j) (h : t' + c' i = t + c i) :
    t' + ∑ j, c' j = t + ∑ j, c j := by
  have hrest : ∑ j ∈ Finset.univ.erase i, c' j = ∑ j ∈ Finset.univ.erase i, c j :=
    Finset.sum_congr rfl fun j hj => hne j (Finset.ne_of_mem_erase hj)
  rw [← Finset.add_sum_erase _ c' (Finset.mem_univ i), ← Finset.add_sum_erase _ c
    (Finset.mem_univ i), hrest, ← add_assoc, ← add_assoc, h]

/-- What the tables and buffers have. -/
structure SameStored (σ σ' : NodePhase lz N) : Prop where
  tables : σ'.tables = σ.tables
  node_buf : ∀ j, (σ'.workers j).node_buf = (σ.workers j).node_buf
  tag_buf : ∀ j, (σ'.workers j).tag_buf = (σ.workers j).tag_buf
  pending : ∀ j, σ'.pending j = σ.pending j

lemma SameStored.totals (h : SameStored σ σ') :
    σ'.allRows env = σ.allRows env ∧ σ'.allTags = σ.allTags := by
  constructor
  · rw [allRows, allRows, h.tables]
    simp only [h.node_buf, h.pending]
  · rw [allTags, allTags, h.tables]
    simp only [h.tag_buf, h.pending]

/-- A thread that goes on with the same buffers and the same nodes left. -/
lemma sameStored_setWorker {store : ShardStore lz} {arrivals : ℕ} {merge_done : Bool} {i : Fin N}
    {w : NodeWorker} (hrows : w.node_buf = (σ.workers i).node_buf)
    (htags : w.tag_buf = (σ.workers i).tag_buf)
    (hleft : w.stage.held ++ w.my_q.q = (σ.workers i).stage.held ++ (σ.workers i).my_q.q) :
    SameStored σ ({ σ with store := store, arrivals := arrivals,
                           merge_done := merge_done }.setWorker i w) := by
  have hworkers : ∀ {P : NodeWorker → NodeWorker → Prop}, P w (σ.workers i) →
      (∀ v, P v v) → ∀ j, P (Function.update σ.workers i w j) (σ.workers j) := by
    intro P hi hrefl j
    by_cases hj : j = i
    · subst hj
      rwa [Function.update_self]
    · rw [Function.update_of_ne hj]
      exact hrefl _
  refine ⟨rfl, hworkers (P := fun v v' => v.node_buf = v'.node_buf) hrows fun _ => rfl,
    hworkers (P := fun v v' => v.tag_buf = v'.tag_buf) htags fun _ => rfl, fun j => ?_⟩
  have hj := hworkers (P := fun v v' => v.stage.held ++ v.my_q.q = v'.stage.held ++ v'.my_q.q)
    hleft (fun _ => rfl) j
  exact congrArg (· ++ nodesFor σ.unread j) hj

/-- The producer moves a node from what it has to read to a queue. -/
lemma pending_push {j : Fin N} {item : NodeEntry} {unread : List (ℕ × NodeEntry)}
    (hunread : σ.unread = ((j : ℕ), item) :: unread) (i : Fin N) :
    let σ' := { σ with unread := unread }.setWorker j
      { σ.workers j with my_q.q := (σ.workers j).my_q.q ++ [item] }
    σ'.pending i = σ.pending i ∧ σ'.uninserted i = σ.uninserted i := by
  intro σ'
  have hnodes : nodesFor σ.unread i = (if j = i then [item] else []) ++ nodesFor unread i := by
    rw [hunread, nodesFor_cons]
    simp only [Fin.val_inj]
  by_cases hi : i = j
  · subst hi
    have hw : σ'.workers i = { σ.workers i with my_q.q := (σ.workers i).my_q.q ++ [item] } :=
      setWorker_self ..
    rw [if_pos rfl] at hnodes
    simp only [pending, uninserted, hw, hnodes, List.append_assoc]
    exact ⟨rfl, rfl⟩
  · have hw : σ'.workers i = σ.workers i := setWorker_of_ne _ _ hi
    rw [if_neg (Ne.symm hi), List.nil_append] at hnodes
    simp only [pending, uninserted, hw, hnodes]
    exact ⟨rfl, rfl⟩

/-- A call on a connection that brings the rows and tags of the node its thread holds. -/
lemma totals_setConnection {i : Fin N} {th : NodeThread} {stage : NodeStage}
    (hheld : stage.held = []) (hrows : th.nodeRows
      = (σ.connection i).nodeRows ++ env.rowsFor (σ.workers i).stage.held)
    (htags : th.nodeTags = (σ.connection i).nodeTags ++ tagsFor (σ.workers i).stage.held) :
    (σ.setConnection i th stage).allRows env = σ.allRows env
      ∧ (σ.setConnection i th stage).allTags = σ.allTags := by
  let σ' := σ.setConnection i th stage
  have hself : σ'.workers i
      = { σ.workers i with node_buf := th.node_buf, tag_buf := th.tag_buf, stage := stage } :=
    setWorker_self ..
  have hne : ∀ j, j ≠ i → σ'.workers j = σ.workers j := fun j hj => setWorker_of_ne _ _ hj
  have hpend : σ.pending i = (σ.workers i).stage.held ++ σ'.pending i := by
    simp only [pending, hself, hheld, List.nil_append, List.append_assoc]
    rfl
  have hother : ∀ j, j ≠ i → σ'.pending j = σ.pending j := fun j hj => by
    simp only [pending, hne j hj]
    rfl
  constructor
  · refine total_eq i (fun j hj => by rw [hne j hj, hother j hj]) ?_
    rw [hself, hpend, NodeEnv.rowsFor_append]
    have hcoe := congrArg (fun l : List (Row Content) => (l : Multiset (Row Content))) hrows
    simp only [NodeThread.nodeRows, connection, ← Multiset.coe_add] at hcoe
    simp only [← Multiset.coe_add, ← add_assoc]
    exact congrArg (· + (env.rowsFor (σ'.pending i) : Multiset (Row Content))) hcoe
  · refine total_eq i (fun j hj => by rw [hne j hj, hother j hj]) ?_
    rw [hself, hpend, tagsFor_append]
    have hcoe := congrArg (fun l : List TagRecord => (l : Multiset TagRecord)) htags
    simp only [NodeThread.nodeTags, connection, ← Multiset.coe_add] at hcoe
    simp only [← Multiset.coe_add, ← add_assoc]
    exact congrArg (· + (tagsFor (σ'.pending i) : Multiset TagRecord)) hcoe

/-- **Every move conserves rows and tag rows.** -/
lemma totals_move (h : Move env σ σ') :
    σ'.allRows env = σ.allRows env ∧ σ'.allTags = σ.allTags := by
  cases h with
  | push hunread =>
      refine SameStored.totals ⟨rfl, fun i => ?_, fun i => ?_, fun i => (pending_push hunread i).1⟩
      all_goals
        rename_i j _ _
        by_cases hi : i = j
        · subst hi
          rw [setWorker_self]
        · rw [setWorker_of_ne _ _ hi]
  | shutdown hunread hshut =>
      exact SameStored.totals ⟨rfl, fun _ => rfl, fun _ => rfl, fun _ => rfl⟩
  | pop hstage hq =>
      refine SameStored.totals (sameStored_setWorker rfl rfl ?_)
      simp [hstage, hq, NodeStage.held]
  | leave hstage hq hstop =>
      refine SameStored.totals (sameStored_setWorker rfl rfl ?_)
      simp [hstage, NodeStage.held]
  | insert hstage hstore =>
      refine SameStored.totals (sameStored_setWorker rfl rfl ?_)
      simp [hstage, NodeStage.held]
  | store hstage =>
      refine totals_setConnection rfl ?_ ?_
      · rw [NodeThread.nodeRows_insertNode, hstage]
        split <;> simp [NodeStage.held, NodeEnv.rowsFor, *]
      · rw [NodeThread.nodeTags_insertNode, hstage]
        split <;> simp [NodeStage.held, tagsFor, nodeThreadRow, *]
  | flush hstage =>
      refine totals_setConnection rfl ?_ ?_
      · rw [NodeThread.nodeRows_finalizeTags, NodeThread.nodeRows_flushNodes, hstage]
        exact (List.append_nil _).symm
      · rw [NodeThread.nodeTags_finalizeTags, NodeThread.nodeTags_flushNodes, hstage]
        exact (List.append_nil _).symm
  | arrive hstage hlast =>
      refine SameStored.totals (sameStored_setWorker rfl rfl ?_)
      simp [hstage, NodeStage.held]
  | merge hstage hlast hstore =>
      refine SameStored.totals (sameStored_setWorker rfl rfl ?_)
      simp [hstage, NodeStage.held]
  | pass hstage hmerged =>
      refine SameStored.totals (sameStored_setWorker rfl rfl ?_)
      simp [hstage, NodeStage.held]

/-! ### The barrier -/

/-- The threads that have arrived. -/
def arrivedThreads (workers : Fin N → NodeWorker) : Finset (Fin N) :=
  Finset.univ.filter fun i => (workers i).stage.arrived

/-- Who has come how far, and with what. -/
structure Arrivals (σ : NodePhase lz N) : Prop where
  stops : ∀ i, (σ.workers i).my_q.stop = σ.shut
  shut : σ.shut = true → σ.unread = []
  left : ∀ i, (σ.workers i).stage.left = true → (σ.workers i).my_q.q = [] ∧ σ.shut = true
  tidy : ∀ i, (σ.connection i).Tidy
  flushed : ∀ i, (σ.workers i).stage.flushed = true → (σ.workers i).node_buf = []
  count : σ.arrivals = (arrivedThreads σ.workers).card
  gate : σ.merge_done = true ↔ σ.arrivals = N
  passed : ∀ i, (σ.workers i).stage = .finished → σ.merge_done = true

variable {i : Fin N} {w : NodeWorker}

lemma forall_update {P : Fin N → NodeWorker → Prop} (hi : P i w)
    (h : ∀ j, P j (σ.workers j)) : ∀ j, P j (Function.update σ.workers i w j) := by
  intro j
  by_cases hj : j = i
  · subst hj
    rwa [Function.update_self]
  · rw [Function.update_of_ne hj]
    exact h j

lemma arrivedThreads_of_same (h : w.stage.arrived = (σ.workers i).stage.arrived) :
    arrivedThreads (Function.update σ.workers i w) = arrivedThreads σ.workers := by
  refine Finset.filter_congr fun j _ => ?_
  have hj := forall_update (P := fun j v => v.stage.arrived = (σ.workers j).stage.arrived) h
    (fun _ => rfl) j
  rw [hj]

lemma card_arrivedThreads_succ (hno : (σ.workers i).stage.arrived = false)
    (hyes : w.stage.arrived = true) :
    (arrivedThreads (Function.update σ.workers i w)).card
      = (arrivedThreads σ.workers).card + 1 := by
  have hset : arrivedThreads (Function.update σ.workers i w)
      = insert i (arrivedThreads σ.workers) := by
    ext j
    by_cases hj : j = i
    · subst hj
      simp [arrivedThreads, hyes]
    · simp [arrivedThreads, hj]
  rw [hset, Finset.card_insert_of_notMem (by simp [arrivedThreads, hno])]

/-- Everybody has arrived where the count says so. -/
lemma Arrivals.all_arrived (h : Arrivals σ) (hcount : σ.arrivals = N) (i : Fin N) :
    (σ.workers i).stage.arrived = true := by
  have huniv : arrivedThreads σ.workers = Finset.univ := by
    refine Finset.eq_univ_of_card _ ?_
    rw [← h.count, hcount, Fintype.card_fin]
  have hmem : i ∈ arrivedThreads σ.workers := huniv ▸ Finset.mem_univ i
  exact (Finset.mem_filter.mp hmem).2

/-- A thread that goes on in its loop. -/
lemma Arrivals.setWorker (h : Arrivals σ) (store : ShardStore lz) (tables : TargetTables Content)
    (hstop : w.my_q.stop = σ.shut)
    (hleft : w.stage.left = true → w.my_q.q = [] ∧ σ.shut = true)
    (htidy : w.node_buf = [] → w.tag_buf = []) (hflushed : w.stage.flushed = true → w.node_buf = [])
    (hsame : w.stage.arrived = (σ.workers i).stage.arrived)
    (hpassed : w.stage = .finished → σ.merge_done = true) :
    Arrivals ({ σ with store := store, tables := tables }.setWorker i w) where
  stops := forall_update (P := fun _ v => v.my_q.stop = σ.shut) hstop h.stops
  shut := h.shut
  left := forall_update (P := fun _ v => v.stage.left = true → v.my_q.q = [] ∧ σ.shut = true)
    hleft h.left
  tidy := forall_update (P := fun _ v => v.node_buf = [] → v.tag_buf = []) htidy h.tidy
  flushed := forall_update (P := fun _ v => v.stage.flushed = true → v.node_buf = []) hflushed
    h.flushed
  count := h.count.trans (congrArg Finset.card (arrivedThreads_of_same hsame)).symm
  gate := h.gate
  passed := forall_update (P := fun _ v => v.stage = .finished → σ.merge_done = true) hpassed
    h.passed

/-- A thread that arrives. -/
lemma Arrivals.arrive (h : Arrivals σ) (store : ShardStore lz) (merge_done : Bool)
    (hstage : (σ.workers i).stage = .arriving)
    (hgate : merge_done = true ↔ σ.arrivals + 1 = N) (hkeep : σ.merge_done = true →
      merge_done = true) :
    Arrivals { ({ σ with arrivals := σ.arrivals + 1 }.setWorker i
      { σ.workers i with stage := .waiting }) with store := store, merge_done := merge_done } where
  stops := forall_update (P := fun _ v => v.my_q.stop = σ.shut) (h.stops i) h.stops
  shut := h.shut
  left := forall_update (P := fun _ v => v.stage.left = true → v.my_q.q = [] ∧ σ.shut = true)
    (fun _ => h.left i (by rw [hstage]; rfl)) h.left
  tidy := forall_update (P := fun _ v => v.node_buf = [] → v.tag_buf = []) (h.tidy i) h.tidy
  flushed := forall_update (P := fun _ v => v.stage.flushed = true → v.node_buf = [])
    (fun _ => h.flushed i (by rw [hstage]; rfl)) h.flushed
  count := by
    have hcard := card_arrivedThreads_succ (w := { σ.workers i with stage := .waiting })
      (by rw [hstage]; rfl) rfl
    exact (congrArg (· + 1) h.count).trans hcard.symm
  gate := hgate
  passed := forall_update (P := fun _ v => v.stage = .finished → merge_done = true)
    (fun hfin => absurd hfin (by simp)) fun j hj => hkeep (h.passed j hj)

/-- **Every move keeps that.** -/
lemma arrivals_move (h : Arrivals σ) (hmove : Move env σ σ') : Arrivals σ' := by
  cases hmove with
  | @push j item unread hunread =>
      have hopen : σ.shut = false := by
        refine Bool.eq_false_iff.mpr fun hshut => ?_
        rw [h.shut hshut] at hunread
        cases hunread
      have hstay : (σ.workers j).stage.left = true → False := fun hleft => by
        have hshut := (h.left j hleft).2
        rw [hopen] at hshut
        cases hshut
      have hw := h.setWorker σ.store σ.tables (i := j)
        (w := { σ.workers j with my_q.q := (σ.workers j).my_q.q ++ [item] }) (h.stops j)
        (fun hleft => (hstay hleft).elim) (h.tidy j) (h.flushed j) rfl (h.passed j)
      exact ⟨hw.stops, fun hshut => absurd (hopen.symm.trans hshut) (by simp), hw.left, hw.tidy,
        hw.flushed, hw.count, hw.gate, hw.passed⟩
  | shutdown hunread hshut =>
      exact ⟨fun _ => rfl, fun _ => hunread, fun i hi => ⟨(h.left i hi).1, rfl⟩, h.tidy, h.flushed,
        h.count, h.gate, h.passed⟩
  | @pop i item q hstage hq =>
      exact h.setWorker _ _ (h.stops i) (fun hleft => by cases hleft) (h.tidy i)
        (fun hfl => by cases hfl) (by rw [hstage]; rfl) fun hfin => by cases hfin
  | @leave i hstage hq hstop =>
      exact h.setWorker _ _ (h.stops i) (fun _ => ⟨hq, (h.stops i).symm.trans hstop⟩) (h.tidy i)
        (fun hfl => by cases hfl) (by rw [hstage]; rfl) fun hfin => by cases hfin
  | @insert i item store hstage hstore =>
      exact h.setWorker _ _ (h.stops i) (fun hleft => by cases hleft) (h.tidy i)
        (fun hfl => by cases hfl) (by rw [hstage]; rfl) fun hfin => by cases hfin
  | @store i item hstage =>
      exact h.setWorker _ _ (h.stops i) (fun hleft => by cases hleft)
        (NodeThread.tidy_insertNode (h.tidy i) _ _) (fun hfl => by cases hfl)
        (by rw [hstage]; rfl) fun hfin => by cases hfin
  | @flush i hstage =>
      exact h.setWorker _ _ (h.stops i) (fun _ => h.left i (by rw [hstage]; rfl)) (fun _ => rfl)
        (fun _ => NodeThread.node_buf_flushNodes _) (by rw [hstage]; rfl) fun hfin => by cases hfin
  | @arrive i hstage hlast =>
      refine h.arrive σ.store σ.merge_done hstage ⟨fun hdone => ?_, fun heq => ?_⟩ id
      · -- all have arrived, this one included
        have harrived := h.all_arrived (h.gate.mp hdone) i
        rw [hstage] at harrived
        cases harrived
      · exact absurd heq hlast
  | @merge i fuel store hstage hlast hstore =>
      exact h.arrive store true hstage ⟨fun _ => hlast, fun _ => rfl⟩ fun _ => rfl
  | @pass i hstage hmerged =>
      exact h.setWorker _ _ (h.stops i) (fun _ => h.left i (by rw [hstage]; rfl)) (h.tidy i)
        (fun _ => h.flushed i (by rw [hstage]; rfl)) (by rw [hstage]; rfl) fun _ => hmerged

/-- The last thread to arrive finds all others there. -/
lemma Arrivals.others_arrived (h : Arrivals σ) (hstage : (σ.workers i).stage = .arriving)
    (hlast : σ.arrivals + 1 = N) {j : Fin N} (hj : j ≠ i) :
    (σ.workers j).stage.arrived = true := by
  have hsub : arrivedThreads σ.workers ⊆ Finset.univ.erase i := by
    intro k hk
    refine Finset.mem_erase.mpr ⟨?_, Finset.mem_univ k⟩
    rintro rfl
    have harrived := (Finset.mem_filter.mp hk).2
    rw [hstage] at harrived
    cases harrived
  have hcard : (Finset.univ.erase i).card ≤ (arrivedThreads σ.workers).card := by
    rw [Finset.card_erase_of_mem (Finset.mem_univ i), Finset.card_univ, Fintype.card_fin, ← h.count]
    omega
  have hmem : j ∈ arrivedThreads σ.workers := by
    rw [Finset.eq_of_subset_of_card_le hsub hcard]
    exact Finset.mem_erase.mpr ⟨hj, Finset.mem_univ j⟩
  exact (Finset.mem_filter.mp hmem).2

/-- So it finds that all have flushed their buffers. -/
lemma Arrivals.flushed_of_last (h : Arrivals σ) (hstage : (σ.workers i).stage = .arriving)
    (hlast : σ.arrivals + 1 = N) (j : Fin N) : (σ.workers j).stage.flushed = true := by
  by_cases hj : j = i
  · subst hj
    rw [hstage]
    rfl
  · exact NodeStage.flushed_of_arrived (h.others_arrived hstage hlast hj)

/-- A thread that has flushed its buffers has nothing left. -/
lemma Arrivals.done (h : Arrivals σ) (hi : (σ.workers i).stage.flushed = true) :
    σ.uninserted i = [] ∧ σ.pending i = [] ∧ (σ.workers i).node_buf = []
      ∧ (σ.workers i).tag_buf = [] := by
  have hleft := NodeStage.left_of_flushed hi
  obtain ⟨hq, hshut⟩ := h.left i hleft
  obtain ⟨hheld, hpopped⟩ := NodeStage.held_of_left hleft
  have hunread := h.shut hshut
  have hbuf := h.flushed i hi
  refine ⟨?_, ?_, hbuf, h.tidy i hbuf⟩
  · simp [uninserted, hpopped, hq, hunread, nodesFor]
  · simp [pending, hheld, hq, hunread, nodesFor]

end NodePhase

end Gpsxdb
