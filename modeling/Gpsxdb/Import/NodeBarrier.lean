import Mathlib.Tactic
import Gpsxdb.Import.NodeDelivery

/-!
The node phase as a whole.

* `Pushed`: nodes that the threads and the store have room for;
* `Recorded`: the shards hold the nodes that were inserted, and the merged store holds
  the nodes of all shards; `store_of_merged`, `select_of_merge`: a merge, whatever its fuel;
* `Sound`, `sound_run`: **the invariant of a run**;
* `fuel`, `fuel_move`, `finished_of_halted`: a run comes to an end, and where it cannot
  go on every thread has finished;
* `node_phase_delivers`: **the node phase** delivers every node once, to its shard and the
  tables.
-/

namespace Gpsxdb

/-! ### The shards -/

/-- The records of a shard. -/
def NodeEnv.shardRecords (env : NodeEnv) (pushes : List (ℕ × NodeEntry)) (j : ℕ) :
    List NodeRecord :=
  (nodesFor pushes j).map env.record

/-- Queues that are there, and ids that the store has room for. -/
structure Pushed (N : ℕ) (max_id : ℤ) (pushes : List (ℕ × NodeEntry)) : Prop where
  queue : ∀ x ∈ pushes, x.1 < N
  range : ∀ x ∈ pushes, 0 ≤ x.2.id ∧ x.2.id ≤ max_id

lemma mem_nodesFor {pushes : List (ℕ × NodeEntry)} {j : ℕ} {n : NodeEntry} :
    n ∈ nodesFor pushes j ↔ (j, n) ∈ pushes := by
  simp [nodesFor]

lemma Pushed.inRange {N : ℕ} {max_id : ℤ} {env : NodeEnv} {pushes : List (ℕ × NodeEntry)}
    (h : Pushed N max_id pushes) (j : ℕ) :
    ShardStore.InRange max_id (env.shardRecords pushes j) := by
  intro r hr
  obtain ⟨n, hn, rfl⟩ := List.mem_map.mp hr
  exact h.range _ (mem_nodesFor.mp hn)

/-! ### What a thread may still do -/

/-- The steps a thread may take from a stage, with none popped. -/
def NodeStage.fuel : NodeStage → ℕ
  | .inserting _ => 6
  | .storing _ => 5
  | .loop => 4
  | .leaving => 3
  | .arriving => 2
  | .waiting => 1
  | .finished => 0

/-- The steps a thread may take, with what is in its queue. -/
def NodeWorker.fuel (w : NodeWorker) : ℕ := 3 * w.my_q.q.length + w.stage.fuel

namespace NodePhase

open ShardStore

variable {lz : LZ4F} {N : ℕ} {env : NodeEnv} {pushes : List (ℕ × NodeEntry)} {max_id : ℤ}
  {dir : ShardDir} {s₀ : ShardStore lz} {σ σ' : NodePhase lz N}

/-- Before the merge the shards hold what has been inserted; after it the store holds the
nodes of all shards, the last of each id. -/
structure Recorded (env : NodeEnv) (pushes : List (ℕ × NodeEntry)) (s₀ : ShardStore lz)
    (σ : NodePhase lz N) : Prop where
  before : σ.merge_done = false → σ.store.merged = s₀.merged
    ∧ ∃ records, σ.store.Recording N records
      ∧ ∀ i : Fin N, records i ++ (σ.uninserted i).map env.record = env.shardRecords pushes i
  after : σ.merge_done = true → ∀ id, IsInt64 id → σ.store.merged.select id
    = lastInsert ((List.range N).flatMap (env.shardRecords pushes)) id

/-- **A merge** of shards that are filled, whatever its fuel. -/
lemma select_of_merge (hlz : lz.Lossless) {records : ℕ → List NodeRecord} {s t : ShardStore lz}
    (hs : s.Filled max_id N records) {fuel : ℕ} (h : s.merge fuel = some t) {id : ℤ}
    (hid : IsInt64 id) :
    t.merged.select id = lastInsert ((List.range N).flatMap records) id := by
  obtain ⟨⟨bound, hbound⟩, hselect⟩ := hs.merge hlz
  obtain ⟨steps, hsteps, rfl⟩ := Option.map_eq_some_iff.mp h
  have hsame := mergeSteps_mono (le_max_left fuel bound) hsteps
  rw [hbound _ (le_max_right fuel bound)] at hsame
  obtain rfl := Option.some.inj hsame
  exact hselect id hid

/-- **Once all nodes are inserted** the shards are filled. -/
lemma Recorded.filled (h : Recorded env pushes s₀ σ) (hmax : IsInt64 max_id)
    (h₀ : openForImport lz dir max_id N = some s₀) (hpushed : Pushed N max_id pushes)
    (hbefore : σ.merge_done = false) (hdone : ∀ i, σ.uninserted i = []) :
    ∃ records, σ.store.Filled max_id N records
      ∧ (List.range N).flatMap records = (List.range N).flatMap (env.shardRecords pushes) := by
  obtain ⟨hmerged, records, hrec, hrecords⟩ := h.before hbefore
  obtain ⟨h0, h53, hroom, hsmall, hempty⟩ := room_openForImport hmax h₀
  rw [← hmerged] at hroom hsmall hempty
  have hsame : ∀ j < N, records j = env.shardRecords pushes j := by
    intro j hj
    have hj := hrecords ⟨j, hj⟩
    rwa [hdone, List.map_nil, List.append_nil] at hj
  -- there are no shards beyond the last one
  let records' := fun j => if j < N then records j else []
  have hrec' : σ.store.Recording N records' := by
    refine ⟨hrec.length, fun j w hw => ?_, hrec.bmp⟩
    have hj : j < N := hrec.length ▸ (List.getElem?_eq_some_iff.mp hw).1
    simp only [records', if_pos hj]
    exact hrec.writer j w hw
  refine ⟨records', ⟨h0, h53, hrec', hroom, hsmall, hempty, fun j => ?_⟩, ?_⟩
  · simp only [records']
    split
    · rw [hsame j ‹_›]
      exact Pushed.inRange hpushed j
    · exact fun r hr => absurd hr (by simp)
  · refine List.flatMap_congr fun j hj => ?_
    have hj := List.mem_range.mp hj
    simp only [records', if_pos hj]
    exact hsame j hj

/-- A step that leaves the store and what it still lacks. -/
lemma Recorded.of_same (h : Recorded env pushes s₀ σ) (hstore : σ'.store = σ.store)
    (hmerge : σ'.merge_done = σ.merge_done) (hsame : ∀ i, σ'.uninserted i = σ.uninserted i) :
    Recorded env pushes s₀ σ' := by
  constructor
  · intro hbefore
    rw [hstore]
    simp only [hsame]
    exact h.before (hmerge ▸ hbefore)
  · rw [hstore, hmerge]
    exact h.after

/-- A thread that goes on with the same nodes left. -/
lemma uninserted_setWorker {store : ShardStore lz} {arrivals : ℕ} {merge_done : Bool}
    {tables : TargetTables Content} {i : Fin N} {w : NodeWorker}
    (hleft : w.stage.popped ++ w.my_q.q = (σ.workers i).stage.popped ++ (σ.workers i).my_q.q)
    (j : Fin N) :
    ({ σ with
      store := store
      arrivals := arrivals
      merge_done := merge_done
      tables := tables }.setWorker i w).uninserted j = σ.uninserted j :=
  congrArg (· ++ nodesFor σ.unread j)
    (forall_update (P := fun j v => v.stage.popped ++ v.my_q.q
      = (σ.workers j).stage.popped ++ (σ.workers j).my_q.q) hleft (fun _ => rfl) j)

/-- A thread that has more to insert has not seen the merge. -/
lemma merge_done_of_popped (ha : Arrivals σ) {i : Fin N}
    (hi : (σ.workers i).stage.arrived = false) : σ.merge_done = false := by
  refine Bool.eq_false_iff.mpr fun hdone => ?_
  have harrived := ha.all_arrived (ha.gate.mp hdone) i
  rw [hi] at harrived
  cases harrived

/-- An insertion moves a node from what a thread has left into its shard. -/
lemma Recorded.insert (h : Recorded env pushes s₀ σ) (h60 : max_id < 2 ^ 60)
    (hpushed : Pushed N max_id pushes) (ha : Arrivals σ) {i : Fin N} {item : NodeEntry}
    {store : ShardStore lz} (hstage : (σ.workers i).stage = .inserting item)
    (hstore : σ.store.insert i item.id (env.coord item) = some store) :
    Recorded env pushes s₀ ({ σ with store := store }.setWorker i
      { σ.workers i with stage := .storing item }) := by
  have hdone := merge_done_of_popped ha (i := i) (by rw [hstage]; rfl)
  obtain ⟨hmerged, records, hrec, hrecords⟩ := h.before hdone
  have hitem : σ.uninserted i = item :: ((σ.workers i).my_q.q ++ nodesFor σ.unread i) := by
    rw [uninserted, hstage]
    rfl
  have hmem : env.record item ∈ env.shardRecords pushes i := by
    rw [← hrecords i, hitem]
    simp
  obtain ⟨h0, hle⟩ := Pushed.inRange hpushed i _ hmem
  obtain ⟨s', hinsert, hmerged', hrec'⟩ := insert_spec hrec h60 (env.coord item) i.isLt h0 hle
  obtain rfl := Option.some.inj (hinsert.symm.trans hstore)
  refine ⟨fun _ => ⟨hmerged'.trans hmerged, _, hrec', fun j => ?_⟩, fun hmerge => ?_⟩
  · by_cases hj : j = i
    · subst hj
      have hw : ({ σ with store := s' }.setWorker j
          { σ.workers j with stage := .storing item }).uninserted j
          = (σ.workers j).my_q.q ++ nodesFor σ.unread j := by
        rw [uninserted, setWorker_self]
        rfl
      rw [Function.update_self, hw, List.append_assoc, ← hrecords j, hitem]
      rfl
    · have hw : ({ σ with store := s' }.setWorker i
          { σ.workers i with stage := .storing item }).uninserted j = σ.uninserted j := by
        rw [uninserted, setWorker_of_ne _ _ hj]
        rfl
      rw [Function.update_of_ne (fun heq => hj (Fin.ext heq)), hw]
      exact hrecords j
  · exact absurd (hdone.symm.trans hmerge) (by simp)

/-- **Every move keeps that.** -/
lemma recorded_move (hlz : lz.Lossless) (hmax : IsInt64 max_id)
    (h₀ : openForImport lz dir max_id N = some s₀) (hpushed : Pushed N max_id pushes)
    (ha : Arrivals σ) (h : Recorded env pushes s₀ σ) (hmove : Move env σ σ') :
    Recorded env pushes s₀ σ' := by
  cases hmove with
  | push hunread => exact h.of_same rfl rfl fun i => (pending_push hunread i).2
  | shutdown hunread hshut => exact h.of_same rfl rfl fun i => rfl
  | pop hstage hq =>
      exact h.of_same rfl rfl (uninserted_setWorker (by simp [hstage, hq, NodeStage.popped]))
  | leave hstage hq hstop =>
      exact h.of_same rfl rfl (uninserted_setWorker (by simp [hstage, NodeStage.popped]))
  | insert hstage hstore =>
      have h60 : max_id < 2 ^ 60 := by
        have h53 := (room_openForImport hmax h₀).2.1
        omega
      exact h.insert h60 hpushed ha hstage hstore
  | store hstage =>
      exact h.of_same rfl rfl (uninserted_setWorker (by simp [hstage, NodeStage.popped]))
  | flush hstage =>
      exact h.of_same rfl rfl (uninserted_setWorker (by simp [hstage, NodeStage.popped]))
  | arrive hstage hlast =>
      exact h.of_same rfl rfl (uninserted_setWorker (by simp [hstage, NodeStage.popped]))
  | @merge i fuel store hstage hlast hstore =>
      have hbefore := merge_done_of_popped ha (i := i) (by rw [hstage]; rfl)
      obtain ⟨records, hfilled, hrecords⟩ := h.filled hmax h₀ hpushed hbefore fun j =>
        (ha.done (ha.flushed_of_last hstage hlast j)).1
      refine ⟨fun hdone => absurd hdone (by simp), fun _ id hid => ?_⟩
      rw [← hrecords]
      exact select_of_merge hlz hfilled hstore hid
  | pass hstage hmerged =>
      exact h.of_same rfl rfl (uninserted_setWorker (by simp [hstage, NodeStage.popped]))

/-- **After the merge the store stays as it is.** -/
lemma store_of_merged (ha : Arrivals σ) (hdone : σ.merge_done = true) (h : Move env σ σ') :
    σ'.merge_done = true ∧ σ'.store = σ.store := by
  have hall := ha.all_arrived (ha.gate.mp hdone)
  cases h with
  | @insert i item store hstage hstore =>
      have hi := hall i
      rw [hstage] at hi
      cases hi
  | @merge i fuel store hstage hlast hstore =>
      have hi := hall i
      rw [hstage] at hi
      cases hi
  | _ => exact ⟨hdone, rfl⟩

/-! ### A run -/

/-- **The invariant of a run** from the start. -/
structure Sound (env : NodeEnv) (queue_size : ℤ) (pushes : List (ℕ × NodeEntry))
    (d : TargetTables Content) (s₀ : ShardStore lz) (σ : NodePhase lz N) : Prop where
  arrivals : Arrivals σ
  recorded : Recorded env pushes s₀ σ
  rows : σ.allRows env
    = (d.rows .nodes + env.rowsFor (pushes.map Prod.snd) : Multiset (Row Content))
  tags : σ.allTags = (d.tags .nodes + tagsFor (pushes.map Prod.snd) : Multiset TagRecord)
  sizes : ∀ i, (σ.workers i).my_q.max_size = queue_size
  unread : ∀ x ∈ σ.unread, x ∈ pushes

/-- The nodes of all queues are the nodes of the file. -/
lemma sum_nodesFor {M : Type*} [AddCommMonoid M] {f : List NodeEntry → M} (hnil : f [] = 0)
    (happend : ∀ ns ns', f (ns ++ ns') = f ns + f ns') (hqueue : ∀ x ∈ pushes, x.1 < N) :
    ∑ i : Fin N, f (nodesFor pushes i) = f (pushes.map Prod.snd) := by
  induction pushes with
  | nil => simp [nodesFor, hnil]
  | cons x pushes ih =>
      have hx : ∑ i : Fin N, f (if x.1 = i then [x.2] else []) = f [x.2] := by
        rw [Finset.sum_eq_single ⟨x.1, hqueue x List.mem_cons_self⟩]
        · rw [if_pos rfl]
        · intro i _ hi
          rw [if_neg fun heq => hi (Fin.ext heq.symm), hnil]
        · exact fun hno => absurd (Finset.mem_univ _) hno
      simp only [nodesFor_cons, happend, Finset.sum_add_distrib]
      rw [hx, ih fun y hy => hqueue y (List.mem_cons_of_mem _ hy), List.map_cons,
        ← happend, List.singleton_append]

lemma arrivals_start (hN : 0 < N) (queue_size : ℤ) (pushes : List (ℕ × NodeEntry))
    (d : TargetTables Content) (s : ShardStore lz) :
    Arrivals (start queue_size pushes d s : NodePhase lz N) where
  stops _ := rfl
  shut hshut := by cases hshut
  left _ hleft := by cases hleft
  tidy _ := fun _ => rfl
  flushed _ hflushed := by cases hflushed
  count := by simp [start, arrivedThreads, NodeStage.arrived]
  gate := ⟨fun hdone => (by cases hdone), fun hcount => absurd hcount hN.ne⟩
  passed _ hfin := by cases hfin

lemma sound_start (hN : 0 < N) (h₀ : openForImport lz dir max_id N = some s₀)
    (hpushed : Pushed N max_id pushes) (queue_size : ℤ) (d : TargetTables Content) :
    (start queue_size pushes d s₀ : NodePhase lz N).Sound env queue_size pushes d s₀ where
  arrivals := arrivals_start hN ..
  recorded := ⟨fun _ => ⟨rfl, _, recording_start h₀, fun _ => rfl⟩, fun hdone => by cases hdone⟩
  rows := by
    refine congrArg _ (Eq.trans ?_ (sum_nodesFor
      (f := fun ns => (env.rowsFor ns : Multiset (Row Content))) rfl
      (fun ns ns' => by rw [NodeEnv.rowsFor_append, Multiset.coe_add]) hpushed.queue))
    exact Finset.sum_congr rfl fun i _ => zero_add _
  tags := by
    refine congrArg _ (Eq.trans ?_ (sum_nodesFor
      (f := fun ns => (tagsFor ns : Multiset TagRecord)) rfl
      (fun ns ns' => by rw [tagsFor_append, Multiset.coe_add]) hpushed.queue))
    exact Finset.sum_congr rfl fun i _ => zero_add _
  sizes _ := rfl
  unread _ hx := hx

lemma max_size_move (h : Move env σ σ') (j : Fin N) :
    (σ'.workers j).my_q.max_size = (σ.workers j).my_q.max_size := by
  have hupdate : ∀ {i : Fin N} {w : NodeWorker}, w.my_q.max_size = (σ.workers i).my_q.max_size →
      (Function.update σ.workers i w j).my_q.max_size = (σ.workers j).my_q.max_size :=
    fun hw => forall_update (P := fun j v => v.my_q.max_size = (σ.workers j).my_q.max_size) hw
      (fun _ => rfl) j
  cases h with
  | shutdown => rfl
  | _ => exact hupdate rfl

lemma unread_move (h : Move env σ σ') {x : ℕ × NodeEntry} (hx : x ∈ σ'.unread) : x ∈ σ.unread := by
  cases h with
  | push hunread =>
      rw [hunread]
      exact List.mem_cons_of_mem _ hx
  | _ => exact hx

lemma sound_move (hlz : lz.Lossless) (hmax : IsInt64 max_id)
    (h₀ : openForImport lz dir max_id N = some s₀) (hpushed : Pushed N max_id pushes)
    {queue_size : ℤ} {d : TargetTables Content} (hs : σ.Sound env queue_size pushes d s₀)
    (hmove : Move env σ σ') : σ'.Sound env queue_size pushes d s₀ where
  arrivals := arrivals_move hs.arrivals hmove
  recorded := recorded_move hlz hmax h₀ hpushed hs.arrivals hs.recorded hmove
  rows := (totals_move hmove).1.trans hs.rows
  tags := (totals_move hmove).2.trans hs.tags
  sizes j := (max_size_move hmove j).trans (hs.sizes j)
  unread _ hx := hs.unread _ (unread_move hmove hx)

/-- A run. -/
def run (env : NodeEnv) (σ : NodePhase lz N) (moves : List (NodeActor N)) :
    Option (NodePhase lz N) := moves.foldlM (step env) σ

/-! ### The end of a run -/

/-- The steps a run may still take. -/
def fuel (σ : NodePhase lz N) : ℕ :=
  4 * σ.unread.length + (if σ.shut then 0 else 1) + ∑ i, (σ.workers i).fuel

/-- A step of one thread that brings it nearer to its end. -/
lemma sum_fuel_update {i : Fin N} {w : NodeWorker} {k m : ℕ}
    (h : w.fuel + k = (σ.workers i).fuel + m) :
    ∑ j, (Function.update σ.workers i w j).fuel + k = ∑ j, (σ.workers j).fuel + m := by
  have hsum : ∑ j, (Function.update σ.workers i w j).fuel + (σ.workers i).fuel
      = ∑ j, (σ.workers j).fuel + w.fuel := by
    rw [← Finset.add_sum_erase _ _ (Finset.mem_univ i),
      ← Finset.add_sum_erase _ (fun j => (σ.workers j).fuel) (Finset.mem_univ i),
      Function.update_self]
    have hrest : ∑ j ∈ Finset.univ.erase i, (Function.update σ.workers i w j).fuel
        = ∑ j ∈ Finset.univ.erase i, (σ.workers j).fuel :=
      Finset.sum_congr rfl fun j hj => by
        rw [Function.update_of_ne (Finset.ne_of_mem_erase hj)]
    omega
  omega

/-- A step of one thread that is one less. -/
lemma fuel_setWorker {store : ShardStore lz} {arrivals : ℕ} {merge_done : Bool}
    {tables : TargetTables Content} {i : Fin N} {w : NodeWorker}
    (h : w.fuel + 1 = (σ.workers i).fuel) :
    ({ σ with
      store := store
      arrivals := arrivals
      merge_done := merge_done
      tables := tables }.setWorker i w).fuel + 1 = σ.fuel := by
  have hsum := sum_fuel_update (m := 0) h
  show 4 * σ.unread.length + (if σ.shut then 0 else 1)
    + ∑ j, (Function.update σ.workers i w j).fuel + 1 = σ.fuel
  rw [fuel]
  omega

/-- **Every move is one less.** -/
lemma fuel_move (h : Move env σ σ') : σ'.fuel + 1 = σ.fuel := by
  cases h with
  | @push j item unread hunread =>
      let w : NodeWorker := { σ.workers j with my_q.q := (σ.workers j).my_q.q ++ [item] }
      have hw : w.fuel + 0 = (σ.workers j).fuel + 3 := by
        simp only [w, NodeWorker.fuel, List.length_append, List.length_singleton]
        omega
      have hsum := sum_fuel_update hw
      show 4 * unread.length + (if σ.shut then 0 else 1)
        + ∑ i, (Function.update σ.workers j w i).fuel + 1 = σ.fuel
      rw [fuel, hunread, List.length_cons]
      omega
  | shutdown hunread hshut =>
      show 4 * σ.unread.length + (if true then 0 else 1) + ∑ i, (σ.workers i).fuel + 1 = σ.fuel
      simp [fuel, hshut]
      omega
  | pop hstage hq =>
      refine fuel_setWorker ?_
      simp only [NodeWorker.fuel, hstage, hq, List.length_cons, NodeStage.fuel]
      omega
  | leave hstage hq hstop =>
      exact fuel_setWorker (by simp [NodeWorker.fuel, hstage, NodeStage.fuel])
  | insert hstage hstore => exact fuel_setWorker (by simp [NodeWorker.fuel, hstage, NodeStage.fuel])
  | store hstage => exact fuel_setWorker (by simp [NodeWorker.fuel, hstage, NodeStage.fuel])
  | flush hstage => exact fuel_setWorker (by simp [NodeWorker.fuel, hstage, NodeStage.fuel])
  | arrive hstage hlast => exact fuel_setWorker (by simp [NodeWorker.fuel, hstage, NodeStage.fuel])
  | merge hstage hlast hstore =>
      exact fuel_setWorker (by simp [NodeWorker.fuel, hstage, NodeStage.fuel])
  | pass hstage hmerged => exact fuel_setWorker (by simp [NodeWorker.fuel, hstage, NodeStage.fuel])

/-- Nobody can move. -/
def Halted (env : NodeEnv) (σ : NodePhase lz N) : Prop := ∀ a, σ.step env a = none

section Halting

variable {queue_size : ℤ} {d : TargetTables Content}

/-- An insertion goes through. -/
lemma insert_of_sound (hs : σ.Sound env queue_size pushes d s₀) (h60 : max_id < 2 ^ 60)
    (hpushed : Pushed N max_id pushes) {i : Fin N} {item : NodeEntry}
    (hstage : (σ.workers i).stage = .inserting item) :
    ∃ store, σ.store.insert i item.id (env.coord item) = some store := by
  have hdone := merge_done_of_popped hs.arrivals (i := i) (by rw [hstage]; rfl)
  obtain ⟨-, records, hrec, hrecords⟩ := hs.recorded.before hdone
  have hmem : env.record item ∈ env.shardRecords pushes i := by
    rw [← hrecords i, uninserted, hstage]
    simp [NodeStage.popped]
  obtain ⟨h0, hle⟩ := Pushed.inRange hpushed i _ hmem
  obtain ⟨store, hinsert, -⟩ := insert_spec hrec h60 (env.coord item) i.isLt h0 hle
  exact ⟨store, hinsert⟩

/-- So does the merge, with enough fuel. -/
lemma merge_of_sound (hlz : lz.Lossless) (hmax : IsInt64 max_id)
    (h₀ : openForImport lz dir max_id N = some s₀) (hpushed : Pushed N max_id pushes)
    (hs : σ.Sound env queue_size pushes d s₀) {i : Fin N}
    (hstage : (σ.workers i).stage = .arriving) (hlast : σ.arrivals + 1 = N) :
    ∃ fuel store, σ.store.merge fuel = some store := by
  have hbefore := merge_done_of_popped hs.arrivals (i := i) (by rw [hstage]; rfl)
  obtain ⟨records, hfilled, -⟩ := hs.recorded.filled hmax h₀ hpushed hbefore fun j =>
    (hs.arrivals.done (hs.arrivals.flushed_of_last hstage hlast j)).1
  obtain ⟨⟨bound, hbound⟩, -⟩ := hfilled.merge hlz
  exact ⟨bound, _, Option.map_eq_some_iff.mpr ⟨_, hbound bound le_rfl, rfl⟩⟩

/-- The rows the table may come to hold have ids of their own. -/
def Distinct (env : NodeEnv) (pushes : List (ℕ × NodeEntry)) (d : TargetTables Content) : Prop :=
  ((d.rows .nodes ++ env.rowsFor (pushes.map Prod.snd)).map Row.id).Nodup

/-- A `COPY` finds no id taken. -/
lemma keysOk_of_move (hs : σ.Sound env queue_size pushes d s₀) (hids : Distinct env pushes d)
    (hmove : Move env σ σ') : keysOk σ'.tables = true := by
  have hrows := (totals_move hmove).1.trans hs.rows
  have hle : (σ'.tables.rows .nodes : Multiset (Row Content))
      ≤ (d.rows .nodes + env.rowsFor (pushes.map Prod.snd) : Multiset (Row Content)) :=
    (Multiset.le_add_right _ _).trans_eq hrows
  have hnodup := Multiset.nodup_of_le (Multiset.map_le_map (f := Row.id) hle) hids
  exact decide_eq_true hnodup

/-- Where nobody can move a thread has seen the end of its queue. -/
lemma stage_of_halted (hs : σ.Sound env queue_size pushes d s₀) (h60 : max_id < 2 ^ 60)
    (hpushed : Pushed N max_id pushes) (hids : Distinct env pushes d) (h : σ.Halted env)
    (i : Fin N) :
    (σ.workers i).stage = .loop ∧ (σ.workers i).my_q.q = [] ∧ σ.shut = false
      ∨ (σ.workers i).stage = .arriving ∨ (σ.workers i).stage.arrived = true := by
  have hthread := h (.thread i 0)
  rw [step, threadStep] at hthread
  cases hstage : (σ.workers i).stage with
  | loop =>
      simp only [hstage, Option.map_eq_none_iff, BlockingQueue.pop] at hthread
      cases hq : (σ.workers i).my_q.q with
      | cons item q => simp [hq] at hthread
      | nil =>
          simp only [hq] at hthread
          split at hthread
          · cases hthread
          · rename_i hstop
            rw [hs.arrivals.stops i] at hstop
            exact Or.inl ⟨rfl, rfl, Bool.eq_false_iff.mpr hstop⟩
  | inserting item =>
      obtain ⟨store, hstore⟩ := insert_of_sound hs h60 hpushed hstage
      simp [hstage, hstore] at hthread
  | storing item =>
      have hkeys : keysOk ((σ.connection i).insertNode
          (nodeThreadRow env.projection env.use_mercator item) item.tags).db = true :=
        keysOk_of_move hs hids (.store hstage)
      simp only [hstage] at hthread
      rw [if_pos hkeys] at hthread
      cases hthread
  | leaving =>
      have hkeys : keysOk (σ.connection i).flushNodes.finalizeTags.db = true :=
        keysOk_of_move hs hids (.flush hstage)
      simp only [hstage] at hthread
      rw [if_pos hkeys] at hthread
      cases hthread
  | arriving => exact Or.inr (Or.inl rfl)
  | waiting => exact Or.inr (Or.inr rfl)
  | finished => exact Or.inr (Or.inr rfl)

/-- Where nobody can move the queues are shut down. -/
lemma shut_of_halted (hs : σ.Sound env queue_size pushes d s₀) (h60 : max_id < 2 ^ 60)
    (hpushed : Pushed N max_id pushes) (hids : Distinct env pushes d) (hsize : 0 < queue_size)
    (h : σ.Halted env) : σ.shut = true := by
  by_contra hopen
  have hopen := Bool.eq_false_iff.mpr hopen
  cases hunread : σ.unread with
  | nil =>
      have hshutdown := h .shutdown
      rw [step, if_pos ⟨hunread, hopen⟩] at hshutdown
      cases hshutdown
  | cons x unread =>
      obtain ⟨j, item⟩ := x
      have hj : j < N := hpushed.queue _ (hs.unread _ (hunread ▸ List.mem_cons_self))
      have hpush := h .push
      simp only [step, hunread, dif_pos hj, Option.map_eq_none_iff] at hpush
      -- the queue is full, so its thread has something to pop
      rcases stage_of_halted hs h60 hpushed hids h ⟨j, hj⟩ with ⟨-, hq, -⟩ | hstage
      · rw [BlockingQueue.push, if_pos] at hpush
        · cases hpush
        · left
          rw [hs.sizes, hq]
          exact hsize
      · have hleft : (σ.workers ⟨j, hj⟩).stage.left = true := by
          rcases hstage with hstage | hstage
          · rw [hstage]
            rfl
          · exact NodeStage.left_of_flushed (NodeStage.flushed_of_arrived hstage)
        have hshut := (hs.arrivals.left _ hleft).2
        rw [hopen] at hshut
        cases hshut

/-- **A run that cannot go on is done**: every thread has finished. -/
lemma finished_of_halted (hlz : lz.Lossless) (hmax : IsInt64 max_id)
    (h₀ : openForImport lz dir max_id N = some s₀) (hpushed : Pushed N max_id pushes)
    (hids : Distinct env pushes d) (hsize : 0 < queue_size)
    (hs : σ.Sound env queue_size pushes d s₀) (h : σ.Halted env) (i : Fin N) :
    (σ.workers i).stage = .finished := by
  have h60 : max_id < 2 ^ 60 := by
    have h53 := (room_openForImport hmax h₀).2.1
    omega
  have hshut := shut_of_halted hs h60 hpushed hids hsize h
  have harrived : ∀ j, (σ.workers j).stage.arrived = true := by
    intro j
    rcases stage_of_halted hs h60 hpushed hids h j with ⟨-, -, hopen⟩ | hstage | hstage
    · rw [hshut] at hopen
      cases hopen
    · exfalso
      by_cases hlast : σ.arrivals + 1 = N
      · obtain ⟨fuel, store, hstore⟩ := merge_of_sound hlz hmax h₀ hpushed hs hstage hlast
        have hthread := h (.thread j fuel)
        simp [step, threadStep, hstage, hlast, hstore] at hthread
      · have hthread := h (.thread j 0)
        simp [step, threadStep, hstage, hlast] at hthread
    · exact hstage
  have hcount : σ.arrivals = N := by
    rw [hs.arrivals.count, arrivedThreads, Finset.filter_true_of_mem fun j _ => harrived j,
      Finset.card_univ, Fintype.card_fin]
  have hthread := h (.thread i 0)
  rw [step, threadStep] at hthread
  have hi := harrived i
  cases hstage : (σ.workers i).stage with
  | waiting => simp [hstage, hs.arrivals.gate.mpr hcount] at hthread
  | finished => rfl
  | _ =>
      rw [hstage] at hi
      cases hi

end Halting

/-! ### What a run comes to -/

variable {queue_size : ℤ} {d : TargetTables Content} {moves : List (NodeActor N)}

/-- **A run keeps the invariant**, and is no longer than its fuel. -/
lemma sound_run (hlz : lz.Lossless) (hmax : IsInt64 max_id)
    (h₀ : openForImport lz dir max_id N = some s₀) (hpushed : Pushed N max_id pushes)
    (hs : σ.Sound env queue_size pushes d s₀) (h : σ.run env moves = some σ') :
    σ'.Sound env queue_size pushes d s₀ ∧ σ'.fuel + moves.length = σ.fuel := by
  induction moves generalizing σ with
  | nil =>
      obtain rfl := Option.some.inj h
      exact ⟨hs, rfl⟩
  | cons a moves ih =>
      obtain ⟨u, hu, h⟩ := foldlM_cons_eq_some.mp h
      have hmove := move_of_step hu
      obtain ⟨hs', hlen⟩ := ih (sound_move hlz hmax h₀ hpushed hs hmove) h
      have hfuel := fuel_move hmove
      refine ⟨hs', ?_⟩
      rw [List.length_cons]
      omega

/-- Once the shards are merged the tables have all rows. -/
lemma Sound.delivered (hs : σ.Sound env queue_size pushes d s₀) (hdone : σ.merge_done = true) :
    (σ.tables.rows .nodes).Perm (d.rows .nodes ++ env.rowsFor (pushes.map Prod.snd))
      ∧ (σ.tables.tags .nodes).Perm (d.tags .nodes ++ tagsFor (pushes.map Prod.snd)) := by
  have hempty := fun i => hs.arrivals.done
    (NodeStage.flushed_of_arrived (hs.arrivals.all_arrived (hs.arrivals.gate.mp hdone) i))
  constructor
  · have hrows := hs.rows
    have hrest : ∑ i, ((σ.workers i).node_buf + env.rowsFor (σ.pending i)
        : Multiset (Row Content)) = 0 := by
      refine Finset.sum_eq_zero fun i _ => ?_
      obtain ⟨-, hpending, hbuf, -⟩ := hempty i
      rw [hpending, hbuf]
      rfl
    rw [allRows, hrest, add_zero, Multiset.coe_add] at hrows
    exact Multiset.coe_eq_coe.mp hrows
  · have htags := hs.tags
    have hrest : ∑ i, ((σ.workers i).tag_buf + tagsFor (σ.pending i) : Multiset TagRecord) = 0 := by
      refine Finset.sum_eq_zero fun i _ => ?_
      obtain ⟨-, hpending, -, hbuf⟩ := hempty i
      rw [hpending, hbuf]
      rfl
    rw [allTags, hrest, add_zero, Multiset.coe_add] at htags
    exact Multiset.coe_eq_coe.mp htags

/-- **The node phase**, with any number of threads in any order: until all threads are
through nobody sees a node in the store; from then on the store has the nodes of every
shard and the tables each row once; every run comes to an end, and where nobody can move
all threads have finished, if no two rows share an id. -/
theorem node_phase_delivers (hlz : lz.Lossless) (hmax : IsInt64 max_id) (hN : 0 < N)
    (h₀ : openForImport lz dir max_id N = some s₀) (hpushed : Pushed N max_id pushes)
    (hsize : 0 < queue_size) (d : TargetTables Content)
    (h : (start queue_size pushes d s₀ : NodePhase lz N).run env moves = some σ) :
    (σ.merge_done = false → σ.store.merged = s₀.merged)
    ∧ (σ.merge_done = true →
      (∀ id, IsInt64 id → σ.store.merged.select id
        = lastInsert ((List.range N).flatMap (env.shardRecords pushes)) id)
      ∧ (σ.tables.rows .nodes).Perm (d.rows .nodes ++ env.rowsFor (pushes.map Prod.snd))
      ∧ (σ.tables.tags .nodes).Perm (d.tags .nodes ++ tagsFor (pushes.map Prod.snd)))
    ∧ moves.length ≤ 4 * pushes.length + 1 + N * 4
    ∧ (Distinct env pushes d → σ.Halted env →
      σ.merge_done = true ∧ ∀ i, (σ.workers i).stage = .finished) := by
  obtain ⟨hs, hlen⟩ := sound_run hlz hmax h₀ hpushed (sound_start hN h₀ hpushed queue_size d) h
  refine ⟨fun hbefore => (hs.recorded.before hbefore).1,
    fun hdone => ⟨hs.recorded.after hdone, hs.delivered hdone⟩, ?_, fun hids hhalt => ?_⟩
  · have hfuel : (start queue_size pushes d s₀ : NodePhase lz N).fuel
        = 4 * pushes.length + 1 + N * 4 := by
      simp [fuel, start, NodeWorker.fuel, NodeStage.fuel]
    omega
  · have hfin := finished_of_halted hlz hmax h₀ hpushed hids hsize hs hhalt
    exact ⟨hs.arrivals.passed ⟨0, hN⟩ (hfin _), hfin⟩

/-- Two nodes on the way to two threads; the second one has no tags. -/
def twoPushes : List (ℕ × NodeEntry) :=
  [(0, ⟨1, [], .single (ascii "place") (ascii "town"), 5, 6⟩), (1, ⟨2, [], .empty, 7, 8⟩)]

/-- The second thread is the first to arrive. -/
def twoMoves (a b : Fin 2) : List (NodeActor 2) :=
  [.push, .push, .shutdown, .thread b 0, .thread a 0, .thread b 0, .thread b 0, .thread b 0,
    .thread b 0, .thread b 0, .thread a 0, .thread a 0, .thread a 0, .thread a 0, .thread a 300,
    .thread b 0, .thread a 0]

/-- Both nodes can be looked up, and one of them is in the table. -/
theorem node_phase_delivers_two_threads :
    ∃ s₀, openForImport tagged .empty 10 2 = some s₀
      ∧ ∃ σ, (start 1 twoPushes emptyTables s₀ : NodePhase tagged 2).run ⟨mercatorAt, false⟩
          (twoMoves 0 1) = some σ
        ∧ σ.store.merged.select 2 = lastInsert [⟨1, ⟨5, 6⟩⟩, ⟨2, ⟨7, 8⟩⟩] 2 := by
  have hpushed : Pushed 2 10 twoPushes := ⟨by decide, by decide⟩
  have heval : (do
      let s₀ ← openForImport tagged .empty 10 2
      let σ ← (start 1 twoPushes emptyTables s₀ : NodePhase tagged 2).run ⟨mercatorAt, false⟩
        (twoMoves 0 1)
      some σ.merge_done) = some true := by
    decide +kernel
  simp only [Option.bind_eq_bind, Option.bind_eq_some_iff] at heval
  obtain ⟨s₀, h₀, σ, hrun, hdone⟩ := heval
  have hall := node_phase_delivers tagged_lossless (by decide) (by decide) h₀ hpushed
    (by decide) emptyTables hrun
  exact ⟨s₀, h₀, σ, hrun, (hall.2.1 (Option.some.inj hdone)).1 2 (by decide)⟩

end NodePhase

end Gpsxdb
