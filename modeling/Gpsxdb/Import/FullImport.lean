import Mathlib.Tactic
import Gpsxdb.Import.NodeBarrier
import Gpsxdb.Import.WayOutcome
import Gpsxdb.Import.ResumeOffsets

/-!
A full import, from the blobs of the file to the tables and the node store.

* `nodePushes`, `PlanetFile`, `pushed_of_file`: what the producer pushes of a file;
* `ImportRun`, `ImportActor`, `step`: the producer, the node threads and the way threads in
  any order; the way threads read the store the node threads fill;
* `Sound`, `sound_step`: the way phase does not begin before the merge, and nothing changes
  the store after it; `fuel_step`, `halted_parts`;
* `Imported`, `imported_of_halted`: where nobody can move the import is done;
* `full_import`: **a full import comes to an end, and what it leaves is a function of the
  file**.
-/

namespace Gpsxdb

/-! ### What the producer pushes -/

/-- A node in `node_queues`. -/
def nodePush : ℕ × BlockEntry → Option (ℕ × NodeEntry)
  | (j, .node n) => some (j, n)
  | _ => none

/-- The nodes in `node_queues`. -/
def nodePushes (p : Producer) : List (ℕ × NodeEntry) := p.node_queues.filterMap nodePush

/-- A file in the usual order: the nodes, the ways, the relations. -/
structure PlanetFile (blobs : List Blob) (ns : List NodeEntry) (f : OsmFile) : Prop where
  entries : Producer.entriesOf blobs
    = ns.map .node ++ (f.ways.map .way ++ f.relations.map .relation)
  distinct : (ns.map NodeEntry.id).Nodup

namespace Producer

variable {N : ℕ} {σ : Producer} {l : List (ℕ × BlockEntry)}

/-- The nodes go to the queues in turn. -/
lemma foldl_nodes (hN : 0 < N) (hl : ∀ x ∈ l, x.2.isNode = true) (hphase : σ.node_phase = true)
    (hqueue : ∀ x ∈ nodePushes σ, x.1 < N) :
    let σ' := l.foldl (step .nodes N) σ
    σ'.node_phase = true ∧ σ'.way_q = σ.way_q ∧ (∀ x ∈ nodePushes σ', x.1 < N)
      ∧ (nodePushes σ').map (fun x => BlockEntry.node x.2)
        = (nodePushes σ).map (fun x => BlockEntry.node x.2) ++ l.map Prod.snd := by
  induction l generalizing σ with
  | nil => exact ⟨hphase, rfl, hqueue, (List.append_nil _).symm⟩
  | cons x l ih =>
      obtain ⟨hx, hrest⟩ := List.forall_mem_cons.mp hl
      obtain ⟨blob_start, entry⟩ := x
      cases entry with
      | node n =>
          have hstep : step .nodes N σ (blob_start, .node n)
              = { σ with
                node_queues := σ.node_queues ++ [(σ.rr % N, .node n)]
                rr := σ.rr + 1 } := by
            simp [step, producerEntry, hphase, BlockEntry.isNode,
              ImportPhase.resume_skip_node_emit]
          have hpushes : nodePushes (step .nodes N σ (blob_start, .node n))
              = nodePushes σ ++ [(σ.rr % N, n)] := by
            rw [hstep, nodePushes, List.filterMap_append]
            rfl
          have hqueue' : ∀ y ∈ nodePushes (step .nodes N σ (blob_start, .node n)), y.1 < N := by
            rw [hpushes]
            intro y hy
            rcases List.mem_append.mp hy with hy | hy
            · exact hqueue y hy
            · obtain rfl := List.mem_singleton.mp hy
              exact Nat.mod_lt _ hN
          obtain ⟨h1, h2, h3, h4⟩ := ih hrest (by rw [hstep]; exact hphase) hqueue'
          refine ⟨h1, h2.trans (by rw [hstep]), h3, h4.trans ?_⟩
          rw [hpushes]
          simp
      | way item => cases hx
      | relation item => cases hx

/-- Ways and relations go to the way queue. -/
lemma foldl_rest (hl : ∀ x ∈ l, x.2.isNode = false) :
    let σ' := l.foldl (step .nodes N) σ
    nodePushes σ' = nodePushes σ ∧ σ'.way_q = σ.way_q ++ l.map fun x => x.2.toQueueEntry := by
  induction l generalizing σ with
  | nil => exact ⟨rfl, (List.append_nil _).symm⟩
  | cons x l ih =>
      obtain ⟨hx, hrest⟩ := List.forall_mem_cons.mp hl
      obtain ⟨h1, h2⟩ := ih (σ := step .nodes N σ x) hrest
      have hstep : (step .nodes N σ x).node_queues = σ.node_queues
          ∧ (step .nodes N σ x).way_q = σ.way_q ++ [x.2.toQueueEntry] := by
        rw [step, producerEntry, hx, Bool.and_false, if_neg Bool.false_ne_true,
          if_neg (by simp)]
        split <;> split <;> exact ⟨rfl, rfl⟩
      constructor
      · refine h1.trans ?_
        rw [nodePushes, nodePushes, hstep.1]
      · refine h2.trans ?_
        rw [hstep.2, List.append_assoc]
        rfl

/-- **What is pushed of a file.** -/
lemma pushed_of_file (hN : 0 < N) {blobs : List Blob} {ns : List NodeEntry} {f : OsmFile}
    (hfile : PlanetFile blobs ns f) : ∃ full, producer .nodes N blobs .absent = some full
      ∧ full.way_q = fileEntries f ∧ (nodePushes full).map Prod.snd = ns
      ∧ ∀ x ∈ nodePushes full, x.1 < N := by
  have hsplit : (located blobs 0 0).map Prod.snd
      = ns.map .node ++ (f.ways.map .way ++ f.relations.map .relation) :=
    (Chunks.map_snd_located Blob.size Blob.entries blobs 0 0).trans hfile.entries
  obtain ⟨l, l', hl, hnodes, hrest⟩ := List.map_eq_append_iff.mp hsplit
  refine ⟨_, producer_absent N blobs .nodes, ?_⟩
  rw [hl, List.foldl_append]
  have hisNode : ∀ x ∈ l, x.2.isNode = true := by
    intro x hx
    have hmem : x.2 ∈ ns.map BlockEntry.node := hnodes ▸ List.mem_map_of_mem hx
    obtain ⟨n, -, hn⟩ := List.mem_map.mp hmem
    rw [← hn]
    rfl
  have hnotNode : ∀ x ∈ l', x.2.isNode = false := by
    intro x hx
    have hmem : x.2 ∈ f.ways.map BlockEntry.way ++ f.relations.map BlockEntry.relation :=
      hrest ▸ List.mem_map_of_mem hx
    rcases List.mem_append.mp hmem with hmem | hmem
    · obtain ⟨w, -, hw⟩ := List.mem_map.mp hmem
      rw [← hw]
      rfl
    · obtain ⟨r, -, hr⟩ := List.mem_map.mp hmem
      rw [← hr]
      rfl
  obtain ⟨-, hway_q, hqueue, hpushes⟩ := foldl_nodes (σ := start .nodes) hN hisNode rfl
    (fun x hx => absurd hx (by simp [nodePushes, start]))
  obtain ⟨hsame, hentries⟩ := foldl_rest (N := N) (σ := l.foldl (step .nodes N) (start .nodes))
    hnotNode
  refine ⟨?_, ?_, by rw [hsame]; exact hqueue⟩
  · have hqueue : (l'.map fun x => x.2.toQueueEntry)
        = (l'.map Prod.snd).map BlockEntry.toQueueEntry := by
      rw [List.map_map]
      rfl
    rw [hentries, hway_q, hqueue, hrest, fileEntries, OsmFile.entries]
    simp [start, BlockEntry.toQueueEntry, Function.comp_def]
  · have hinj : Function.Injective (List.map BlockEntry.node) :=
      List.map_injective_iff.mpr fun n n' h => BlockEntry.node.inj h
    refine hinj ?_
    rw [hsame, List.map_map, ← hnodes]
    exact hpushes

end Producer

/-! ### The run -/

/-- The thread has returned. -/
def NodeStage.ended : NodeStage → Bool
  | finished => true
  | _ => false

def Stage.ended : Stage → Bool
  | .finished => true
  | _ => false

/-- An import: the node threads with their store, and the way threads with their queue. -/
structure ImportRun (lz : LZ4F) (N T : ℕ) where
  nodes : NodePhase lz N
  ways : WayPhaseRun T

/-- Who moves. -/
inductive ImportActor (N T : ℕ) where
  /-- a node thread, or the producer with the nodes and their queues -/
  | node (a : NodeActor N)
  /-- the producer with the way queue -/
  | producer
  | way (i : Fin T)

namespace ImportRun

variable {lz : LZ4F} {N T : ℕ}

/-- What the way threads see. -/
def wayEnv (σ : ImportRun lz N T) : ImportEnv := ⟨σ.nodes.store.merged.select, N, false⟩

/-- All node threads have returned. -/
def joined (σ : ImportRun lz N T) : Bool := decide (∀ i, (σ.nodes.workers i).stage.ended = true)

/-- The producer waits for the merge before it pushes the first entry that is no node, and
joins the node threads before it shuts the way queue down. -/
def mayPush (σ : ImportRun lz N T) : Bool :=
  match σ.ways.unread with
  | [] => σ.joined
  | _ :: _ => σ.nodes.merge_done

/-- One step. -/
def step (env : NodeEnv) (σ : ImportRun lz N T) : ImportActor N T → Option (ImportRun lz N T)
  | .node a => (σ.nodes.step env a).map fun nodes => { σ with nodes := nodes }
  | .producer =>
      if σ.mayPush then
        (σ.ways.step σ.wayEnv .producer).map fun ways => { σ with ways := ways }
      else none
  | .way i => (σ.ways.step σ.wayEnv (.thread i)).map fun ways => { σ with ways := ways }

/-- A run. -/
def run (env : NodeEnv) (σ : ImportRun lz N T) (moves : List (ImportActor N T)) :
    Option (ImportRun lz N T) := moves.foldlM (step env) σ

/-- The start: empty tables, and the store just created. -/
def start (queue_size : ℤ) (p : Producer) (s : ShardStore lz) : ImportRun lz N T where
  nodes := .start queue_size (nodePushes p) emptyTables s
  ways := .start ⟨s.merged.select, N, false⟩ queue_size p.way_q .empty

/-! ### The merge between the phases -/

open ShardStore

variable {env : NodeEnv} {pushes : List (ℕ × NodeEntry)} {max_id queue_size : ℤ}
  {dir : ShardDir} {s₀ : ShardStore lz} {f : OsmFile} {σ σ' : ImportRun lz N T}
  {a : ImportActor N T}

/-- **The invariant of a run**: no way thread has begun before the merge, and from then on
the way phase has run over one store. -/
structure Sound (env : NodeEnv) (queue_size : ℤ) (pushes : List (ℕ × NodeEntry)) (f : OsmFile)
    (s₀ : ShardStore lz) (σ : ImportRun lz N T) : Prop where
  nodes : σ.nodes.Sound env queue_size pushes emptyTables s₀
  before : σ.nodes.merge_done = false →
    σ.ways = .start σ.wayEnv queue_size (fileEntries f) .empty
  after : σ.nodes.merge_done = true → σ.ways.Carried f σ.wayEnv queue_size

lemma sound_start (hN : 0 < N) (h₀ : openForImport lz dir max_id N = some s₀) {p : Producer}
    (hpushed : Pushed N max_id (nodePushes p)) (hway_q : p.way_q = fileEntries f) :
    (start queue_size p s₀ : ImportRun lz N T).Sound env queue_size (nodePushes p) f s₀ where
  nodes := NodePhase.sound_start hN h₀ hpushed queue_size emptyTables
  before _ := by
    rw [start, hway_q]
    rfl
  after hdone := by cases hdone

/-- Before the merge nothing has been pushed, so no way thread can move. -/
lemma way_of_before (hs : σ.Sound env queue_size pushes f s₀) {i : Fin T} {ways : WayPhaseRun T}
    (h : σ.ways.step σ.wayEnv (.thread i) = some ways) : σ.nodes.merge_done = true := by
  by_contra hno
  have hstart := hs.before (Bool.eq_false_iff.mpr hno)
  rw [hstart, WayPhaseRun.step, if_pos (by rfl)] at h
  cases h

/-- Neither can the producer go on. -/
lemma mayPush_merged (hs : σ.Sound env queue_size pushes f s₀) (hN : 0 < N)
    (h : σ.mayPush = true) : σ.nodes.merge_done = true := by
  rw [mayPush] at h
  split at h
  · have hi := of_decide_eq_true h ⟨0, hN⟩
    refine hs.nodes.arrivals.passed ⟨0, hN⟩ ?_
    cases hstage : (σ.nodes.workers ⟨0, hN⟩).stage with
    | finished => rfl
    | _ =>
        rw [hstage] at hi
        cases hi
  · exact h

/-- **Every step keeps the invariant.** -/
lemma sound_step (hlz : lz.Lossless) (hmax : IsInt64 max_id) (hN : 0 < N)
    (h₀ : openForImport lz dir max_id N = some s₀) (hpushed : Pushed N max_id pushes)
    (hs : σ.Sound env queue_size pushes f s₀) (h : σ.step env a = some σ') :
    σ'.Sound env queue_size pushes f s₀ := by
  cases a with
  | node a =>
      obtain ⟨nodes, hnodes, rfl⟩ := Option.map_eq_some_iff.mp h
      have hmove := NodePhase.move_of_step hnodes
      refine ⟨NodePhase.sound_move hlz hmax h₀ hpushed hs.nodes hmove, fun hbefore => ?_,
        fun hdone => ?_⟩
      · have hno : σ.nodes.merge_done = false := by
          refine Bool.eq_false_iff.mpr fun hdone => ?_
          have hyes := (NodePhase.store_of_merged hs.nodes.arrivals hdone hmove).1
          exact absurd (hbefore.symm.trans hyes) (by simp)
        exact hs.before hno
      · cases hmerged : σ.nodes.merge_done with
        | true =>
            have hstore := (NodePhase.store_of_merged hs.nodes.arrivals hmerged hmove).2
            have henv : wayEnv { σ with nodes := nodes } = σ.wayEnv := by
              rw [wayEnv, wayEnv, hstore]
            rw [henv]
            exact hs.after hmerged
        | false =>
            have hstart := hs.before hmerged
            show WayPhaseRun.Carried f (wayEnv { σ with nodes := nodes }) queue_size σ.ways
            rw [hstart]
            exact WayPhaseRun.carried_start rfl queue_size
  | producer =>
      obtain ⟨hpush, h⟩ := Option.ite_none_right_eq_some.mp h
      obtain ⟨ways, hways, rfl⟩ := Option.map_eq_some_iff.mp h
      have hdone := mayPush_merged hs hN hpush
      refine ⟨hs.nodes, fun hno => absurd (hno.symm.trans hdone) (by simp), fun _ => ?_⟩
      exact WayPhaseRun.carried_step hways (hs.after hdone)
  | way i =>
      obtain ⟨ways, hways, rfl⟩ := Option.map_eq_some_iff.mp h
      have hdone := way_of_before hs hways
      refine ⟨hs.nodes, fun hno => absurd (hno.symm.trans hdone) (by simp), fun _ => ?_⟩
      exact WayPhaseRun.carried_step hways (hs.after hdone)

/-! ### The end -/

/-- The steps a run may still take. -/
def fuel (σ : ImportRun lz N T) : ℕ := σ.nodes.fuel + σ.ways.fuel

/-- **Every step is one less.** -/
lemma fuel_step (hs : σ.Sound env queue_size pushes f s₀) (h : σ.step env a = some σ') :
    σ'.fuel < σ.fuel := by
  have horderly : σ.ways.Orderly := by
    cases hmerged : σ.nodes.merge_done with
    | true => exact (hs.after hmerged).sound.orderly
    | false =>
        rw [hs.before hmerged]
        exact fun hstop => by cases hstop
  cases a with
  | node a =>
      obtain ⟨nodes, hnodes, rfl⟩ := Option.map_eq_some_iff.mp h
      have hfuel := NodePhase.fuel_move (NodePhase.move_of_step hnodes)
      show nodes.fuel + σ.ways.fuel < σ.nodes.fuel + σ.ways.fuel
      omega
  | producer =>
      obtain ⟨-, h⟩ := Option.ite_none_right_eq_some.mp h
      obtain ⟨ways, hways, rfl⟩ := Option.map_eq_some_iff.mp h
      exact Nat.add_lt_add_left (WayPhaseRun.fuel_step hways horderly) _
  | way i =>
      obtain ⟨ways, hways, rfl⟩ := Option.map_eq_some_iff.mp h
      exact Nat.add_lt_add_left (WayPhaseRun.fuel_step hways horderly) _

/-- Nobody can move. -/
def Halted (env : NodeEnv) (σ : ImportRun lz N T) : Prop := ∀ a, σ.step env a = none

/-- Where nobody can move, nobody can in either phase. -/
lemma halted_parts (hlz : lz.Lossless) (hmax : IsInt64 max_id) (hN : 0 < N)
    (h₀ : openForImport lz dir max_id N = some s₀) (hpushed : Pushed N max_id pushes)
    (hids : NodePhase.Distinct env pushes emptyTables) (hsize : 0 < queue_size)
    (hs : σ.Sound env queue_size pushes f s₀) (h : σ.Halted env) :
    σ.joined = true ∧ σ.nodes.merge_done = true ∧ σ.ways.Halted σ.wayEnv := by
  have hnodes : σ.nodes.Halted env := fun a => Option.map_eq_none_iff.mp (h (.node a))
  have hfin := NodePhase.finished_of_halted hlz hmax h₀ hpushed hids hsize hs.nodes hnodes
  have hdone := hs.nodes.arrivals.passed ⟨0, hN⟩ (hfin _)
  have hjoined : σ.joined = true := decide_eq_true fun i => by
    rw [hfin i]
    rfl
  have hpush : σ.mayPush = true := by
    rw [mayPush]
    split
    · exact hjoined
    · exact hdone
  refine ⟨hjoined, hdone, fun a => ?_⟩
  cases a with
  | producer =>
      have hproducer := h .producer
      rw [step, if_pos hpush] at hproducer
      exact Option.map_eq_none_iff.mp hproducer
  | thread i => exact Option.map_eq_none_iff.mp (h (.way i))

/-- All is read, the queues are shut down, and all threads have returned. -/
def ended (σ : ImportRun lz N T) : Bool :=
  σ.nodes.unread.isEmpty && σ.nodes.shut && σ.joined && σ.ways.unread.isEmpty
    && σ.ways.way_q.stop
    && decide (∀ i, (σ.ways.threads i).stage.ended = true ∧ (σ.ways.threads i).jobs.isEmpty = true)

/-- Then nobody can move. -/
lemma halted_of_ended (h : σ.ended = true) : σ.Halted env := by
  simp only [ended, Bool.and_eq_true, List.isEmpty_iff, decide_eq_true_eq] at h
  obtain ⟨⟨⟨⟨⟨hunread, hshut⟩, hjoined⟩, hread⟩, hstop⟩, hways⟩ := h
  intro a
  cases a with
  | node a =>
      refine Option.map_eq_none_iff.mpr ?_
      cases a with
      | push => simp [NodePhase.step, hunread]
      | shutdown => simp [NodePhase.step, hshut]
      | thread i fuel =>
          have hi := of_decide_eq_true hjoined i
          rw [NodePhase.step, NodePhase.threadStep]
          cases hstage : (σ.nodes.workers i).stage with
          | finished => rfl
          | _ =>
              rw [hstage] at hi
              cases hi
  | producer => simp [step, WayPhaseRun.step, hread, hstop]
  | way i =>
      obtain ⟨hended, hjobs⟩ := hways i
      refine Option.map_eq_none_iff.mpr ?_
      cases hstage : (σ.ways.threads i).stage with
      | finished =>
          simp [WayPhaseRun.step, WayThread.popping, WayPhaseRun.workers, ImportState.step, hstage,
            hjobs]
      | _ =>
          rw [hstage] at hended
          cases hended

/-! ### What an import leaves -/

/-- The nodes of a file, by their ids. -/
def nodeMap (env : NodeEnv) (ns : List NodeEntry) (id : ℤ) : Option Coord :=
  (ns.find? fun n => n.id == id).map env.coord

/-- With an id for each node, the order of the records makes no difference. -/
lemma lastInsert_eq_nodeMap {ns : List NodeEntry} (hnd : (ns.map NodeEntry.id).Nodup)
    {rs : List NodeRecord} (hmem : ∀ r, r ∈ rs ↔ r ∈ ns.map env.record) (id : ℤ) :
    lastInsert rs id = nodeMap env ns id := by
  cases hfind : ns.find? fun n => n.id == id with
  | none =>
      rw [nodeMap, hfind]
      refine lastInsert_eq_none.mpr fun r hr => ?_
      obtain ⟨n, hn, rfl⟩ := List.mem_map.mp ((hmem r).mp hr)
      show n.id ≠ id
      simpa using List.find?_eq_none.mp hfind n hn
  | some n =>
      have hid : n.id = id := by simpa using List.find?_some hfind
      have hn : n ∈ ns := List.mem_of_find?_eq_some hfind
      rw [nodeMap, hfind]
      cases hlast : lastInsert rs id with
      | none =>
          have hrec := (hmem _).mpr (List.mem_map_of_mem (f := env.record) hn)
          exact absurd hid (lastInsert_eq_none.mp hlast _ hrec)
      | some c =>
          obtain ⟨pre, r, post, rfl, hr, rfl, -⟩ := lastInsert_eq_some hlast
          obtain ⟨n', hn', rfl⟩ := List.mem_map.mp ((hmem r).mp (by simp))
          obtain rfl := List.inj_on_of_nodup_map hnd hn' hn (hr.trans hid.symm)
          rfl

/-- The records of the shards are those of the file. -/
lemma mem_shardRecords (hqueue : ∀ x ∈ pushes, x.1 < N) (r : NodeRecord) :
    r ∈ (List.range N).flatMap (env.shardRecords pushes)
      ↔ r ∈ (pushes.map Prod.snd).map env.record := by
  simp only [List.mem_flatMap, List.mem_range, NodeEnv.shardRecords, List.mem_map, mem_nodesFor]
  constructor
  · rintro ⟨j, -, n, hn, rfl⟩
    exact ⟨n, ⟨_, hn, rfl⟩, rfl⟩
  · rintro ⟨n, ⟨x, hx, rfl⟩, rfl⟩
    exact ⟨x.1, hqueue x hx, x.2, hx, rfl⟩

/-- The rows of different nodes have different ids. -/
lemma distinct_rowsFor {ns : List NodeEntry} (hnd : (ns.map NodeEntry.id).Nodup)
    (hns : pushes.map Prod.snd = ns) : NodePhase.Distinct env pushes emptyTables := by
  have hids : (env.rowsFor ns).map Row.id
      = (ns.filter fun n => hasSurvivingTag n.tags true).map NodeEntry.id := by
    rw [NodeEnv.rowsFor, List.map_map]
    rfl
  rw [NodePhase.Distinct, hns, List.map_append, hids]
  exact (List.filter_sublist.map NodeEntry.id).nodup hnd

/-- What an import leaves of a file: the store and the tables. -/
structure Imported (env : NodeEnv) (ns : List NodeEntry) (f : OsmFile) (σ : ImportRun lz N T) :
    Prop where
  select : ∀ id, IsInt64 id → σ.nodes.store.merged.select id = nodeMap env ns id
  rows : (σ.nodes.tables.rows .nodes).Perm (env.rowsFor ns)
  tags : (σ.nodes.tables.tags .nodes).Perm (tagsFor ns)
  tables : SameTables σ.ways.db (.ofKept (f.kept (nodeMap env ns)))

section Files

variable {blobs : List Blob} {ns : List NodeEntry} {full : Producer}
  {moves : List (ImportActor N T)}

/-- The invariant of a run over the pushes of a file. -/
lemma sound_run (hlz : lz.Lossless) (hmax : IsInt64 max_id) (hN : 0 < N)
    (h₀ : openForImport lz dir max_id N = some s₀) (hpushed : Pushed N max_id (nodePushes full))
    (hway_q : full.way_q = fileEntries f)
    (hrun : (start queue_size full s₀).run env moves = some σ) :
    σ.Sound env queue_size (nodePushes full) f s₀ :=
  foldlM_invariant (I := fun σ : ImportRun lz N T =>
    σ.Sound env queue_size (nodePushes full) f s₀)
    (fun _ _ _ hI hstep => sound_step hlz hmax hN h₀ hpushed hI hstep)
    (sound_start hN h₀ hpushed hway_q) hrun

/-- After the merge the store has the nodes of the file. -/
lemma select_of_merged (hs : σ.Sound env queue_size (nodePushes full) f s₀)
    (hdistinct : (ns.map NodeEntry.id).Nodup) (hns : (nodePushes full).map Prod.snd = ns)
    (hqueue : ∀ x ∈ nodePushes full, x.1 < N) (hdone : σ.nodes.merge_done = true) (id : ℤ)
    (hid : IsInt64 id) : σ.nodes.store.merged.select id = nodeMap env ns id := by
  rw [hs.nodes.recorded.after hdone id hid]
  exact lastInsert_eq_nodeMap hdistinct (hns ▸ mem_shardRecords hqueue) id

/-- **Where nobody can move**, the import is done. -/
lemma imported_of_halted (hlz : lz.Lossless) (hmax : IsInt64 max_id) (hN : 0 < N) (hT : 0 < T)
    (hsize : 0 < queue_size) (h₀ : openForImport lz dir max_id N = some s₀)
    (hfile : PlanetFile blobs ns f) (hrange : ∀ n ∈ ns, 0 ≤ n.id ∧ n.id ≤ max_id)
    (hrefs : ∀ w ∈ f.ways, ∀ ref ∈ w.node_refs, IsInt64 ref)
    (hfull : Producer.producer .nodes N blobs .absent = some full)
    (hrun : (start queue_size full s₀).run env moves = some σ) (hhalt : σ.Halted env) :
    ((∀ i, (σ.nodes.workers i).stage = .finished)
        ∧ ∀ i, (σ.ways.threads i).stage = .finished ∧ (σ.ways.threads i).jobs = [])
      ∧ Imported env ns f σ := by
  obtain ⟨full', hfull', hway_q, hns, hqueue⟩ := Producer.pushed_of_file hN hfile
  obtain rfl := Option.some.inj (hfull'.symm.trans hfull)
  have hpushed : Pushed N max_id (nodePushes full') :=
    ⟨hqueue, fun x hx => hrange _ (hns ▸ List.mem_map_of_mem hx)⟩
  have hids : NodePhase.Distinct env (nodePushes full') emptyTables :=
    distinct_rowsFor hfile.distinct hns
  have hs := sound_run hlz hmax hN h₀ hpushed hway_q hrun
  obtain ⟨-, hdone, hways⟩ := halted_parts hlz hmax hN h₀ hpushed hids hsize hs hhalt
  have hselect := select_of_merged hs hfile.distinct hns hqueue hdone
  obtain ⟨hrows, htags⟩ := hs.nodes.delivered hdone
  obtain ⟨hfin, htables⟩ := WayPhaseRun.tables_of_halted rfl hT hsize (hs.after hdone) hways
  have hkept : f.kept σ.wayEnv.select = f.kept (nodeMap env ns) :=
    OsmFile.kept_congr fun w hw ref href => hselect ref (hrefs w hw ref href)
  rw [hns] at hrows htags
  rw [hkept] at htables
  refine ⟨⟨?_, hfin⟩, hselect, hrows, htags, htables⟩
  exact NodePhase.finished_of_halted hlz hmax h₀ hpushed hids hsize hs.nodes fun a =>
    Option.map_eq_none_iff.mp (hhalt (.node a))

end Files

/-- **A full import.**  Let a file hold its nodes, ways and relations in this order, each
node under an id of its own and in range.  Any number of node threads and way threads runs
in any order.  Where a way thread moves, the store has all nodes of the file and no others.
Every run comes to an end, and where nobody can move all threads have finished, and the
store and the tables, tag tables included, are those of the file. -/
theorem full_import (hlz : lz.Lossless) (hmax : IsInt64 max_id) (hN : 0 < N) (hT : 0 < T)
    (hsize : 0 < queue_size) (h₀ : openForImport lz dir max_id N = some s₀) {blobs : List Blob}
    {ns : List NodeEntry} (hfile : PlanetFile blobs ns f)
    (hrange : ∀ n ∈ ns, 0 ≤ n.id ∧ n.id ≤ max_id)
    (hrefs : ∀ w ∈ f.ways, ∀ ref ∈ w.node_refs, IsInt64 ref) :
    ∃ full, Producer.producer .nodes N blobs .absent = some full
      ∧ ∀ moves (σ : ImportRun lz N T), (start queue_size full s₀).run env moves = some σ →
        moves.length ≤ (start queue_size full s₀ : ImportRun lz N T).fuel
        ∧ (∀ i, (σ.step env (.way i)).isSome →
          ∀ id, IsInt64 id → σ.nodes.store.merged.select id = nodeMap env ns id)
        ∧ (σ.Halted env →
          ((∀ i, (σ.nodes.workers i).stage = .finished)
            ∧ ∀ i, (σ.ways.threads i).stage = .finished ∧ (σ.ways.threads i).jobs = [])
          ∧ (∀ id, IsInt64 id → σ.nodes.store.merged.select id = nodeMap env ns id)
          ∧ (σ.nodes.tables.rows .nodes).Perm (env.rowsFor ns)
          ∧ (σ.nodes.tables.tags .nodes).Perm (tagsFor ns)
          ∧ SameTables σ.ways.db (.ofKept (f.kept (nodeMap env ns)))) := by
  obtain ⟨full, hfull, hway_q, hns, hqueue⟩ := Producer.pushed_of_file hN hfile
  refine ⟨full, hfull, fun moves σ hrun => ?_⟩
  have hpushed : Pushed N max_id (nodePushes full) :=
    ⟨hqueue, fun x hx => hrange _ (hns ▸ List.mem_map_of_mem hx)⟩
  have hs := sound_run hlz hmax hN h₀ hpushed hway_q hrun
  refine ⟨?_, fun i hsome => ?_, fun hhalt => ?_⟩
  · have hlen := foldlM_length_le (I := fun σ : ImportRun lz N T =>
      σ.Sound env queue_size (nodePushes full) f s₀) (μ := fuel)
      (fun _ _ _ hI hstep => ⟨sound_step hlz hmax hN h₀ hpushed hI hstep, fuel_step hI hstep⟩)
      (sound_start hN h₀ hpushed hway_q) hrun
    exact (Nat.le_add_right ..).trans hlen
  · obtain ⟨σ', hσ'⟩ := Option.isSome_iff_exists.mp hsome
    obtain ⟨ways, hways, -⟩ := Option.map_eq_some_iff.mp hσ'
    exact select_of_merged hs hfile.distinct hns hqueue (way_of_before hs hways)
  · obtain ⟨hfin, hdone⟩ := imported_of_halted hlz hmax hN hT hsize h₀ hfile hrange hrefs hfull
      hrun hhalt
    exact ⟨hfin, hdone.select, hdone.rows, hdone.tags, hdone.tables⟩

/-! ### A road -/

/-- The nodes of a road, the first one a town. -/
def roadNodes : List NodeEntry :=
  [⟨1, [], .single (ascii "place") (ascii "town"), 0, 0⟩, ⟨2, [], .empty, 0, 1⟩,
    ⟨3, [], .empty, 1, 1⟩]

/-- A header, the nodes, and a blob with the way and the route. -/
def roadBlobs : List Blob :=
  [⟨31, by decide, none⟩, ⟨211, by decide, some (roadNodes.map .node)⟩,
    ⟨83, by decide, some (ImportState.roadFile.ways.map .way
      ++ ImportState.roadFile.relations.map .relation)⟩]

/-- Two node threads, the second of which is the last to arrive, and a way thread. -/
def roadRun (a b : Fin 2) (w : Fin 1) : List (ImportActor 2 1) :=
  let turns : List (ℕ × ImportActor 2 1) :=
    [(3, .node .push), (1, .node .shutdown), (8, .node (.thread a 0)), (5, .node (.thread b 0)),
      (1, .node (.thread a 0)), (1, .node (.thread b 300)), (1, .node (.thread a 0)),
      (1, .node (.thread b 0)), (3, .producer), (13, .way w)]
  turns.flatMap fun x => List.replicate x.1 x.2

lemma planetFile_road : PlanetFile roadBlobs roadNodes ImportState.roadFile := ⟨rfl, by decide⟩

theorem full_import_road : ∃ s₀, openForImport tagged .empty 10 2 = some s₀
    ∧ ∃ full, Producer.producer .nodes 2 roadBlobs .absent = some full
    ∧ ∃ σ, (start 5 full s₀ : ImportRun tagged 2 1).run ⟨mercatorAt, false⟩ (roadRun 0 1 0) = some σ
      ∧ SameTables σ.ways.db (.ofKept (ImportState.roadFile.kept
        (nodeMap ⟨mercatorAt, false⟩ roadNodes))) := by
  have heval : (do
      let s₀ ← openForImport tagged .empty 10 2
      let full ← Producer.producer .nodes 2 roadBlobs .absent
      let σ ← (start 5 full s₀ : ImportRun tagged 2 1).run ⟨mercatorAt, false⟩ (roadRun 0 1 0)
      some σ.ended) = some true := by
    decide +kernel
  simp only [Option.bind_eq_bind, Option.bind_eq_some_iff] at heval
  obtain ⟨s₀, h₀, full, hfull, σ, hrun, hended⟩ := heval
  have hone : 0 < 1 := one_pos
  have hsize : (0 : ℤ) < 5 := by decide
  obtain ⟨full', hfull', h⟩ := full_import tagged_lossless (by decide) (by decide) hone hsize
    h₀ planetFile_road (by decide) (by decide)
  obtain rfl := Option.some.inj (hfull'.symm.trans hfull)
  exact ⟨s₀, h₀, full', hfull, σ, hrun,
    ((h (roadRun 0 1 0) σ hrun).2.2 (halted_of_ended (Option.some.inj hended))).2.2.2.2⟩

end ImportRun

end Gpsxdb
