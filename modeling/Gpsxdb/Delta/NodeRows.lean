import Mathlib.Tactic
import Gpsxdb.Delta.RegionalDeltaApplier

/-!
The row of a node as the bulk import writes it, and as a delta does.

* `NodeThread`, `insertNode`, `flushNodes`, `nodeThread`: the node threads'
  buffers and their turns; `rows_nodeThread`: a thread leaves the rows of the
  nodes worth keeping, in order;
* `nodeThreadRow`: its row, whose point is built from the stored coordinates;
* `updateNodeRow_eq_iff`, `node_row_agrees_iff`: **when the rows agree**.
-/

namespace Gpsxdb

/-! ### The import -/

/-- `NODE_BUFFER_SIZE`. -/
def NODE_BUFFER_SIZE : ℕ := 20000

/-- A node thread between two entries: the tables and its buffers. -/
structure NodeThread where
  db : TargetTables Content
  node_buf : List (Row Content)
  tag_buf : List TagRecord

/-- The row of `nodeThread`: coordinates projected unless `-L` is given, and the
point built from them. -/
def nodeThreadRow (p : Projection) (use_mercator : Bool) (n : NodeEntry) : Row Content :=
  let c := if use_mercator then p.toMercator n.lon n.lat else ⟨n.lon, n.lat⟩
  ⟨n.id, .node n.name c.lon_m c.lat_m (pointWKB p.g_srid c.lon_m c.lat_m)⟩

namespace NodeThread

/-- `finalize_tags("node")`. -/
def finalizeTags (th : NodeThread) : NodeThread :=
  { th with
    db := { th.db with
      tags := Function.update th.db.tags .nodes (th.db.tags .nodes ++ th.tag_buf) }
    tag_buf := [] }

/-- `flushNodes`. -/
def flushNodes (th : NodeThread) : NodeThread :=
  if th.node_buf = [] then th
  else finalizeTags { th with
    db := { th.db with
      rows := Function.update th.db.rows .nodes (th.db.rows .nodes ++ th.node_buf) }
    node_buf := [] }

/-- `insertNode`. -/
def insertNode (th : NodeThread) (r : Row Content) (tags : Tags) : NodeThread :=
  if !hasSurvivingTag tags true then th
  else
    let th := { th with
      tag_buf := th.tag_buf ++ keptTags r.id tags true
      node_buf := th.node_buf ++ [r] }
    if NODE_BUFFER_SIZE ≤ th.node_buf.length then th.flushNodes else th

end NodeThread

/-- `nodeThread` over its queue, as far as the tables go. -/
def nodeThread (p : Projection) (use_mercator : Bool) (d : TargetTables Content)
    (my_q : List NodeEntry) : TargetTables Content :=
  (my_q.foldl (fun (th : NodeThread) n => th.insertNode (nodeThreadRow p use_mercator n) n.tags)
    ⟨d, [], []⟩).flushNodes.finalizeTags.db

namespace NodeThread

/-- The rows of `nodes`, those still buffered included. -/
def nodeRows (th : NodeThread) : List (Row Content) := th.db.rows .nodes ++ th.node_buf

lemma nodeRows_flushNodes (th : NodeThread) : th.flushNodes.nodeRows = th.nodeRows := by
  rw [flushNodes]
  split
  · rfl
  · simp [nodeRows, finalizeTags]

lemma nodeRows_insertNode (th : NodeThread) (r : Row Content) (tags : Tags) :
    (th.insertNode r tags).nodeRows
      = th.nodeRows ++ if hasSurvivingTag tags true then [r] else [] := by
  rw [insertNode]
  by_cases h : hasSurvivingTag tags true = true
  · simp only [h, Bool.not_true, Bool.false_eq_true, if_false, if_true]
    split
    · rw [nodeRows_flushNodes]
      simp [nodeRows]
    · simp [nodeRows]
  · simp [h]

/-- A flush leaves no row in the buffer. -/
lemma rows_flushNodes (th : NodeThread) : th.flushNodes.db.rows .nodes = th.nodeRows := by
  rw [flushNodes]
  split
  · simp [nodeRows, ‹th.node_buf = []›]
  · simp [nodeRows, finalizeTags]

end NodeThread

/-- **A node thread** leaves the rows of the nodes worth keeping, in order. -/
theorem rows_nodeThread (p : Projection) (use_mercator : Bool) (d : TargetTables Content)
    (my_q : List NodeEntry) : (nodeThread p use_mercator d my_q).rows .nodes
      = d.rows .nodes ++ (my_q.filter fun n => hasSurvivingTag n.tags true).map
          (nodeThreadRow p use_mercator) := by
  have hrun : ∀ th : NodeThread,
      (my_q.foldl (fun th n => th.insertNode (nodeThreadRow p use_mercator n) n.tags) th).nodeRows
        = th.nodeRows ++ (my_q.filter fun n => hasSurvivingTag n.tags true).map
          (nodeThreadRow p use_mercator) := by
    induction my_q with
    | nil => simp
    | cons n my_q ih =>
        intro th
        rw [List.foldl_cons, ih, NodeThread.nodeRows_insertNode, List.filter_cons]
        split <;> simp
  have h := hrun ⟨d, [], []⟩
  rw [← NodeThread.rows_flushNodes] at h
  rw [nodeThread]
  exact h.trans (by simp [NodeThread.nodeRows])

/-! ### The delta -/

/-- A node without tags has none that survives. -/
lemma hasSurvivingTag_of_nil {tags : Tags} (h : tags.entries = []) (is_node : Bool) :
    hasSurvivingTag tags is_node = false := by
  simp [hasSurvivingTag, h]

/-- **The rows `DeltaApplier` leaves** for a node created or modified, in a table
without rows. -/
lemma rows_apply_node {s : DeltaState} (hs : s.tables.rows .nodes = []) (p : Projection)
    {type : ChangeType} (htype : type ≠ .delete) (n : NodeEntry) :
    (s.apply p (.node type n)).tables.rows .nodes
      = if hasSurvivingTag n.tags true then [p.updateNodeRow n] else [] := by
  cases type with
  | create =>
      simp only [DeltaState.apply, calls, createNode]
      split
      · simp [DeltaState.exec, hs, hasSurvivingTag_of_nil ‹n.tags.entries = []›]
      · exact TargetTables.rows_upsertEntity_of_nil hs ..
  | modify => exact TargetTables.rows_upsertEntity_of_nil hs ..
  | delete => exact absurd rfl htype

/-- The rows `RegionalDeltaApplier` leaves for a node of the region. -/
lemma rows_regional_apply_node {σ : RegionalApplier} (hσ : σ.tables.rows .nodes = [])
    {env : RegionalEnv} {type : ChangeType} (htype : type ≠ .delete) {n : NodeEntry}
    (hin : env.nodeInRegion (env.projection.toMercator n.lon n.lat) = true) :
    (σ.apply env (.node type n)).tables.rows .nodes
      = if hasSurvivingTag n.tags true then [env.projection.updateNodeRow n] else [] := by
  cases type with
  | create =>
      simp only [RegionalApplier.apply, RegionalApplier.createNode, hin]
      split
      · simp [hσ, hasSurvivingTag_of_nil ‹n.tags.entries = []›]
      · exact TargetTables.rows_upsertEntity_of_nil hσ ..
  | modify =>
      simp only [RegionalApplier.apply, RegionalApplier.modifyNode, hin]
      exact TargetTables.rows_upsertEntity_of_nil hσ ..
  | delete => exact absurd rfl htype

/-! ### Agreement -/

/-- The two rows agree exactly where the projection leaves the point alone. -/
lemma updateNodeRow_eq_iff (p : Projection) (n : NodeEntry) :
    p.updateNodeRow n = nodeThreadRow p true n ↔ p.toMercator n.lon n.lat = ⟨n.lon, n.lat⟩ := by
  simp only [Projection.updateNodeRow, nodeThreadRow, if_true, Row.mk.injEq, Content.node.injEq,
    true_and]
  constructor
  · intro h
    obtain ⟨-, hx, hy⟩ := pointWKB_inj h
    exact congrArg₂ Coord.mk hx.symm hy.symm
  · intro h
    rw [h]

/-- **Delta and import agree on a node's row** exactly where there is none, or
where the projection leaves its point alone. -/
theorem node_row_agrees_iff (toMercator : Double → Double → Coord) (n : NodeEntry)
    (type : ChangeType) (htype : type ≠ .delete)
    (s : DeltaState) (hs : s.tables.rows .nodes = [])
    (env : RegionalEnv) (henv : env.projection = ⟨toMercator, 3857⟩)
    (hin : env.nodeInRegion (toMercator n.lon n.lat) = true)
    (σ : RegionalApplier) (hσ : σ.tables.rows .nodes = [])
    (d : TargetTables Content) (hd : d.rows .nodes = []) :
    ((s.apply ⟨toMercator, 3857⟩ (.node type n)).tables.rows .nodes
        = (nodeThread ⟨toMercator, 3857⟩ true d [n]).rows .nodes
      ↔ hasSurvivingTag n.tags true = false ∨ toMercator n.lon n.lat = ⟨n.lon, n.lat⟩)
    ∧ ((σ.apply env (.node type n)).tables.rows .nodes
        = (nodeThread ⟨toMercator, 3857⟩ true d [n]).rows .nodes
      ↔ hasSurvivingTag n.tags true = false ∨ toMercator n.lon n.lat = ⟨n.lon, n.lat⟩) := by
  have hagree : (if hasSurvivingTag n.tags true then
        [(⟨toMercator, 3857⟩ : Projection).updateNodeRow n] else [])
      = (nodeThread ⟨toMercator, 3857⟩ true d [n]).rows .nodes
      ↔ hasSurvivingTag n.tags true = false ∨ toMercator n.lon n.lat = ⟨n.lon, n.lat⟩ := by
    rw [rows_nodeThread, hd, List.nil_append, ← updateNodeRow_eq_iff ⟨toMercator, 3857⟩ n]
    by_cases h : hasSurvivingTag n.tags true = true <;> simp [h]
  refine ⟨?_, ?_⟩
  · rw [rows_apply_node hs _ htype]
    exact hagree
  · rw [rows_regional_apply_node hσ htype (by rw [henv]; exact hin), henv]
    exact hagree

/-! ### A peak -/

/-- A projection that is right at 10°E 50°N. -/
def mercatorAt : Projection := ⟨fun _ _ => ⟨0x4130fc6ae86e479f, 0x41589730f5d339a1⟩, 3857⟩

/-- A peak at 10°E 50°N. -/
def peakNode : NodeEntry :=
  ⟨1, [], .single (ascii "natural") (ascii "peak"), 0x4024000000000000, 0x4049000000000000⟩

/-- Tables without rows. -/
def emptyTables : TargetTables Content := ⟨fun _ => [], fun _ => []⟩

theorem node_row_agrees_iff_peak :
    ((DeltaState.mk (fun _ => none) emptyTables).apply mercatorAt
        (.node .modify peakNode)).tables.rows .nodes
      ≠ (nodeThread mercatorAt true emptyTables [peakNode]).rows .nodes := by
  have h := (node_row_agrees_iff mercatorAt.toMercator peakNode .modify (by decide)
    ⟨fun _ => none, emptyTables⟩ rfl ⟨mercatorAt, ⟨[], .nil⟩, fun _ => true, fun _ => true⟩ rfl rfl
    (.start emptyTables) rfl emptyTables rfl).1
  exact fun heq => absurd (h.mp heq) (by decide)

/-- The point of the row a delta leaves is not that of its coordinates. -/
theorem peak_row_differs :
    ((DeltaState.mk (fun _ => none) emptyTables).apply mercatorAt
        (.node .create peakNode)).tables.rows .nodes
      ≠ (nodeThread mercatorAt true emptyTables [peakNode]).rows .nodes
    ∧ ((DeltaState.mk (fun _ => none) emptyTables).apply mercatorAt
        (.node .create peakNode)).tables.rows .nodes
      = [⟨1, .node [] 0x4130fc6ae86e479f 0x41589730f5d339a1
        (pointWKB 3857 0x4024000000000000 0x4049000000000000)⟩] := by
  decide

end Gpsxdb
