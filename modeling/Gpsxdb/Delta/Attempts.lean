import Mathlib.Tactic
import Gpsxdb.Delta.Replay

/-!
A diff that is attempted any number of times before it goes through.

* `DeltaState.Agrees`: the same node store, and the same rows and tag values cell by
  cell; `Agrees.exec`: a call keeps it; `Agrees.calls`: a change makes the same calls;
* `Replayable`: the diffs that survive an interruption;
* `attempted`: a diff begun several times; `diffCalls_attempted`: it makes the same
  calls each time;
* `Replayable.replay`: **a replay** ends as the first attempt would have, cell by cell;
* `replayable_of_tagsApart`: a condition on the changes alone.
-/

namespace Gpsxdb

/-! ### Cell by cell -/

namespace DeltaState

/-- The same node store, and the same rows and tag values cell by cell. -/
structure Agrees (s s' : DeltaState) : Prop where
  nodes : s.nodes = s'.nodes
  rowAt : ∀ t id, s.tables.rowAt t id = s'.tables.rowAt t id
  valuesOf : ∀ t id key, valuesOf (s.tables.tags t) id key = valuesOf (s'.tables.tags t) id key

variable {s s' s'' : DeltaState} {p : Projection}

lemma Agrees.refl (s : DeltaState) : s.Agrees s := ⟨rfl, fun _ _ => rfl, fun _ _ _ => rfl⟩

lemma Agrees.trans (h : s.Agrees s') (h' : s'.Agrees s'') : s.Agrees s'' :=
  ⟨h.nodes.trans h'.nodes, fun t id => (h.rowAt t id).trans (h'.rowAt t id),
    fun t id key => (h.valuesOf t id key).trans (h'.valuesOf t id key)⟩

/-- Cell by cell is all there is, up to the order of rows. -/
lemma Agrees.sameContents (h : s.Agrees s') (hs : s.tables.Keyed) (hs' : s'.tables.Keyed) :
    SameContents s s' :=
  ⟨h.nodes, fun t => hs.perm_rows hs' (h.rowAt t),
    fun t => perm_tags_iff.mpr fun id key => .of_eq (h.valuesOf t id key)⟩

/-- A call acts on each cell by itself. -/
lemma Agrees.exec (h : s.Agrees s') (call : DeltaCall) : (s.exec call).Agrees (s'.exec call) := by
  refine ⟨funext fun id => ?_, fun t id => ?_, fun t id key => ?_⟩
  · rw [nodes_exec, nodes_exec, h.nodes]
  · rw [rowAt_exec, rowAt_exec, h.rowAt]
  · rw [valuesOf_exec, valuesOf_exec, h.valuesOf]

/-- A change makes the same calls where the cells are the same. -/
lemma Agrees.calls (h : s.Agrees s') (p : Projection) (c : OSCChange) :
    calls p s.nodes s.tables c = calls p s'.nodes s'.tables c :=
  calls_congr (fun _ => h.nodes) fun _ => funext fun id => by
    rw [TargetTables.getWay_eq, TargetTables.getWay_eq, h.rowAt, h.rowAt]

/-- Changes keep the ids a primary key. -/
lemma keyed_run (h : s.tables.Keyed) (p : Projection) (cs : List OSCChange) :
    (s.run p cs).tables.Keyed := by
  rw [run_eq_execAll]
  exact keyed_execAll h _

end DeltaState

/-! ### Attempts -/

/-- A diff that survives an interruption: nodes before ways before relations, and an
entity that is brought several tags under one cleaned key loses all of them as well. -/
structure Replayable (p : Projection) (s : DeltaState) (diff : List OSCChange) : Prop where
  ordered : Ordered diff
  cleared : ∀ t id key, AddsTag (diffCalls p s diff) t id key
    → ClearsTag (diffCalls p s diff) t id key

/-- A diff begun once for each number, and broken off behind so many of its calls. -/
def attempted (p : Projection) (s : DeltaState) (diff : List OSCChange) (ks : List ℕ) :
    DeltaState :=
  attempts DeltaState.exec (diffCalls p s diff) s ks

section

variable {p : Projection} {s : DeltaState} {diff : List OSCChange}

/-- Every attempt is at the same calls. -/
lemma diffCalls_attempted (hord : Ordered diff) (ks : List ℕ) :
    diffCalls p (attempted p s diff ks) diff = diffCalls p s diff := by
  have hgen : ∀ (ks : List ℕ) (s' : DeltaState), diffCalls p s' diff = diffCalls p s diff →
      diffCalls p (attempts DeltaState.exec (diffCalls p s diff) s' ks) diff
        = diffCalls p s diff := by
    intro ks
    induction ks with
    | nil => exact fun s' h => h
    | cons k ks ih =>
        intro s' h
        have hnext : diffCalls p (s'.execAll ((diffCalls p s' diff).take k)) diff
            = diffCalls p s' diff := diffCalls_replay hord k
        rw [h] at hnext
        exact ih _ hnext
  exact hgen ks s rfl

/-- One replay, cell by cell. -/
lemma Replayable.replay {calls : List DeltaCall}
    (h : ∀ t id key, AddsTag calls t id key → ClearsTag calls t id key) (s : DeltaState) (k : ℕ) :
    ((s.execAll (calls.take k)).execAll calls).Agrees (s.execAll calls) := by
  refine ⟨funext fun id => ?_, fun t id => ?_, fun t id key => ?_⟩
  · rw [DeltaState.nodes_execAll, DeltaState.nodes_execAll, DeltaState.nodes_execAll,
      List.map_take]
    exact runWrites_replay (fun w hw hne => ⟨w, List.mem_of_mem_take hw, hne⟩) _
  · rw [DeltaState.rowAt_execAll, DeltaState.rowAt_execAll, DeltaState.rowAt_execAll,
      List.map_take]
    exact runWrites_replay (fun w hw hne => ⟨w, List.mem_of_mem_take hw, hne⟩) _
  · rw [DeltaState.valuesOf_execAll, DeltaState.valuesOf_execAll, DeltaState.valuesOf_execAll,
      List.map_take]
    refine runBag_take_replay ?_ k _
    rw [tagOp_eq_clear, tagOp_eq_put, ← imp_iff_or_not]
    exact h t id key

lemma keyed_attempted (h : s.tables.Keyed) (ks : List ℕ) :
    (attempted p s diff ks).tables.Keyed := by
  have hgen : ∀ (ks : List ℕ) (s' : DeltaState), s'.tables.Keyed →
      (attempts DeltaState.exec (diffCalls p s diff) s' ks).tables.Keyed := by
    intro ks
    induction ks with
    | nil => exact fun s' h => h
    | cons k ks ih => exact fun s' h => ih _ (DeltaState.keyed_execAll h _)
  exact hgen ks s h

end

/-! ### Tags that stay apart -/

/-- The tags a change brings. -/
def OSCChange.tags : OSCChange → Tags
  | node _ n => n.tags
  | way _ w => w.tags
  | relation _ r => r.tags

/-- No two of its tags clean to one key. -/
def OSCChange.TagsApart (c : OSCChange) : Prop :=
  ∀ is_node key, (valuesFor c.tags is_node key).length ≤ 1

section

variable {p : Projection} {s : DeltaState} {t : OsmTable} {r : Row Content} {tags : Tags}

/-- An upsert brings the tags of its change. -/
lemma tags_of_mem_calls {select : ℤ → Option Coord} {d : TargetTables Content} {c : OSCChange}
    (h : .upsert t r tags ∈ calls p select d c) : tags = c.tags := by
  cases c with
  | node type n =>
      cases type with
      | create =>
          simp only [calls, createNode] at h
          split at h
          · simp at h
          · exact (by simpa using h : t = _ ∧ r = _ ∧ tags = n.tags).2.2
      | modify => exact (by simpa [calls, modifyNode] using h : t = _ ∧ r = _ ∧ tags = n.tags).2.2
      | delete => simp [calls, deleteNode] at h
  | way type w =>
      have hup : .upsert t r tags ∈ upsertWay select w → tags = w.tags := by
        rw [upsertWay]
        split
        · simp
        · simp +contextual
        · simp +contextual
      cases type with
      | create => exact hup h
      | modify => exact hup h
      | delete => simp [calls, deleteWay] at h
  | relation type q =>
      have hup : .upsert t r tags ∈ upsertRelation d q → tags = q.tags := by
        simp only [upsertRelation]
        split
        · simp only [List.mem_cons, DeltaCall.upsert.injEq, List.not_mem_nil, or_false]
          rintro (⟨-, -, h⟩ | ⟨-, -, h⟩) <;> exact h
        · simp +contextual
      cases type with
      | create => exact hup h
      | modify => exact hup h
      | delete => simp [calls, deleteRelation] at h

lemma tags_of_mem_diffCalls {diff : List OSCChange} (h : .upsert t r tags ∈ diffCalls p s diff) :
    ∃ c ∈ diff, tags = c.tags := by
  induction diff generalizing s with
  | nil => simp [diffCalls] at h
  | cons c diff ih =>
      rcases List.mem_append.mp h with h | h
      · exact ⟨c, List.mem_cons_self .., tags_of_mem_calls h⟩
      · obtain ⟨c', hc', htags⟩ := ih h
        exact ⟨c', List.mem_cons_of_mem _ hc', htags⟩

/-- **A diff whose tags stay apart** survives an interruption, on any target. -/
lemma replayable_of_tagsApart {diff : List OSCChange} (hord : Ordered diff)
    (htags : ∀ c ∈ diff, c.TagsApart) : Replayable p s diff := by
  refine ⟨hord, ?_⟩
  rintro t id key ⟨r, tags, hcall, -, hlen⟩
  obtain ⟨c, hc, rfl⟩ := tags_of_mem_diffCalls hcall
  have hle := htags c hc (decide (t = .nodes)) key
  omega

end

end Gpsxdb
