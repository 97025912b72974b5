import Mathlib.Tactic
import Gpsxdb.Delta.DeltaApplier
import Gpsxdb.Delta.TagCells

/-!
A diff that is interrupted and applied again from its start.

* `diffCalls`: the calls a diff makes, change by change; `run_eq_execAll`;
* `nodeWrite`, `rowWrite`, `tagOp`: what one call does to a node, a row and the
  tags of an entity under a key; `nodes_execAll`, `rowAt_execAll`,
  `valuesOf_execAll` for many;
* `Ordered`, `diffCalls_replay`: after an interruption the diff makes the same
  calls again, since each kind of change reads only what earlier kinds write;
* `SameContents`, `replay_idempotent_iff`: **replay** ends as one application
  exactly where no change adds two tags under one cleaned key for good.
-/

namespace Gpsxdb

/-! ### The calls of a diff -/

/-- The calls of a diff, each change seeing what the ones before it have done. -/
def diffCalls (p : Projection) (s : DeltaState) : List OSCChange → List DeltaCall
  | [] => []
  | c :: cs => calls p s.nodes s.tables c ++ diffCalls p (s.apply p c) cs

/-- A diff is its calls. -/
lemma run_eq_execAll (p : Projection) (s : DeltaState) (cs : List OSCChange) :
    s.run p cs = s.execAll (diffCalls p s cs) := by
  induction cs generalizing s with
  | nil => rfl
  | cons c cs ih =>
      rw [DeltaState.run_cons, ih, diffCalls, DeltaState.execAll_append]
      rfl

lemma diffCalls_append (p : Projection) (s : DeltaState) (cs cs' : List OSCChange) :
    diffCalls p s (cs ++ cs') = diffCalls p s cs ++ diffCalls p (s.run p cs) cs' := by
  induction cs generalizing s with
  | nil => rfl
  | cons c cs ih =>
      rw [List.cons_append, diffCalls, ih, diffCalls, List.append_assoc]
      rfl

/-! ### Kinds -/

/-- The kinds of elements. -/
inductive ElementKind where
  | node
  | way
  | relation
deriving DecidableEq

/-- The kind of the elements of a table. -/
def OsmTable.kind : OsmTable → ElementKind
  | .nodes => .node
  | .ways => .way
  | .areas => .way
  | .relations => .relation
  | .roads => .relation

/-- The kind of element a change is about. -/
def OSCChange.kind : OSCChange → ElementKind
  | node _ _ => .node
  | way _ _ => .way
  | relation _ _ => .relation

/-- The kind of element a call is about. -/
def DeltaCall.kind : DeltaCall → ElementKind
  | update _ _ => .node
  | remove _ => .node
  | upsert t _ _ => t.kind
  | deleteEntity t _ => t.kind

/-- A change makes calls of its own kind. -/
lemma kind_of_mem_calls {p : Projection} {select : ℤ → Option Coord} {d : TargetTables Content}
    {c : OSCChange} {call : DeltaCall} (h : call ∈ calls p select d c) : call.kind = c.kind := by
  cases c with
  | node type n =>
      have hall : ∀ call ∈ calls p select d (.node type n), call.kind = .node := by
        cases type with
        | create =>
            simp only [calls, createNode]
            split <;> simp [DeltaCall.kind, OsmTable.kind]
        | modify => simp [calls, modifyNode, DeltaCall.kind, OsmTable.kind]
        | delete => simp [calls, deleteNode, DeltaCall.kind, OsmTable.kind]
      exact hall call h
  | way type w =>
      have hup : ∀ call ∈ upsertWay select w, call.kind = .way := by
        rw [upsertWay]
        split <;> simp [DeltaCall.kind, OsmTable.kind]
      cases type with
      | create => exact hup call h
      | modify => exact hup call h
      | delete =>
          have hdel : ∀ call ∈ deleteWay w.id, call.kind = .way := by
            simp [deleteWay, DeltaCall.kind, OsmTable.kind]
          exact hdel call h
  | relation type r =>
      have hup : ∀ call ∈ upsertRelation d r, call.kind = .relation := by
        simp only [upsertRelation]
        split <;> simp [DeltaCall.kind, OsmTable.kind]
      cases type with
      | create => exact hup call h
      | modify => exact hup call h
      | delete =>
          have hdel : ∀ call ∈ deleteRelation r.id, call.kind = .relation := by
            simp [deleteRelation, DeltaCall.kind, OsmTable.kind]
          exact hdel call h

/-- The calls of a diff come from its changes. -/
lemma kind_of_mem_diffCalls {p : Projection} {s : DeltaState} {cs : List OSCChange}
    {call : DeltaCall} (h : call ∈ diffCalls p s cs) : ∃ c ∈ cs, call.kind = c.kind := by
  induction cs generalizing s with
  | nil => simp [diffCalls] at h
  | cons c cs ih =>
      rcases List.mem_append.mp h with h | h
      · exact ⟨c, List.mem_cons_self .., kind_of_mem_calls h⟩
      · obtain ⟨c', hc', hk⟩ := ih h
        exact ⟨c', List.mem_cons_of_mem _ hc', hk⟩

/-! ### Cell by cell -/

namespace DeltaCall

/-- What a call does to the coordinate of a node. -/
def nodeWrite (id : ℤ) : DeltaCall → Write (Option Coord)
  | update i c => if i = id then some (some c) else none
  | remove i => if i = id then some none else none
  | _ => none

/-- What a call does to a row. -/
def rowWrite (t : OsmTable) (id : ℤ) : DeltaCall → Write (Option (Row Content))
  | upsert u r tags =>
      if u = t ∧ r.id = id then some (if hasSurvivingTag tags (u = .nodes) then some r else none)
      else none
  | deleteEntity u i => if u = t ∧ i = id then some none else none
  | _ => none

/-- What a call does to the tags of an entity under a key. -/
def tagOp (t : OsmTable) (id : ℤ) (key : Text) : DeltaCall → BagOp Text
  | upsert u r tags =>
      if u = t ∧ r.id = id then upsertOp (valuesFor tags (u = .nodes) key) else .keep
  | deleteEntity u i => if u = t ∧ i = id then .clear else .keep
  | _ => .keep

lemma kind_of_nodeWrite {id : ℤ} {call : DeltaCall} (h : call.nodeWrite id ≠ none) :
    call.kind = .node := by
  cases call <;> first | rfl | exact absurd rfl h

lemma kind_of_rowWrite {t : OsmTable} {id : ℤ} {call : DeltaCall} (h : call.rowWrite t id ≠ none) :
    call.kind = t.kind := by
  cases call with
  | update i c => exact absurd rfl h
  | remove i => exact absurd rfl h
  | upsert u r tags =>
      rw [rowWrite] at h
      split at h
      · exact congrArg OsmTable.kind (And.left ‹_›)
      · exact absurd rfl h
  | deleteEntity u i =>
      rw [rowWrite] at h
      split at h
      · exact congrArg OsmTable.kind (And.left ‹_›)
      · exact absurd rfl h

lemma kind_of_tagOp {t : OsmTable} {id : ℤ} {key : Text} {call : DeltaCall}
    (h : call.tagOp t id key ≠ .keep) : call.kind = t.kind := by
  cases call with
  | update i c => exact absurd rfl h
  | remove i => exact absurd rfl h
  | upsert u r tags =>
      rw [tagOp] at h
      split at h
      · exact congrArg OsmTable.kind (And.left ‹_›)
      · exact absurd rfl h
  | deleteEntity u i =>
      rw [tagOp] at h
      split at h
      · exact congrArg OsmTable.kind (And.left ‹_›)
      · exact absurd rfl h

end DeltaCall

namespace DeltaState

/-- One call, at a node. -/
lemma nodes_exec (s : DeltaState) (call : DeltaCall) (id : ℤ) :
    (s.exec call).nodes id = (call.nodeWrite id).getD (s.nodes id) := by
  have hupdate : ∀ (i : ℤ) (o : Option Coord), Function.update s.nodes i o id
      = (if i = id then some o else none).getD (s.nodes id) := by
    intro i o
    by_cases h : i = id
    · subst h
      simp
    · rw [Function.update_of_ne (Ne.symm h), if_neg h, Option.getD_none]
  cases call with
  | update i c => exact hupdate i (some c)
  | remove i => exact hupdate i none
  | upsert t r tags => rfl
  | deleteEntity t i => rfl

/-- One call, at a row. -/
lemma rowAt_exec (s : DeltaState) (call : DeltaCall) (t : OsmTable) (id : ℤ) :
    (s.exec call).tables.rowAt t id = (call.rowWrite t id).getD (s.tables.rowAt t id) := by
  cases call with
  | update i c => rfl
  | remove i => rfl
  | upsert u r tags =>
      rw [exec, DeltaCall.rowWrite]
      by_cases hu : t = u
      · subst hu
        rw [TargetTables.rowAt_upsertEntity]
        by_cases h : r.id = id <;> simp [h]
      · rw [TargetTables.rowAt, TargetTables.rowsOf_upsertEntity_of_ne hu,
          if_neg fun h => hu h.1.symm, Option.getD_none, TargetTables.rowAt]
  | deleteEntity u i =>
      rw [exec, DeltaCall.rowWrite]
      by_cases hu : t = u
      · subst hu
        rw [TargetTables.rowAt_deleteEntity]
        by_cases h : i = id <;> simp [h]
      · rw [TargetTables.rowAt, TargetTables.rowsOf_deleteEntity_of_ne hu,
          if_neg fun h => hu h.1.symm, Option.getD_none, TargetTables.rowAt]

/-- One call, at the tags of an entity under a key. -/
lemma valuesOf_exec (s : DeltaState) (call : DeltaCall) (t : OsmTable) (id : ℤ) (key : Text) :
    valuesOf ((s.exec call).tables.tags t) id key
      = (call.tagOp t id key).act (valuesOf (s.tables.tags t) id key) := by
  cases call with
  | update i c => rfl
  | remove i => rfl
  | upsert u r tags =>
      have hexec : (s.exec (.upsert u r tags)).tables = s.tables.upsertEntity u r tags := rfl
      rw [hexec, DeltaCall.tagOp]
      by_cases hu : t = u
      · subst hu
        rw [TargetTables.tags_upsertEntity_self, valuesOf_diffTags]
        by_cases h : id = r.id
        · rw [if_pos h, if_pos ⟨rfl, h.symm⟩]
        · rw [if_neg h, if_neg fun h' => h h'.2.symm]
          rfl
      · rw [TargetTables.tags_upsertEntity_of_ne hu, if_neg fun h => hu h.1.symm]
        rfl
  | deleteEntity u i =>
      have hexec : (s.exec (.deleteEntity u i)).tables = s.tables.deleteEntity u i := rfl
      rw [hexec, DeltaCall.tagOp]
      by_cases hu : t = u
      · subst hu
        rw [TargetTables.tags_deleteEntity_self, valuesOf_filter_id]
        by_cases h : id = i
        · rw [if_pos h, if_pos ⟨rfl, h.symm⟩]
          rfl
        · rw [if_neg h, if_neg fun h' => h h'.2.symm]
          rfl
      · rw [TargetTables.tags_deleteEntity_of_ne hu, if_neg fun h => hu h.1.symm]
        rfl

/-- Many calls, at a node. -/
lemma nodes_execAll (s : DeltaState) (cs : List DeltaCall) (id : ℤ) :
    (s.execAll cs).nodes id = runWrites (cs.map (·.nodeWrite id)) (s.nodes id) := by
  induction cs generalizing s with
  | nil => rfl
  | cons c cs ih =>
      rw [execAll_cons, ih, nodes_exec]
      rfl

/-- Many calls, at a row. -/
lemma rowAt_execAll (s : DeltaState) (cs : List DeltaCall) (t : OsmTable) (id : ℤ) :
    (s.execAll cs).tables.rowAt t id
      = runWrites (cs.map (·.rowWrite t id)) (s.tables.rowAt t id) := by
  induction cs generalizing s with
  | nil => rfl
  | cons c cs ih =>
      rw [execAll_cons, ih, rowAt_exec]
      rfl

/-- Many calls, at the tags of an entity under a key. -/
lemma valuesOf_execAll (s : DeltaState) (cs : List DeltaCall) (t : OsmTable) (id : ℤ)
    (key : Text) : valuesOf ((s.execAll cs).tables.tags t) id key
      = runBag (cs.map (·.tagOp t id key)) (valuesOf (s.tables.tags t) id key) := by
  induction cs generalizing s with
  | nil => rfl
  | cons c cs ih =>
      rw [execAll_cons, ih, valuesOf_exec]
      rfl

end DeltaState

/-! ### The same calls again -/

/-- No way change before a node change, no relation change before a way change. -/
def Ordered (diff : List OSCChange) : Prop :=
  diff.Pairwise fun c c' =>
    (c.kind = .way → c'.kind ≠ .node) ∧ (c.kind = .relation → c'.kind ≠ .way)

/-- Calls that are interrupted and made again, at a cell that only the first of
them write. -/
lemma runWrites_settled {V : Type*} {f : DeltaCall → Write V} {done later : List DeltaCall}
    (hlater : ∀ call ∈ later, f call = none) (n : ℕ) (v : V) :
    runWrites (done.map f) (runWrites (((done ++ later).take n).map f) v)
      = runWrites (done.map f) v := by
  refine runWrites_replay (fun w hw hne => ?_) v
  obtain ⟨call, hcall, rfl⟩ := List.mem_map.mp hw
  rcases List.mem_append.mp (List.mem_of_mem_take hcall) with hdone | hl
  · exact ⟨f call, List.mem_map_of_mem hdone, hne⟩
  · exact absurd (hlater call hl) hne

/-- The node store, where no later call is about a node. -/
lemma DeltaState.nodes_settled {done later : List DeltaCall}
    (hlater : ∀ call ∈ later, call.kind ≠ .node) (s : DeltaState) (n : ℕ) :
    ((s.execAll ((done ++ later).take n)).execAll done).nodes = (s.execAll done).nodes := by
  funext id
  rw [nodes_execAll, nodes_execAll, nodes_execAll]
  exact runWrites_settled (fun call hcall => by_contra fun hne =>
    hlater call hcall (DeltaCall.kind_of_nodeWrite hne)) n _

/-- The rows of a table, where no later call is about its kind. -/
lemma DeltaState.rowAt_settled {done later : List DeltaCall} {t : OsmTable}
    (hlater : ∀ call ∈ later, call.kind ≠ t.kind) (s : DeltaState) (n : ℕ) (id : ℤ) :
    ((s.execAll ((done ++ later).take n)).execAll done).tables.rowAt t id
      = (s.execAll done).tables.rowAt t id := by
  rw [rowAt_execAll, rowAt_execAll, rowAt_execAll]
  exact runWrites_settled (fun call hcall => by_contra fun hne =>
    hlater call hcall (DeltaCall.kind_of_rowWrite hne)) n _

/-- The geometry of a way is a matter of its rows. -/
lemma TargetTables.getWay_eq (d : TargetTables Content) (id : ℤ) :
    d.getWay id = ((d.rowAt .ways id).or (d.rowAt .areas id)).bind fun r => r.content.geog := by
  rw [getWay, rowAt, rowAt]
  cases d.rowsOf .ways id with
  | nil => cases d.rowsOf .areas id <;> rfl
  | cons r rs => rfl

/-- What the calls of a change are a matter of. -/
lemma calls_congr {p : Projection} {s s' : DeltaState} {c : OSCChange}
    (hnodes : c.kind = .way → s'.nodes = s.nodes)
    (hways : c.kind = .relation → s'.tables.getWay = s.tables.getWay) :
    calls p s'.nodes s'.tables c = calls p s.nodes s.tables c := by
  cases c with
  | node type n => cases type <;> rfl
  | way type w =>
      have h := hnodes rfl
      cases type <;> simp [calls, h]
  | relation type r =>
      have h : upsertRelation s'.tables r = upsertRelation s.tables r := by
        have hgeom : buildRelationGeom s'.tables r = buildRelationGeom s.tables r := by
          rw [buildRelationGeom, hways rfl, buildRelationGeom]
        rw [upsertRelation, hgeom, upsertRelation]
      cases type <;> simp [calls, h]

/-- **A diff makes the same calls again** after an interruption: by the time a
change reads a node or a way, what was left of the first attempt is overwritten. -/
theorem diffCalls_replay {p : Projection} {s : DeltaState} {diff : List OSCChange}
    (hord : Ordered diff) (n : ℕ) :
    diffCalls p (s.execAll ((diffCalls p s diff).take n)) diff = diffCalls p s diff := by
  have hpre : ∀ pre post, diff = pre ++ post →
      diffCalls p (s.execAll ((diffCalls p s diff).take n)) pre = diffCalls p s pre := by
    intro pre
    induction pre using List.reverseRecOn with
    | nil => exact fun _ _ => rfl
    | append_singleton pre c ih =>
        intro post hsplit
        rw [List.append_assoc, List.singleton_append] at hsplit
        have hpre := ih (c :: post) hsplit
        have hall : diffCalls p s diff
            = diffCalls p s pre ++ diffCalls p (s.run p pre) (c :: post) := by
          rw [hsplit, diffCalls_append]
        have hafter : ∀ c' ∈ post, (c.kind = .way → c'.kind ≠ .node)
            ∧ (c.kind = .relation → c'.kind ≠ .way) := by
          rw [Ordered, hsplit, List.pairwise_append] at hord
          exact (List.pairwise_cons.mp hord.2.1).1
        have hlater : ∀ k, (∀ c' ∈ c :: post, c'.kind ≠ k) →
            ∀ call ∈ diffCalls p (s.run p pre) (c :: post), call.kind ≠ k := by
          intro k hk call hcall
          obtain ⟨c', hc', heq⟩ := kind_of_mem_diffCalls hcall
          exact heq ▸ hk c' hc'
        have hcalls : calls p ((s.execAll ((diffCalls p s diff).take n)).run p pre).nodes
            ((s.execAll ((diffCalls p s diff).take n)).run p pre).tables c
              = calls p (s.run p pre).nodes (s.run p pre).tables c := by
          rw [run_eq_execAll, hpre, run_eq_execAll, hall]
          refine calls_congr (fun hway => ?_) fun hrel => funext fun id => ?_
          · -- a way reads nodes, and no node change is left
            refine DeltaState.nodes_settled (hlater _ fun c' hc' => ?_) s n
            rcases List.mem_cons.mp hc' with rfl | hc'
            · simp [hway]
            · exact (hafter c' hc').1 hway
          · -- a relation reads ways, and no way change is left
            have hways : ∀ c' ∈ c :: post, c'.kind ≠ .way := by
              intro c' hc'
              rcases List.mem_cons.mp hc' with rfl | hc'
              · simp [hrel]
              · exact (hafter c' hc').2 hrel
            rw [TargetTables.getWay_eq, TargetTables.getWay_eq,
              DeltaState.rowAt_settled (t := .ways) (hlater _ hways),
              DeltaState.rowAt_settled (t := .areas) (hlater _ hways)]
        rw [diffCalls_append, diffCalls_append, hpre]
        exact congrArg _ (congrArg (· ++ []) hcalls)
  exact hpre diff [] (List.append_nil _).symm

/-! ### Replay -/

/-- The same node store, and tables with the same rows. -/
structure SameContents (s s' : DeltaState) : Prop where
  nodes : s.nodes = s'.nodes
  rows : ∀ t, (s.tables.rows t).Perm (s'.tables.rows t)
  tags : ∀ t, (s.tables.tags t).Perm (s'.tables.tags t)

lemma DeltaState.keyed_execAll {s : DeltaState} (h : s.tables.Keyed) (cs : List DeltaCall) :
    (s.execAll cs).tables.Keyed := by
  induction cs generalizing s with
  | nil => exact h
  | cons c cs ih =>
      refine ih ?_
      cases c with
      | update id c => exact h
      | remove id => exact h
      | upsert t r tags => exact h.upsertEntity t r tags
      | deleteEntity t id => exact h.deleteEntity t id

/-- An upsert among the calls brings an entity two or more tags under a key. -/
def AddsTag (L : List DeltaCall) (t : OsmTable) (id : ℤ) (key : Text) : Prop :=
  ∃ r tags, .upsert t r tags ∈ L ∧ r.id = id ∧ 2 ≤ (valuesFor tags (t = .nodes) key).length

/-- A call among them leaves an entity without tags under a key. -/
def ClearsTag (L : List DeltaCall) (t : OsmTable) (id : ℤ) (key : Text) : Prop :=
  .deleteEntity t id ∈ L
    ∨ ∃ r tags, .upsert t r tags ∈ L ∧ r.id = id ∧ valuesFor tags (t = .nodes) key = []

lemma upsertOp_eq_clear {vs : List Text} : upsertOp vs = .clear ↔ vs = [] := by
  cases vs <;> simp [upsertOp]

lemma upsertOp_eq_put {vs : List Text} {a : Text} {rest : List Text} :
    upsertOp vs = .put a rest ↔ vs = a :: rest := by
  cases vs <;> simp [upsertOp]

lemma tagOp_eq_clear {L : List DeltaCall} {t : OsmTable} {id : ℤ} {key : Text} :
    .clear ∈ L.map (·.tagOp t id key) ↔ ClearsTag L t id key := by
  rw [List.mem_map]
  constructor
  · rintro ⟨call, hcall, hop⟩
    cases call with
    | update i c => simp [DeltaCall.tagOp] at hop
    | remove i => simp [DeltaCall.tagOp] at hop
    | upsert u r tags =>
        rw [DeltaCall.tagOp] at hop
        split at hop
        · obtain ⟨rfl, hid⟩ := ‹_ ∧ _›
          exact Or.inr ⟨r, tags, hcall, hid, upsertOp_eq_clear.mp hop⟩
        · simp at hop
    | deleteEntity u i =>
        rw [DeltaCall.tagOp] at hop
        split at hop
        · obtain ⟨rfl, rfl⟩ := ‹_ ∧ _›
          exact Or.inl hcall
        · simp at hop
  · rintro (hcall | ⟨r, tags, hcall, rfl, hnil⟩)
    · exact ⟨_, hcall, by simp [DeltaCall.tagOp]⟩
    · exact ⟨_, hcall, by rw [DeltaCall.tagOp, if_pos ⟨rfl, rfl⟩, hnil]; rfl⟩

lemma tagOp_eq_put {L : List DeltaCall} {t : OsmTable} {id : ℤ} {key : Text} :
    (∀ a rest, .put a rest ∈ L.map (·.tagOp t id key) → rest = []) ↔ ¬ AddsTag L t id key := by
  constructor
  · rintro h ⟨r, tags, hcall, rfl, hlen⟩
    obtain ⟨a, b, rest, hvs⟩ : ∃ a b rest, valuesFor tags (t = .nodes) key = a :: b :: rest := by
      match valuesFor tags (t = .nodes) key, hlen with
      | a :: b :: rest, _ => exact ⟨a, b, rest, rfl⟩
    refine absurd (h a (b :: rest) (List.mem_map.mpr ⟨_, hcall, ?_⟩)) (by simp)
    rw [DeltaCall.tagOp, if_pos ⟨rfl, rfl⟩, hvs]
    rfl
  · intro h a rest hmem
    obtain ⟨call, hcall, hop⟩ := List.mem_map.mp hmem
    by_contra hrest
    cases call with
    | update i c => simp [DeltaCall.tagOp] at hop
    | remove i => simp [DeltaCall.tagOp] at hop
    | upsert u r tags =>
        rw [DeltaCall.tagOp] at hop
        split at hop
        · obtain ⟨rfl, hid⟩ := ‹_ ∧ _›
          refine h ⟨r, tags, hcall, hid, ?_⟩
          have hpos := List.length_pos_iff.mpr hrest
          rw [upsertOp_eq_put.mp hop, List.length_cons]
          omega
        · simp at hop
    | deleteEntity u i =>
        rw [DeltaCall.tagOp] at hop
        split at hop <;> simp at hop

/-- **Replay.**  A diff that is interrupted after any of its calls and applied
again from its start ends as if applied once, exactly where an entity that is
brought several tags under one cleaned key also loses all of them in the diff. -/
theorem replay_idempotent_iff (p : Projection) {s : DeltaState} (hkey : s.tables.Keyed)
    {diff : List OSCChange} (hord : Ordered diff) :
    (∀ n, SameContents ((s.execAll ((diffCalls p s diff).take n)).run p diff) (s.run p diff))
      ↔ ∀ t id key, AddsTag (diffCalls p s diff) t id key
        → ClearsTag (diffCalls p s diff) t id key := by
  have hrun : ∀ n, (s.execAll ((diffCalls p s diff).take n)).run p diff
      = (s.execAll ((diffCalls p s diff).take n)).execAll (diffCalls p s diff) := fun n => by
    rw [run_eq_execAll, diffCalls_replay hord n]
  have hcell : ∀ t id key,
      (∀ n, (valuesOf (((s.execAll ((diffCalls p s diff).take n)).run p diff).tables.tags t) id
        key).Perm (valuesOf ((s.run p diff).tables.tags t) id key))
      ↔ (AddsTag (diffCalls p s diff) t id key → ClearsTag (diffCalls p s diff) t id key) := by
    intro t id key
    have hreplay := runBag_replay_iff ((diffCalls p s diff).map (·.tagOp t id key))
      (valuesOf (s.tables.tags t) id key)
    rw [tagOp_eq_clear, tagOp_eq_put, ← imp_iff_or_not] at hreplay
    rw [← hreplay]
    refine forall_congr' fun n => ?_
    rw [hrun, run_eq_execAll, DeltaState.valuesOf_execAll, DeltaState.valuesOf_execAll,
      DeltaState.valuesOf_execAll, List.map_take]
  constructor
  · intro h t id key
    exact (hcell t id key).mp fun n => perm_tags_iff.mp ((h n).tags t) id key
  · intro h n
    refine ⟨funext fun id => ?_, fun t => ?_, fun t => ?_⟩
    · rw [hrun, run_eq_execAll, DeltaState.nodes_execAll, DeltaState.nodes_execAll,
        DeltaState.nodes_execAll, List.map_take]
      exact runWrites_replay (fun w hw hne => ⟨w, List.mem_of_mem_take hw, hne⟩) _
    · rw [hrun, run_eq_execAll]
      refine TargetTables.Keyed.perm_rows (DeltaState.keyed_execAll
        (DeltaState.keyed_execAll hkey _) _) (DeltaState.keyed_execAll hkey _) fun id => ?_
      rw [DeltaState.rowAt_execAll, DeltaState.rowAt_execAll, DeltaState.rowAt_execAll,
        List.map_take]
      exact runWrites_replay (fun w hw hne => ⟨w, List.mem_of_mem_take hw, hne⟩) _
    · exact perm_tags_iff.mpr fun id key => (hcell t id key).mpr (h t id key) n

/-- A change brings no more tags under a key than it has. -/
lemma length_valuesFor_le (tags : Tags) (is_node : Bool) (key : Text) :
    (valuesFor tags is_node key).length ≤ tags.entries.length := by
  rw [valuesFor, valuesUnder, List.length_map, survivingTags]
  refine (List.length_filter_le ..).trans ?_
  rw [List.length_map]
  exact List.length_filter_le ..

/-- A projection of whole degrees. -/
def wholeDegrees : Projection := ⟨fun lon lat => ⟨lon, lat⟩, 3857⟩

/-- A street between two nodes. -/
def street : WayEntry := ⟨5, [], .single (ascii "highway") (ascii "residential"), [1, 2]⟩

/-- The two nodes, and tables without rows. -/
def twoNodes : DeltaState where
  nodes := fun id => if id = 1 then some ⟨0, 0⟩ else if id = 2 then some ⟨1, 0⟩ else none
  tables := ⟨fun _ => [], fun _ => []⟩

theorem replay_idempotent_iff_street : SameContents
    ((twoNodes.execAll ((diffCalls wholeDegrees twoNodes [.way .modify street]).take 1)).run
      wholeDegrees [.way .modify street])
    (twoNodes.run wholeDegrees [.way .modify street]) := by
  refine (replay_idempotent_iff wholeDegrees (s := twoNodes) (fun _ => List.nodup_nil)
    (List.pairwise_singleton ..)).mpr ?_ 1
  rintro t id key ⟨r, tags, hcall, -, hlen⟩
  have hcalls : diffCalls wholeDegrees twoNodes [.way .modify street]
      = [.deleteEntity .areas 5,
        .upsert .ways (geomRow 5 [] (some (.lineString [⟨0, 0⟩, ⟨1, 0⟩]))) street.tags] := rfl
  rw [hcalls] at hcall
  obtain ⟨-, -, rfl⟩ : t = .ways ∧ r = _ ∧ tags = street.tags := by simpa using hcall
  have hone : street.tags.entries.length = 1 := rfl
  have hle := length_valuesFor_le street.tags (decide (t = .nodes)) key
  omega

/-- The 256 characters two keys share. -/
def stem : Text := List.replicate 256 0x7a

lemma sanitizeTag_stem {last : UInt8} (h : last ≠ 0x00 ∧ sequenceLength last = some 1) :
    sanitizeTag (stem ++ [last]) = stem := by
  have hlen : stem.length = 256 := List.length_replicate ..
  rw [sanitizeTag_of_single, List.take_left' hlen]
  intro c hc
  rcases List.mem_append.mp hc with hc | hc
  · rw [List.eq_of_mem_replicate hc]
    decide
  · rwa [List.mem_singleton.mp hc]

/-- Two tags whose keys differ in the 257th character. -/
def longTags : Tags where
  entries := [(stem ++ [0x62], ascii "1"), (stem ++ [0x63], ascii "2")]
  nodup := by simp

lemma survivingTags_longTags :
    survivingTags longTags true = [(stem, ascii "1"), (stem, ascii "2")] := by
  have hb : sanitizeTag (stem ++ [0x62]) = stem := sanitizeTag_stem (by decide)
  have hc : sanitizeTag (stem ++ [0x63]) = stem := sanitizeTag_stem (by decide)
  have hstem : stem ≠ [] := by decide
  have h1 : sanitizeTag (ascii "1") = ascii "1" := by decide
  have h2 : sanitizeTag (ascii "2") = ascii "2" := by decide
  have helev : hasElevationTag longTags = false := by decide
  have hdb : isDroppedTag true false (stem ++ [0x62]) (ascii "1") = false := by decide
  have hdc : isDroppedTag true false (stem ++ [0x63]) (ascii "2") = false := by decide
  have hbb : (stem ++ [0x62] == ascii "building") = false := by decide
  have hbc : (stem ++ [0x63] == ascii "building") = false := by decide
  have hn1 : ascii "1" ≠ [] := by decide
  have hn2 : ascii "2" ≠ [] := by decide
  have hentries : longTags.entries
      = [(stem ++ [0x62], ascii "1"), (stem ++ [0x63], ascii "2")] := rfl
  simp [survivingTags, helev, hentries, isBlankTag, hdb, hdc, hbb, hbc, hb, hc, h1, h2, hstem, hn1,
    hn2]

/-- A node with those tags. -/
def longNode : NodeEntry := ⟨7, [], longTags, 0, 0⟩

/-- **A second attempt adds a tag**: two keys that are cut to one leave two rows,
and three after an interruption. -/
theorem replay_adds_tag : ¬ SameContents
    ((twoNodes.execAll ((diffCalls wholeDegrees twoNodes [.node .create longNode]).take 2)).run
      wholeDegrees [.node .create longNode])
    (twoNodes.run wholeDegrees [.node .create longNode]) := by
  intro h
  have hlen := (perm_tags_iff.mp (h.tags .nodes) 7 stem).length_eq
  have hcalls : ∀ s, diffCalls wholeDegrees s [.node .create longNode]
      = [.update 7 ⟨0, 0⟩, .upsert .nodes (wholeDegrees.updateNodeRow longNode) longTags] :=
    fun s => rfl
  have hvalues : valuesFor longTags true stem = [ascii "1", ascii "2"] := by
    rw [valuesFor, survivingTags_longTags]
    simp [valuesUnder]
  have hop : DeltaCall.tagOp .nodes 7 stem
      (.upsert .nodes (wholeDegrees.updateNodeRow longNode) longTags)
        = .put (ascii "1") [ascii "2"] := by
    rw [DeltaCall.tagOp, if_pos ⟨rfl, rfl⟩]
    exact congrArg upsertOp hvalues
  rw [run_eq_execAll, run_eq_execAll, DeltaState.valuesOf_execAll, DeltaState.valuesOf_execAll,
    DeltaState.valuesOf_execAll, hcalls, hcalls, List.take_of_length_le (by simp)] at hlen
  simp only [List.map_cons, List.map_nil, hop] at hlen
  revert hlen
  decide

end Gpsxdb
