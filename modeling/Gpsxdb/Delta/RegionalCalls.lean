import Mathlib.Tactic
import Gpsxdb.Library.Appliers
import Gpsxdb.Delta.Tracking

/-!
`RegionalDeltaApplier` by the calls it makes, on tables that outlive it.

* `CoordBuffers`: the two coordinate buffers, which a process starts without;
* `tableCalls`: the calls of a change; `apply_eq`: a change is its calls, and what it does to
  the buffers is no matter of the tables;
* `regionalApplier`: the applier of changes; `run_eq`: its diffs;
* `ResolvesAs`: the ways of a diff find their nodes where they should;
* `diffCalls_resume`: **a diff makes the same calls again** after an interruption, from any
  buffers its ways find their nodes from.
-/

namespace Gpsxdb

/-! ### Buffers and calls -/

/-- `overlay_` and `pending_`. -/
structure CoordBuffers where
  overlay : ℤ → Option Coord
  pending : ℤ → Option Coord

/-- An applier with these buffers, on tables. -/
def CoordBuffers.on (b : CoordBuffers) (d : TargetTables Content) : RegionalApplier :=
  ⟨b.overlay, b.pending, d⟩

namespace RegionalApplier

/-- The buffers of an applier. -/
def buffers (s : RegionalApplier) : CoordBuffers := ⟨s.overlay, s.pending⟩

variable (env : RegionalEnv) (s : RegionalApplier)

/-- The calls of `upsertWay`: a way that is not in the region is deleted. -/
def upsertWayCalls (w : WayEntry) : List DeltaCall :=
  if ((deltaWayGeom (s.resolve env) w).map Prod.fst).any fun g => !env.inRegion g
  then Gpsxdb.deleteWay w.id else Gpsxdb.upsertWay (s.resolve env) w

/-- The calls of `upsertRelation`. -/
def upsertRelationCalls (r : RelationEntry) : List DeltaCall :=
  if (buildRelationGeom s.tables r).any env.inRegion
  then Gpsxdb.upsertRelation s.tables r else Gpsxdb.deleteRelation r.id

/-- The calls a change makes on the tables. -/
def tableCalls : OSCChange → List DeltaCall
  | .node .create n =>
      if n.tags.entries = [] ∨ env.nodeInRegion (env.projection.toMercator n.lon n.lat) = false
      then [] else [.upsert .nodes (env.projection.updateNodeRow n) n.tags]
  | .node .modify n =>
      if env.nodeInRegion (env.projection.toMercator n.lon n.lat)
      then [.upsert .nodes (env.projection.updateNodeRow n) n.tags]
      else [.deleteEntity .nodes n.id]
  | .node .delete n => [.deleteEntity .nodes n.id]
  | .way .create w => s.upsertWayCalls env w
  | .way .modify w => s.upsertWayCalls env w
  | .way .delete w => Gpsxdb.deleteWay w.id
  | .relation .create r => s.upsertRelationCalls env r
  | .relation .modify r => s.upsertRelationCalls env r
  | .relation .delete r => Gpsxdb.deleteRelation r.id

/-- The tables, with the exported nodes, which no call writes. -/
def target (env : RegionalEnv) (d : TargetTables Content) : DeltaState := ⟨env.node_map.select, d⟩

variable {env s}

lemma tables_upsertWay (w : WayEntry) : (s.upsertWay env w).tables
    = ((target env s.tables).execAll (s.upsertWayCalls env w)).tables := by
  rw [upsertWay, upsertWayCalls, Gpsxdb.upsertWay]
  rcases deltaWayGeom (s.resolve env) w with _ | ⟨geom, is_closed⟩
  · rfl
  · cases hin : env.inRegion geom with
    | false => simp [hin, Gpsxdb.deleteWay, DeltaState.exec, target]
    | true => cases is_closed <;> simp [hin, DeltaState.exec, target, tables_promoteAll]

lemma tables_upsertRelation (r : RelationEntry) : (s.upsertRelation env r).tables
    = ((target env s.tables).execAll (s.upsertRelationCalls env r)).tables := by
  simp only [upsertRelation, upsertRelationCalls, Gpsxdb.upsertRelation]
  rcases buildRelationGeom s.tables r with _ | geom
  · rfl
  · cases hin : env.inRegion geom with
    | false => simp [hin, Gpsxdb.deleteRelation, deleteRelation, DeltaState.exec, target]
    | true => cases hroad : isRoad r.tags <;> simp [hin, DeltaState.exec, target]

/-- **A change is its calls**, as far as the tables go. -/
lemma tables_apply (s : RegionalApplier) (c : OSCChange) : (s.apply env c).tables
    = ((target env s.tables).execAll (s.tableCalls env c)).tables := by
  cases c with
  | node type n =>
      cases type with
      | create =>
          simp only [apply, createNode, tableCalls]
          by_cases htags : n.tags.entries = []
          · simp [htags, target]
          · cases hin : env.nodeInRegion (env.projection.toMercator n.lon n.lat) <;>
              simp [htags, DeltaState.exec, target]
      | modify =>
          simp only [apply, modifyNode, tableCalls]
          split <;> rfl
      | delete => rfl
  | way type w =>
      cases type with
      | create => exact tables_upsertWay w
      | modify => exact tables_upsertWay w
      | delete => rfl
  | relation type r =>
      cases type with
      | create => exact tables_upsertRelation r
      | modify => exact tables_upsertRelation r
      | delete => rfl

/-- A way leaves the buffers the same, whatever the tables. -/
lemma buffers_upsertWay (b : CoordBuffers) (d : TargetTables Content) (w : WayEntry) :
    ((b.on d).upsertWay env w).buffers = ((b.on emptyTables).upsertWay env w).buffers := by
  have hpromote : ∀ (hits : List ℤ) (s t : RegionalApplier), s.buffers = t.buffers →
      (hits.foldl promote s).buffers = (hits.foldl promote t).buffers := by
    intro hits
    induction hits with
    | nil => exact fun _ _ h => h
    | cons i hits ih =>
        intro s t h
        obtain ⟨ho, hp⟩ := CoordBuffers.mk.inj h
        refine ih _ _ ?_
        rw [promote, promote, hp]
        split
        · exact h
        · simp only [buffers, ho]
  have hon : ∀ d : TargetTables Content, (b.on d).buffers = b := fun _ => rfl
  have hresolve : (b.on d).resolve env = (b.on emptyTables).resolve env := rfl
  have hhits : (b.on d).pendingHit env = (b.on emptyTables).pendingHit env := rfl
  rw [upsertWay, upsertWay, hresolve]
  split
  · rfl
  · split
    · rfl
    · have hall := hpromote (w.node_refs.filter ((b.on d).pendingHit env)) (b.on d)
        (b.on emptyTables) rfl
      dsimp only
      split
      · exact hall
      · exact hall

/-- **What a change does to the buffers** is no matter of the tables. -/
lemma buffers_apply (b : CoordBuffers) (d : TargetTables Content) (c : OSCChange) :
    ((b.on d).apply env c).buffers = ((b.on emptyTables).apply env c).buffers := by
  cases c with
  | node type n =>
      cases type with
      | create =>
          simp only [apply, createNode]
          split
          · rfl
          · split <;> rfl
      | modify =>
          simp only [apply, modifyNode]
          split <;> rfl
      | delete => rfl
  | way type w =>
      cases type with
      | create => exact buffers_upsertWay b d w
      | modify => exact buffers_upsertWay b d w
      | delete => rfl
  | relation type r =>
      have hup : ∀ d : TargetTables Content, ((b.on d).upsertRelation env r).buffers = b := by
        intro d
        simp only [upsertRelation]
        split <;> rfl
      cases type with
      | create => exact (hup d).trans (hup emptyTables).symm
      | modify => exact (hup d).trans (hup emptyTables).symm
      | delete => rfl

end RegionalApplier

open RegionalApplier

/-- `RegionalDeltaApplier`, as what a process has besides the tables. -/
def regionalApplier (env : RegionalEnv) :
    ChangeApplier OSCChange CoordBuffers DeltaState DeltaCall where
  empty := ⟨fun _ => none, fun _ => none⟩
  next b c := ((b.on emptyTables).apply env c).buffers
  flush b := { b with pending := fun _ => none }
  calls b s c := (b.on s.tables).tableCalls env c
  exec := DeltaState.exec

section

variable {env : RegionalEnv} {b b' : CoordBuffers} {s : DeltaState} {diff : List OSCChange}

/-- What calls make of the tables is no matter of the node store. -/
lemma tables_execAll_congr {s s' : DeltaState} (h : s.tables = s'.tables) (cs : List DeltaCall) :
    (s.execAll cs).tables = (s'.execAll cs).tables := by
  induction cs generalizing s s' with
  | nil => exact h
  | cons c cs ih =>
      refine ih ?_
      cases c with
      | update i x => exact h
      | remove i => exact h
      | upsert t r tags => exact congrArg (fun d => d.upsertEntity t r tags) h
      | deleteEntity t i => exact congrArg (fun d => d.deleteEntity t i) h

/-- One change, on buffers and tables. -/
lemma apply_eq (b : CoordBuffers) (s : DeltaState) (c : OSCChange) :
    (b.on s.tables).apply env c = ((regionalApplier env).next b c).on
      ((regionalApplier env).execAll s ((regionalApplier env).calls b s c)).tables := by
  have hsame : ((target env s.tables).execAll ((b.on s.tables).tableCalls env c)).tables
      = (s.execAll ((b.on s.tables).tableCalls env c)).tables :=
    tables_execAll_congr (by rfl) _
  have htables : ((b.on s.tables).apply env c).tables
      = (s.execAll ((b.on s.tables).tableCalls env c)).tables := (tables_apply _ c).trans hsame
  calc (b.on s.tables).apply env c
      = ((b.on s.tables).apply env c).buffers.on ((b.on s.tables).apply env c).tables := rfl
    _ = _ := by
        rw [buffers_apply, htables]
        rfl

/-- **A diff** is its calls, and what it does to the buffers. -/
lemma run_eq (b : CoordBuffers) (s : DeltaState) (cs : List OSCChange) :
    (b.on s.tables).run env (cs.map .change) = ((regionalApplier env).read b cs).on
      ((regionalApplier env).execAll s ((regionalApplier env).diffCalls b s cs)).tables := by
  induction cs generalizing b s with
  | nil => rfl
  | cons c cs ih =>
      have hone : (b.on s.tables).step env (.change c) = _ := apply_eq b s c
      rw [List.map_cons, RegionalApplier.run, List.foldl_cons, hone, ChangeApplier.diffCalls,
        ChangeApplier.execAll_append]
      exact ih _ _

/-! ### Kinds of calls -/

/-- A change makes calls of its own kind. -/
lemma kind_of_mem_tableCalls {t : RegionalApplier} {c : OSCChange} {call : DeltaCall}
    (h : call ∈ t.tableCalls env c) : call.kind = c.kind := by
  have hcalls : ∀ {c : OSCChange}, call ∈ Gpsxdb.calls env.projection (t.resolve env) t.tables c →
      call.kind = c.kind := fun h => kind_of_mem_calls h
  cases c with
  | node type n =>
      have hrow : call ∈ [DeltaCall.upsert .nodes (env.projection.updateNodeRow n) n.tags]
          ∨ call ∈ [DeltaCall.deleteEntity .nodes n.id] := by
        cases type with
        | create =>
            rw [tableCalls] at h
            split at h
            · cases h
            · exact .inl h
        | modify =>
            rw [tableCalls] at h
            split at h
            · exact .inl h
            · exact .inr h
        | delete => exact .inr h
      rcases hrow with h | h
      · rw [List.mem_singleton.mp h]
        rfl
      · rw [List.mem_singleton.mp h]
        rfl
  | way type w =>
      have hup : call ∈ t.upsertWayCalls env w → call.kind = .way := by
        rw [upsertWayCalls]
        split
        · exact fun h => hcalls (c := .way .delete w) h
        · exact fun h => hcalls (c := .way .modify w) h
      cases type with
      | create => exact hup h
      | modify => exact hup h
      | delete => exact hcalls (c := .way .delete w) h
  | relation type r =>
      have hup : call ∈ t.upsertRelationCalls env r → call.kind = .relation := by
        rw [upsertRelationCalls]
        split
        · exact fun h => hcalls (c := .relation .modify r) h
        · exact fun h => hcalls (c := .relation .delete r) h
      cases type with
      | create => exact hup h
      | modify => exact hup h
      | delete => exact hcalls (c := .relation .delete r) h

/-- The calls of a diff come from its changes. -/
lemma kind_of_mem_regionalCalls {b : CoordBuffers} {s : DeltaState} {cs : List OSCChange}
    {call : DeltaCall} (h : call ∈ (regionalApplier env).diffCalls b s cs) :
    ∃ c ∈ cs, call.kind = c.kind := by
  induction cs generalizing b s with
  | nil => cases h
  | cons c cs ih =>
      rcases List.mem_append.mp h with h | h
      · exact ⟨c, List.mem_cons_self .., kind_of_mem_tableCalls h⟩
      · obtain ⟨c', hc', hk⟩ := ih h
        exact ⟨c', List.mem_cons_of_mem _ hc', hk⟩

/-! ### The same calls again -/

/-- From these buffers, the ways of a diff find their nodes at these coordinates. -/
def ResolvesAs (env : RegionalEnv) (nodes : ℤ → Option Coord) (b : CoordBuffers)
    (diff : List OSCChange) : Prop :=
  ∀ pre type w post, diff = pre ++ .way type w :: post → type ≠ .delete → ∀ ref ∈ w.node_refs,
    (((regionalApplier env).read b pre).on emptyTables).resolve env ref = nodes ref

/-- What the calls of a change are a matter of. -/
lemma tableCalls_congr {t t' : RegionalApplier} {c : OSCChange}
    (hrefs : ∀ type w, c = .way type w → type ≠ .delete → ∀ ref ∈ w.node_refs,
      t.resolve env ref = t'.resolve env ref)
    (hways : c.kind = .relation → t.tables.getWay = t'.tables.getWay) :
    t.tableCalls env c = t'.tableCalls env c := by
  cases c with
  | node type n => cases type <;> rfl
  | way type w =>
      have hup : type ≠ .delete → t.upsertWayCalls env w = t'.upsertWayCalls env w := by
        intro htype
        have hcoords : wayCoords (t.resolve env) w = wayCoords (t'.resolve env) w :=
          List.filterMap_congr fun ref href => hrefs type w rfl htype ref href
        have hgeom : deltaWayGeom (t.resolve env) w = deltaWayGeom (t'.resolve env) w := by
          rw [deltaWayGeom, deltaWayGeom, hcoords]
        rw [upsertWayCalls, upsertWayCalls, Gpsxdb.upsertWay, Gpsxdb.upsertWay, hgeom]
      cases type with
      | create => exact hup (by simp)
      | modify => exact hup (by simp)
      | delete => rfl
  | relation type r =>
      have hgeom : buildRelationGeom t.tables r = buildRelationGeom t'.tables r := by
        rw [buildRelationGeom, buildRelationGeom, hways rfl]
      have hup : t.upsertRelationCalls env r = t'.upsertRelationCalls env r := by
        rw [upsertRelationCalls, upsertRelationCalls, Gpsxdb.upsertRelation,
          Gpsxdb.upsertRelation, hgeom]
      cases type with
      | create => exact hup
      | modify => exact hup
      | delete => rfl

/-- **A diff makes the same calls again** after an interruption, from any buffers its ways
find their nodes from: by the time a change reads a way, what was left of the first attempt
is overwritten. -/
lemma diffCalls_resume {nodes : ℤ → Option Coord} (hord : Ordered diff)
    (hb : ResolvesAs env nodes b diff) (hb' : ResolvesAs env nodes b' diff) (n : ℕ) :
    (regionalApplier env).diffCalls b'
        (s.execAll (((regionalApplier env).diffCalls b s diff).take n)) diff
      = (regionalApplier env).diffCalls b s diff := by
  let A := regionalApplier env
  let t := s.execAll ((A.diffCalls b s diff).take n)
  have hpre : ∀ pre post, diff = pre ++ post → A.diffCalls b' t pre = A.diffCalls b s pre := by
    intro pre
    induction pre using List.reverseRecOn with
    | nil => exact fun _ _ => rfl
    | append_singleton pre c ih =>
        intro post hsplit
        rw [List.append_assoc, List.singleton_append] at hsplit
        have hpre := ih (c :: post) hsplit
        have hall : A.diffCalls b s diff = A.diffCalls b s pre
            ++ A.diffCalls (A.read b pre) (A.execAll s (A.diffCalls b s pre)) (c :: post) := by
          rw [hsplit, A.diffCalls_append]
        have hafter : ∀ c' ∈ post, c.kind = .relation → c'.kind ≠ .way := by
          rw [Ordered, hsplit, List.pairwise_append] at hord
          exact fun c' hc' => ((List.pairwise_cons.mp hord.2.1).1 c' hc').2
        have hcalls : A.calls (A.read b' pre) (A.execAll t (A.diffCalls b s pre)) c
            = A.calls (A.read b pre) (A.execAll s (A.diffCalls b s pre)) c := by
          refine tableCalls_congr (fun type w hc htype ref href => ?_) fun hrel => ?_
          · -- a way finds its nodes from either buffers
            have hto : ((A.read b pre).on emptyTables).resolve env ref = nodes ref :=
              hb pre type w post (hc ▸ hsplit) htype ref href
            have hto' : ((A.read b' pre).on emptyTables).resolve env ref = nodes ref :=
              hb' pre type w post (hc ▸ hsplit) htype ref href
            exact hto'.trans hto.symm
          · -- a relation reads ways, and no way change is left
            have hways : ∀ call ∈ A.diffCalls (A.read b pre) (A.execAll s (A.diffCalls b s pre))
                (c :: post), call.kind ≠ .way := by
              intro call hcall
              obtain ⟨c', hc', heq⟩ := kind_of_mem_regionalCalls hcall
              rw [heq]
              rcases List.mem_cons.mp hc' with rfl | hc'
              · simp [hrel]
              · exact hafter c' hc' hrel
            have hrow : ∀ u, u.kind = .way → ∀ id,
                (A.execAll t (A.diffCalls b s pre)).tables.rowAt u id
                  = (A.execAll s (A.diffCalls b s pre)).tables.rowAt u id := by
              intro u hu id
              show ((s.execAll ((A.diffCalls b s diff).take n)).execAll
                (A.diffCalls b s pre)).tables.rowAt u id = _
              rw [hall]
              exact DeltaState.rowAt_settled (hu ▸ hways) s n id
            funext id
            show TargetTables.getWay (A.execAll t (A.diffCalls b s pre)).tables id
              = TargetTables.getWay (A.execAll s (A.diffCalls b s pre)).tables id
            rw [TargetTables.getWay_eq, TargetTables.getWay_eq, hrow .ways rfl, hrow .areas rfl]
        calc A.diffCalls b' t (pre ++ [c])
            = A.diffCalls b s pre
              ++ (A.calls (A.read b' pre) (A.execAll t (A.diffCalls b s pre)) c ++ []) := by
              rw [A.diffCalls_append, hpre]
              rfl
          _ = A.diffCalls b s (pre ++ [c]) := by
              rw [hcalls, A.diffCalls_append]
              rfl
  exact hpre diff [] (List.append_nil _).symm

/-- **However often it was begun**, and from any such buffers. -/
lemma diffCalls_attempts {nodes : ℤ → Option Coord} (hord : Ordered diff)
    (hb : ResolvesAs env nodes b diff) (hb' : ResolvesAs env nodes b' diff) (ks : List ℕ) :
    (regionalApplier env).diffCalls b' (attempts DeltaState.exec
        ((regionalApplier env).diffCalls b s diff) s ks) diff
      = (regionalApplier env).diffCalls b s diff := by
  let log := (regionalApplier env).diffCalls b s diff
  have hgen : ∀ (ks : List ℕ) (t : DeltaState), (regionalApplier env).diffCalls b t diff = log →
      (regionalApplier env).diffCalls b' (attempts DeltaState.exec log t ks) diff = log := by
    intro ks
    induction ks with
    | nil =>
        intro t ht
        calc (regionalApplier env).diffCalls b' t diff
            = (regionalApplier env).diffCalls b t diff := diffCalls_resume hord hb hb' 0
          _ = log := ht
    | cons k ks ih =>
        intro t ht
        refine ih _ ?_
        have hnext : (regionalApplier env).diffCalls b (t.execAll
            (((regionalApplier env).diffCalls b t diff).take k)) diff
              = (regionalApplier env).diffCalls b t diff := diffCalls_resume hord hb hb k
        rw [ht] at hnext
        exact hnext
  exact hgen ks s rfl

end

end Gpsxdb
