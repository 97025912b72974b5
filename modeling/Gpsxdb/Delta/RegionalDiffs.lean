import Mathlib.Tactic
import Gpsxdb.Delta.RegionalCalls

/-!
The diffs that a regional target can follow, and that it can begin anew without its buffers.

* `Places`: a change of a list puts a node somewhere; `nodes_apply`: the node store of the
  master, change by change;
* `next_coords`: what a change does to the buffers, node by node;
* `Buffered`: **what the buffers know** of the changes a process has seen; `buffered_next`,
  `buffered_read`, `buffered_flush`: it is kept;
* `RefOk`: a node of a way that the target finds where the master has it: exported and not
  moved, or put there in the same diff;
* `FollowOk`: the diffs with such ways; `resolvesAs_of_buffered`: from all buffers that a
  process may have, they find their nodes;
* `trackOk_of_followOk`: a process without buffers follows them.
-/

namespace Gpsxdb

open RegionalApplier

/-! ### Where nodes are put -/

section

variable {p : Projection} {m : DeltaState} {c : OSCChange} {cs : List OSCChange} {id : ℤ}
  {x : Coord}

/-- A change of the list puts the node there. -/
def Places (p : Projection) (cs : List OSCChange) (id : ℤ) (x : Coord) : Prop :=
  ∃ c ∈ cs, nodeChange p (.change c) = some (id, some x)

lemma Places.mono {cs' : List OSCChange} (h : Places p cs id x) (hsub : cs ⊆ cs') :
    Places p cs' id x := by
  obtain ⟨c, hc, hput⟩ := h
  exact ⟨c, hsub hc, hput⟩

/-- The node store of the master. -/
lemma nodes_apply (m : DeltaState) (c : OSCChange) (id : ℤ) : (m.apply p c).nodes id
    = match nodeChange p (.change c) with
      | some (i, o) => if i = id then o else m.nodes id
      | none => m.nodes id := by
  have hsame : c.kind ≠ .node → (m.apply p c).nodes id = m.nodes id := by
    intro hkind
    rw [DeltaState.apply, DeltaState.nodes_execAll]
    refine runWrites_of_forall_none (fun w hw => ?_) _
    obtain ⟨call, hcall, rfl⟩ := List.mem_map.mp hw
    by_contra hne
    exact hkind ((kind_of_mem_calls hcall).symm.trans (DeltaCall.kind_of_nodeWrite hne))
  cases c with
  | node type n =>
      have hput : ∀ o, Function.update m.nodes n.id o id = if n.id = id then o else m.nodes id := by
        intro o
        rw [Function.update_apply]
        simp only [eq_comm]
      cases type with
      | create =>
          rw [DeltaState.apply, calls, createNode]
          split
          · exact hput _
          · exact hput _
      | modify => exact hput _
      | delete => exact hput _
  | way type w => exact hsame (by simp [OSCChange.kind])
  | relation type r => exact hsame (by simp [OSCChange.kind])

lemma nodes_apply_of_eq {o : Option Coord} (h : nodeChange p (.change c) = some (id, o)) :
    (m.apply p c).nodes id = o := by
  rw [nodes_apply, h]
  exact if_pos rfl

lemma nodes_apply_of_ne (h : ∀ o, nodeChange p (.change c) ≠ some (id, o)) :
    (m.apply p c).nodes id = m.nodes id := by
  rw [nodes_apply]
  split
  · rename_i i o hput
    rw [if_neg]
    rintro rfl
    exact h o hput
  · rfl

/-- Changes of ways and relations leave the node store. -/
lemma nodes_run_of_kind (m : DeltaState) (h : ∀ c ∈ cs, c.kind ≠ .node) :
    (m.run p cs).nodes = m.nodes := by
  induction cs generalizing m with
  | nil => rfl
  | cons c cs ih =>
      obtain ⟨hc, hcs⟩ := List.forall_mem_cons.mp h
      rw [DeltaState.run_cons, ih _ hcs]
      funext id
      refine nodes_apply_of_ne fun o hput => hc ?_
      cases c with
      | node => rfl
      | way type w => simp [nodeChange] at hput
      | relation type r => simp [nodeChange] at hput

end

/-! ### What the buffers know -/

/-- What the buffers hold once a process has seen some of `seen` and then, of the diff at hand,
`pre`; the master has `nodes` by then. -/
structure Buffered (p : Projection) (seen pre : List OSCChange) (nodes : ℤ → Option Coord)
    (b : CoordBuffers) : Prop where
  pending : ∀ id x, b.pending id = some x → Places p pre id x
  overlay : ∀ id x, b.overlay id = some x → Places p (seen ++ pre) id x
  present : ∀ id, b.overlay id ≠ none ∨ b.pending id ≠ none → nodes id ≠ none
  kept : ∀ id x, Places p pre id x → nodes id ≠ none →
    b.overlay id ≠ none ∨ b.pending id ≠ none

section

variable {env : RegionalEnv} {seen pre : List OSCChange} {m : DeltaState} {b : CoordBuffers}

lemma buffered_empty (seen : List OSCChange) (nodes : ℤ → Option Coord) :
    Buffered env.projection seen [] nodes (regionalApplier env).empty := by
  refine ⟨fun id x h => ?_, fun id x h => ?_, fun id h => ?_, fun id x h => ?_⟩
  · cases h
  · cases h
  · rcases h with h | h <;> exact absurd rfl h
  · obtain ⟨c, hc, -⟩ := h
    cases hc

/-- What a change does to the buffers at a node it is no change of: nothing, or it promotes
what is pending. -/
lemma apply_coords {s : RegionalApplier} {c : OSCChange} {id : ℤ}
    (h : ∀ o, nodeChange env.projection (.change c) ≠ some (id, o)) :
    ((s.apply env c).overlay id = s.overlay id ∧ (s.apply env c).pending id = s.pending id)
      ∨ ((s.apply env c).overlay id = (s.overlay id).or (s.pending id)
        ∧ (s.apply env c).pending id = none) := by
  have hway : ∀ w, ((s.upsertWay env w).overlay id = s.overlay id
        ∧ (s.upsertWay env w).pending id = s.pending id)
      ∨ ((s.upsertWay env w).overlay id = (s.overlay id).or (s.pending id)
        ∧ (s.upsertWay env w).pending id = none) := by
    intro w
    rcases upsertWay_coords env s w with ⟨ho, hp, -⟩ | ⟨ho, hp, -⟩
    · exact .inl ⟨congrFun ho id, congrFun hp id⟩
    · rw [ho, hp, promoteAll]
      rcases foldl_promote_coords (w.node_refs.filter (s.pendingHit env)) s id with
        h | ⟨ho, hp, -⟩
      · exact .inl h
      · exact .inr ⟨ho, hp⟩
  cases c with
  | node type n =>
      have hid : id ≠ n.id := by
        rintro rfl
        cases type <;> exact h _ rfl
      refine .inl ?_
      cases type with
      | create =>
          simp only [apply, RegionalApplier.createNode]
          split <;> [skip; split] <;> simp [hid]
      | modify =>
          simp only [apply, RegionalApplier.modifyNode]
          split <;> simp [hid]
      | delete => simp [apply, RegionalApplier.deleteNode, hid]
  | way type w =>
      cases type with
      | create => exact hway w
      | modify => exact hway w
      | delete => exact .inl ⟨rfl, rfl⟩
  | relation type r =>
      have hup : (s.upsertRelation env r).overlay id = s.overlay id
          ∧ (s.upsertRelation env r).pending id = s.pending id := by
        simp only [RegionalApplier.upsertRelation]
        split <;> exact ⟨rfl, rfl⟩
      cases type with
      | create => exact .inl hup
      | modify => exact .inl hup
      | delete => exact .inl ⟨rfl, rfl⟩

/-- **What a change does to the buffers** at a node: it puts the node there or takes it out, or
is no change of it, and then may promote it. -/
lemma next_coords (env : RegionalEnv) (b : CoordBuffers) (c : OSCChange) (id : ℤ) :
    let b' := (regionalApplier env).next b c
    (∃ x, nodeChange env.projection (.change c) = some (id, some x)
        ∧ b'.overlay id = b.overlay id ∧ b'.pending id = some x)
      ∨ (nodeChange env.projection (.change c) = some (id, none)
        ∧ b'.overlay id = none ∧ b'.pending id = none)
      ∨ ((∀ o, nodeChange env.projection (.change c) ≠ some (id, o))
        ∧ ((b'.overlay id = b.overlay id ∧ b'.pending id = b.pending id)
          ∨ (b'.overlay id = (b.overlay id).or (b.pending id) ∧ b'.pending id = none))) := by
  intro b'
  by_cases hput : ∃ o, nodeChange env.projection (.change c) = some (id, o)
  · obtain ⟨_ | x, hput⟩ := hput
    · exact .inr (.inl ⟨hput, step_coords_of_delete (s := b.on emptyTables) hput⟩)
    · exact .inl ⟨x, hput, step_coords_of_write (s := b.on emptyTables) hput⟩
  · exact .inr (.inr ⟨not_exists.mp hput, apply_coords (s := b.on emptyTables)
      (not_exists.mp hput)⟩)

/-- **One change** of the diff at hand. -/
lemma buffered_next (h : Buffered env.projection seen pre m.nodes b) (c : OSCChange) :
    Buffered env.projection seen (pre ++ [c]) (m.apply env.projection c).nodes
      ((regionalApplier env).next b c) := by
  let b' := (regionalApplier env).next b c
  have hearlier : ∀ {id x}, Places env.projection pre id x →
      Places env.projection (pre ++ [c]) id x := fun h => h.mono (List.subset_append_left ..)
  have hall : ∀ {id x}, Places env.projection (pre ++ [c]) id x →
      Places env.projection (seen ++ (pre ++ [c])) id x := fun h =>
    h.mono (List.subset_append_right ..)
  have hseen : ∀ {id x}, Places env.projection (seen ++ pre) id x →
      Places env.projection (seen ++ (pre ++ [c])) id x := fun h => by
    rw [← List.append_assoc]
    exact h.mono (List.subset_append_left ..)
  have hcases := next_coords env b c
  refine ⟨fun id x hx => ?_, fun id x hx => ?_, fun id hx => ?_, fun id x hx hnode => ?_⟩
  · rcases hcases id with ⟨y, hput, -, hp⟩ | ⟨-, -, hp⟩ | ⟨-, ⟨-, hp⟩ | ⟨-, hp⟩⟩
    · obtain rfl := Option.some.inj (hp.symm.trans hx)
      exact ⟨c, by simp, hput⟩
    · cases hp.symm.trans hx
    · exact hearlier (h.pending id x (hp.symm.trans hx))
    · cases hp.symm.trans hx
  · rcases hcases id with ⟨-, -, ho, -⟩ | ⟨-, ho, -⟩ | ⟨-, ⟨ho, -⟩ | ⟨ho, -⟩⟩
    · exact hseen (h.overlay id x (ho.symm.trans hx))
    · cases ho.symm.trans hx
    · exact hseen (h.overlay id x (ho.symm.trans hx))
    · rcases Option.or_eq_some_iff.mp (ho.symm.trans hx) with hx | ⟨-, hx⟩
      · exact hseen (h.overlay id x hx)
      · exact hall (hearlier (h.pending id x hx))
  · rcases hcases id with ⟨y, hput, -, -⟩ | ⟨-, ho, hp⟩ | ⟨hput, hmove⟩
    · rw [nodes_apply_of_eq hput]
      exact Option.some_ne_none y
    · rcases hx with hx | hx
      · exact absurd ho hx
      · exact absurd hp hx
    · rw [nodes_apply_of_ne hput]
      refine h.present id ?_
      by_contra hnone
      obtain ⟨hno, hnp⟩ := not_or.mp hnone
      rw [not_not] at hno hnp
      rcases hmove with ⟨ho, hp⟩ | ⟨ho, hp⟩
      · rcases hx with hx | hx
        · exact hx (ho.trans hno)
        · exact hx (hp.trans hnp)
      · rcases hx with hx | hx
        · exact hx (ho.trans (by rw [hno, hnp]; rfl))
        · exact hx hp
  · rcases hcases id with ⟨y, -, -, hp⟩ | ⟨hput, -, -⟩ | ⟨hput, hmove⟩
    · exact .inr (by rw [hp]; exact Option.some_ne_none y)
    · exact absurd (nodes_apply_of_eq hput) hnode
    · rw [nodes_apply_of_ne hput] at hnode
      obtain ⟨c', hc', hplace⟩ := hx
      have hmem : c' ∈ pre := by
        rcases List.mem_append.mp hc' with hc' | hc'
        · exact hc'
        · rw [List.mem_singleton.mp hc'] at hplace
          exact absurd hplace (hput _)
      have hheld := h.kept id x ⟨c', hmem, hplace⟩ hnode
      rcases hmove with ⟨ho, hp⟩ | ⟨ho, -⟩
      · rw [ho, hp]
        exact hheld
      · refine .inl ?_
        rw [ho, Ne, Option.or_eq_none_iff]
        tauto

/-- **Many changes.** -/
lemma buffered_read (h : Buffered env.projection seen pre m.nodes b) (cs : List OSCChange) :
    Buffered env.projection seen (pre ++ cs) (m.run env.projection cs).nodes
      ((regionalApplier env).read b cs) := by
  induction cs generalizing pre m b with
  | nil =>
      rw [List.append_nil]
      exact h
  | cons c cs ih =>
      have hnext := ih (buffered_next h c)
      rw [List.append_assoc] at hnext
      exact hnext

/-- **The end of a diff.** -/
lemma buffered_flush (h : Buffered env.projection seen pre m.nodes b) :
    Buffered env.projection (seen ++ pre) [] m.nodes ((regionalApplier env).flush b) := by
  refine ⟨fun id x hx => ?_, fun id x hx => ?_, fun id hx => ?_, fun id x hx => ?_⟩
  · cases hx
  · rw [List.append_nil]
    exact h.overlay id x hx
  · rcases hx with hx | hx
    · exact h.present id (.inl hx)
    · exact absurd rfl hx
  · obtain ⟨c, hc, -⟩ := hx
    cases hc

end

/-! ### Diffs that can be followed -/

/-- A node that a way of the diff refers to, with `nodes` as the master has them behind the
diff: it was exported where it is; or it was not and, if it is there, a change of the diff puts
it there, and none since the export puts it anywhere else. -/
structure RefOk (env : RegionalEnv) (seen diff : List OSCChange) (nodes : ℤ → Option Coord)
    (ref : ℤ) : Prop where
  exported : ∀ x, env.node_map.select ref = some x → nodes ref = some x
  recent : ∀ x, env.node_map.select ref = none → nodes ref = some x →
    (∃ y, Places env.projection diff ref y)
      ∧ ∀ y, Places env.projection (seen ++ diff) ref y → y = x

/-- A diff that a regional target can follow, the master being at `m` and the diffs since the
export being those of `seen`. -/
structure FollowOk (env : RegionalEnv) (seen : List OSCChange) (m : DeltaState)
    (diff : List OSCChange) : Prop where
  ordered : Ordered diff
  apart : ∀ c ∈ diff, c.TagsApart
  new : ∀ pre n post, diff = pre ++ .node .create n :: post →
    (m.run env.projection pre).tables.rowAt .nodes n.id = none
  refs : ∀ type w, .way type w ∈ diff → type ≠ .delete → ∀ ref ∈ w.node_refs,
    RefOk env seen diff (m.run env.projection diff).nodes ref

section

variable {env : RegionalEnv} {seen diff pre post : List OSCChange} {m : DeltaState}
  {b : CoordBuffers} {type : ChangeType} {w : WayEntry}

/-- Behind a way, no node change is left. -/
lemma Ordered.of_way (hord : Ordered diff) (hsplit : diff = pre ++ .way type w :: post) :
    ∀ c ∈ .way type w :: post, c.kind ≠ .node := by
  rw [Ordered, hsplit, List.pairwise_append] at hord
  intro c hc
  rcases List.mem_cons.mp hc with rfl | hc
  · simp [OSCChange.kind]
  · exact ((List.pairwise_cons.mp hord.2.1).1 c hc).1 rfl

/-- **From all buffers that a process may have**, the ways of the diff find their nodes where
the master has them. -/
lemma resolvesAs_of_buffered (hdiff : FollowOk env seen m diff)
    (hb : Buffered env.projection seen [] m.nodes b) :
    ResolvesAs env (m.run env.projection diff).nodes b diff := by
  intro pre type w post hsplit htype ref href
  have hlater := hdiff.ordered.of_way hsplit
  have hnodes : (m.run env.projection diff).nodes = (m.run env.projection pre).nodes := by
    rw [hsplit, DeltaState.run_append]
    exact nodes_run_of_kind _ hlater
  have hpre : ∀ {y}, Places env.projection diff ref y → Places env.projection pre ref y := by
    rintro y ⟨c, hc, hput⟩
    rw [hsplit] at hc
    rcases List.mem_append.mp hc with hc | hc
    · exact ⟨c, hc, hput⟩
    · refine absurd ?_ (hlater c hc)
      cases c with
      | node => rfl
      | way type w => simp [nodeChange] at hput
      | relation type r => simp [nodeChange] at hput
  have hknown := buffered_read hb pre
  rw [List.nil_append, ← hnodes] at hknown
  obtain ⟨hexported, hrecent⟩ := hdiff.refs type w (by simp [hsplit]) htype ref href
  let b' := (regionalApplier env).read b pre
  show (env.node_map.select ref).or ((b'.overlay ref).or (b'.pending ref)) = _
  cases hmap : env.node_map.select ref with
  | some x => exact (hexported x hmap).symm
  | none =>
      rw [Option.none_or]
      cases hat : (m.run env.projection diff).nodes ref with
      | none =>
          have hno : ¬ (b'.overlay ref ≠ none ∨ b'.pending ref ≠ none) := fun h =>
            hknown.present ref h hat
          rw [not_or, not_not, not_not] at hno
          rw [hno.1, hno.2]
          rfl
      | some x =>
          obtain ⟨⟨y, hput⟩, hsame⟩ := hrecent x hmap hat
          have hheld := hknown.kept ref y (hpre hput) (by rw [hat]; exact Option.some_ne_none x)
          have hmore : ∀ {z}, Places env.projection pre ref z →
              Places env.projection (seen ++ diff) ref z := fun h =>
            h.mono (by rw [hsplit]; exact fun c hc => by simp [hc])
          cases hover : b'.overlay ref with
          | some z =>
              have hplace : Places env.projection (seen ++ diff) ref z :=
                (hknown.overlay ref z hover).mono (by
                  rw [hsplit, ← List.append_assoc]
                  exact List.subset_append_left ..)
              rw [Option.some_or, hsame z hplace]
          | none =>
              obtain ⟨z, hz⟩ := Option.ne_none_iff_exists'.mp
                (hheld.resolve_left fun h => h hover)
              rw [Option.none_or, hz, hsame z (hmore (hknown.pending ref z hz))]

/-- **A process without buffers** follows the diff. -/
lemma trackOk_of_followOk (hdiff : FollowOk env seen m diff) (d : TargetTables Content) :
    TrackOkAlong env m (start d) (diff.map .change) := by
  have hresolves := resolvesAs_of_buffered hdiff (buffered_empty seen m.nodes)
  have hgen : ∀ post pre, diff = pre ++ post → ∀ s : RegionalApplier,
      s.buffers = (regionalApplier env).read (regionalApplier env).empty pre →
      TrackOkAlong env (m.run env.projection pre) s (post.map .change) := by
    intro post
    induction post with
    | nil => exact fun _ _ _ _ => trivial
    | cons c post ih =>
        intro pre hsplit s hs
        have hc : c ∈ diff := by simp [hsplit]
        refine ⟨⟨hdiff.apart c hc, ?_⟩, ?_⟩
        · have hway : ∀ type w, c = .way type w → type ≠ .delete → ∀ ref ∈ w.node_refs,
              s.resolve env ref = (m.run env.projection pre).nodes ref := by
            rintro type w rfl htype ref href
            have hfound := hresolves pre type w post hsplit htype ref href
            have hnodes : (m.run env.projection diff).nodes
                = (m.run env.projection pre).nodes := by
              rw [hsplit, DeltaState.run_append]
              exact nodes_run_of_kind _ (hdiff.ordered.of_way hsplit)
            calc s.resolve env ref
                = (s.buffers.on emptyTables).resolve env ref := rfl
              _ = (m.run env.projection pre).nodes ref := by rw [hs, hfound, hnodes]
          cases c with
          | node type n =>
              cases type with
              | create => exact hdiff.new pre n post hsplit
              | modify => trivial
              | delete => trivial
          | way type w =>
              cases type with
              | create => exact hway .create w rfl (by simp)
              | modify => exact hway .modify w rfl (by simp)
              | delete => trivial
          | relation type r => cases type <;> trivial
        · have hmaster : masterStep env (m.run env.projection pre) (.change c)
              = m.run env.projection (pre ++ [c]) := by
            rw [DeltaState.run_append]
            rfl
          rw [hmaster]
          refine ih (pre ++ [c]) (by rw [hsplit, List.append_assoc]; rfl) _ ?_
          have hon : s = s.buffers.on s.tables := rfl
          calc (s.step env (.change c)).buffers
              = ((s.buffers.on s.tables).apply env c).buffers := rfl
            _ = (regionalApplier env).next s.buffers c := buffers_apply ..
            _ = _ := by rw [hs, (regionalApplier env).read_append]; rfl
  exact hgen diff [] rfl (start d) rfl

/-- The master over the changes of a diff. -/
lemma masterRun_changes (env : RegionalEnv) (m : DeltaState) (cs : List OSCChange) :
    masterRun env m (cs.map .change) = m.run env.projection cs := by
  induction cs generalizing m with
  | nil => rfl
  | cons c cs ih => exact ih _

end

end Gpsxdb
