import Mathlib.Tactic
import Gpsxdb.Delta.Promotion

/-!
What a region-aware run answers for a node that it has seen change.

* `currentDiff`, `lastChange`: the log since the last flush, and the last change
  of a node in a log;
* `Origin`, `resolvedFrom`: `resolve` with the place of its answer;
* `Fresh`: the answers `resolve` owes after a log of events;
* `StepOk`: the changes that keep them, a condition on the exported node map and
  on `overlay_` before the change;
* `fresh_iff_stepOk`: **freshness** throughout a run.
-/

namespace Gpsxdb

/-! ### Logs -/

/-- The events since the last flush. -/
def currentDiff (evs : List RegionalEvent) : List RegionalEvent :=
  evs.foldl (fun diff e => match e with | .flush => [] | .change c => diff ++ [.change c]) []

/-- The last change of a node in a log: its coordinate, or `none` for a
deletion. -/
def lastChange (p : Projection) (evs : List RegionalEvent) : ℤ → Option (Option Coord) :=
  replay (fun e => (nodeChange p e).map fun change => (change.1, some change.2)) evs

@[simp] lemma currentDiff_flush (evs : List RegionalEvent) :
    currentDiff (evs ++ [.flush]) = [] := by
  simp [currentDiff]

@[simp] lemma currentDiff_change (evs : List RegionalEvent) (c : OSCChange) :
    currentDiff (evs ++ [.change c]) = currentDiff evs ++ [.change c] := by
  simp [currentDiff]

@[simp] lemma lastChange_nil (p : Projection) (id : ℤ) : lastChange p [] id = none := rfl

variable {p : Projection} {evs : List RegionalEvent} {e : RegionalEvent} {id : ℤ}

/-- The log one change of the node longer. -/
lemma lastChange_of_eq {o : Option Coord} (h : nodeChange p e = some (id, o)) :
    lastChange p (evs ++ [e]) id = some o := by
  rw [lastChange, replay_append_singleton]
  exact observe_of_eq _ (by rw [h]; rfl)

/-- The log one other event longer. -/
lemma lastChange_of_ne (h : ∀ o, nodeChange p e ≠ some (id, o)) :
    lastChange p (evs ++ [e]) id = lastChange p evs id := by
  rw [lastChange, replay_append_singleton]
  refine observe_of_ne _ fun o ho => ?_
  rw [Option.map_eq_some_iff] at ho
  obtain ⟨⟨i, c⟩, hc, heq⟩ := ho
  obtain ⟨rfl, -⟩ := Prod.mk.inj heq
  exact h c hc

/-- A change of the current diff is a change of the run. -/
lemma lastChange_of_currentDiff {o : Option Coord}
    (h : lastChange p (currentDiff evs) id = some o) : lastChange p evs id = some o := by
  induction evs using List.reverseRecOn with
  | nil => simp [currentDiff] at h
  | append_singleton evs e ih =>
      cases e with
      | flush => simp at h
      | change c =>
          rw [currentDiff_change] at h
          by_cases hw : ∃ o', nodeChange p (.change c) = some (id, o')
          · obtain ⟨o', hw⟩ := hw
            rw [lastChange_of_eq hw] at h ⊢
            exact h
          · rw [lastChange_of_ne (not_exists.mp hw)] at h ⊢
            exact ih h

/-! ### Freshness -/

namespace RegionalApplier

/-- Where an answer of `resolve` stands. -/
inductive Origin where
  | exported
  | overlay
  | pending

/-- `resolve`, with the place of its answer. -/
def resolvedFrom (env : RegionalEnv) (s : RegionalApplier) (id : ℤ) : Option (Origin × Coord) :=
  ((env.node_map.select id).map (Origin.exported, ·)).or
    (((s.overlay id).map (Origin.overlay, ·)).or ((s.pending id).map (Origin.pending, ·)))

lemma map_resolvedFrom (env : RegionalEnv) (s : RegionalApplier) (id : ℤ) :
    (s.resolvedFrom env id).map Prod.snd = s.resolve env id := by
  rw [resolvedFrom, resolve]
  cases env.node_map.select id <;> cases s.overlay id <;> cases s.pending id <;> rfl

/-- An answer is not from the exported node map exactly if that does not have the node. -/
lemma resolvedFrom_ne_exported_iff {env : RegionalEnv} {s : RegionalApplier} :
    (∀ c, s.resolvedFrom env id ≠ some (.exported, c)) ↔ env.node_map.select id = none := by
  rw [resolvedFrom]
  cases env.node_map.select id with
  | some c => exact iff_of_false (fun h => h c rfl) nofun
  | none =>
      refine iff_of_true (fun c h => ?_) rfl
      cases hover : s.overlay id <;> cases hpend : s.pending id <;> simp [hover, hpend] at h

/-- The answers owed for a node after a log: the coordinate of its last change in
the current diff or none at all, none after a deletion, and none from the
exported node map once the run has changed it. -/
structure Fresh (env : RegionalEnv) (s : RegionalApplier) (evs : List RegionalEvent) (id : ℤ) :
    Prop where
  latest : ∀ c c', lastChange env.projection (currentDiff evs) id = some (some c) →
    s.resolve env id = some c' → c' = c
  deleted : lastChange env.projection evs id = some none → s.resolve env id = none
  exported : lastChange env.projection evs id ≠ none →
    ∀ c, s.resolvedFrom env id ≠ some (.exported, c)

/-- The changes that keep the answers fresh: the exported node map does not have
the node, and a new coordinate is not at odds with `overlay_`. -/
def StepOk (env : RegionalEnv) (s : RegionalApplier) (e : RegionalEvent) : Prop :=
  ∀ id o, nodeChange env.projection e = some (id, o) → env.node_map.select id = none
    ∧ ∀ c, o = some c → s.overlay id = none ∨ s.overlay id = some c

/-- The invariant that carries freshness along a run: what the two buffers hold
for a node the run has changed. -/
structure Current (env : RegionalEnv) (s : RegionalApplier) (evs : List RegionalEvent) (id : ℤ) :
    Prop where
  exported : lastChange env.projection evs id ≠ none → env.node_map.select id = none
  deleted : lastChange env.projection evs id = some none →
    s.overlay id = none ∧ s.pending id = none
  latest : ∀ c, lastChange env.projection (currentDiff evs) id = some (some c) →
    ∀ c', s.overlay id = some c' ∨ s.pending id = some c' → c' = c

variable {env : RegionalEnv} {s : RegionalApplier}

lemma Current.fresh (h : s.Current env evs id) : s.Fresh env evs id := by
  refine ⟨fun c c' hc hres => ?_, fun hdel => ?_,
    fun hchange => resolvedFrom_ne_exported_iff.mpr (h.exported hchange)⟩
  · have hmap := h.exported (by rw [lastChange_of_currentDiff hc]; simp)
    rw [resolve, hmap, Option.none_or, Option.or_eq_some_iff] at hres
    exact h.latest c hc c' (hres.imp_right And.right)
  · rw [resolve, h.exported (by rw [hdel]; simp), (h.deleted hdel).1, (h.deleted hdel).2]
    rfl

/-- **One event** the answers survive. -/
lemma current_step (h : s.Current env evs id) (hok : s.StepOk env e) :
    (s.step env e).Current env (evs ++ [e]) id := by
  by_cases hw : ∃ o, nodeChange env.projection e = some (id, o)
  · -- a change of this node
    obtain ⟨o, hw⟩ := hw
    obtain ⟨hmap, hover⟩ := hok id o hw
    cases o with
    | none =>
        obtain ⟨ho, hp⟩ := step_coords_of_delete (s := s) hw
        refine ⟨fun _ => hmap, fun _ => ⟨ho, hp⟩, fun c _ c' hc' => ?_⟩
        simp [ho, hp] at hc'
    | some c =>
        obtain ⟨ho, hp⟩ := step_coords_of_write (s := s) hw
        refine ⟨fun _ => hmap, fun hdel => ?_, fun c' hc' c'' hc'' => ?_⟩
        · simp [lastChange_of_eq hw] at hdel
        · have hcc : some c = some c' := by
            have hlast := lastChange_of_currentDiff hc'
            rw [lastChange_of_eq hw] at hlast
            exact Option.some.inj hlast
          rw [ho, hp] at hc''
          rcases hc'' with hc'' | hc''
          · rcases hover c rfl with hnone | hsome
            · simp [hnone] at hc''
            · exact Option.some.inj (hc''.symm.trans (hsome.trans hcc))
          · exact Option.some.inj (hc''.symm.trans hcc)
  · have hno := not_exists.mp hw
    have hlast : lastChange env.projection (evs ++ [e]) id = lastChange env.projection evs id :=
      lastChange_of_ne hno
    -- whatever is in a buffer afterwards was in one before
    have hbuf : ∀ c', (s.step env e).overlay id = some c' ∨ (s.step env e).pending id = some c' →
        s.overlay id = some c' ∨ s.pending id = some c' := by
      intro c' hc'
      rcases step_coords (s := s) hno with ⟨ho, hp | hp⟩ | ⟨ho, hp, -, -⟩
      · rwa [ho, hp] at hc'
      · rw [ho, hp] at hc'
        exact Or.inl (hc'.resolve_right (by simp))
      · rw [ho, hp] at hc'
        exact Or.inr (hc'.resolve_right (by simp))
    refine ⟨by rw [hlast]; exact h.exported, fun hdel => ?_, fun c hc c' hc' => ?_⟩
    · rw [hlast] at hdel
      obtain ⟨ho, hp⟩ := h.deleted hdel
      have hnone : ∀ c', ¬ ((s.step env e).overlay id = some c'
          ∨ (s.step env e).pending id = some c') := by
        intro c' hc'
        rcases hbuf c' hc' with hc' | hc'
        · simp [ho] at hc'
        · simp [hp] at hc'
      exact ⟨Option.eq_none_iff_forall_ne_some.mpr fun c' hc' => hnone c' (Or.inl hc'),
        Option.eq_none_iff_forall_ne_some.mpr fun c' hc' => hnone c' (Or.inr hc')⟩
    · cases e with
      | flush => simp at hc
      | change ch =>
          rw [currentDiff_change, lastChange_of_ne hno] at hc
          exact h.latest c hc c' (hbuf c' hc')

/-- What freshness after a change of a node says about the state before it. -/
lemma stepOk_of_fresh (h : ∀ id, (s.step env e).Fresh env (evs ++ [e]) id) : s.StepOk env e := by
  rintro id o hw
  have hmap := resolvedFrom_ne_exported_iff.mp
    ((h id).exported (by rw [lastChange_of_eq hw]; simp))
  refine ⟨hmap, ?_⟩
  rintro c rfl
  rcases hover : s.overlay id with _ | c'
  · exact Or.inl rfl
  · refine Or.inr (congrArg some ((h id).latest c c' ?_ ?_))
    · cases e with
      | flush => simp [nodeChange] at hw
      | change ch => rw [currentDiff_change, lastChange_of_eq hw]
    · rw [resolve, hmap, (step_coords_of_write hw).1, hover, Option.none_or, Option.some_or]

/-- **Freshness throughout a run** is that every change meets its condition. -/
theorem fresh_iff_stepOk (env : RegionalEnv) (d : TargetTables Content)
    (evs : List RegionalEvent) :
    (∀ pre, pre <+: evs → ∀ id, ((start d).run env pre).Fresh env pre id)
      ↔ ∀ pre e, pre ++ [e] <+: evs → ((start d).run env pre).StepOk env e := by
  constructor
  · intro h pre e hpre
    have hfresh : ∀ id, (((start d).run env pre).step env e).Fresh env (pre ++ [e]) id := by
      intro id
      rw [← run_concat]
      exact h _ hpre id
    exact stepOk_of_fresh hfresh
  · intro h pre hpre id
    refine Current.fresh ?_
    induction pre using List.reverseRecOn with
    | nil => exact ⟨by simp, by simp, by simp [currentDiff]⟩
    | append_singleton pre e ih =>
        rw [run_concat]
        exact current_step (ih ((List.prefix_append ..).trans hpre)) (h pre e hpre)

/-- A node promoted in one diff and moved in the next is still answered with its
old coordinate. -/
theorem moved_node_not_fresh : ¬ ∀ id, ((start ⟨fun _ => [], fun _ => []⟩).run openRegion
    [nodeAt .create 1 10 20, nodeAt .create 2 30 40, .change (.way .create segmentWay), .flush,
      nodeAt .modify 1 50 60]).Fresh openRegion
    [nodeAt .create 1 10 20, nodeAt .create 2 30 40, .change (.way .create segmentWay), .flush,
      nodeAt .modify 1 50 60] id := by
  intro h
  have hold : (⟨10, 20⟩ : Coord) = ⟨50, 60⟩ := (h 1).latest ⟨50, 60⟩ ⟨10, 20⟩ rfl rfl
  exact absurd hold (by decide)

end RegionalApplier

end Gpsxdb
