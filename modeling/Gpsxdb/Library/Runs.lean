import Mathlib.Tactic

/-!
Runs of a machine whose step may fail, and the map a log of keyed writes leaves.

* `foldlM_cons_eq_some`, `foldlM_append_of_run`: a run step by step and in two parts;
* `foldlM_simulation`: a step-by-step simulation by a total machine carries
  over to whole runs;
* `foldlM_invariant_of`, `foldlM_invariant`: an invariant of every step holds at the end
  of a run;
* `foldlM_isSome`: a run whose every step succeeds under an invariant succeeds;
* `foldlM_length_le`: a run is no longer than the measure its steps use up;
* `foldlM_distinct`, `foldlM_distinct_isSome`: steps that each touch a place of
  their own leave every place as its own step alone would;
* `observe`, `replay`: the map a log of events leaves, each event writing at
  most one key; `replay_eq_some_iff` reads a value off the log as that of the
  last write of its key.
-/

namespace Gpsxdb

variable {σ τ ι : Type*}

/-! ### Runs that may fail -/

/-- A run is its first step and the run behind it. -/
lemma foldlM_cons_eq_some {step : σ → ι → Option σ} {s s' : σ} {i : ι} {es : List ι} :
    (i :: es).foldlM step s = some s' ↔ ∃ u, step s i = some u ∧ es.foldlM step u = some s' := by
  rw [List.foldlM_cons, Option.bind_eq_bind, Option.bind_eq_some_iff]

lemma foldlM_cons_of_step {step : σ → ι → Option σ} {s u : σ} {i : ι} (h : step s i = some u)
    (es : List ι) : (i :: es).foldlM step s = es.foldlM step u := by
  rw [List.foldlM_cons, h, Option.bind_eq_bind, Option.bind_some]

/-- A run in two parts. -/
lemma foldlM_append_of_run {step : σ → ι → Option σ} {s u : σ} {es : List ι}
    (h : es.foldlM step s = some u) (es' : List ι) :
    (es ++ es').foldlM step s = es'.foldlM step u := by
  rw [List.foldlM_append, h, Option.bind_eq_bind, Option.bind_some]

/-- **Simulation along a run**: a relation that every allowed step carries to
the step of a total machine relates the ends of any two runs. -/
theorem foldlM_simulation {step : σ → ι → Option σ} {spec : τ → ι → τ} {R : σ → τ → Prop}
    {P : ι → Prop}
    (hstep : ∀ s t i s', P i → R s t → step s i = some s' → R s' (spec t i))
    {es : List ι} (hP : ∀ i ∈ es, P i) {s s' : σ} {t : τ} (hR : R s t)
    (h : es.foldlM step s = some s') : R s' (es.foldl spec t) := by
  induction es generalizing s t with
  | nil =>
      obtain rfl := Option.some.inj h
      exact hR
  | cons i es ih =>
      obtain ⟨u, hu, h⟩ := foldlM_cons_eq_some.mp h
      exact ih (fun j hj => hP j (List.mem_cons_of_mem _ hj))
        (hstep s t i u (hP i (List.mem_cons_self ..)) hR hu) h

/-- An invariant kept by every allowed step holds at the end of an allowed run. -/
lemma foldlM_invariant_of {step : σ → ι → Option σ} {I : σ → Prop} {P : ι → Prop}
    (hstep : ∀ s i s', P i → I s → step s i = some s' → I s') {es : List ι}
    (hP : ∀ i ∈ es, P i) {s s' : σ} (hI : I s) (h : es.foldlM step s = some s') : I s' := by
  induction es generalizing s with
  | nil =>
      obtain rfl := Option.some.inj h
      exact hI
  | cons i es ih =>
      obtain ⟨u, hu, h⟩ := foldlM_cons_eq_some.mp h
      exact ih (fun j hj => hP j (List.mem_cons_of_mem _ hj))
        (hstep s i u (hP i (List.mem_cons_self ..)) hI hu) h

/-- An invariant kept by every step holds at the end of a run. -/
lemma foldlM_invariant {step : σ → ι → Option σ} {I : σ → Prop}
    (hstep : ∀ s i s', I s → step s i = some s' → I s') {es : List ι} {s s' : σ} (hI : I s)
    (h : es.foldlM step s = some s') : I s' :=
  foldlM_invariant_of (P := fun _ => True) (fun s i s' _ => hstep s i s') (fun _ _ => trivial) hI h

/-- **Progress along a run**: where every allowed step succeeds from a state of
the invariant, every allowed run does. -/
theorem foldlM_isSome {step : σ → ι → Option σ} {I : σ → Prop} {P : ι → Prop}
    (hstep : ∀ s i, P i → I s → ∃ s', step s i = some s' ∧ I s') {es : List ι}
    (hP : ∀ i ∈ es, P i) {s : σ} (hI : I s) : ∃ s', es.foldlM step s = some s' := by
  induction es generalizing s with
  | nil => exact ⟨s, rfl⟩
  | cons i es ih =>
      obtain ⟨u, hu, hIu⟩ := hstep s i (hP i (List.mem_cons_self ..)) hI
      obtain ⟨s', hs'⟩ := ih (fun j hj => hP j (List.mem_cons_of_mem _ hj)) hIu
      refine ⟨s', ?_⟩
      rw [foldlM_cons_of_step hu, hs']

/-- Where every step from a state of the invariant uses up some of a measure, a run
is no longer than what it uses up. -/
lemma foldlM_length_le {step : σ → ι → Option σ} {I : σ → Prop} {μ : σ → ℕ}
    (hstep : ∀ s i s', I s → step s i = some s' → I s' ∧ μ s' < μ s) {es : List ι} {s s' : σ}
    (hI : I s) (h : es.foldlM step s = some s') : es.length + μ s' ≤ μ s := by
  induction es generalizing s with
  | nil =>
      obtain rfl := Option.some.inj h
      simp
  | cons i es ih =>
      obtain ⟨u, hu, h⟩ := foldlM_cons_eq_some.mp h
      obtain ⟨hIu, hlt⟩ := hstep s i u hI hu
      have hle := ih hIu h
      rw [List.length_cons]
      omega

/-! ### Steps at distinct places -/

section Distinct

variable {κ γ : Type*} (read : κ → σ → γ) (place : ι → κ) (step : σ → ι → Option σ)

/-- **Steps at distinct places**: each place ends up as its own step alone would
leave it, and a place without a step as it was. -/
theorem foldlM_distinct
    (hother : ∀ s i s' k, step s i = some s' → k ≠ place i → read k s' = read k s)
    (hown : ∀ s r i, read (place i) s = read (place i) r →
      (step s i).map (read (place i)) = (step r i).map (read (place i)))
    {is : List ι} (hnd : (is.map place).Nodup) {s s' : σ} (h : is.foldlM step s = some s') :
    (∀ i ∈ is, (step s i).map (read (place i)) = some (read (place i) s'))
      ∧ ∀ k, k ∉ is.map place → read k s' = read k s := by
  induction is generalizing s with
  | nil =>
      obtain rfl := Option.some.inj h
      exact ⟨fun i hi => absurd hi List.not_mem_nil, fun _ _ => rfl⟩
  | cons i is ih =>
      rw [List.map_cons, List.nodup_cons] at hnd
      obtain ⟨u, hu, h⟩ := foldlM_cons_eq_some.mp h
      obtain ⟨hin, hout⟩ := ih hnd.2 h
      refine ⟨fun j hj => ?_, fun k hk => ?_⟩
      · cases List.mem_cons.mp hj with
        | inl hji =>
            subst hji
            rw [hu, Option.map_some, hout _ hnd.1]
        | inr hj =>
            have hne : place j ≠ place i := fun heq =>
              hnd.1 (heq ▸ List.mem_map_of_mem hj)
            rw [← hin j hj]
            exact (hown u s j (hother s i u _ hu hne)).symm
      · rw [List.map_cons, List.mem_cons, not_or] at hk
        rw [hout k hk.2, hother s i u k hu hk.1]

/-- Such steps go through exactly where each alone does. -/
theorem foldlM_distinct_isSome
    (hother : ∀ s i s' k, step s i = some s' → k ≠ place i → read k s' = read k s)
    (hown : ∀ s r i, read (place i) s = read (place i) r →
      (step s i).map (read (place i)) = (step r i).map (read (place i)))
    {is : List ι} (hnd : (is.map place).Nodup) (s : σ) :
    (is.foldlM step s).isSome ↔ ∀ i ∈ is, (step s i).isSome := by
  induction is generalizing s with
  | nil => simp
  | cons i is ih =>
      rw [List.map_cons, List.nodup_cons] at hnd
      rw [List.foldlM_cons, List.forall_mem_cons, Option.bind_eq_bind]
      cases hu : step s i with
      | none => simp
      | some u =>
          have hsame : ∀ j ∈ is, (step u j).isSome = (step s j).isSome := by
            intro j hj
            have hne : place j ≠ place i := fun heq => hnd.1 (heq ▸ List.mem_map_of_mem hj)
            have hmap := congrArg Option.isSome (hown u s j (hother s i u _ hu hne))
            rwa [Option.isSome_map, Option.isSome_map] at hmap
          rw [Option.bind_some, ih hnd.2, Option.isSome_some, eq_self, true_and]
          exact forall₂_congr fun j hj => by rw [hsame j hj]

end Distinct

/-! ### Logs of keyed writes -/

section Keyed

variable {K V : Type*} [DecidableEq K] (write : ι → Option (K × Option V))

/-- The effect of one event on a map: the write it makes, `none` erasing. -/
def observe (m : K → Option V) (e : ι) : K → Option V :=
  match write e with
  | none => m
  | some (k, v) => Function.update m k v

/-- The map a log leaves, from the empty one. -/
def replay (es : List ι) : K → Option V := es.foldl (observe write) fun _ => none

/-- An event that does not write a key leaves it. -/
lemma observe_of_ne {m : K → Option V} {e : ι} {k : K} (h : ∀ o, write e ≠ some (k, o)) :
    observe write m e k = m k := by
  rw [observe]
  rcases hw : write e with _ | ⟨k', v⟩
  · rfl
  · exact Function.update_of_ne (fun hk => h v (by rw [hw, hk])) _ _

lemma observe_of_eq {m : K → Option V} {e : ι} {k : K} {v : Option V}
    (h : write e = some (k, v)) : observe write m e k = v := by
  rw [observe, h]
  exact Function.update_self ..

/-- The log one event longer. -/
lemma replay_append_singleton (es : List ι) (e : ι) :
    replay write (es ++ [e]) = observe write (replay write es) e := by
  rw [replay, List.foldl_append]
  rfl

/-- The ways to split a list one element longer. -/
lemma append_singleton_eq_append_cons {es pre post : List ι} {e q : ι}
    (h : es ++ [e] = pre ++ q :: post) :
    (es = pre ∧ e = q ∧ post = [])
      ∨ ∃ post', post = post' ++ [e] ∧ es = pre ++ q :: post' := by
  rcases List.eq_nil_or_concat post with rfl | ⟨post', f, rfl⟩
  · obtain ⟨h1, h2⟩ := List.append_inj' h rfl
    exact Or.inl ⟨h1, List.singleton_inj.mp h2, rfl⟩
  · have h' : es ++ [e] = (pre ++ q :: post') ++ [f] := by simpa using h
    obtain ⟨h1, h2⟩ := List.append_inj' h' rfl
    obtain rfl := List.singleton_inj.mp h2
    exact Or.inr ⟨post', by simp, h1⟩

/-- **Last write wins**: a log leaves a value under a key exactly when the last
event that writes the key writes that value. -/
theorem replay_eq_some_iff {es : List ι} {k : K} {v : V} :
    replay write es k = some v ↔ ∃ pre e post, es = pre ++ e :: post
      ∧ write e = some (k, some v) ∧ ∀ e' ∈ post, ∀ o, write e' ≠ some (k, o) := by
  induction es using List.reverseRecOn with
  | nil => simp [replay]
  | append_singleton es e ih =>
      rw [replay_append_singleton]
      by_cases hw : ∃ o, write e = some (k, o)
      · -- the event writes the key: it is the last to do so
        obtain ⟨o, ho⟩ := hw
        rw [observe_of_eq write ho]
        constructor
        · rintro rfl
          exact ⟨es, e, [], rfl, ho, by simp⟩
        · rintro ⟨pre, e', post, heq, he', hpost⟩
          rcases append_singleton_eq_append_cons heq with ⟨-, rfl, -⟩ | ⟨post', rfl, -⟩
          · rw [ho] at he'
            simpa using he'
          · exact absurd ho (hpost e (by simp) o)
      · -- it does not: the last write is the one of the shorter log
        rw [not_exists] at hw
        rw [observe_of_ne write hw, ih]
        constructor
        · rintro ⟨pre, e', post, rfl, he', hpost⟩
          refine ⟨pre, e', post ++ [e], by simp, he', fun f hf => ?_⟩
          rcases List.mem_append.mp hf with hf | hf
          · exact hpost f hf
          · rw [List.mem_singleton.mp hf]
            exact hw
        · rintro ⟨pre, e', post, heq, he', hpost⟩
          rcases append_singleton_eq_append_cons heq with ⟨-, rfl, -⟩ | ⟨post', rfl, rfl⟩
          · exact absurd he' (hw _)
          · exact ⟨pre, e', post', rfl, he', fun f hf => hpost f (by simp [hf])⟩

end Keyed

end Gpsxdb
