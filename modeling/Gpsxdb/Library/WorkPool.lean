import Mathlib.Tactic

/-!
Workers that pull tasks off a shared counter.

A task is a list of actions on a shared state.  A worker claims the task the
counter shows, runs its actions one by one and claims again, until the counter has
passed the last task; the actions of different workers come in any order.

* `Worker`, `WorkPool`, `step`, `run`, `Finished`: the pool under a schedule;
* `Shuffle`: a trace that has the actions of every task in their order;
  `Shuffle.filter_eq`: the actions of one kind that only one task makes;
* `exists_shuffle`: **a finished pool has run a shuffle** of its tasks;
* `journal`, `shared_run`, `journal_subperm`, `journal_perm`: the actions a schedule
  runs, whether it finishes the pool or not: **none comes twice**;
* `exists_finished`: some schedule finishes it, from any state.
-/

namespace Gpsxdb

/-! ### Shuffles -/

section Shuffles

variable {A : Type*} {n : ℕ} {tasks : ℕ → List A} {trace : List (ℕ × A)}

/-- The actions of a task in a trace. -/
def actionsOf (trace : List (ℕ × A)) (i : ℕ) : List A :=
  (trace.filter fun x => x.1 = i).map Prod.snd

lemma actionsOf_concat (trace : List (ℕ × A)) (x : ℕ × A) (i : ℕ) :
    actionsOf (trace ++ [x]) i = actionsOf trace i ++ if x.1 = i then [x.2] else [] := by
  rw [actionsOf, List.filter_append, List.map_append]
  by_cases h : x.1 = i <;> simp [actionsOf, h]

/-- The actions of `n` tasks, those of each in its order. -/
structure Shuffle (n : ℕ) (tasks : ℕ → List A) (trace : List (ℕ × A)) : Prop where
  lt : ∀ x ∈ trace, x.1 < n
  actions : ∀ i < n, actionsOf trace i = tasks i

/-- Every action of a shuffle is one of its task. -/
lemma Shuffle.mem_tasks (h : Shuffle n tasks trace) {x : ℕ × A} (hx : x ∈ trace) :
    x.2 ∈ tasks x.1 := by
  rw [← h.actions x.1 (h.lt x hx)]
  exact List.mem_map.mpr ⟨x, List.mem_filter.mpr ⟨hx, by simp⟩, rfl⟩

/-- **Actions of a kind that only one task makes** come in the order of that task. -/
theorem Shuffle.filter_eq (h : Shuffle n tasks trace) {i : ℕ} (hi : i < n) {p : A → Bool}
    (hp : ∀ j < n, j ≠ i → ∀ a ∈ tasks j, p a = false) :
    (trace.map Prod.snd).filter p = (tasks i).filter p := by
  rw [← h.actions i hi, actionsOf, List.filter_map, List.filter_map, List.filter_filter]
  refine congrArg _ (List.filter_congr fun x hx => ?_)
  by_cases hxi : x.1 = i
  · simp [hxi]
  · have hnot := hp x.1 (h.lt x hx) hxi x.2 (h.mem_tasks hx)
    simp [hxi, hnot]

/-- Actions of a kind that no task makes do not come. -/
lemma Shuffle.filter_eq_nil (h : Shuffle n tasks trace) {p : A → Bool}
    (hp : ∀ j < n, ∀ a ∈ tasks j, p a = false) : (trace.map Prod.snd).filter p = [] := by
  rw [List.filter_eq_nil_iff]
  intro a ha
  obtain ⟨x, hx, rfl⟩ := List.mem_map.mp ha
  simp [hp x.1 (h.lt x hx) x.2 (h.mem_tasks hx)]

end Shuffles

/-! ### The pool -/

/-- A worker: before the counter, in a task with the actions still to run, or
through. -/
inductive Worker (A : Type*) where
  | idle
  | busy (i : ℕ) (rest : List A)
  | exited

/-- The counter, the workers and what they act on. -/
structure WorkPool (k : ℕ) (A S : Type*) where
  next : ℕ
  workers : Fin k → Worker A
  shared : S

section Steps

variable {A : Type*}

/-- The steps a worker still has in hand. -/
def Worker.steps : Worker A → ℕ
  | .idle => 1
  | .busy _ rest => rest.length + 2
  | .exited => 0

@[simp] lemma Worker.steps_idle : (idle : Worker A).steps = 1 := rfl

@[simp] lemma Worker.steps_busy (i : ℕ) (rest : List A) : (busy i rest).steps = rest.length + 2 :=
  rfl

@[simp] lemma Worker.steps_exited : (exited : Worker A).steps = 0 := rfl

end Steps

namespace WorkPool

variable {k : ℕ} {A S : Type*} (act : S → A → S) (n : ℕ) (tasks : ℕ → List A)

/-- All workers before the counter at zero. -/
def start (k : ℕ) (s : S) : WorkPool k A S := ⟨0, fun _ => .idle, s⟩

/-- One step of a worker. -/
def step (σ : WorkPool k A S) (t : Fin k) : WorkPool k A S :=
  match σ.workers t with
  | .idle =>
      { σ with
        next := σ.next + 1
        workers := Function.update σ.workers t
          (if σ.next < n then .busy σ.next (tasks σ.next) else .exited) }
  | .busy _ [] => { σ with workers := Function.update σ.workers t .idle }
  | .busy i (a :: rest) =>
      { σ with
        workers := Function.update σ.workers t (.busy i rest)
        shared := act σ.shared a }
  | .exited => σ

/-- The steps of a schedule. -/
def run (σ : WorkPool k A S) (schedule : List (Fin k)) : WorkPool k A S :=
  schedule.foldl (step act n tasks) σ

/-- All workers are through. -/
def Finished (σ : WorkPool k A S) : Prop := ∀ t, σ.workers t = .exited

/-- The same as a test. -/
def hasFinished (σ : WorkPool k A S) : Bool :=
  (List.finRange k).all fun t => match σ.workers t with
    | .exited => true
    | _ => false

lemma hasFinished_iff (σ : WorkPool k A S) : σ.hasFinished = true ↔ σ.Finished := by
  rw [hasFinished, List.all_eq_true]
  refine forall_congr' fun t => ?_
  cases σ.workers t <;> simp [List.mem_finRange]

variable {act n tasks} {s₀ : S} {σ : WorkPool k A S} {trace : List (ℕ × A)}

/-! ### What a pool has run -/

variable (act n tasks) in
/-- **The invariant**: what has been run is a trace; a task under way has one worker,
with the rest of its actions; a task claimed and not under way is complete. -/
structure Ran (s₀ : S) (σ : WorkPool k A S) (trace : List (ℕ × A)) : Prop where
  shared : σ.shared = (trace.map Prod.snd).foldl act s₀
  lt : ∀ x ∈ trace, x.1 < n ∧ x.1 < σ.next
  busy : ∀ t i rest, σ.workers t = .busy i rest →
    i < n ∧ i < σ.next ∧ actionsOf trace i ++ rest = tasks i
  own : ∀ t t' i rest rest', σ.workers t = .busy i rest → σ.workers t' = .busy i rest' → t = t'
  complete : ∀ i < n, i < σ.next → (∀ t rest, σ.workers t ≠ .busy i rest) →
    actionsOf trace i = tasks i
  exited : ∀ t, σ.workers t = .exited → n ≤ σ.next

lemma ran_start : Ran act n tasks s₀ (start k s₀) [] :=
  ⟨rfl, by simp, by simp [start], by simp [start], fun i _ hi => absurd hi (Nat.not_lt_zero i),
    by simp [start]⟩

/-- What a step of a worker leaves. -/
structure Stepped (σ σ' : WorkPool k A S) (t : Fin k) (next : ℕ) (shared : S) (w : Worker A) :
    Prop where
  next : σ'.next = next
  shared : σ'.shared = shared
  self : σ'.workers t = w
  other : ∀ u, u ≠ t → σ'.workers u = σ.workers u

lemma stepped (σ : WorkPool k A S) (t : Fin k) (next : ℕ) (shared : S) (w : Worker A) :
    Stepped σ ⟨next, Function.update σ.workers t w, shared⟩ t next shared w :=
  ⟨rfl, rfl, Function.update_self .., fun _ hu => Function.update_of_ne hu ..⟩

/-- A worker claims the next task, or leaves. -/
lemma Ran.claim {σ' : WorkPool k A S} (h : Ran act n tasks s₀ σ trace) {t : Fin k}
    (ht : σ.workers t = .idle) (hs : Stepped σ σ' t (σ.next + 1) σ.shared
      (if σ.next < n then .busy σ.next (tasks σ.next) else .exited)) :
    Ran act n tasks s₀ σ' trace := by
  obtain ⟨hnext, hshared, hself, hother⟩ := hs
  have hnone : actionsOf trace σ.next = [] := by
    rw [actionsOf, List.map_eq_nil_iff, List.filter_eq_nil_iff]
    intro x hx
    simpa using (h.lt x hx).2.ne
  have hclaim : ∀ i rest, σ'.workers t = .busy i rest →
      σ.next < n ∧ i = σ.next ∧ rest = tasks σ.next := by
    intro i rest hbusy
    rw [hself] at hbusy
    split at hbusy
    · obtain ⟨rfl, rfl⟩ := Worker.busy.inj hbusy
      exact ⟨‹_›, rfl, rfl⟩
    · simp at hbusy
  refine ⟨hshared.trans h.shared, fun x hx => ⟨(h.lt x hx).1, ?_⟩, fun u i rest hu => ?_,
    fun u u' i rest rest' hu hu' => ?_, fun i hi hlt hno => ?_, fun u hu => ?_⟩
  · have hlt := (h.lt x hx).2
    omega
  · by_cases hut : u = t
    · subst hut
      obtain ⟨hn, rfl, rfl⟩ := hclaim i rest hu
      exact ⟨hn, by omega, by rw [hnone, List.nil_append]⟩
    · rw [hother u hut] at hu
      obtain ⟨hin, hlt, hrest⟩ := h.busy u i rest hu
      exact ⟨hin, by omega, hrest⟩
  · by_cases hut : u = t <;> by_cases hut' : u' = t
    · rw [hut, hut']
    · subst hut
      rw [hother u' hut'] at hu'
      obtain ⟨-, rfl, -⟩ := hclaim i rest hu
      exact absurd (h.busy u' _ rest' hu').2.1 (lt_irrefl _)
    · subst hut'
      rw [hother u hut] at hu
      obtain ⟨-, rfl, -⟩ := hclaim i rest' hu'
      exact absurd (h.busy u _ rest hu).2.1 (lt_irrefl _)
    · rw [hother u hut] at hu
      rw [hother u' hut'] at hu'
      exact h.own u u' i rest rest' hu hu'
  · rw [hnext] at hlt
    rcases Nat.lt_succ_iff_lt_or_eq.mp hlt with hlt | rfl
    · refine h.complete i hi hlt fun u rest hu => ?_
      have hut : u ≠ t := by
        rintro rfl
        simp [ht] at hu
      exact hno u rest (by rw [hother u hut, hu])
    · exact absurd (by rw [hself, if_pos hi]) (hno t (tasks σ.next))
  · by_cases hut : u = t
    · subst hut
      rw [hself] at hu
      split at hu
      · simp at hu
      · omega
    · rw [hother u hut] at hu
      have hn := h.exited u hu
      omega

/-- A worker ends its task. -/
lemma Ran.leave {σ' : WorkPool k A S} (h : Ran act n tasks s₀ σ trace) {t : Fin k} {i : ℕ}
    (ht : σ.workers t = .busy i []) (hs : Stepped σ σ' t σ.next σ.shared .idle) :
    Ran act n tasks s₀ σ' trace := by
  obtain ⟨hnext, hshared, hself, hother⟩ := hs
  have hbusy : ∀ u j rest, σ'.workers u = .busy j rest → σ.workers u = .busy j rest := by
    intro u j rest hu
    by_cases hut : u = t
    · subst hut
      simp [hself] at hu
    · rwa [hother u hut] at hu
  refine ⟨hshared.trans h.shared, by rw [hnext]; exact h.lt, fun u j rest hu => ?_,
    fun u u' j rest rest' hu hu' => h.own u u' j rest rest' (hbusy u j rest hu)
      (hbusy u' j rest' hu'), fun j hj hlt hno => ?_, fun u hu => ?_⟩
  · rw [hnext]
    exact h.busy u j rest (hbusy u j rest hu)
  · by_cases hji : j = i
    · subst hji
      have hrest := (h.busy t j [] ht).2.2
      rwa [List.append_nil] at hrest
    · refine h.complete j hj (hnext ▸ hlt) fun u rest hu => ?_
      have hut : u ≠ t := by
        rintro rfl
        rw [ht] at hu
        exact hji (Worker.busy.inj hu).1.symm
      exact hno u rest (by rw [hother u hut, hu])
  · by_cases hut : u = t
    · subst hut
      simp [hself] at hu
    · rw [hother u hut] at hu
      rw [hnext]
      exact h.exited u hu

/-- A worker runs the next action of its task. -/
lemma Ran.advance {σ' : WorkPool k A S} (h : Ran act n tasks s₀ σ trace) {t : Fin k} {i : ℕ}
    {a : A} {rest : List A} (ht : σ.workers t = .busy i (a :: rest))
    (hs : Stepped σ σ' t σ.next (act σ.shared a) (.busy i rest)) :
    Ran act n tasks s₀ σ' (trace ++ [(i, a)]) := by
  obtain ⟨hnext, hshared, hself, hother⟩ := hs
  obtain ⟨hin, hlt, hrest⟩ := h.busy t i _ ht
  have hsame : ∀ j, j ≠ i → actionsOf (trace ++ [(i, a)]) j = actionsOf trace j := by
    intro j hj
    rw [actionsOf_concat, if_neg (Ne.symm hj), List.append_nil]
  -- the others are busy with other tasks
  have hne : ∀ u j r, u ≠ t → σ.workers u = .busy j r → j ≠ i := by
    rintro u j r hut hu rfl
    exact hut (h.own u t j _ _ hu ht)
  refine ⟨by simp [hshared, h.shared], fun x hx => ?_, fun u j r hu => ?_,
    fun u u' j r r' hu hu' => ?_, fun j hj hjlt hno => ?_, fun u hu => ?_⟩
  · rw [hnext]
    rcases List.mem_append.mp hx with hx | hx
    · exact h.lt x hx
    · rw [List.mem_singleton.mp hx]
      exact ⟨hin, hlt⟩
  · rw [hnext]
    by_cases hut : u = t
    · subst hut
      obtain ⟨rfl, rfl⟩ := Worker.busy.inj (hself.symm.trans hu)
      refine ⟨hin, hlt, ?_⟩
      rw [actionsOf_concat, if_pos rfl, List.append_assoc, List.singleton_append, hrest]
    · rw [hother u hut] at hu
      rw [hsame j (hne u j r hut hu)]
      exact h.busy u j r hu
  · by_cases hut : u = t <;> by_cases hut' : u' = t
    · rw [hut, hut']
    · subst hut
      rw [hother u' hut'] at hu'
      exact absurd (Worker.busy.inj (hself.symm.trans hu)).1.symm (hne u' j r' hut' hu')
    · subst hut'
      rw [hother u hut] at hu
      exact absurd (Worker.busy.inj (hself.symm.trans hu')).1.symm (hne u j r hut hu)
    · rw [hother u hut] at hu
      rw [hother u' hut'] at hu'
      exact h.own u u' j r r' hu hu'
  · have hji : j ≠ i := by
      rintro rfl
      exact hno t rest hself
    rw [hsame j hji]
    refine h.complete j hj (hnext ▸ hjlt) fun u r hu => ?_
    have hut : u ≠ t := by
      rintro rfl
      rw [ht] at hu
      exact hji (Worker.busy.inj hu).1.symm
    exact hno u r (by rw [hother u hut, hu])
  · by_cases hut : u = t
    · subst hut
      simp [hself] at hu
    · rw [hother u hut] at hu
      rw [hnext]
      exact h.exited u hu

/-- **Every step keeps the invariant**, on a longer trace or the same. -/
lemma ran_step (h : Ran act n tasks s₀ σ trace) (t : Fin k) :
    ∃ trace', Ran act n tasks s₀ (σ.step act n tasks t) trace' := by
  rw [step]
  split
  · exact ⟨trace, h.claim ‹_› (stepped ..)⟩
  · exact ⟨trace, h.leave ‹_› (stepped ..)⟩
  · exact ⟨_, h.advance ‹_› (stepped ..)⟩
  · exact ⟨trace, h⟩

lemma ran_run (h : Ran act n tasks s₀ σ trace) (schedule : List (Fin k)) :
    ∃ trace', Ran act n tasks s₀ (σ.run act n tasks schedule) trace' := by
  induction schedule generalizing σ trace with
  | nil => exact ⟨trace, h⟩
  | cons t schedule ih =>
      obtain ⟨trace', h'⟩ := ran_step h t
      exact ih h'

/-- **A finished pool has run a shuffle of its tasks.** -/
theorem exists_shuffle (hk : 0 < k) {schedule : List (Fin k)}
    (hfin : ((start k s₀).run act n tasks schedule).Finished) :
    ∃ trace, Shuffle n tasks trace
      ∧ ((start k s₀).run act n tasks schedule).shared = (trace.map Prod.snd).foldl act s₀ := by
  obtain ⟨trace, h⟩ := ran_run ran_start schedule
  have hn := h.exited ⟨0, hk⟩ (hfin _)
  refine ⟨trace, ⟨fun x hx => (h.lt x hx).1, fun i hi => ?_⟩, h.shared⟩
  exact h.complete i hi (by omega) fun t rest ht => by simp [hfin t] at ht

/-! ### The journal -/

/-- A pool and one that keeps the list of its actions, after the same schedule. -/
structure Alike (act : S → A → S) (s₀ : S) (σ : WorkPool k A S) (τ : WorkPool k A (List A)) :
    Prop where
  next : σ.next = τ.next
  workers : σ.workers = τ.workers
  shared : σ.shared = τ.shared.foldl act s₀

lemma Alike.step {τ : WorkPool k A (List A)} (h : Alike act s₀ σ τ) (t : Fin k) :
    Alike act s₀ (σ.step act n tasks t) (τ.step (fun done a => done ++ [a]) n tasks t) := by
  obtain ⟨hnext, hworkers, hshared⟩ := h
  rw [WorkPool.step, WorkPool.step, hworkers, hnext]
  cases τ.workers t with
  | idle => exact ⟨rfl, rfl, hshared⟩
  | exited => exact ⟨hnext, hworkers, hshared⟩
  | busy i rest =>
      cases rest with
      | nil => exact ⟨rfl, rfl, hshared⟩
      | cons a rest =>
          refine ⟨rfl, rfl, ?_⟩
          rw [hshared, List.foldl_append, List.foldl_cons, List.foldl_nil]

lemma Alike.run {τ : WorkPool k A (List A)} (h : Alike act s₀ σ τ) (schedule : List (Fin k)) :
    Alike act s₀ (σ.run act n tasks schedule)
      (τ.run (fun done a => done ++ [a]) n tasks schedule) := by
  induction schedule generalizing σ τ with
  | nil => exact h
  | cons t schedule ih => exact ih (h.step t)

variable (n tasks) in
/-- The actions that a schedule runs, in their order. -/
def journal (schedule : List (Fin k)) : List A :=
  ((start k []).run (fun done a => done ++ [a]) n tasks schedule).shared

/-- **Whatever the actions do, a schedule runs its journal.** -/
theorem shared_run (schedule : List (Fin k)) : ((start k s₀).run act n tasks schedule).shared
    = (journal n tasks schedule).foldl act s₀ := by
  have hstart : Alike act s₀ (start k s₀) (start k []) := ⟨rfl, rfl, rfl⟩
  exact (hstart.run schedule).shared

lemma foldl_concat (l done : List A) : l.foldl (fun done a => done ++ [a]) done = done ++ l := by
  induction l generalizing done with
  | nil => rw [List.foldl_nil, List.append_nil]
  | cons a l ih => rw [List.foldl_cons, ih, List.append_assoc, List.singleton_append]

/-- A task has run up to some action. -/
lemma Ran.isPrefix (h : Ran act n tasks s₀ σ trace) {i : ℕ} (hi : i < n) :
    actionsOf trace i <+: tasks i := by
  by_cases hlt : i < σ.next
  · by_cases hbusy : ∃ t rest, σ.workers t = .busy i rest
    · obtain ⟨t, rest, ht⟩ := hbusy
      rw [← (h.busy t i rest ht).2.2]
      exact List.prefix_append _ _
    · rw [h.complete i hi hlt fun t rest ht => hbusy ⟨t, rest, ht⟩]
  · have hnone : actionsOf trace i = [] := by
      rw [actionsOf, List.map_eq_nil_iff, List.filter_eq_nil_iff]
      intro x hx
      have hx := (h.lt x hx).2
      rw [decide_eq_true_eq]
      omega
    rw [hnone]
    exact List.nil_prefix

/-- One action a task: those of a list. -/
def actionAt (l : List A) (i : ℕ) : List A := l[i]?.toList

/-- The journal of single actions, by the order of their tasks. -/
lemma exists_order (hk : 0 < k) (l : List A) (schedule : List (Fin k)) :
    ∃ order : List ℕ, order.Nodup ∧ (∀ i ∈ order, i < l.length)
      ∧ journal l.length (actionAt l) schedule = order.filterMap (l[·]?)
      ∧ (((start k []).run (fun done a => done ++ [a]) l.length (actionAt l) schedule).Finished →
        ∀ i < l.length, i ∈ order) := by
  have hstart : Ran (fun done a => done ++ [a]) l.length (actionAt l) [] (start k []) [] :=
    ran_start
  obtain ⟨trace, h⟩ := ran_run hstart schedule
  have hcount : ∀ i, (trace.map Prod.fst).count i = (actionsOf trace i).length := by
    intro i
    rw [List.count, List.countP_map, List.countP_eq_length_filter, actionsOf, List.length_map]
    exact congrArg List.length (List.filter_congr fun x _ => by
      rw [Function.comp_apply, Bool.beq_eq_decide_eq])
  have hmem : ∀ x ∈ trace, l[x.1]? = some x.2 := by
    intro x hx
    have hin : x.2 ∈ actionsOf trace x.1 :=
      List.mem_map.mpr ⟨x, List.mem_filter.mpr ⟨hx, by simp⟩, rfl⟩
    exact Option.mem_toList.mp ((h.isPrefix (h.lt x hx).1).subset hin)
  refine ⟨trace.map Prod.fst, ?_, fun i hi => ?_, ?_, fun hfin i hi => ?_⟩
  · rw [List.nodup_iff_count_le_one]
    intro i
    rw [hcount]
    by_cases hi : i < l.length
    · refine (h.isPrefix hi).length_le.trans ?_
      rw [actionAt, List.getElem?_eq_getElem hi, Option.toList_some, List.length_singleton]
    · rw [← hcount, List.count_eq_zero_of_not_mem]
      · exact Nat.zero_le 1
      · intro hmem
        obtain ⟨x, hx, rfl⟩ := List.mem_map.mp hmem
        exact hi (h.lt x hx).1
  · obtain ⟨x, hx, rfl⟩ := List.mem_map.mp hi
    exact (h.lt x hx).1
  · have hjournal : journal l.length (actionAt l) schedule = trace.map Prod.snd := by
      rw [journal, h.shared, foldl_concat, List.nil_append]
    rw [hjournal, List.filterMap_map]
    exact (List.filterMap_eq_map_iff_forall_eq_some.mpr hmem).symm
  · have hnext := h.exited ⟨0, hk⟩ (hfin _)
    have hcomplete := h.complete i hi (by omega) fun t rest ht => by simp [hfin t] at ht
    have hone : (actionsOf trace i).length = 1 := by
      rw [hcomplete, actionAt, List.getElem?_eq_getElem hi, Option.toList_some,
        List.length_singleton]
    exact List.count_pos_iff.mp (by rw [hcount, hone]; exact Nat.one_pos)

lemma filterMap_range_getElem? (l : List A) : (List.range l.length).filterMap (l[·]?) = l := by
  induction l with
  | nil => rfl
  | cons a l ih =>
      rw [List.length_cons, List.range_succ_eq_map,
        List.filterMap_cons_some (List.getElem?_cons_zero ..), List.filterMap_map]
      exact congrArg _ ih

/-- **No action comes twice**: the journal is a part of the list. -/
theorem journal_subperm (hk : 0 < k) (l : List A) (schedule : List (Fin k)) :
    (journal l.length (actionAt l) schedule).Subperm l := by
  obtain ⟨order, hnodup, hlt, hjournal, -⟩ := exists_order hk l schedule
  obtain ⟨order', hperm, hsub⟩ :=
    hnodup.subperm fun i hi => List.mem_range.mpr (hlt i hi)
  rw [hjournal]
  refine ⟨order'.filterMap (l[·]?), hperm.filterMap _, ?_⟩
  have hpart := hsub.filterMap (l[·]?)
  rwa [filterMap_range_getElem?] at hpart

/-- **A finished pool has run every action of the list.** -/
theorem journal_perm (hk : 0 < k) {l : List A} {schedule : List (Fin k)}
    (hfin : ((start k []).run (fun done a => done ++ [a]) l.length (actionAt l)
      schedule).Finished) : (journal l.length (actionAt l) schedule).Perm l := by
  obtain ⟨order, hnodup, hlt, hjournal, hall⟩ := exists_order hk l schedule
  have hperm : order.Perm (List.range l.length) := by
    rw [List.perm_ext_iff_of_nodup hnodup List.nodup_range]
    intro i
    rw [List.mem_range]
    exact ⟨hlt i, hall hfin i⟩
  have hall := hperm.filterMap (l[·]?)
  rwa [filterMap_range_getElem?, ← hjournal] at hall

/-! ### Progress -/

variable (n tasks) in
/-- The steps a pool still has to make. -/
def steps (σ : WorkPool k A S) : ℕ :=
  ∑ i ∈ Finset.Ico σ.next n, ((tasks i).length + 2) + ∑ t, Worker.steps (σ.workers t)

/-- The steps of the workers before and after one of them moves. -/
lemma sum_steps {σ' : WorkPool k A S} {t : Fin k} {next : ℕ} {shared : S} {w : Worker A}
    (hs : Stepped σ σ' t next shared w) : (∑ u, Worker.steps (σ'.workers u))
      + Worker.steps (σ.workers t) = (∑ u, Worker.steps (σ.workers u)) + Worker.steps w := by
  have hrest : ∑ u ∈ Finset.univ.erase t, Worker.steps (σ'.workers u)
      = ∑ u ∈ Finset.univ.erase t, Worker.steps (σ.workers u) :=
    Finset.sum_congr rfl fun u hu => by rw [hs.other u (Finset.ne_of_mem_erase hu)]
  rw [← Finset.add_sum_erase _ _ (Finset.mem_univ t), ← Finset.add_sum_erase Finset.univ
    (fun u => Worker.steps (σ.workers u)) (Finset.mem_univ t), hrest, hs.self]
  omega

/-- Every step of a worker that is not through is progress. -/
lemma steps_step_lt (act : S → A → S) {t : Fin k} (ht : σ.workers t ≠ .exited) :
    (σ.step act n tasks t).steps n tasks < σ.steps n tasks := by
  rw [step]
  split
  · rename_i hw
    have hsum := sum_steps (stepped σ t (σ.next + 1) σ.shared
      (if σ.next < n then .busy σ.next (tasks σ.next) else .exited))
    rw [hw, Worker.steps_idle] at hsum
    simp only [steps]
    by_cases hn : σ.next < n
    · rw [Finset.sum_eq_sum_Ico_succ_bot hn]
      simp only [hn, if_true, Worker.steps_busy] at hsum ⊢
      omega
    · rw [Finset.Ico_eq_empty (by omega), Finset.Ico_eq_empty hn]
      simp only [hn, if_false, Worker.steps_exited] at hsum ⊢
      omega
  · rename_i hw
    have hsum := sum_steps (stepped σ t σ.next σ.shared .idle)
    rw [hw, Worker.steps_busy, Worker.steps_idle] at hsum
    simp only [steps]
    dsimp only at hsum ⊢
    omega
  · rename_i i a rest hw
    have hsum := sum_steps (stepped σ t σ.next (act σ.shared a) (.busy i rest))
    rw [hw, Worker.steps_busy, Worker.steps_busy, List.length_cons] at hsum
    simp only [steps]
    dsimp only at hsum ⊢
    omega
  · exact absurd ‹_› ht

/-- **Some schedule finishes a pool**, from any state. -/
theorem exists_finished (act : S → A → S) (n : ℕ) (tasks : ℕ → List A) (σ : WorkPool k A S) :
    ∃ schedule, (σ.run act n tasks schedule).Finished := by
  induction hm : σ.steps n tasks using Nat.strong_induction_on generalizing σ with
  | _ m ih =>
      by_cases hfin : σ.Finished
      · exact ⟨[], hfin⟩
      · obtain ⟨t, ht⟩ := not_forall.mp hfin
        obtain ⟨schedule, hs⟩ := ih _ (hm ▸ steps_step_lt act ht) (σ.step act n tasks t) rfl
        exact ⟨t :: schedule, hs⟩

end WorkPool

end Gpsxdb
