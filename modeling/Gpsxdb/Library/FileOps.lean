import Mathlib.Tactic
import Gpsxdb.Library.WorkPool

/-!
Files that the tasks of a pool create and write to, each under its name.

* `FileOp`, `act`: creating a file and appending to it;
* `foldl_act`: a file is a matter of the operations on it;
  `foldl_create_append`: a file created once and then written to;
* `Shuffle.foldl_act`: **a file that only one task touches** is what that task
  writes, in whatever order the tasks are run;
* `foldl_unlink`: a loop that reads some files and takes each away.
-/

namespace Gpsxdb

/-- An operation on a file. -/
inductive FileOp (P β : Type*) where
  | create (p : P)
  | append (p : P) (bs : List β)

namespace FileOp

variable {P β : Type*}

/-- The file it is on. -/
def path : FileOp P β → P
  | create p => p
  | append p _ => p

variable [DecidableEq P]

/-- An operation on the files. -/
def act (files : P → Option (List β)) : FileOp P β → P → Option (List β)
  | create p => Function.update files p (some [])
  | append p bs => Function.update files p ((files p).map (· ++ bs))

lemma act_of_ne {op : FileOp P β} {p : P} (h : op.path ≠ p) (files : P → Option (List β)) :
    act files op p = files p := by
  cases op with
  | create q => exact Function.update_of_ne (Ne.symm h) ..
  | append q bs => exact Function.update_of_ne (Ne.symm h) ..

/-- An operation on a file is a matter of that file's content. -/
lemma act_congr {op : FileOp P β} {p : P} {files files' : P → Option (List β)}
    (h : files p = files' p) : act files op p = act files' op p := by
  by_cases hp : op.path = p
  · subst hp
    cases op with
    | create p => simp [act, path]
    | append p bs =>
        rw [path] at h
        simp [act, path, h]
  · rw [act_of_ne hp, act_of_ne hp, h]

/-- **A file after some operations** is a matter of those on it. -/
theorem foldl_act (ops : List (FileOp P β)) (files : P → Option (List β)) (p : P) :
    ops.foldl act files p = (ops.filter fun op => op.path = p).foldl act files p := by
  have hcongr : ∀ (l : List (FileOp P β)) {files files' : P → Option (List β)},
      files p = files' p → l.foldl act files p = l.foldl act files' p := by
    intro l
    induction l with
    | nil => exact fun h => h
    | cons op l ih => exact fun h => ih (act_congr h)
  induction ops generalizing files with
  | nil => rfl
  | cons op ops ih =>
      rw [List.foldl_cons, ih, List.filter_cons]
      by_cases hp : op.path = p
      · rw [if_pos (by simpa using hp), List.foldl_cons]
      · rw [if_neg (by simpa using hp)]
        exact hcongr _ (act_of_ne hp files)

/-- A file created once and then written to. -/
lemma foldl_create_append (p : P) (chunks : List (List β)) (files : P → Option (List β)) :
    (create p :: chunks.map (append p)).foldl act files p = some chunks.flatten := by
  have happend : ∀ (old : List β) (files : P → Option (List β)), files p = some old →
      (chunks.map (append p)).foldl act files p = some (old ++ chunks.flatten) := by
    induction chunks with
    | nil => exact fun old files h => by simp [h]
    | cons c chunks ih =>
        intro old files h
        rw [List.map_cons, List.foldl_cons, List.flatten_cons, ← List.append_assoc]
        exact ih (old ++ c) _ (by simp [act, h])
  exact happend [] _ (by simp [act])

end FileOp

/-- **A file that only one task touches** is what that task makes of it. -/
theorem Shuffle.foldl_act {P β : Type*} [DecidableEq P] {n : ℕ} {tasks : ℕ → List (FileOp P β)}
    {trace : List (ℕ × FileOp P β)} (h : Shuffle n tasks trace) {i : ℕ} (hi : i < n) {p : P}
    (hp : ∀ j < n, j ≠ i → ∀ op ∈ tasks j, op.path ≠ p) (files : P → Option (List β)) :
    (trace.map Prod.snd).foldl FileOp.act files p
      = ((tasks i).filter fun op => op.path = p).foldl FileOp.act files p := by
  rw [FileOp.foldl_act, h.filter_eq hi fun j hj hne op hop => ?_]
  simpa using hp j hj hne op hop

/-- A loop that reads some files and unlinks each. -/
lemma foldl_unlink {P β ρ : Type*} [DecidableEq P] (g : Option (List β) → List ρ) {paths : List P}
    (hnd : paths.Nodup) (out : List ρ) (files : P → Option (List β)) :
    paths.foldl (fun (s : List ρ × (P → Option (List β))) p =>
        (s.1 ++ g (s.2 p), Function.update s.2 p none)) (out, files)
      = (out ++ paths.flatMap fun p => g (files p),
          fun p => if p ∈ paths then none else files p) := by
  induction paths generalizing out files with
  | nil => simp
  | cons q paths ih =>
      obtain ⟨hq, hnd⟩ := List.nodup_cons.mp hnd
      rw [List.foldl_cons, ih hnd, List.flatMap_cons, List.append_assoc, Prod.mk.injEq]
      constructor
      · refine congrArg _ (congrArg _ (List.flatMap_congr fun p hp => ?_))
        rw [Function.update_of_ne fun h : p = q => hq (h ▸ hp)]
      · funext p
        by_cases hp : p = q <;> simp [hp]

end Gpsxdb
