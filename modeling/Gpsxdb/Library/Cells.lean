import Mathlib.Tactic

/-!
Replaying a log of operations on the cells of a store.

A store that is interrupted part of the way through a log, and then runs the log
from its start, ends as after one run exactly where this holds of every cell.  An
operation acts on each cell by itself.

* `Write`, `runWrites`: cells that an operation sets or leaves alone;
  `runWrites_replay`: any log that writes again what has been written;
* `BagOp`, `runBag`: cells of several values that an operation clears, or brings
  to one value and then adds to;
* `runBag_take_replay`, `runBag_replay_iff`: **a bag survives every replay** exactly
  where the log clears it or never adds to it;
* `attempts`, `foldl_attempts`: a log that is begun any number of times.
-/

namespace Gpsxdb

/-! ### Cells with one value -/

section Writes

variable {V : Type*}

/-- What an operation does to a cell of one value: it sets it, or nothing. -/
abbrev Write (V : Type*) := Option V

/-- A log on a cell of one value. -/
def runWrites (ws : List (Write V)) (v : V) : V := ws.foldl (fun v w => w.getD v) v

/-- A log that does not write the cell leaves it. -/
lemma runWrites_of_forall_none {ws : List (Write V)} (h : ∀ w ∈ ws, w = none) (v : V) :
    runWrites ws v = v := by
  induction ws generalizing v with
  | nil => rfl
  | cons w ws ih =>
      obtain rfl := h w (List.mem_cons_self ..)
      exact ih (fun w' hw' => h w' (List.mem_cons_of_mem _ hw')) v

/-- A log that writes the cell does not depend on what was there. -/
lemma runWrites_congr {ws : List (Write V)} (h : ∃ w ∈ ws, w ≠ none) (v v' : V) :
    runWrites ws v = runWrites ws v' := by
  induction ws generalizing v v' with
  | nil => simp at h
  | cons w ws ih =>
      cases w with
      | some u => rfl
      | none =>
          obtain ⟨w, hw, hne⟩ := h
          rcases List.mem_cons.mp hw with rfl | hw
          · exact absurd rfl hne
          · exact ih ⟨w, hw, hne⟩ v v'

/-- **A log run after another** that writes the cell only where it does itself
ends as on its own. -/
theorem runWrites_replay {ws ws' : List (Write V)}
    (h : ∀ w ∈ ws', w ≠ none → ∃ w' ∈ ws, w' ≠ none) (v : V) :
    runWrites ws (runWrites ws' v) = runWrites ws v := by
  by_cases hex : ∃ w ∈ ws', w ≠ none
  · obtain ⟨w, hw, hne⟩ := hex
    exact runWrites_congr (h w hw hne) _ _
  · rw [runWrites_of_forall_none fun w hw => by_contra fun hne => hex ⟨w, hw, hne⟩]

end Writes

/-! ### Cells with several values -/

section Bags

variable {α : Type*} [DecidableEq α]

/-- What an operation does to a cell of several values: nothing, clear it, or
bring it to one value and add others. -/
inductive BagOp (α : Type*) where
  | keep
  | clear
  | put (a : α) (rest : List α)
deriving DecidableEq

/-- A cell brought to one value: what was there is overwritten, unless the last
of it is that value already. -/
def setAll (a : α) (l : List α) : List α :=
  if l = [] then [a] else if l.getLast? = some a then l else l.map fun _ => a

/-- One operation. -/
def BagOp.act : BagOp α → List α → List α
  | keep, l => l
  | clear, _ => []
  | put a rest, l => setAll a l ++ rest

/-- A log on a cell of several values. -/
def runBag (ops : List (BagOp α)) (l : List α) : List α := ops.foldl (fun l op => op.act l) l

lemma runBag_append (ops ops' : List (BagOp α)) (l : List α) :
    runBag (ops ++ ops') l = runBag ops' (runBag ops l) := List.foldl_append ..

/-- A log that keeps the cell throughout. -/
lemma runBag_of_forall_keep {ops : List (BagOp α)} (h : ∀ op ∈ ops, op = .keep) (l : List α) :
    runBag ops l = l := by
  induction ops generalizing l with
  | nil => rfl
  | cons op ops ih =>
      obtain rfl := h op (List.mem_cons_self ..)
      exact ih (fun op' hop' => h op' (List.mem_cons_of_mem _ hop')) l

lemma length_setAll (a : α) (l : List α) : (setAll a l).length = max l.length 1 := by
  rw [setAll]
  split
  · simp [‹l = []›]
  · have hpos := List.length_pos_iff.mpr ‹¬l = []›
    split
    · omega
    · rw [List.length_map]
      omega

/-- A cell with one value throughout stays so. -/
lemma setAll_replicate {m : ℕ} (hm : 0 < m) (a b : α) :
    setAll a (List.replicate m b) = List.replicate m a := by
  rw [setAll, if_neg (by simpa using by omega)]
  split
  · rename_i h
    have hba : b = a := by
      rw [List.getLast?_replicate, if_neg (by omega)] at h
      exact Option.some.inj h
    rw [hba]
  · simp

/-! ### Logs that clear -/

/-- A log that clears the cell does not depend on what was there. -/
lemma runBag_congr {ops : List (BagOp α)} (h : .clear ∈ ops) (l l' : List α) :
    runBag ops l = runBag ops l' := by
  obtain ⟨pre, post, rfl⟩ := List.append_of_mem h
  rw [runBag_append, runBag_append]
  rfl

/-! ### Logs that add -/

/-- The values a log adds. -/
def added (ops : List (BagOp α)) : ℕ :=
  (ops.map fun op => match op with | .put _ rest => rest.length | _ => 0).sum

/-- Without a clearing, a cell only grows. -/
lemma length_runBag {ops : List (BagOp α)} (h : .clear ∉ ops) (l : List α) :
    (runBag ops l).length = l.length + added ops
      ∨ (runBag ops l).length = max l.length 1 + added ops := by
  induction ops generalizing l with
  | nil => exact Or.inl rfl
  | cons op ops ih =>
      obtain ⟨hop, hops⟩ := not_or.mp (fun hmem => h (List.mem_cons.mpr hmem))
      cases op with
      | keep =>
          have hadd : added (.keep :: ops) = added ops := by simp [added]
          rw [hadd]
          exact ih hops l
      | clear => exact absurd rfl hop
      | put a rest =>
          have hadd : added (.put a rest :: ops) = rest.length + added ops := by simp [added]
          have hlen : ((BagOp.put a rest).act l).length = max l.length 1 + rest.length := by
            rw [BagOp.act, List.length_append, length_setAll]
          have hrun := ih hops ((BagOp.put a rest).act l)
          rw [hlen] at hrun
          refine Or.inr ?_
          rw [hadd]
          change (runBag ops ((BagOp.put a rest).act l)).length = _
          omega

/-! ### Logs that only overwrite -/

/-- The value an operation brings the cell to. -/
def BagOp.put? : BagOp α → Option α
  | put a _ => some a
  | _ => none

/-- The value the last operation of a log brings the cell to. -/
def lastPut (ops : List (BagOp α)) : Option α := ops.foldl (fun b op => op.put?.or b) none

omit [DecidableEq α] in
lemma lastPut_concat (ops : List (BagOp α)) (op : BagOp α) :
    lastPut (ops ++ [op]) = op.put?.or (lastPut ops) := List.foldl_append ..

/-- A log that only overwrites the cell, if it does anything to it. -/
def Overwrites (ops : List (BagOp α)) : Prop :=
  .clear ∉ ops ∧ ∀ a rest, .put a rest ∈ ops → rest = []

omit [DecidableEq α] in
lemma Overwrites.of_concat {ops : List (BagOp α)} {op : BagOp α} (h : Overwrites (ops ++ [op])) :
    Overwrites ops :=
  ⟨fun hmem => h.1 (List.mem_append_left _ hmem),
    fun a rest hmem => h.2 a rest (List.mem_append_left _ hmem)⟩

/-- The last operation of such a log, one step. -/
lemma Overwrites.runBag_concat {ops : List (BagOp α)} {op : BagOp α}
    (h : Overwrites (ops ++ [op])) (l : List α) :
    runBag (ops ++ [op]) l
      = match op.put? with
        | none => runBag ops l
        | some a => setAll a (runBag ops l) := by
  rw [runBag_append]
  cases op with
  | keep => rfl
  | clear => exact absurd (List.mem_append_right _ (List.mem_singleton_self _)) h.1
  | put a rest =>
      obtain rfl := h.2 a rest (List.mem_append_right _ (List.mem_singleton_self _))
      exact List.append_nil _

/-- On a cell with one value throughout. -/
lemma Overwrites.runBag_replicate {ops : List (BagOp α)} (h : Overwrites ops) {m : ℕ} (hm : 0 < m)
    (b : α) : runBag ops (List.replicate m b) = List.replicate m ((lastPut ops).getD b) := by
  induction ops using List.reverseRecOn with
  | nil => rfl
  | append_singleton ops op ih =>
      rw [h.runBag_concat, ih h.of_concat, lastPut_concat]
      cases op.put? with
      | none => rfl
      | some a => exact setAll_replicate hm a _

/-- On any cell: it is left alone, or with the last value throughout. -/
lemma Overwrites.runBag_cases {ops : List (BagOp α)} (h : Overwrites ops) (l : List α) :
    runBag ops l = l
      ∨ ∃ m b, 0 < m ∧ lastPut ops = some b ∧ runBag ops l = List.replicate m b := by
  induction ops using List.reverseRecOn with
  | nil => exact Or.inl rfl
  | append_singleton ops op ih =>
      rw [h.runBag_concat, lastPut_concat]
      cases op.put? with
      | none => exact ih h.of_concat
      | some a =>
          have hover : setAll a (runBag ops l) = l
              ∨ ∃ m, 0 < m ∧ setAll a (runBag ops l) = List.replicate m a := by
            rcases ih h.of_concat with hl | ⟨m, b, hm, -, hl⟩
            · rw [hl]
              by_cases hnil : l = []
              · exact Or.inr ⟨1, one_pos, by simp [setAll, hnil]⟩
              · by_cases ha : l.getLast? = some a
                · exact Or.inl (by rw [setAll, if_neg hnil, if_pos ha])
                · refine Or.inr ⟨l.length, List.length_pos_iff.mpr hnil, ?_⟩
                  rw [setAll, if_neg hnil, if_neg ha, List.map_const']
            · exact Or.inr ⟨m, hm, by rw [hl, setAll_replicate hm]⟩
          exact hover.imp_right fun ⟨m, hm, hl⟩ => ⟨m, a, hm, rfl, hl⟩

/-- Running such a log twice is running it once. -/
lemma Overwrites.runBag_idem {ops : List (BagOp α)} (h : Overwrites ops) (l : List α) :
    runBag ops (runBag ops l) = runBag ops l := by
  rcases h.runBag_cases l with hl | ⟨m, b, hm, hlast, hl⟩
  · rw [hl, hl]
  · rw [hl, h.runBag_replicate hm, hlast, Option.getD_some]

/-! ### Replay -/

/-- A log that clears the cell, or never adds to it, ends the same after any part of it. -/
lemma runBag_take_replay {ops : List (BagOp α)}
    (h : .clear ∈ ops ∨ ∀ a rest, .put a rest ∈ ops → rest = []) (n : ℕ) (l : List α) :
    runBag ops (runBag (ops.take n) l) = runBag ops l := by
  by_cases hclear : .clear ∈ ops
  · exact runBag_congr hclear _ _
  have hsingle := h.resolve_left hclear
  have hearlier : Overwrites (ops.take n) :=
    ⟨fun hmem => hclear (List.mem_of_mem_take hmem),
      fun a rest hmem => hsingle a rest (List.mem_of_mem_take hmem)⟩
  calc runBag ops (runBag (ops.take n) l)
      = runBag (ops.take n ++ ops.drop n) (runBag (ops.take n) l) := by rw [List.take_append_drop]
    _ = runBag (ops.drop n) (runBag (ops.take n) (runBag (ops.take n) l)) := runBag_append ..
    _ = runBag (ops.drop n) (runBag (ops.take n) l) := by rw [hearlier.runBag_idem]
    _ = runBag (ops.take n ++ ops.drop n) l := (runBag_append ..).symm
    _ = runBag ops l := by rw [List.take_append_drop]

/-- **A bag survives every replay** of a log, interrupted anywhere, exactly where
the log clears it or never adds to it. -/
theorem runBag_replay_iff (ops : List (BagOp α)) (l : List α) :
    (∀ n, (runBag ops (runBag (ops.take n) l)).Perm (runBag ops l))
      ↔ .clear ∈ ops ∨ ∀ a rest, .put a rest ∈ ops → rest = [] := by
  refine ⟨fun h => ?_, fun h n => .of_eq (runBag_take_replay h n l)⟩
  by_cases hclear : .clear ∈ ops
  · exact Or.inl hclear
  -- the whole log run twice adds its values twice
  refine Or.inr fun a rest hmem => by_contra fun hrest => ?_
  have hadded : 0 < added ops := by
    refine List.sum_pos_iff_exists_pos_nat.mpr ⟨rest.length, ?_, List.length_pos_iff.mpr hrest⟩
    exact List.mem_map.mpr ⟨_, hmem, rfl⟩
  have hlen := (h ops.length).length_eq
  rw [List.take_length] at hlen
  have h1 := length_runBag hclear l
  have h2 := length_runBag hclear (runBag ops l)
  omega

end Bags

/-! ### Many attempts -/

section Attempts

variable {S Op : Type*} {exec : S → Op → S} {log : List Op} {r : S → S → Prop}

/-- A log begun once for each number, and broken off behind so many of its operations. -/
def attempts (exec : S → Op → S) (log : List Op) (s : S) (ks : List ℕ) : S :=
  ks.foldl (fun s k => (log.take k).foldl exec s) s

lemma attempts_concat (s : S) (ks : List ℕ) (k : ℕ) :
    attempts exec log s (ks ++ [k]) = (log.take k).foldl exec (attempts exec log s ks) :=
  List.foldl_append ..

/-- **A log that survives one replay** survives any number of attempts. -/
theorem foldl_attempts (hrefl : ∀ s, r s s) (htrans : ∀ s t u, r s t → r t u → r s u)
    (hreplay : ∀ s k, r (log.foldl exec ((log.take k).foldl exec s)) (log.foldl exec s)) (s : S)
    (ks : List ℕ) : r (log.foldl exec (attempts exec log s ks)) (log.foldl exec s) := by
  induction ks generalizing s with
  | nil => exact hrefl _
  | cons k ks ih => exact htrans _ _ _ (ih _) (hreplay s k)

end Attempts

end Gpsxdb
