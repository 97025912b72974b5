import Mathlib.Tactic

/-!
Sequences stored as differences.

* `DeltaCode`: an arithmetic in which a difference can be added again, with the values
  that survive it;
* `deltas`, `running`: the differences of a sequence, and running sums;
* `running_deltas`: **running sums undo differences**.
-/

namespace Gpsxdb

/-- An arithmetic for differences: what is subtracted is added again, for the values the
sum can take. -/
structure DeltaCode (α : Type*) where
  add : α → α → α
  sub : α → α → α
  Valid : α → Prop
  add_sub : ∀ x y, Valid y → add x (sub y x) = y

namespace DeltaCode

variable {α : Type*} (D : DeltaCode α)

/-- The differences of a sequence behind `x`. -/
def deltas : α → List α → List α
  | _, [] => []
  | x, y :: ys => D.sub y x :: deltas y ys

/-- The running sums from `x`. -/
def running : α → List α → List α
  | _, [] => []
  | x, d :: ds => D.add x d :: running (D.add x d) ds

@[simp] lemma deltas_cons (x y : α) (ys : List α) :
    D.deltas x (y :: ys) = D.sub y x :: D.deltas y ys := rfl

@[simp] lemma length_deltas (x : α) (ys : List α) : (D.deltas x ys).length = ys.length := by
  induction ys generalizing x with
  | nil => rfl
  | cons y ys ih => rw [deltas_cons, List.length_cons, List.length_cons, ih]

/-- **Running sums undo differences.** -/
theorem running_deltas {ys : List α} (h : ∀ y ∈ ys, D.Valid y) (x : α) :
    D.running x (D.deltas x ys) = ys := by
  induction ys generalizing x with
  | nil => rfl
  | cons y ys ih =>
      obtain ⟨hy, hys⟩ := List.forall_mem_cons.mp h
      rw [deltas_cons, running, D.add_sub x y hy, ih hys]

end DeltaCode

end Gpsxdb
