import Mathlib.Tactic

/-!
How far a finite set of integers goes on without a gap.

* `coveredTo c A`: the end of the stretch of `A` that starts right above `c`;
* `le_coveredTo_iff`: a number is not beyond it exactly when nothing between `c`
  and the number is missing;
* `le_coveredTo_insert`: the next number extends the stretch.
-/

namespace Gpsxdb

/-- Some number above `c` is not in a finite set. -/
lemma exists_missing (c : ℤ) (A : Finset ℤ) : ∃ n : ℕ, c + n + 1 ∉ A := by
  by_contra h
  push Not at h
  have hinj : Function.Injective fun n : ℕ => c + n + 1 := fun a b hab => by
    simpa using hab
  exact Set.infinite_of_injective_forall_mem hinj (fun n => h n) A.finite_toSet

/-- The end of the stretch of `A` right above `c`. -/
def coveredTo (c : ℤ) (A : Finset ℤ) : ℤ := c + Nat.find (exists_missing c A)

variable {c x : ℤ} {A B : Finset ℤ}

/-- **What it means not to be beyond the stretch.** -/
theorem le_coveredTo_iff : x ≤ coveredTo c A ↔ ∀ s, c < s → s ≤ x → s ∈ A := by
  constructor
  · intro hx s hs hsx
    have hlt : (s - c - 1).toNat < Nat.find (exists_missing c A) := by
      rw [coveredTo] at hx
      omega
    have hmem := Nat.find_min (exists_missing c A) hlt
    rw [not_not] at hmem
    have hs' : c + ((s - c - 1).toNat : ℤ) + 1 = s := by omega
    rwa [hs'] at hmem
  · intro h
    by_contra hx
    refine Nat.find_spec (exists_missing c A) (h _ ?_ ?_)
    · omega
    · rw [coveredTo] at hx
      omega

lemma coveredTo_mono (h : A ⊆ B) : coveredTo c A ≤ coveredTo c B :=
  le_coveredTo_iff.mpr fun s hs hx => h (le_coveredTo_iff.mp le_rfl s hs hx)

/-- The number after a stretch extends it. -/
lemma le_coveredTo_insert (h : x - 1 ≤ coveredTo c A) : x ≤ coveredTo c (insert x A) := by
  refine le_coveredTo_iff.mpr fun s hs hsx => ?_
  rcases eq_or_lt_of_le hsx with rfl | hlt
  · exact Finset.mem_insert_self s A
  · exact Finset.mem_insert_of_mem (le_coveredTo_iff.mp h s hs (by omega))

end Gpsxdb
