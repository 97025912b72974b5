import Mathlib.Tactic

/-!
At-least-once delivery of numbered items, read off a log.

A consumer works through items in the order of their numbers, may give up an item
part of the way through and begin it again, and commits its number once the whole
of it is done.

* `CommittedIn`: the log has the whole of an item with its commit behind it;
* `Delivery`: the log of a consumer that has committed up to some number;
* `Delivery.append`, `Delivery.commit_next`: what may happen next.
-/

namespace Gpsxdb

variable {E : Type*} (pos : E → ℤ) (commit : ℤ → E) (Whole : ℤ → List E → Prop)

/-- The log has the whole of item `s`, committed right after it. -/
def CommittedIn (s : ℤ) (log : List E) : Prop :=
  ∃ pre es post, log = pre ++ es ++ commit s :: post ∧ Whole s es

/-- The log of a consumer that started after item `n₀` and has committed up to
item `n`. -/
structure Delivery (n₀ n : ℤ) (log : List E) : Prop where
  le : n₀ ≤ n
  /-- every item up to the last one committed is in the log as a whole -/
  committed : ∀ s, n₀ < s → s ≤ n → CommittedIn commit Whole s log
  /-- nothing is done for an item before all items below it are committed -/
  ordered : ∀ pre e post, log = pre ++ e :: post → n₀ < pos e ∧ pos e ≤ n + 1
    ∧ ∀ s, n₀ < s → s < pos e → CommittedIn commit Whole s pre
  sorted : (log.map pos).Pairwise (· ≤ ·)

variable {pos commit Whole} {n₀ n : ℤ} {log : List E}

lemma CommittedIn.append {s : ℤ} (h : CommittedIn commit Whole s log) (es : List E) :
    CommittedIn commit Whole s (log ++ es) := by
  obtain ⟨pre, ds, post, rfl, hds⟩ := h
  exact ⟨pre, ds, post ++ es, by simp, hds⟩

namespace Delivery

lemma nil (n₀ : ℤ) : Delivery pos commit Whole n₀ n₀ [] := by
  refine ⟨le_refl _, fun s hs hs' => ?_, fun pre e post h => ?_, by simp⟩
  · omega
  · simp at h

/-- What an entry at the end of the log adds to its order. -/
lemma ordered_concat (h : Delivery pos commit Whole n₀ n log) {e : E} (he : pos e = n + 1)
    {pre post : List E} {e' : E} (hlog : log ++ [e] = pre ++ e' :: post) :
    n₀ < pos e' ∧ pos e' ≤ n + 1 ∧ ∀ s, n₀ < s → s < pos e' → CommittedIn commit Whole s pre := by
  rcases List.eq_nil_or_concat post with rfl | ⟨post, last, rfl⟩
  · obtain ⟨rfl, hlast⟩ := List.append_inj' hlog rfl
    obtain rfl := List.cons.inj hlast |>.1
    have hle := h.le
    exact ⟨by omega, by omega, fun s hs hlt => h.committed s hs (by omega)⟩
  · rw [List.concat_eq_append, ← List.cons_append, ← List.append_assoc] at hlog
    exact h.ordered pre e' post (List.append_inj' hlog rfl).1

lemma sorted_concat (h : Delivery pos commit Whole n₀ n log) {e : E} (he : pos e = n + 1) :
    ((log ++ [e]).map pos).Pairwise (· ≤ ·) := by
  rw [List.map_append, List.pairwise_append]
  refine ⟨h.sorted, List.pairwise_singleton .., fun a ha b hb => ?_⟩
  obtain ⟨e', he', rfl⟩ := List.mem_map.mp ha
  obtain ⟨pre, post, rfl⟩ := List.append_of_mem he'
  obtain rfl := List.mem_singleton.mp hb
  rw [he]
  exact (h.ordered pre e' post rfl).2.1

/-- **Work on the next item** may be logged at any time. -/
theorem append (h : Delivery pos commit Whole n₀ n log) {e : E} (he : pos e = n + 1) :
    Delivery pos commit Whole n₀ n (log ++ [e]) :=
  ⟨h.le, fun s hs hle => (h.committed s hs hle).append _,
    fun _ _ _ hlog => h.ordered_concat he hlog, h.sorted_concat he⟩

/-- **The next item is committed** once the log ends with the whole of it. -/
theorem commit_next (h : Delivery pos commit Whole n₀ n log) (hpos : pos (commit (n + 1)) = n + 1)
    {pre es : List E} (hlog : log = pre ++ es) (hes : Whole (n + 1) es) :
    Delivery pos commit Whole n₀ (n + 1) (log ++ [commit (n + 1)]) := by
  have hle := h.le
  refine ⟨by omega, fun s hs hs' => ?_, fun pre' e post hsplit => ?_, h.sorted_concat hpos⟩
  · rcases eq_or_lt_of_le hs' with rfl | hlt
    · exact ⟨pre, es, [], by rw [hlog], hes⟩
    · exact (h.committed s hs (by omega)).append _
  · obtain ⟨hlt, hle', hbelow⟩ := h.ordered_concat hpos hsplit
    exact ⟨hlt, by omega, hbelow⟩

end Delivery

end Gpsxdb
