import Mathlib.Tactic

/-!
A range of integers cut into windows of one width.

* `windowWidth`: the width at which `n` windows reach over a span, rounded up, so
  that the last windows may be empty;
* `window`: the bounds of a window, cut off at the end of the range;
* `mem_window_iff`: **a number is in one window**, that of its distance from the
  start divided by the width; `window_index_lt`;
* `perm_flatMap_filter`, `perm_windows`: a list is what it has in each window, the
  windows told apart by any tests that each entry passes one of;
  `flatMap_range_windows`: windows of naturals, one after the other.
-/

namespace Gpsxdb

/-! ### Windows -/

/-- The width at which `n` windows reach over `span` numbers. -/
def windowWidth (span n : ℤ) : ℤ := (span + n - 1) / n

lemma windowWidth_pos {span n : ℤ} (hs : 0 < span) (hn : 0 < n) : 0 < windowWidth span n :=
  Int.le_ediv_of_mul_le hn (by omega)

/-- As many windows reach over the whole span. -/
lemma le_mul_windowWidth {span n : ℤ} (hn : 0 < n) : span ≤ n * windowWidth span n := by
  have h := Int.lt_mul_ediv_self_add (x := span + n - 1) hn
  rw [windowWidth]
  omega

/-- The first and the last number of window `i` of a range from `a` to `b`. -/
def window (a b c : ℤ) (i : ℕ) : ℤ × ℤ := (a + i * c, min (a + i * c + c - 1) b)

/-- A number is in a window. -/
def inWindow (w : ℤ × ℤ) (x : ℤ) : Prop := w.1 ≤ x ∧ x ≤ w.2

instance (w : ℤ × ℤ) (x : ℤ) : Decidable (inWindow w x) :=
  inferInstanceAs (Decidable (_ ∧ _))

variable {a b c x : ℤ} {i n : ℕ}

/-- A number is in the window of its distance from the start, and in no other. -/
theorem mem_window_iff (hc : 0 < c) (hx : a ≤ x ∧ x ≤ b) :
    inWindow (window a b c i) x ↔ (x - a) / c = i := by
  rw [Int.ediv_eq_iff_of_pos hc, inWindow, window]
  dsimp only
  constructor
  · rintro ⟨hlo, hhi⟩
    have hle := min_le_left (a + i * c + c - 1) b
    constructor <;> linarith
  · rintro ⟨hlo, hhi⟩
    refine ⟨by linarith, le_min ?_ hx.2⟩
    linarith

/-- A window holds numbers of the range only. -/
lemma inWindow.range (hc : 0 < c) (h : inWindow (window a b c i) x) : a ≤ x ∧ x ≤ b := by
  obtain ⟨hlo, hhi⟩ := h
  have hi : 0 ≤ (i : ℤ) * c := by positivity
  exact ⟨by simp only [window] at hlo; linarith, hhi.trans (min_le_right _ _)⟩

/-- The windows that reach over the range are enough. -/
lemma window_index_lt (hc : 0 < c) (hx : a ≤ x ∧ x ≤ b) (hn : b - a + 1 ≤ n * c) :
    (x - a) / c < n :=
  Int.ediv_lt_of_lt_mul hc (by linarith)

/-! ### Lists -/

variable {α : Type*}

/-- What passes exactly one test is in exactly one of the filtered lists. -/
lemma perm_flatMap_filter {τ : Type*} [DecidableEq α] {tests : List τ} {p : τ → α → Bool}
    {l : List α} (h : ∀ x ∈ l, tests.countP (fun t => p t x) = 1) :
    (tests.flatMap fun t => l.filter (p t)).Perm l := by
  rw [List.perm_iff_count]
  intro x
  have hcount : (tests.flatMap fun t => l.filter (p t)).count x
      = tests.countP (fun t => p t x) * l.count x := by
    clear h
    induction tests with
    | nil => simp
    | cons t tests ih =>
        rw [List.flatMap_cons, List.count_append, ih, List.countP_cons, Nat.add_mul, Nat.add_comm]
        congr 1
        cases htx : p t x with
        | true => simp [List.count_filter htx]
        | false => simp [List.count_eq_zero, htx]
  by_cases hx : x ∈ l
  · rw [hcount, h x hx, Nat.one_mul]
  · rw [hcount, List.count_eq_zero_of_not_mem hx, Nat.mul_zero]

/-- A list is what it has at each index. -/
lemma perm_flatMap_filter_index {l : List α} {f : α → ℕ} (h : ∀ x ∈ l, f x < n) :
    ((List.range n).flatMap fun i => l.filter fun x => f x = i).Perm l := by
  classical
  refine perm_flatMap_filter fun x hx => ?_
  have hcount : (List.range n).countP (fun i => decide (f x = i)) = (List.range n).count (f x) :=
    List.countP_congr fun i _ => by rw [decide_eq_true_eq, beq_iff_eq, eq_comm]
  rw [hcount]
  exact List.count_eq_one_of_mem List.nodup_range (List.mem_range.mpr (h x hx))

/-- **A list is what it has in each window.** -/
theorem perm_windows {l : List α} {key : α → ℤ} (hc : 0 < c) (hn : b - a + 1 ≤ n * c)
    (hl : ∀ x ∈ l, a ≤ key x ∧ key x ≤ b) :
    ((List.range n).flatMap fun i => l.filter fun x => inWindow (window a b c i) (key x)).Perm
      l := by
  have hindex : ∀ x ∈ l, ((key x - a) / c).toNat < n := by
    intro x hx
    have hlt := window_index_lt hc (hl x hx) hn
    have hnonneg : 0 ≤ (key x - a) / c := Int.ediv_nonneg (by linarith [(hl x hx).1]) hc.le
    omega
  have hsame : ((List.range n).flatMap fun i =>
        l.filter fun x => inWindow (window a b c i) (key x))
      = (List.range n).flatMap fun i => l.filter fun x => ((key x - a) / c).toNat = i := by
    refine List.flatMap_congr fun i _ => List.filter_congr fun x hx => ?_
    have hnonneg : 0 ≤ (key x - a) / c := Int.ediv_nonneg (by linarith [(hl x hx).1]) hc.le
    rw [decide_eq_decide, mem_window_iff hc (hl x hx)]
    omega
  rw [hsame]
  exact perm_flatMap_filter_index hindex

/-- **Windows of naturals, one after the other**, are the range. -/
theorem flatMap_range_windows (n c m : ℕ) :
    ((List.range n).flatMap fun i => List.range' (i * c) (min (i * c + c) m - i * c))
      = List.range' 0 (min (n * c) m) := by
  induction n with
  | zero => simp
  | succ n ih =>
      have hlength : min (n * c) m + (min (n * c + c) m - n * c) = min ((n + 1) * c) m := by
        rw [Nat.succ_mul]
        omega
      rw [List.range_succ, List.flatMap_append, ih, List.flatMap_singleton, ← hlength]
      by_cases hle : n * c ≤ m
      · rw [min_eq_left hle, ← List.range'_append_1, Nat.zero_add]
      · rw [show min (n * c + c) m - n * c = 0 by omega, List.range'_zero, List.append_nil,
          Nat.add_zero]

end Gpsxdb
