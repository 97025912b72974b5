import Mathlib.Tactic
import Mathlib.Algebra.Order.Field.Basic

/-!
Closed lines in the plane, and what they cover.

* `pairs`: the consecutive pairs of a list; `even_changes_iff`: a closed list changes
  sides an even number of times;
* `crossesRight`, `Covers`: the even–odd rule, the line itself included;
* `Covers.bounds`: **a point that is covered lies in the bounding box**;
* `CoversLine`: every point of a line is covered.
-/

namespace Gpsxdb

namespace Polygon

/-! ### Consecutive pairs -/

section Pairs

variable {α : Type*}

/-- The consecutive pairs of a list. -/
def pairs (l : List α) : List (α × α) := l.zip l.tail

@[simp] lemma pairs_cons_cons (a b : α) (l : List α) :
    pairs (a :: b :: l) = (a, b) :: pairs (b :: l) := rfl

lemma mem_of_mem_pairs {l : List α} {e : α × α} (h : e ∈ pairs l) : e.1 ∈ l ∧ e.2 ∈ l := by
  obtain ⟨h1, h2⟩ := List.of_mem_zip (show (e.1, e.2) ∈ l.zip l.tail from h)
  exact ⟨h1, List.mem_of_mem_tail h2⟩

/-- **Changes of side**: their number is even exactly when the list ends on the side
it began. -/
lemma even_changes_iff (side : α → Bool) (a : α) (l : List α) :
    Even ((pairs (a :: l)).countP fun e => side e.1 != side e.2)
      ↔ side a = side ((a :: l).getLast (List.cons_ne_nil a l)) := by
  induction l generalizing a with
  | nil => simp [pairs]
  | cons b l ih =>
      rw [pairs_cons_cons, List.countP_cons, List.getLast_cons (List.cons_ne_nil b l), Nat.even_add,
        ih b]
      cases side a <;> cases side b <;>
        cases side ((b :: l).getLast (List.cons_ne_nil b l)) <;> simp

end Pairs

/-! ### What a closed line covers -/

variable {K : Type*} [Field K] [LinearOrder K]

/-- The point at a fraction of an edge. -/
def pointAt (e : (K × K) × K × K) (t : K) : K × K :=
  (e.1.1 + t * (e.2.1 - e.1.1), e.1.2 + t * (e.2.2 - e.1.2))

/-- The height of a point on the ray is one of the edge's. -/
def straddles (y : K) (e : (K × K) × K × K) : Bool :=
  decide (y < e.1.2) != decide (y < e.2.2)

/-- The edge crosses the ray that goes right from the point. -/
def crossesRight (p : K × K) (e : (K × K) × K × K) : Bool :=
  straddles p.2 e && decide (p.1 < (pointAt e ((p.2 - e.1.2) / (e.2.2 - e.1.2))).1)

/-- A closed line covers a point: the ray from it crosses an odd number of edges, or
the point lies on one. -/
def Covers (ring : List (K × K)) (p : K × K) : Prop :=
  Odd ((pairs ring).countP (crossesRight p))
    ∨ ∃ e ∈ pairs ring, ∃ t, 0 ≤ t ∧ t ≤ 1 ∧ p = pointAt e t

/-- A closed line covers every point of another line. -/
def CoversLine (ring line : List (K × K)) : Prop :=
  ∀ e ∈ pairs line, ∀ t, 0 ≤ t → t ≤ 1 → Covers ring (pointAt e t)

section Bounds

variable [IsStrictOrderedRing K] {e : (K × K) × K × K} {p : K × K} {t c : K}

/-- A mean of two numbers above `c`. -/
lemma lt_mean {x y : K} (h0 : 0 ≤ t) (h1 : t ≤ 1) (hx : c < x) (hy : c < y) :
    c < x + t * (y - x) := by
  rcases eq_or_lt_of_le h0 with rfl | h0
  · simpa using hx
  · nlinarith [mul_pos h0 (sub_pos.mpr hy), mul_nonneg (sub_nonneg.mpr h1) (sub_pos.mpr hx).le]

/-- A mean of two numbers below `c`. -/
lemma mean_lt {x y : K} (h0 : 0 ≤ t) (h1 : t ≤ 1) (hx : x < c) (hy : y < c) :
    x + t * (y - x) < c := by
  have h := lt_mean h0 h1 (neg_lt_neg hx) (neg_lt_neg hy)
  linarith

/-- Where the edge is at the height of a point it straddles. -/
lemma fraction_of_straddles (h : straddles p.2 e = true) :
    0 ≤ (p.2 - e.1.2) / (e.2.2 - e.1.2) ∧ (p.2 - e.1.2) / (e.2.2 - e.1.2) ≤ 1 := by
  rw [straddles, bne_iff_ne, ne_eq, decide_eq_decide] at h
  by_cases hup : p.2 < e.2.2
  · have hlow : e.1.2 ≤ p.2 := not_lt.mp fun hlt => h (iff_of_true hlt hup)
    have hpos : 0 < e.2.2 - e.1.2 := by linarith
    exact ⟨div_nonneg (by linarith) hpos.le, (div_le_one hpos).mpr (by linarith)⟩
  · have hhigh : p.2 < e.1.2 := by
      by_contra hle
      exact h (iff_of_false hle hup)
    have hneg : e.2.2 - e.1.2 < 0 := by linarith
    exact ⟨div_nonneg_of_nonpos (by linarith) hneg.le, (div_le_one_of_neg hneg).mpr (by linarith)⟩

/-- An edge to the right is crossed wherever it is straddled. -/
lemma crossesRight_of_lt (h1 : p.1 < e.1.1) (h2 : p.1 < e.2.1) :
    crossesRight p e = straddles p.2 e := by
  rw [crossesRight]
  cases hs : straddles p.2 e with
  | false => rfl
  | true =>
      obtain ⟨h0, hle⟩ := fraction_of_straddles hs
      rw [Bool.true_and]
      exact decide_eq_true (lt_mean h0 hle h1 h2)

/-- An edge to the left is not crossed. -/
lemma crossesRight_of_gt (h1 : e.1.1 < p.1) (h2 : e.2.1 < p.1) : crossesRight p e = false := by
  rw [crossesRight]
  cases hs : straddles p.2 e with
  | false => rfl
  | true =>
      obtain ⟨h0, hle⟩ := fraction_of_straddles hs
      rw [Bool.true_and]
      exact decide_eq_false (mean_lt h0 hle h1 h2).not_gt

variable {ring : List (K × K)}

/-- From a point left of a closed line the ray crosses it an even number of times. -/
lemma even_of_left (hclosed : ring.head? = ring.getLast?) (h : ∀ v ∈ ring, p.1 < v.1) :
    Even ((pairs ring).countP (crossesRight p)) := by
  have hcross : (pairs ring).countP (crossesRight p) = (pairs ring).countP (straddles p.2) := by
    refine List.countP_congr fun e he => ?_
    obtain ⟨h1, h2⟩ := mem_of_mem_pairs he
    rw [crossesRight_of_lt (h _ h1) (h _ h2)]
  rw [hcross]
  cases ring with
  | nil => exact Even.zero
  | cons a l =>
      refine (even_changes_iff (fun v : K × K => decide (p.2 < v.2)) a l).mpr ?_
      rw [List.head?_cons, List.getLast?_eq_some_getLast (List.cons_ne_nil a l)] at hclosed
      rw [← Option.some.inj hclosed]

omit [IsStrictOrderedRing K] in
/-- A ray that crosses an odd number of edges crosses one. -/
lemma exists_crosses (h : Odd ((pairs ring).countP (crossesRight p))) :
    ∃ e ∈ pairs ring, crossesRight p e = true := by
  by_contra hno
  push Not at hno
  rw [List.countP_eq_zero.mpr fun e he => hno e he] at h
  simp at h

/-- A point that the even–odd rule finds inside has vertices on every side. -/
lemma bounds_of_odd (h : Odd ((pairs ring).countP (crossesRight p)))
    (hclosed : ring.head? = ring.getLast?) :
    (∃ v ∈ ring, v.1 ≤ p.1) ∧ (∃ v ∈ ring, p.1 ≤ v.1)
      ∧ (∃ v ∈ ring, v.2 ≤ p.2) ∧ ∃ v ∈ ring, p.2 ≤ v.2 := by
  obtain ⟨e, he, hcross⟩ := exists_crosses h
  obtain ⟨h1, h2⟩ := mem_of_mem_pairs he
  have hs : straddles p.2 e = true := by
    rw [crossesRight, Bool.and_eq_true] at hcross
    exact hcross.1
  rw [straddles, bne_iff_ne, ne_eq, decide_eq_decide] at hs
  refine ⟨?_, ?_, ?_, ?_⟩
  · by_contra hno
    push Not at hno
    exact Nat.not_even_iff_odd.mpr h (even_of_left hclosed hno)
  · by_contra hno
    push Not at hno
    rw [crossesRight_of_gt (hno _ h1) (hno _ h2)] at hcross
    simp at hcross
  · by_contra hno
    push Not at hno
    exact hs (iff_of_true (hno _ h1) (hno _ h2))
  · by_contra hno
    push Not at hno
    exact hs (iff_of_false (hno _ h1).le.not_gt (hno _ h2).le.not_gt)

/-- A point of an edge has vertices on every side. -/
lemma bounds_of_edge (he : e ∈ pairs ring) (h0 : 0 ≤ t) (h1 : t ≤ 1) (hp : p = pointAt e t) :
    (∃ v ∈ ring, v.1 ≤ p.1) ∧ (∃ v ∈ ring, p.1 ≤ v.1)
      ∧ (∃ v ∈ ring, v.2 ≤ p.2) ∧ ∃ v ∈ ring, p.2 ≤ v.2 := by
  obtain ⟨hm1, hm2⟩ := mem_of_mem_pairs he
  have hx : p.1 = e.1.1 + t * (e.2.1 - e.1.1) := by rw [hp, pointAt]
  have hy : p.2 = e.1.2 + t * (e.2.2 - e.1.2) := by rw [hp, pointAt]
  refine ⟨?_, ?_, ?_, ?_⟩
  · by_contra hno
    push Not at hno
    exact absurd (lt_mean h0 h1 (hno _ hm1) (hno _ hm2)) hx.not_lt
  · by_contra hno
    push Not at hno
    exact absurd (mean_lt h0 h1 (hno _ hm1) (hno _ hm2)) hx.not_gt
  · by_contra hno
    push Not at hno
    exact absurd (lt_mean h0 h1 (hno _ hm1) (hno _ hm2)) hy.not_lt
  · by_contra hno
    push Not at hno
    exact absurd (mean_lt h0 h1 (hno _ hm1) (hno _ hm2)) hy.not_gt

/-- **A covered point lies in the bounding box.** -/
theorem Covers.bounds (h : Covers ring p) (hclosed : ring.head? = ring.getLast?) :
    (∃ v ∈ ring, v.1 ≤ p.1) ∧ (∃ v ∈ ring, p.1 ≤ v.1)
      ∧ (∃ v ∈ ring, v.2 ≤ p.2) ∧ ∃ v ∈ ring, p.2 ≤ v.2 := by
  rcases h with hodd | ⟨e, he, t, h0, h1, hp⟩
  · exact bounds_of_odd hodd hclosed
  · exact bounds_of_edge he h0 h1 hp

end Bounds

end Polygon

end Gpsxdb
