import Mathlib.Tactic

/-!
Equi-joins of lists, of which the left rows are kept.

* `joinOn`: each left row once for every right row of its key;
* `count_joinOn`: how often a row comes out; `joinOn_perm`;
* `joinOn_eq_filter`: against distinct keys a join is a filter;
* `joinOn_joinOn_perm_filter_iff`: two joins are one exactly where no left row meets two
  rows;
* `perm_filter_of_keys`, `perm_filter_append`: filters by key, put together.
-/

namespace Gpsxdb

variable {α β κ : Type*} [DecidableEq κ] (k : α → κ) (k' : β → κ)

/-- `SELECT l.* FROM l JOIN r ON k' r = k l`. -/
def joinOn (l : List α) (r : List β) : List α :=
  l.flatMap fun a => (r.filter fun b => k' b = k a).map fun _ => a

variable {k k'}

lemma joinOn_nil_left (r : List β) : joinOn k k' [] r = [] := rfl

lemma joinOn_nil_right (l : List α) : joinOn k k' l ([] : List β) = [] := by
  rw [joinOn, List.flatMap_eq_nil_iff]
  exact fun a _ => rfl

lemma joinOn_cons (a : α) (l : List α) (r : List β) : joinOn k k' (a :: l) r
    = List.replicate (r.countP fun b => k' b = k a) a ++ joinOn k k' l r := by
  rw [joinOn, List.flatMap_cons, joinOn]
  congr 1
  rw [List.map_const', ← List.countP_eq_length_filter]

/-- Only the keys of the right side matter. -/
lemma joinOn_eq_of_keys (l : List α) (r : List β) : joinOn k k' l r = joinOn k id l (r.map k') := by
  induction l with
  | nil => rfl
  | cons a l ih =>
      rw [joinOn_cons, joinOn_cons, ih, List.countP_map]
      rfl

/-- **How often a row comes out.** -/
theorem count_joinOn [DecidableEq α] (l : List α) (r : List β) (a : α) :
    (joinOn k k' l r).count a = l.count a * r.countP fun b => k' b = k a := by
  induction l with
  | nil => simp [joinOn_nil_left]
  | cons b l ih =>
      rw [joinOn_cons, List.count_append, ih, List.count_cons, List.count_replicate]
      cases decEq b a with
      | isTrue h =>
          subst h
          simp [Nat.add_mul, Nat.add_comm]
      | isFalse h => simp [h]

/-- The order of the two sides does not matter. -/
lemma joinOn_perm {l l' : List α} {r r' : List β} (hl : l.Perm l') (hr : r.Perm r') :
    (joinOn k k' l r).Perm (joinOn k k' l' r') := by
  refine List.Perm.flatMap hl fun a _ => ?_
  exact (hr.filter _).map _

/-- **Against distinct keys a join is a filter.** -/
theorem joinOn_eq_filter (l : List α) {r : List β} (hr : (r.map k').Nodup) :
    joinOn k k' l r = l.filter fun a => r.any fun b => k' b = k a := by
  induction l with
  | nil => rfl
  | cons a l ih =>
      have hone : (r.countP fun b => k' b = k a)
          = if (r.any fun b => k' b = k a) then 1 else 0 := by
        have hcount : (r.countP fun b => k' b = k a) = (r.map k').count (k a) := by
          rw [List.count, List.countP_map]
          exact List.countP_congr fun b _ => by simp
        have hany : (r.any fun b => decide (k' b = k a)) = true ↔ k a ∈ r.map k' := by simp
        rw [hcount, hr.count]
        exact if_congr hany.symm rfl rfl
      rw [joinOn_cons, ih, List.filter_cons, hone]
      split <;> rfl

omit [DecidableEq κ] in
/-- A list with every row as often as its key says is a filter exactly where no key of a
row says twice. -/
lemma perm_filter_iff_of_count [DecidableEq α] {l l' : List α} {n : κ → ℕ}
    (h : ∀ a, l'.count a = l.count a * n (k a)) :
    l'.Perm (l.filter fun a => 0 < n (k a)) ↔ ∀ a ∈ l, n (k a) ≤ 1 := by
  have hcount : ∀ a, (l.filter fun a => 0 < n (k a)).count a
      = if 0 < n (k a) then l.count a else 0 := by
    intro a
    split
    · exact List.count_filter (by simpa using ‹0 < n (k a)›)
    · refine List.count_eq_zero.mpr fun ha => ?_
      simp_all [List.mem_filter]
  rw [List.perm_iff_count]
  constructor
  · intro hperm a ha
    have hpos : 0 < l.count a := List.count_pos_iff.mpr ha
    have heq := (h a).symm.trans ((hperm a).trans (hcount a))
    by_contra hlt
    rw [if_pos (by omega)] at heq
    have hle : l.count a * 2 ≤ l.count a * n (k a) := Nat.mul_le_mul_left _ (by omega)
    omega
  · intro hle a
    rw [h, hcount]
    cases Nat.eq_zero_or_pos (l.count a) with
    | inl hzero => simp [hzero]
    | inr hpos =>
        have hle := hle a (List.count_pos_iff.mp hpos)
        split
        · rw [show n (k a) = 1 by omega, Nat.mul_one]
        · rw [show n (k a) = 0 by omega, Nat.mul_zero]

variable (k k') in
/-- **Two joins against one side are a filter** where no left row meets two of its rows. -/
theorem joinOn_joinOn_perm_filter_iff [DecidableEq α] (l : List α) (r : List β) :
    (joinOn k k' (joinOn k k' l r) r).Perm (l.filter fun a => r.any fun b => k' b = k a)
      ↔ ∀ a ∈ l, (r.countP fun b => k' b = k a) ≤ 1 := by
  have hany : (l.filter fun a => r.any fun b => k' b = k a)
      = l.filter fun a => 0 < (r.countP fun b => k' b = k a) * r.countP fun b => k' b = k a := by
    refine List.filter_congr fun a _ => ?_
    have hsq : ∀ n : ℕ, 0 < n * n ↔ 0 < n := fun n => by simp [Nat.pos_iff_ne_zero]
    rw [Bool.eq_iff_iff, decide_eq_true_eq, hsq, List.countP_pos_iff]
    simp
  rw [hany, perm_filter_iff_of_count
    (n := fun x => (r.countP fun b => k' b = x) * r.countP fun b => k' b = x)
    fun a => by rw [count_joinOn, count_joinOn, Nat.mul_assoc]]
  refine forall₂_congr fun a _ => ?_
  constructor
  · intro h
    by_contra hlt
    have hsq : 2 * 2 ≤ (r.countP fun b => k' b = k a) * r.countP fun b => k' b = k a :=
      Nat.mul_le_mul (by omega) (by omega)
    omega
  · exact fun h => Nat.mul_le_mul h h

/-! ### Filters by key -/

/-- Lists that agree on every key of a set agree on the rows of these keys. -/
lemma perm_filter_of_keys [DecidableEq α] {l l' : List α} {p : κ → Bool}
    (h : ∀ x, p x = true → (l.filter fun a => k a = x).Perm (l'.filter fun a => k a = x)) :
    (l.filter fun a => p (k a)).Perm (l'.filter fun a => p (k a)) := by
  rw [List.perm_iff_count]
  intro a
  cases hp : p (k a) with
  | false =>
      have hnot : ∀ l : List α, (l.filter fun a => p (k a)).count a = 0 := fun l =>
        List.count_eq_zero.mpr fun ha => by simp [hp] at ha
      rw [hnot, hnot]
  | true =>
      have hin : ∀ l : List α, (l.filter fun a => p (k a)).count a = l.count a := fun l =>
        List.count_filter (p := fun a => p (k a)) hp
      calc (l.filter fun a => p (k a)).count a
          = l.count a := hin l
        _ = (l.filter fun b => k b = k a).count a := (List.count_filter (by simp)).symm
        _ = (l'.filter fun b => k b = k a).count a := (h (k a) hp).count_eq a
        _ = l'.count a := List.count_filter (by simp)
        _ = (l'.filter fun a => p (k a)).count a := (hin l').symm

/-- Two filters that let no row through twice make one. -/
lemma perm_filter_append {l : List α} {p q : α → Bool} (h : ∀ a ∈ l, p a = true → q a = false) :
    (l.filter p ++ l.filter q).Perm (l.filter fun a => p a || q a) := by
  induction l with
  | nil => exact List.Perm.refl _
  | cons a l ih =>
      have ih := ih fun b hb => h b (List.mem_cons_of_mem _ hb)
      cases hp : p a with
      | true =>
          have hq := h a (List.mem_cons_self ..) hp
          simpa [List.filter_cons, hp, hq] using ih
      | false =>
          cases hq : q a with
          | true =>
              simp only [List.filter_cons, hp, hq, Bool.false_or, if_true]
              exact List.perm_middle.trans (ih.cons a)
          | false => simpa [List.filter_cons, hp, hq] using ih

end Gpsxdb
