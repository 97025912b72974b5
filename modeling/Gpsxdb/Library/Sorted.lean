import Mathlib.Tactic

/-!
Lists of records in strictly ascending order of a key.

* `lowerBound`: the first index of a range at which a test fails, by bisection;
  `lowerBound_spec`;
* `searchBy`: the record of a key; `searchBy_eq_some_iff`;
* `mergeBy`: the merge of two lists, the first winning where both have a key;
  `mem_mergeBy`, `pairwise_mergeBy`.
-/

namespace Gpsxdb

/-! ### Bisection -/

/-- The bisection loop of `std::lower_bound` on `[lo, hi)`; every turn shortens
the range, so as many turns as it is long suffice. -/
def lowerBound (below : ℕ → Bool) : ℕ → ℕ → ℕ → ℕ
  | 0, lo, _ => lo
  | fuel + 1, lo, hi =>
      if lo < hi then
        let mid := lo + (hi - lo) / 2
        if below mid then lowerBound below fuel (mid + 1) hi else lowerBound below fuel lo mid
      else lo

/-- **Bisection finds the border** of a test that holds up to some index. -/
theorem lowerBound_spec {below : ℕ → Bool} {n fuel lo hi : ℕ}
    (hmono : ∀ i j, i ≤ j → j < n → below j = true → below i = true)
    (hlo : ∀ j < lo, below j = true) (hhi : ∀ j, hi ≤ j → j < n → below j = false)
    (hle : lo ≤ hi) (hn : hi ≤ n) (hfuel : hi - lo ≤ fuel) :
    (∀ j < lowerBound below fuel lo hi, below j = true)
      ∧ ∀ j, lowerBound below fuel lo hi ≤ j → j < n → below j = false := by
  induction fuel generalizing lo hi with
  | zero =>
      rw [lowerBound]
      exact ⟨hlo, fun j hj => hhi j (by omega)⟩
  | succ fuel ih =>
      rw [lowerBound]
      split
      · rename_i hlt
        dsimp only
        split
        · rename_i hmid
          refine ih (fun j hj => hmono j _ ?_ ?_ hmid) hhi ?_ hn ?_ <;> omega
        · rename_i hmid
          refine ih hlo (fun j hj hjn => ?_) ?_ ?_ ?_
          · by_contra hbelow
            exact hmid (hmono _ j hj hjn (by simpa using hbelow))
          all_goals omega
      · exact ⟨hlo, fun j hj => hhi j (by omega)⟩

/-- Bisection of a whole range. -/
lemma lowerBound_range {below : ℕ → Bool} {n : ℕ}
    (hmono : ∀ i j, i ≤ j → j < n → below j = true → below i = true) :
    (∀ j < lowerBound below n 0 n, below j = true)
      ∧ ∀ j, lowerBound below n 0 n ≤ j → j < n → below j = false :=
  lowerBound_spec hmono (fun j hj => absurd hj (Nat.not_lt_zero j))
    (fun _ hj hjn => absurd hjn (not_lt.mpr hj)) (Nat.zero_le _) le_rfl (Nat.sub_le ..)

/-- Bisection looks at indices of its range only. -/
lemma lowerBound_congr {below : ℕ → Bool} (below' : ℕ → Bool) {fuel lo hi : ℕ}
    (h : ∀ i < hi, below i = below' i) :
    lowerBound below fuel lo hi = lowerBound below' fuel lo hi := by
  induction fuel generalizing lo hi with
  | zero => rfl
  | succ fuel ih =>
      rw [lowerBound, lowerBound]
      split
      · rename_i hlt
        dsimp only
        rw [h _ (by omega), ih h, ih fun i hi' => h i (by omega)]
      · rfl

variable {α κ : Type*} [LinearOrder κ] (key : α → κ)

/-- The record of a key in an ascending list. -/
def searchBy (l : List α) (k : κ) : Option α :=
  let below (j : ℕ) : Bool := match l[j]? with
    | some a => key a < k
    | none => false
  match l[lowerBound below l.length 0 l.length]? with
  | some a => if key a = k then some a else none
  | none => none

variable {key}

/-- The search, with the test of the bisection given in another way. -/
lemma searchBy_eq_some_iff_getElem? {l : List α} {k : κ} {below : ℕ → Bool}
    (h : ∀ j (hj : j < l.length), below j = true ↔ key l[j] < k) {a : α} :
    searchBy key l k = some a
      ↔ l[lowerBound below l.length 0 l.length]? = some a ∧ key a = k := by
  rw [searchBy, lowerBound_congr below fun j hj => by
    rw [Bool.eq_iff_iff, h j hj, List.getElem?_eq_getElem hj]
    simp]
  cases l[lowerBound below l.length 0 l.length]? with
  | none => simp
  | some b =>
      by_cases hb : key b = k
      · simp only [if_pos hb, Option.some.injEq]
        exact ⟨fun hab => ⟨hab, hab ▸ hb⟩, fun hab => hab.1⟩
      · simp only [if_neg hb, Option.some.injEq, reduceCtorEq, false_iff]
        exact fun hab => hb (hab.1 ▸ hab.2)

/-- **Search in an ascending list** finds exactly its records. -/
theorem searchBy_eq_some_iff {l : List α} (hl : l.Pairwise fun a b => key a < key b) {k : κ}
    {a : α} : searchBy key l k = some a ↔ a ∈ l ∧ key a = k := by
  have hp := List.pairwise_iff_getElem.mp hl
  set below : ℕ → Bool := fun j => match l[j]? with
    | some a => decide (key a < k)
    | none => false with hbelow
  have hat : ∀ j (hj : j < l.length), below j = decide (key l[j] < k) := by
    intro j hj
    simp [hbelow, hj]
  have hmono : ∀ i j, i ≤ j → j < l.length → below j = true → below i = true := by
    intro i j hij hj hb
    rw [hat j hj, decide_eq_true_eq] at hb
    rw [hat i (by omega), decide_eq_true_eq]
    rcases eq_or_lt_of_le hij with rfl | hlt
    · exact hb
    · exact (hp i j (by omega) hj hlt).trans hb
  obtain ⟨hlow, hhigh⟩ := lowerBound_range hmono
  have hsearch : searchBy key l k = match l[lowerBound below l.length 0 l.length]? with
      | some a => if key a = k then some a else none
      | none => none := rfl
  rw [hsearch]
  generalize lowerBound below l.length 0 l.length = r at hlow hhigh ⊢
  constructor
  · intro h
    split at h
    · rename_i b hb
      split at h
      · obtain rfl := Option.some.inj h
        exact ⟨List.mem_of_getElem? hb, ‹_›⟩
      · simp at h
    · simp at h
  · rintro ⟨hmem, rfl⟩
    obtain ⟨i, hi, rfl⟩ := List.mem_iff_getElem.mp hmem
    -- the index of the record is the border: its key is not below, all before it are
    have hri : r = i := by
      rcases lt_trichotomy r i with hlt | rfl | hlt
      · have h := hhigh r le_rfl (by omega)
        rw [hat r (by omega)] at h
        exact absurd (hp r i (by omega) hi hlt) (by simpa using h)
      · rfl
      · have h := hlow i hlt
        rw [hat i hi] at h
        simp at h
    simp [hri, hi]

/-! ### Merging -/

variable (key)

/-- The merge of two ascending lists; where both have a key, the first one's
record is kept. -/
def mergeBy : List α → List α → List α
  | [], bs => bs
  | a :: as, [] => a :: as
  | a :: as, b :: bs =>
      if key a < key b then a :: mergeBy as (b :: bs)
      else if key b < key a then b :: mergeBy (a :: as) bs
      else a :: mergeBy as bs
termination_by as bs => as.length + bs.length

variable {key}

/-- **What a merge holds**: the first list, and of the second the records of keys
the first has not. -/
theorem mem_mergeBy {as bs : List α} (ha : as.Pairwise fun a b => key a < key b)
    (hb : bs.Pairwise fun a b => key a < key b) {x : α} :
    x ∈ mergeBy key as bs ↔ x ∈ as ∨ x ∈ bs ∧ ∀ a ∈ as, key a ≠ key x := by
  induction as, bs using mergeBy.induct key with
  | case1 bs => simp [mergeBy]
  | case2 a as => simp [mergeBy]
  | case3 a as b bs hlt ih =>
      obtain ⟨ha1, ha2⟩ := List.pairwise_cons.mp ha
      have hbx : ∀ y ∈ b :: bs, key a ≠ key y := by
        intro y hy
        rcases List.mem_cons.mp hy with rfl | hy
        · exact hlt.ne
        · exact (hlt.trans ((List.pairwise_cons.mp hb).1 y hy)).ne
      rw [mergeBy, if_pos hlt, List.mem_cons, ih ha2 hb, List.mem_cons (a := x) (b := a), or_assoc]
      refine or_congr_right (or_congr_right (and_congr_right fun hx => ?_))
      exact ⟨fun h => List.forall_mem_cons.mpr ⟨hbx x hx, h⟩,
        fun h => (List.forall_mem_cons.mp h).2⟩
  | case4 a as b bs hnlt hlt ih =>
      obtain ⟨hb1, hb2⟩ := List.pairwise_cons.mp hb
      have hab : ∀ y ∈ a :: as, key y ≠ key b := by
        intro y hy
        rcases List.mem_cons.mp hy with rfl | hy
        · exact hlt.ne'
        · exact (hlt.trans ((List.pairwise_cons.mp ha).1 y hy)).ne'
      rw [mergeBy, if_neg hnlt, if_pos hlt, List.mem_cons, ih ha hb2, List.mem_cons (b := b)]
      constructor
      · rintro (rfl | h | h)
        · exact Or.inr ⟨Or.inl rfl, hab⟩
        · exact Or.inl h
        · exact Or.inr ⟨Or.inr h.1, h.2⟩
      · rintro (h | ⟨rfl | h, hno⟩)
        · exact Or.inr (Or.inl h)
        · exact Or.inl rfl
        · exact Or.inr (Or.inr ⟨h, hno⟩)
  | case5 a as b bs hnlt hnlt' ih =>
      have heq : key a = key b := le_antisymm (not_lt.mp hnlt') (not_lt.mp hnlt)
      obtain ⟨ha1, ha2⟩ := List.pairwise_cons.mp ha
      obtain ⟨hb1, hb2⟩ := List.pairwise_cons.mp hb
      rw [mergeBy, if_neg hnlt, if_neg hnlt', List.mem_cons, ih ha2 hb2, List.mem_cons,
        List.mem_cons (b := b), or_assoc]
      refine or_congr_right (or_congr_right ?_)
      constructor
      · rintro ⟨hx, hno⟩
        exact ⟨Or.inr hx, List.forall_mem_cons.mpr ⟨(heq.trans_lt (hb1 x hx)).ne, hno⟩⟩
      · rintro ⟨rfl | hx, hno⟩
        · exact absurd heq (List.forall_mem_cons.mp hno).1
        · exact ⟨hx, (List.forall_mem_cons.mp hno).2⟩

lemma length_mergeBy_le (as bs : List α) :
    (mergeBy key as bs).length ≤ as.length + bs.length := by
  induction as, bs using mergeBy.induct key with
  | case1 bs => simp [mergeBy]
  | case2 a as => simp [mergeBy]
  | case3 a as b bs hlt ih =>
      rw [mergeBy, if_pos hlt, List.length_cons, List.length_cons]
      omega
  | case4 a as b bs hnlt hlt ih =>
      rw [mergeBy, if_neg hnlt, if_pos hlt, List.length_cons, List.length_cons (a := b)]
      omega
  | case5 a as b bs hnlt hnlt' ih =>
      rw [mergeBy, if_neg hnlt, if_neg hnlt', List.length_cons, List.length_cons,
        List.length_cons]
      omega

/-- A merge of ascending lists is ascending. -/
theorem pairwise_mergeBy {as bs : List α} (ha : as.Pairwise fun a b => key a < key b)
    (hb : bs.Pairwise fun a b => key a < key b) :
    (mergeBy key as bs).Pairwise fun a b => key a < key b := by
  induction as, bs using mergeBy.induct key with
  | case1 bs => simpa [mergeBy] using hb
  | case2 a as => simpa [mergeBy] using ha
  | case3 a as b bs hlt ih =>
      obtain ⟨ha1, ha2⟩ := List.pairwise_cons.mp ha
      rw [mergeBy, if_pos hlt, List.pairwise_cons]
      refine ⟨fun x hx => ?_, ih ha2 hb⟩
      rcases (mem_mergeBy ha2 hb).mp hx with hx | ⟨hx, -⟩
      · exact ha1 x hx
      · rcases List.mem_cons.mp hx with rfl | hx
        · exact hlt
        · exact hlt.trans ((List.pairwise_cons.mp hb).1 x hx)
  | case4 a as b bs hnlt hlt ih =>
      obtain ⟨hb1, hb2⟩ := List.pairwise_cons.mp hb
      rw [mergeBy, if_neg hnlt, if_pos hlt, List.pairwise_cons]
      refine ⟨fun x hx => ?_, ih ha hb2⟩
      rcases (mem_mergeBy ha hb2).mp hx with hx | ⟨hx, -⟩
      · rcases List.mem_cons.mp hx with rfl | hx
        · exact hlt
        · exact hlt.trans ((List.pairwise_cons.mp ha).1 x hx)
      · exact hb1 x hx
  | case5 a as b bs hnlt hnlt' ih =>
      have heq : key a = key b := le_antisymm (not_lt.mp hnlt') (not_lt.mp hnlt)
      obtain ⟨ha1, ha2⟩ := List.pairwise_cons.mp ha
      obtain ⟨hb1, hb2⟩ := List.pairwise_cons.mp hb
      rw [mergeBy, if_neg hnlt, if_neg hnlt', List.pairwise_cons]
      refine ⟨fun x hx => ?_, ih ha2 hb2⟩
      rcases (mem_mergeBy ha2 hb2).mp hx with hx | ⟨hx, -⟩
      · exact ha1 x hx
      · exact heq.trans_lt (hb1 x hx)

end Gpsxdb
