import Mathlib.Tactic
import Mathlib.Data.Sym.Sym2
import Mathlib.Data.Multiset.Count
import Mathlib.Algebra.Order.BigOperators.Group.List
import Mathlib.Algebra.Group.Even

/-!
Trails, glued end to end.

* `edges`, `ends`: the undirected edges of a list of vertices, and its two ends;
* `Glued`: a trail that is glued from parts, each in one direction or the other;
  `Glued.edges`: **it has the edges of its parts**; `Glued.even_iff`: every vertex is
  as often its end as it is an end of the parts, up to an even number;
* `Assembled`: a greedy assembly, each trail being closed or stuck at its last vertex;
  `Assembled.perm`: **every part is used once**;
  `Assembled.closed_iff`: **every trail closes** exactly when every vertex is an even
  number of ends.
-/

namespace Gpsxdb

namespace Trail

variable {κ : Type*}

/-- The undirected edges of a trail. -/
def edges : List κ → Multiset (Sym2 κ)
  | [] => 0
  | [_] => 0
  | a :: b :: l => s(a, b) ::ₘ edges (b :: l)

/-- The first and the last vertex. -/
def ends (l : List κ) : Multiset κ := ↑(l.head?.toList ++ l.getLast?.toList)

/-- The trail ends where it began. -/
def Closed (l : List κ) : Prop := l.head? = l.getLast?

/-! ### Edges -/

/-- The edges of two trails that share a vertex. -/
lemma edges_append (l : List κ) (a : κ) (t : List κ) :
    edges (l ++ a :: t) = edges (l ++ [a]) + edges (a :: t) := by
  induction l with
  | nil => simp [edges]
  | cons b l ih =>
      cases l with
      | nil => simp [edges]
      | cons c l =>
          have ih' : edges (c :: (l ++ a :: t)) = edges (c :: (l ++ [a])) + edges (a :: t) := ih
          simp only [List.cons_append, edges, ih', Multiset.cons_add]

lemma edges_reverse (l : List κ) : edges l.reverse = edges l := by
  induction l with
  | nil => rfl
  | cons a l ih =>
      cases l with
      | nil => rfl
      | cons b l =>
          have hsplit : edges (l.reverse ++ [b, a]) = edges (l.reverse ++ [b]) + edges [b, a] :=
            edges_append l.reverse b [a]
          have ih' : edges (l.reverse ++ [b]) = edges (b :: l) := by
            rw [← ih, List.reverse_cons]
          rw [List.reverse_cons, List.reverse_cons, List.append_assoc, List.singleton_append,
            hsplit, ih']
          simp only [edges, Sym2.eq_swap (a := b)]
          rw [add_comm]
          simp

lemma edges_append_tail {w s : List κ} (h : s.head? = w.getLast?) :
    edges (w ++ s.tail) = edges w + edges s := by
  cases s with
  | nil =>
      obtain rfl : w = [] := List.getLast?_eq_none_iff.mp h.symm
      simp [edges]
  | cons a t =>
      obtain ⟨l, rfl⟩ := List.getLast?_eq_some_iff.mp h.symm
      rw [List.tail_cons, List.append_assoc, List.singleton_append, edges_append]

/-! ### Ends -/

lemma ends_reverse (l : List κ) : ends l.reverse = ends l := by
  rw [ends, ends, List.head?_reverse, List.getLast?_reverse]
  exact Multiset.coe_eq_coe.mpr List.perm_append_comm

lemma getLast?_append_tail {w s : List κ} (h : s.head? = w.getLast?) :
    (w ++ s.tail).getLast? = s.getLast? := by
  cases s with
  | nil =>
      obtain rfl : w = [] := List.getLast?_eq_none_iff.mp h.symm
      rfl
  | cons a t =>
      cases t with
      | nil => rw [List.tail_cons, List.append_nil, ← h, List.head?_cons, List.getLast?_singleton]
      | cons b t => rw [List.tail_cons, List.getLast?_append_cons, List.getLast?_cons_cons]

lemma head?_append_tail {w s : List κ} (h : s.head? = w.getLast?) :
    (w ++ s.tail).head? = w.head? := by
  cases w with
  | nil =>
      obtain rfl : s = [] := List.head?_eq_none_iff.mp h
      rfl
  | cons a w => rfl

variable [DecidableEq κ]

/-- How often a vertex is an end. -/
lemma count_ends (l : List κ) (v : κ) : (ends l).count v
    = (if l.head? = some v then 1 else 0) + if l.getLast? = some v then 1 else 0 := by
  have hone : ∀ o : Option κ, o.toList.count v = if o = some v then 1 else 0 := by
    intro o
    cases o with
    | none => rfl
    | some a => by_cases h : a = v <;> simp [h]
  rw [ends, Multiset.coe_count, List.count_append, hone, hone]

/-- The vertex glued at is no end any more, and was one twice. -/
lemma count_ends_append {w s : List κ} (h : s.head? = w.getLast?) (v : κ) :
    (ends (w ++ s.tail)).count v + 2 * (if w.getLast? = some v then 1 else 0)
      = (ends w).count v + (ends s).count v := by
  rw [count_ends, count_ends, count_ends, head?_append_tail h, getLast?_append_tail h, h]
  ring

lemma even_count_ends_of_closed {l : List κ} (h : Closed l) (v : κ) :
    Even ((ends l).count v) := by
  rw [count_ends, h]
  exact ⟨_, rfl⟩

/-! ### Gluing -/

/-- A trail glued from parts, in the order of their use, each as it is or reversed. -/
inductive Glued : List (List κ) → List κ → Prop
  | start (s : List κ) : Glued [s] s
  | snoc {parts : List (List κ)} {w s s' : List κ} : Glued parts w → (s' = s ∨ s' = s.reverse) →
      s'.head? = w.getLast? → Glued (parts ++ [s]) (w ++ s'.tail)

omit [DecidableEq κ] in
lemma Glued.ne_nil {parts : List (List κ)} {w : List κ} (h : Glued parts w) : parts ≠ [] := by
  cases h <;> simp

omit [DecidableEq κ] in
/-- **A glued trail has the edges of its parts.** -/
theorem Glued.edges {parts : List (List κ)} {w : List κ} (h : Glued parts w) :
    edges w = (parts.map edges).sum := by
  induction h with
  | start s => simp
  | snoc _ hs hglue ih =>
      rw [edges_append_tail hglue, ih, List.map_append, List.sum_append]
      rcases hs with rfl | rfl
      · simp
      · simp [edges_reverse]

/-- Up to an even number the ends of a glued trail are those of its parts. -/
theorem Glued.even_iff {parts : List (List κ)} {w : List κ} (h : Glued parts w) (v : κ) :
    Even ((parts.map ends).sum.count v) ↔ Even ((ends w).count v) := by
  induction h with
  | start s => simp
  | @snoc parts w s s' _ hs hglue ih =>
      have hends : ends s' = ends s := by
        rcases hs with rfl | rfl
        · rfl
        · exact ends_reverse s
      have hcount := count_ends_append hglue v
      rw [hends] at hcount
      rw [List.map_append, List.sum_append, Multiset.count_add, List.map_singleton,
        List.sum_singleton]
      have htwo : Even ((ends (w ++ s'.tail)).count v)
          ↔ Even ((ends w).count v + (ends s).count v) := by
        rw [← hcount, Nat.even_add, iff_true_right (even_two_mul _)]
      rw [htwo, Nat.even_add, Nat.even_add, ih]

/-! ### Greedy assembly -/

/-- Trails assembled one after the other, each from what is left: when it is done it
is closed, or nothing that is left has an end at its last vertex. -/
inductive Assembled : List (List κ) → List (List κ) → Prop
  | nil : Assembled [] []
  | cons {segs parts rest ws : List (List κ)} {w : List κ} : Glued parts w →
      (parts ++ rest).Perm segs → (Closed w ∨ ∀ v ∈ w.getLast?, ∀ s ∈ rest, v ∉ ends s) →
      Assembled rest ws → Assembled segs (w :: ws)

omit [DecidableEq κ] in
/-- **Every part is used once.** -/
theorem Assembled.perm {segs ws : List (List κ)} (h : Assembled segs ws) :
    ∃ used : List (List (List κ)), used.flatten.Perm segs ∧ List.Forall₂ Glued used ws := by
  induction h with
  | nil => exact ⟨[], List.Perm.refl _, List.Forall₂.nil⟩
  | @cons segs parts rest ws w hglued hperm _ _ ih =>
      obtain ⟨used, hused, hall⟩ := ih
      exact ⟨parts :: used, (hused.append_left parts).trans hperm, hall.cons hglued⟩

omit [DecidableEq κ] in
/-- **The edges of the trails are those of the parts.** -/
theorem Assembled.edges {segs ws : List (List κ)} (h : Assembled segs ws) :
    (ws.map edges).sum = (segs.map edges).sum := by
  induction h with
  | nil => rfl
  | @cons segs parts rest ws w hglued hperm _ _ ih =>
      rw [List.map_cons, List.sum_cons, ih, hglued.edges, ← (hperm.map Trail.edges).sum_eq,
        List.map_append, List.sum_append]

lemma mem_sum_map {α β : Type*} {f : α → Multiset β} {l : List α} {v : β} :
    v ∈ (l.map f).sum ↔ ∃ s ∈ l, v ∈ f s := by
  induction l with
  | nil => simp
  | cons s l ih => simp [ih]

/-- How often a vertex is an end of what is used and of what is left. -/
lemma count_ends_perm {segs parts rest : List (List κ)} (h : (parts ++ rest).Perm segs) (v : κ) :
    (segs.map ends).sum.count v
      = (parts.map ends).sum.count v + (rest.map ends).sum.count v := by
  rw [← (h.map ends).sum_eq, List.map_append, List.sum_append, Multiset.count_add]

/-- **Every trail closes** exactly when every vertex is an even number of ends. -/
theorem Assembled.closed_iff {segs ws : List (List κ)} (h : Assembled segs ws) :
    (∀ w ∈ ws, Closed w) ↔ ∀ v, Even ((segs.map ends).sum.count v) := by
  induction h with
  | nil => simp
  | @cons segs parts rest ws w hglued hperm hstuck _ ih =>
      rw [List.forall_mem_cons, ih]
      constructor
      · rintro ⟨hclosed, hrest⟩ v
        rw [count_ends_perm hperm, Nat.even_add, hglued.even_iff]
        exact iff_of_true (even_count_ends_of_closed hclosed v) (hrest v)
      · intro heven
        have hclosed : Closed w := by
          refine hstuck.elim id fun hno => ?_
          by_contra hopen
          -- at the last vertex the trail itself has the only odd end
          cases hlast : w.getLast? with
          | none =>
              obtain rfl := List.getLast?_eq_none_iff.mp hlast
              exact hopen rfl
          | some v =>
              have hrest : (rest.map ends).sum.count v = 0 := by
                rw [Multiset.count_eq_zero]
                intro hv
                obtain ⟨s, hs, hvs⟩ := mem_sum_map.mp hv
                exact hno v hlast s hs hvs
              have hodd := heven v
              rw [count_ends_perm hperm, hrest, Nat.add_zero, hglued.even_iff, count_ends, hlast,
                if_pos rfl, if_neg fun hhead => hopen (hhead.trans hlast.symm)] at hodd
              simp at hodd
        refine ⟨hclosed, fun v => ?_⟩
        have hv := heven v
        rw [count_ends_perm hperm, Nat.even_add, hglued.even_iff] at hv
        exact hv.mp (even_count_ends_of_closed hclosed v)

end Trail

end Gpsxdb
