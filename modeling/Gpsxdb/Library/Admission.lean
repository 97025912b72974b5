import Mathlib.Tactic

/-!
Items admitted one after another, each in view of those admitted before it.

* `admitted`: one scan in order that passes over what is refused;
* `firstRefused`: the first item that a reader who stops at a refusal would not
  take;
* `admitted_of_firstRefused_eq_none`: nothing refused, everything admitted;
* `admitted_eraseIdx`: **taking the first refused item out** changes nothing about
  the scan;
* `refused`: what the scan passes over; `mem_admitted_or_refused`;
* `admitted_of_sublist`: any sublist is what some predicate admits.
-/

namespace Gpsxdb

variable {α : Type*} (accept : List α → α → Bool)

/-- The items admitted, after those of `kept`. -/
def admitted (kept : List α) : List α → List α
  | [] => kept
  | a :: l => admitted (if accept kept a then kept ++ [a] else kept) l

/-- The index of the first item that is refused, if all before it are taken. -/
def firstRefused (kept : List α) : List α → Option ℕ
  | [] => none
  | a :: l => if accept kept a then (firstRefused (kept ++ [a]) l).map (· + 1) else some 0

variable {accept} {kept l : List α}

@[simp] lemma admitted_nil : admitted accept kept [] = kept := rfl

lemma admitted_cons (a : α) :
    admitted accept kept (a :: l)
      = admitted accept (if accept kept a then kept ++ [a] else kept) l := rfl

/-- What is refused first is one of the items. -/
lemma firstRefused_lt {i : ℕ} (h : firstRefused accept kept l = some i) : i < l.length := by
  induction l generalizing kept i with
  | nil => simp [firstRefused] at h
  | cons a l ih =>
      rw [firstRefused] at h
      split at h
      · obtain ⟨j, hj, rfl⟩ := Option.map_eq_some_iff.mp h
        exact Nat.succ_lt_succ (ih hj)
      · obtain rfl := Option.some.inj h
        exact Nat.zero_lt_succ _

/-- With nothing to refuse, the scan admits everything. -/
lemma admitted_of_firstRefused_eq_none (h : firstRefused accept kept l = none) :
    admitted accept kept l = kept ++ l := by
  induction l generalizing kept with
  | nil => simp
  | cons a l ih =>
      rw [firstRefused] at h
      split at h
      · rename_i ha
        rw [admitted_cons, if_pos ha, ih (Option.map_eq_none_iff.mp h), List.append_assoc]
        rfl
      · cases h

/-- **The first refused item may be taken out**: the scan passes over it
anyway. -/
lemma admitted_eraseIdx {i : ℕ} (h : firstRefused accept kept l = some i) :
    admitted accept kept (l.eraseIdx i) = admitted accept kept l := by
  induction l generalizing kept i with
  | nil => simp [firstRefused] at h
  | cons a l ih =>
      rw [firstRefused] at h
      split at h
      · rename_i ha
        obtain ⟨j, hj, rfl⟩ := Option.map_eq_some_iff.mp h
        rw [List.eraseIdx_cons_succ, admitted_cons, admitted_cons, if_pos ha, ih hj]
      · rename_i ha
        obtain rfl := Option.some.inj h
        rw [List.eraseIdx_cons_zero, admitted_cons, if_neg ha]

/-! ### What is passed over -/

variable (accept) in
/-- The items the scan passes over. -/
def refused (kept : List α) : List α → List α
  | [] => []
  | a :: l => if accept kept a then refused (kept ++ [a]) l else a :: refused kept l

/-- An item that is passed over is one that the predicate does not take. -/
lemma exists_of_mem_refused {a : α} (h : a ∈ refused accept kept l) :
    a ∈ l ∧ ∃ kept', accept kept' a = false := by
  induction l generalizing kept with
  | nil => exact absurd h List.not_mem_nil
  | cons b l ih =>
      rw [refused] at h
      split at h
      · obtain ⟨hl, hno⟩ := ih h
        exact ⟨List.mem_cons_of_mem _ hl, hno⟩
      · rename_i hb
        rcases List.mem_cons.mp h with rfl | h
        · exact ⟨List.mem_cons_self .., kept, Bool.eq_false_iff.mpr hb⟩
        · obtain ⟨hl, hno⟩ := ih h
          exact ⟨List.mem_cons_of_mem _ hl, hno⟩

/-- An item is admitted or refused. -/
lemma mem_admitted_or_refused {a : α} (h : a ∈ kept ∨ a ∈ l) :
    a ∈ admitted accept kept l ∨ a ∈ refused accept kept l := by
  induction l generalizing kept with
  | nil => exact .inl (h.resolve_right List.not_mem_nil)
  | cons b l ih =>
      rw [admitted_cons, refused]
      split
      · refine ih ?_
        rcases h with h | h
        · exact .inl (List.mem_append_left _ h)
        · rcases List.mem_cons.mp h with rfl | h
          · exact .inl (by simp)
          · exact .inr h
      · rcases h with h | h
        · exact (ih (.inl h)).imp_right (List.mem_cons_of_mem _)
        · rcases List.mem_cons.mp h with rfl | h
          · exact .inr (List.mem_cons_self ..)
          · exact (ih (.inr h)).imp_right (List.mem_cons_of_mem _)

/-- **Any sublist** is what some predicate admits: the one that waits for its next
item. -/
lemma admitted_of_sublist [DecidableEq α] {target : List α} (h : target.Sublist l) :
    admitted (fun kept a => (kept ++ [a]).isPrefixOf target) [] l = target := by
  have hscan : ∀ {l rest kept : List α}, rest.Sublist l → kept ++ rest = target →
      admitted (fun kept a => (kept ++ [a]).isPrefixOf target) kept l = target := by
    intro l
    induction l with
    | nil =>
        intro rest kept hsub heq
        rw [List.sublist_nil.mp hsub, List.append_nil] at heq
        exact heq
    | cons a l ih =>
        intro rest kept hsub heq
        rw [admitted_cons]
        cases rest with
        | nil =>
            have hnot : ¬ (kept ++ [a]) <+: target := by
              intro hpre
              have hlen := hpre.length_le
              rw [← heq] at hlen
              simp at hlen
            rw [if_neg (by simpa using hnot)]
            exact ih (List.nil_sublist _) heq
        | cons b rest =>
            by_cases hab : b = a
            · subst hab
              have hpre : (kept ++ [b]) <+: target := ⟨rest, by rw [← heq]; simp⟩
              rw [if_pos (by simpa using hpre)]
              exact ih (List.cons_sublist_cons.mp hsub) (by rw [← heq]; simp)
            · have hnot : ¬ (kept ++ [a]) <+: target := by
                rw [← heq, List.prefix_append_right_inj, List.singleton_prefix_cons_iff]
                exact fun h => hab h.symm
              rw [if_neg (by simpa using hnot)]
              refine ih ?_ heq
              cases hsub with
              | cons _ hsub => exact hsub
              | cons_cons _ hsub => exact absurd rfl hab
  exact hscan h rfl

end Gpsxdb
