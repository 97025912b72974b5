import Mathlib.Tactic

/-!
Tables of rows with a primary key, as lists.

* `hasKey`: whether a key is taken;
* `insertNew`: an insert that does nothing on a conflict; `foldl_insertNew`: a
  batch of distinct keys adds exactly the rows of new keys;
* `upsert`: an insert that replaces on a conflict; `nodup_upsert`,
  `mem_keys_upsert`, `filter_upsert_of_ne`, `head?_filter_upsert`.
-/

namespace Gpsxdb

variable {α κ : Type*} [DecidableEq κ] (key : α → κ)

/-- Some row has the key. -/
def hasKey (l : List α) (k : κ) : Bool := l.any fun a => key a = k

/-- An insert that does nothing where the key is taken. -/
def insertNew (l : List α) (a : α) : List α := if hasKey key l (key a) then l else l ++ [a]

/-- An insert that replaces the row where the key is taken. -/
def upsert (l : List α) (a : α) : List α :=
  if hasKey key l (key a) then l.map fun b => if key b = key a then a else b else l ++ [a]

variable {key}

@[simp] lemma hasKey_iff {l : List α} {k : κ} : hasKey key l k = true ↔ ∃ a ∈ l, key a = k := by
  simp [hasKey]

lemma hasKey_eq_false {l : List α} {k : κ} : hasKey key l k = false ↔ ∀ a ∈ l, key a ≠ k := by
  simp [hasKey]

/-- **A batch of distinct keys** adds the rows whose keys are new. -/
theorem foldl_insertNew {l as : List α} (hnd : (as.map key).Nodup) :
    as.foldl (insertNew key) l = l ++ as.filter fun a => !hasKey key l (key a) := by
  induction as generalizing l with
  | nil => simp
  | cons a as ih =>
      rw [List.map_cons, List.nodup_cons] at hnd
      rw [List.foldl_cons, ih hnd.2, insertNew, List.filter_cons]
      split
      · simp [‹hasKey key l (key a) = true›]
      · have hrest : ∀ b ∈ as, hasKey key (l ++ [a]) (key b) = hasKey key l (key b) := by
          intro b hb
          have hne : key a ≠ key b := fun h => hnd.1 (List.mem_map.mpr ⟨b, hb, h.symm⟩)
          simp [hasKey, hne]
        have hfilter : (as.filter fun b => !hasKey key (l ++ [a]) (key b))
            = as.filter fun b => !hasKey key l (key b) :=
          List.filter_congr fun b hb => by rw [hrest b hb]
        simp [‹¬hasKey key l (key a) = true›, hfilter]

/-- A row of a distinct key added keeps the keys distinct. -/
lemma nodup_append_new {l as : List α} (hl : (l.map key).Nodup) (has : (as.map key).Nodup)
    (hnew : ∀ a ∈ as, hasKey key l (key a) = false) : ((l ++ as).map key).Nodup := by
  rw [List.map_append, List.nodup_append]
  refine ⟨hl, has, fun k hk k' hk' heq => ?_⟩
  obtain ⟨b, hb, rfl⟩ := List.mem_map.mp hk
  obtain ⟨a, ha, rfl⟩ := List.mem_map.mp hk'
  exact hasKey_eq_false.mp (hnew a ha) b hb heq

/-- Replacing a row under its key keeps the keys. -/
lemma keys_replace (l : List α) (a : α) :
    (l.map fun b => if key b = key a then a else b).map key = l.map key := by
  rw [List.map_map]
  refine List.map_congr_left fun b _ => ?_
  by_cases hb : key b = key a <;> simp [hb]

/-- The keys after an upsert. -/
lemma mem_keys_upsert {l : List α} {a : α} {k : κ} :
    k ∈ (upsert key l a).map key ↔ k = key a ∨ k ∈ l.map key := by
  rw [upsert]
  split
  · rename_i h
    rw [keys_replace]
    constructor
    · exact Or.inr
    · rintro (rfl | hk)
      · obtain ⟨b, hb, hkey⟩ := hasKey_iff.mp h
        exact List.mem_map.mpr ⟨b, hb, hkey⟩
      · exact hk
  · simp [or_comm]

/-- **An upsert keeps the keys distinct.** -/
theorem nodup_upsert {l : List α} {a : α} (h : (l.map key).Nodup) :
    ((upsert key l a).map key).Nodup := by
  rw [upsert]
  split
  · rw [keys_replace]
    exact h
  · rename_i hnew
    refine nodup_append_new h (List.nodup_singleton _) fun b hb => ?_
    obtain rfl := List.mem_singleton.mp hb
    exact Bool.eq_false_iff.mpr hnew

/-- An upsert leaves the rows of other keys. -/
lemma filter_upsert_of_ne {l : List α} {a : α} {k : κ} (h : key a ≠ k) :
    ((upsert key l a).filter fun b => key b = k) = l.filter fun b => key b = k := by
  rw [upsert]
  split
  · rw [List.filter_map]
    have hsame :
        (l.filter ((fun b => decide (key b = k)) ∘ fun b => if key b = key a then a else b))
          = l.filter fun b => key b = k := by
      refine List.filter_congr fun b _ => ?_
      by_cases hb : key b = key a
      · simp [hb, h]
      · simp [hb]
    rw [hsame]
    refine (List.map_congr_left fun b hb => ?_).trans (List.map_id _)
    have hk : key b = k := of_decide_eq_true (List.mem_filter.mp hb).2
    rw [if_neg (fun hba => h (hba.symm.trans hk)), id]
  · simp [List.filter_append, h]

/-- An upsert puts the row first among those of its key. -/
lemma head?_filter_upsert (l : List α) (a : α) :
    ((upsert key l a).filter fun b => key b = key a).head? = some a := by
  rw [upsert]
  split
  · induction l with
    | nil => simp [hasKey] at *
    | cons b l ih =>
        by_cases hb : key b = key a
        · simp [hb]
        · rw [List.map_cons, if_neg hb, List.filter_cons, if_neg (by simpa using hb)]
          exact ih (by simpa [hasKey, hb] using ‹hasKey key (b :: l) (key a) = true›)
  · have hnil : (l.filter fun b => key b = key a) = [] :=
      List.filter_eq_nil_iff.mpr fun b hb => by
        simpa using hasKey_eq_false.mp (Bool.eq_false_iff.mpr ‹_›) b hb
    simp [List.filter_append, hnil]

end Gpsxdb
