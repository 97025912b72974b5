import Mathlib.Tactic

/-!
The scratch files of `regional_db_export`, by name.

* `TablePair`, `kTablePairs`: the five big parent and child tables;
* `tempPath`: the scratch file of a region, a chunk and a kind of content;
  `tempPath_inj`: it tells regions and chunks apart;
* `tempPath_ne`, `tempPath_ne_extra_vertices`: a pair's parent rows, child rows and
  vertices go to different files.
-/

namespace Gpsxdb

/-- One parent and child pair, with the field of the parent's geometry. -/
structure TablePair where
  parent : String
  parent_geom_field : ℕ
  child : String
deriving DecidableEq

/-- The five pairs. -/
def kTablePairs : List TablePair :=
  [⟨"ways", 2, "way_tags"⟩, ⟨"areas", 2, "area_tags"⟩, ⟨"roads", 2, "road_tags"⟩,
    ⟨"relations", 2, "relation_tags"⟩, ⟨"nodes", 4, "node_tags"⟩]

lemma ways_mem_kTablePairs : (⟨"ways", 2, "way_tags"⟩ : TablePair) ∈ kTablePairs := by decide

/-- `out_dir + "/tmp_" + regions[ri].name + "_" + std::to_string(ci) + "_" + .. + ".raw"`. -/
def tempPath (out_dir region : String) (ci : ℕ) (content : String) : String :=
  out_dir ++ "/tmp_" ++ region ++ "_" ++ toString ci ++ "_" ++ content ++ ".raw"

/-- A name that ends in a separator and a number is read from its end. -/
lemma append_separator_inj {s t d e : List Char} (hd : '_' ∉ d) (he : '_' ∉ e)
    (h : s ++ '_' :: d = t ++ '_' :: e) : s = t ∧ d = e := by
  rcases List.append_eq_append_iff.mp h with ⟨u, rfl, hu⟩ | ⟨u, rfl, hu⟩
  · rcases u with _ | ⟨c, u⟩
    · simpa using hu
    · rw [List.cons_append, List.cons.injEq] at hu
      exact absurd (hu.2 ▸ List.mem_append_right _ (List.mem_cons_self ..)) hd
  · rcases u with _ | ⟨c, u⟩
    · simpa [eq_comm] using hu
    · rw [List.cons_append, List.cons.injEq] at hu
      exact absurd (hu.2 ▸ List.mem_append_right _ (List.mem_cons_self ..)) he

/-- **A scratch file belongs to one region and chunk.** -/
theorem tempPath_inj {out_dir region region' content : String} {ci ci' : ℕ}
    (h : tempPath out_dir region ci content = tempPath out_dir region' ci' content) :
    region = region' ∧ ci = ci' := by
  have hlist := congrArg String.toList h
  simp only [tempPath, String.toList_append, Nat.toString_eq_repr, Nat.toList_repr,
    List.append_left_inj] at hlist
  simp only [List.append_assoc, List.append_right_inj] at hlist
  obtain ⟨hname, hnum⟩ := append_separator_inj (Nat.underscore_not_in_toDigits)
    (Nat.underscore_not_in_toDigits) hlist
  refine ⟨String.toList_injective hname, ?_⟩
  rw [← Nat.ofDigitChars_ten_toDigits (n := ci), hnum, Nat.ofDigitChars_ten_toDigits]

/-- Contents none of which ends in the other go to different files. -/
lemma tempPath_ne_of_not_suffix {out_dir region region' content content' : String} {ci ci' : ℕ}
    (h : ¬(content.toList <:+ content'.toList ∨ content'.toList <:+ content.toList)) :
    tempPath out_dir region ci content ≠ tempPath out_dir region' ci' content' := by
  intro heq
  have hlist := congrArg String.toList heq
  simp only [tempPath, String.toList_append, List.append_left_inj] at hlist
  have hsuffix := List.suffix_append (out_dir.toList ++ "/tmp_".toList ++ region.toList
    ++ "_".toList ++ (toString ci).toList ++ "_".toList) content.toList
  rw [hlist] at hsuffix
  exact h (List.suffix_or_suffix_of_suffix hsuffix (List.suffix_append _ _))

/-- **A pair's parent and child rows go to different files.** -/
theorem tempPath_ne {pair : TablePair} (hpair : pair ∈ kTablePairs)
    {out_dir region region' : String} {ci ci' : ℕ} :
    tempPath out_dir region ci pair.parent ≠ tempPath out_dir region' ci' pair.child :=
  tempPath_ne_of_not_suffix ((by decide : ∀ p ∈ kTablePairs,
    ¬(p.parent.toList <:+ p.child.toList ∨ p.child.toList <:+ p.parent.toList)) pair hpair)

/-- Neither goes where extra vertices go. -/
theorem tempPath_ne_extra_vertices {pair : TablePair} (hpair : pair ∈ kTablePairs)
    {table out_dir region region' : String} {ci ci' : ℕ}
    (htable : table = pair.parent ∨ table = pair.child) :
    tempPath out_dir region ci table ≠ tempPath out_dir region' ci' "extra_vertices" := by
  refine tempPath_ne_of_not_suffix ?_
  have hall : ∀ p ∈ kTablePairs, ∀ t ∈ [p.parent, p.child],
      ¬(t.toList <:+ "extra_vertices".toList ∨ "extra_vertices".toList <:+ t.toList) := by decide
  exact hall pair hpair table (by simpa using htable)

end Gpsxdb
