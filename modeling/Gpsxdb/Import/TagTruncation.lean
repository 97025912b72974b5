import Mathlib.Tactic
import Gpsxdb.Delta.TagStatements
import Gpsxdb.Import.Sanitizing

/-!
`sanitizeTag` as a truncation of `sanitizeUtf8`.

* `cutLoop_shaped`, `cutLoop_flatten`: the cut takes whole pieces, as `sanitizeUtf8`
  leaves them;
* `sanitizeTag_truncates`: **a stable truncation**, so that `diffTags` finds no change
  where the tags are the stored ones.
-/

namespace Gpsxdb

/-- The cut takes a shaped piece as one character. -/
lemma cutLoop_shaped {c : UInt8} {t : Text} (h : Shaped (c :: t)) (count : ℕ) (rest : Text) :
    cutLoop (count + 1) (c :: (t ++ rest)) = c :: t ++ cutLoop count rest := by
  obtain ⟨hlen, htake, hdrop, -⟩ := h.test rest
  rw [cutLoop, hlen, Option.getD_some, Nat.add_sub_cancel, htake, hdrop]

/-- **The cut of shaped pieces** is that of their list. -/
lemma cutLoop_flatten {us : List Text} (hus : ∀ u ∈ us, Shaped u) (count : ℕ) :
    cutLoop count us.flatten = (us.take count).flatten := by
  induction us generalizing count with
  | nil => cases count <;> rfl
  | cons u us ih =>
      obtain ⟨hshaped, hrest⟩ := List.forall_mem_cons.mp hus
      obtain ⟨c, t, rfl, -⟩ := hshaped.exists_cons
      cases count with
      | zero => rfl
      | succ count =>
          rw [List.flatten_cons, List.cons_append, cutLoop_shaped hshaped, ih hrest]
          rfl

/-- The pieces of a tag, and of what is cut off. -/
lemma sanitizeTag_eq_flatten (s : Text) : ∃ us : List Text, (∀ u ∈ us, Shaped u)
    ∧ sanitizeUtf8 s = us.flatten ∧ sanitizeTag s = (us.take 256).flatten := by
  obtain ⟨us, hus, hs⟩ := exists_pieces (le_refl s.length)
  refine ⟨us, hus, hs, ?_⟩
  rw [sanitizeTag, sanitizeUtf8, hs, cutLoop_flatten hus]

/-- **A second pass** changes nothing. -/
lemma sanitizeTag_idem (s : Text) : sanitizeTag (sanitizeTag s) = sanitizeTag s := by
  obtain ⟨us, hus, hs, htag⟩ := sanitizeTag_eq_flatten s
  have htake : ∀ u ∈ us.take 256, Shaped u := fun u hu => hus u (List.mem_of_mem_take hu)
  have hzero : (0 : UInt8) ∉ (us.take 256).flatten := by
    intro hmem
    obtain ⟨u, hu, hmem⟩ := List.mem_flatten.mp hmem
    refine zero_not_mem_sanitizeLoop (le_refl s.length) ?_
    rw [← sanitizeUtf8, hs]
    exact List.mem_flatten.mpr ⟨u, List.mem_of_mem_take hu, hmem⟩
  rw [sanitizeTag, htag, sanitizeUtf8, (loops_of_flatten htake le_rfl).2 hzero,
    cutLoop_flatten htake, List.take_take, Nat.min_self]

/-- **`sanitizeTag` is a stable truncation**: the beginning of `sanitizeUtf8` up to the
end of its 256th character, which a second pass leaves as it is.  So `diffTags` has no
statement for a tag that is stored already, read from the change or from the table. -/
theorem sanitizeTag_truncates (s : Text) :
    (∃ rest, sanitizeUtf8 s = sanitizeTag s ++ rest ∧ AtBoundary rest)
      ∧ charCount (sanitizeTag s) = min 256 (charCount (sanitizeUtf8 s))
      ∧ (charCount (sanitizeUtf8 s) ≤ 256 → sanitizeTag s = sanitizeUtf8 s)
      ∧ sanitizeTag (sanitizeTag s) = sanitizeTag s
      ∧ ∀ (key : Text) (existing : Text → Option Text),
        existing (sanitizeTag key) = some (sanitizeTag s) →
          tagStatement existing (sanitizeTag key, sanitizeTag s) = []
            ∧ tagStatement existing (sanitizeTag (sanitizeTag key), sanitizeTag (sanitizeTag s))
              = [] := by
  obtain ⟨us, hus, hs, htag⟩ := sanitizeTag_eq_flatten s
  refine ⟨⟨(us.drop 256).flatten, ?_, ?_⟩, ?_, fun hcount => ?_, sanitizeTag_idem s,
    fun key existing hstored => ?_⟩
  · rw [hs, htag, ← List.flatten_append, List.take_append_drop]
  · exact atBoundary_flatten fun u hu => hus u (List.mem_of_mem_drop hu)
  · rw [hs, htag, charCount_flatten hus, List.length_take.symm,
      charCount_flatten fun u hu => hus u (List.mem_of_mem_take hu)]
  · rw [hs, charCount_flatten hus] at hcount
    rw [hs, htag, List.take_of_length_le hcount]
  · have hnone : tagStatement existing (sanitizeTag key, sanitizeTag s) = [] := by
      rw [tagStatement, hstored]
      exact if_neg (not_not.mpr rfl)
    exact ⟨hnone, by rw [sanitizeTag_idem, sanitizeTag_idem]; exact hnone⟩

/-- A truncated character and a stray byte are dropped, here and in a second pass. -/
theorem sanitizeTag_truncates_mixed :
    sanitizeTag [0x41, 0xC3, 0xA9, 0x80, 0xE2, 0x82] = [0x41, 0xC3, 0xA9]
      ∧ sanitizeTag [0x41, 0xC3, 0xA9] = [0x41, 0xC3, 0xA9] := by
  have hfirst : sanitizeTag [0x41, 0xC3, 0xA9, 0x80, 0xE2, 0x82] = [0x41, 0xC3, 0xA9] := by decide
  have hagain := (sanitizeTag_truncates [0x41, 0xC3, 0xA9, 0x80, 0xE2, 0x82]).2.2.2.1
  rw [hfirst] at hagain
  exact ⟨hfirst, hagain⟩

end Gpsxdb
