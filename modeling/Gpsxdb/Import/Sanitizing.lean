import Mathlib.Tactic
import Gpsxdb.Library.Word
import Gpsxdb.Library.Utf8
import Gpsxdb.Import.Tags
import Gpsxdb.Reload.Csv

/-!
The two `sanitizeUtf8`, that of `NavDB.cpp` and that of `FAAObstacleLoader.cpp`.

* `sequenceLength_eq`, `continues_eq`: the bit patterns both look at, as ranges;
* `front_cases`: a text starts with a shaped piece, or with a byte to get rid of;
* `sanitizeLoop_shaped`, `sanitizeLoop_skip`, `latinLoop_shaped`, `latinLoop_skip`: a
  turn of either loop;
* `sanitizeLoop_induction`: **induction along the first loop**;
* `wellFormed_sanitizeLoop_iff`, `wellFormed_latinLoop_iff`: the output is well-formed
  exactly for clean text;
* `loops_of_flatten`, `exists_pieces`: shaped pieces go through, and nothing else is
  stored;
* `sanitized_iff`: **both copies**, with what holds of any text.

Neither loop looks at more than bit patterns, so an overlong form, a surrogate or a
character beyond U+10FFFF goes through.
-/

namespace Gpsxdb

/-! ### Bit patterns -/

lemma sequenceLength_eq (c : UInt8) : sequenceLength c = leadLength c :=
  forall_byte (p := fun c => sequenceLength c = leadLength c) (by decide +kernel) c

lemma continues_eq (c : UInt8) : (c &&& 0xC0 == 0x80) = isContinuation c :=
  forall_byte (p := fun c => (c &&& 0xC0 == 0x80) = isContinuation c) (by decide +kernel) c

/-- The Latin-1 reading of a byte is a character of two bytes. -/
lemma isLegal_latin (c : UInt8) :
    c < 0x80 ∨ isLegal [(0xC0 : UInt8) ||| c >>> 6, (0x80 : UInt8) ||| c &&& 0x3F] = true :=
  forall_byte (p := fun c => c < 0x80
    ∨ isLegal [(0xC0 : UInt8) ||| c >>> 6, (0x80 : UInt8) ||| c &&& 0x3F] = true)
    (by decide +kernel) c

/-- A text starts with a shaped piece, or none of its prefixes is one. -/
lemma front_cases (c : UInt8) (s : Text) :
    (∃ t rest, s = t ++ rest ∧ Shaped (c :: t)) ∨ ∀ u, Shaped u → ¬ u <+: c :: s := by
  by_cases h : ∃ u, Shaped u ∧ u <+: c :: s
  · obtain ⟨u, hu, hpre⟩ := h
    obtain ⟨d, t, rfl, -⟩ := hu.exists_cons
    obtain ⟨rfl, rest, rfl⟩ := List.cons_prefix_cons.mp hpre
    exact .inl ⟨t, rest, rfl, hu⟩
  · exact .inr fun u hu hpre => h ⟨u, hu, hpre⟩

/-- What both loops test at a byte. -/
lemma shaped_take {c : UInt8} {s : Text} {len : ℕ} (hlen : sequenceLength c = some len)
    (hfit : len ≤ s.length + 1)
    (hcont : ((s.take (len - 1)).all fun cc => cc &&& 0xC0 == 0x80) = true) :
    Shaped (c :: s.take (len - 1)) := by
  have hpos : 1 ≤ len := by
    rw [sequenceLength_eq, leadLength_eq] at hlen
    split_ifs at hlen <;> simp_all <;> omega
  refine ⟨?_, fun d hd => ?_⟩
  · rw [← sequenceLength_eq, hlen, List.length_take]
    congr 1
    omega
  · rw [← continues_eq]
    exact List.all_eq_true.mp hcont d hd

/-! ### A turn -/

section

variable {c : UInt8} {s t rest : Text} {n : ℕ}

/-- The test holds at a shaped piece. -/
lemma Shaped.test (h : Shaped (c :: t)) (rest : Text) :
    sequenceLength c = some (t.length + 1) ∧ (t ++ rest).take t.length = t
      ∧ (t ++ rest).drop t.length = rest
      ∧ (t.all fun cc => cc &&& 0xC0 == 0x80) = true := by
  refine ⟨by rw [sequenceLength_eq]; exact h.1, List.take_left, List.drop_left, ?_⟩
  rw [List.all_eq_true]
  intro d hd
  rw [continues_eq]
  exact h.2 d hd

/-- A shaped piece is kept. -/
lemma sanitizeLoop_shaped (h : Shaped (c :: t)) (hc : c ≠ 0) (n : ℕ) (rest : Text) :
    sanitizeLoop (n + 1) (c :: (t ++ rest)) = c :: t ++ sanitizeLoop n rest := by
  obtain ⟨hlen, htake, hdrop, hall⟩ := h.test rest
  have hfit : ¬ (t ++ rest).length + 1 < t.length + 1 := by
    rw [List.length_append]
    omega
  rw [sanitizeLoop, hlen]
  dsimp only
  rw [if_neg hc, if_neg hfit, Nat.add_sub_cancel, htake, hdrop, if_pos hall]

/-- A NUL is dropped. -/
lemma sanitizeLoop_zero (n : ℕ) (s : Text) : sanitizeLoop (n + 1) (0 :: s) = sanitizeLoop n s := rfl

/-- A byte that starts no shaped piece is dropped. -/
lemma sanitizeLoop_skip (h : ∀ u, Shaped u → ¬ u <+: c :: s) (n : ℕ) :
    sanitizeLoop (n + 1) (c :: s) = sanitizeLoop n s := by
  rw [sanitizeLoop]
  cases hlen : sequenceLength c with
  | none => rfl
  | some len =>
      dsimp only
      split
      · rfl
      · split
        · rfl
        · split
          · rename_i hshort hall
            refine absurd ?_ (h _ (shaped_take hlen (Nat.not_lt.mp hshort) hall))
            exact List.cons_prefix_cons.mpr ⟨rfl, List.take_prefix ..⟩
          · rfl

/-- A shaped piece is kept. -/
lemma latinLoop_shaped (h : Shaped (c :: t)) (n : ℕ) (rest : Text) :
    latinLoop (n + 1) (c :: (t ++ rest)) = c :: t ++ latinLoop n rest := by
  obtain ⟨hlen, htake, hdrop, hall⟩ := h.test rest
  have hfit : t.length + 1 ≤ (t ++ rest).length + 1 := by
    rw [List.length_append]
    omega
  rw [latinLoop, hlen]
  dsimp only
  rw [Nat.add_sub_cancel, htake, hdrop, hall, decide_eq_true hfit]
  rfl

/-- A byte that starts no shaped piece is read as Latin-1. -/
lemma latinLoop_skip (h : ∀ u, Shaped u → ¬ u <+: c :: s) (n : ℕ) :
    latinLoop (n + 1) (c :: s)
      = [(0xC0 : UInt8) ||| c >>> 6, (0x80 : UInt8) ||| c &&& 0x3F] ++ latinLoop n s := by
  rw [latinLoop]
  cases hlen : sequenceLength c with
  | none => rfl
  | some len =>
      dsimp only
      split
      · rename_i htest
        rw [Bool.and_eq_true, decide_eq_true_eq] at htest
        refine absurd ?_ (h _ (shaped_take hlen htest.1 htest.2))
        exact List.cons_prefix_cons.mpr ⟨rfl, List.take_prefix ..⟩
      · rfl

end

/-! ### The loops -/

/-- **Induction along `sanitizeUtf8`**: a NUL is dropped, any other shaped piece is kept, and a
byte that starts none is dropped. -/
lemma sanitizeLoop_induction {P : Text → Text → Prop} (hnil : P [] [])
    (hzero : ∀ s out, P s out → P (0 :: s) out)
    (hkeep : ∀ c t rest out, Shaped (c :: t) → c ≠ 0 → P rest out →
      P (c :: t ++ rest) (c :: t ++ out))
    (hskip : ∀ c s out, (∀ u, Shaped u → ¬ u <+: c :: s) → P s out → P (c :: s) out)
    {n : ℕ} {s : Text} (hn : s.length ≤ n) : P s (sanitizeLoop n s) := by
  induction n generalizing s with
  | zero =>
      obtain rfl := List.length_eq_zero_iff.mp (Nat.le_zero.mp hn)
      exact hnil
  | succ n ih =>
      cases s with
      | nil => exact hnil
      | cons c s =>
          rw [List.length_cons] at hn
          rcases front_cases c s with ⟨t, rest, rfl, hshaped⟩ | hnone
          · by_cases hc : c = 0
            · rw [hc, sanitizeLoop_zero]
              exact hzero _ _ (ih (by omega))
            · rw [sanitizeLoop_shaped hshaped hc]
              rw [List.length_append] at hn
              exact hkeep c t rest _ hshaped hc (ih (by omega))
          · rw [sanitizeLoop_skip hnone]
            exact hskip c s _ hnone (ih (by omega))

/-- **What `NavDB` stores** is well-formed exactly for clean text. -/
lemma wellFormed_sanitizeLoop_iff {n : ℕ} {s : Text} (hn : s.length ≤ n) :
    WellFormed (sanitizeLoop n s) ↔ Clean s := by
  refine sanitizeLoop_induction (P := fun s out => WellFormed out ↔ Clean s)
    (iff_of_true wellFormed_nil clean_nil) ?_ ?_ ?_ hn
  · -- a NUL is a character, but not one to keep
    intro s out ih
    have hzero : Shaped [(0 : UInt8)] := ⟨rfl, by simp⟩
    rw [ih, ← List.singleton_append, clean_append_iff hzero]
    exact (and_iff_right rfl).symm
  · intro c t rest out hshaped _ ih
    rw [wellFormed_append_iff hshaped, clean_append_iff hshaped, ih]
  · intro c s out hnone ih
    rw [clean_cons_of_not_shaped hnone, ih]

/-- **What `FAAObstacleLoader` stores** is well-formed exactly for clean text. -/
lemma wellFormed_latinLoop_iff {n : ℕ} {s : Text} (hn : s.length ≤ n) :
    WellFormed (latinLoop n s) ↔ Clean s := by
  induction n generalizing s with
  | zero =>
      obtain rfl := List.length_eq_zero_iff.mp (Nat.le_zero.mp hn)
      exact iff_of_true wellFormed_nil clean_nil
  | succ n ih =>
      cases s with
      | nil => exact iff_of_true wellFormed_nil clean_nil
      | cons c s =>
          rw [List.length_cons] at hn
          rcases front_cases c s with ⟨t, rest, rfl, hshaped⟩ | hnone
          · rw [latinLoop_shaped hshaped, wellFormed_append_iff hshaped, ← List.cons_append,
              clean_append_iff hshaped, ih (by rw [List.length_append] at hn; omega)]
          · -- every ASCII byte is a shaped piece, so the byte is none
            have hlegal : isLegal [(0xC0 : UInt8) ||| c >>> 6, (0x80 : UInt8) ||| c &&& 0x3F]
                = true := by
              refine (isLegal_latin c).resolve_left fun hc => hnone [c] ⟨?_, by simp⟩ ⟨s, rfl⟩
              rw [leadLength, if_pos hc]
              rfl
            rw [latinLoop_skip hnone, wellFormed_append_iff (shaped_of_isLegal hlegal),
              and_iff_right hlegal, clean_cons_of_not_shaped hnone, ih (by omega)]

/-- No NUL is left. -/
lemma zero_not_mem_sanitizeLoop {n : ℕ} {s : Text} (hn : s.length ≤ n) :
    (0 : UInt8) ∉ sanitizeLoop n s := by
  refine sanitizeLoop_induction (P := fun _ out => (0 : UInt8) ∉ out) List.not_mem_nil
    (fun _ _ ih => ih) ?_ (fun _ _ _ _ ih => ih) hn
  intro c t rest out hshaped hc ih hmem
  rcases List.mem_append.mp hmem with hmem | hmem
  · rcases List.mem_cons.mp hmem with heq | hmem
    · exact hc heq.symm
    · exact ne_zero_of_isContinuation (hshaped.2 0 hmem) rfl
  · exact ih hmem

/-- Text of shaped pieces goes through unchanged, without a NUL in the first case. -/
lemma loops_of_flatten {us : List Text} (hus : ∀ u ∈ us, Shaped u) {n : ℕ}
    (hn : us.flatten.length ≤ n) : latinLoop n us.flatten = us.flatten
      ∧ ((0 : UInt8) ∉ us.flatten → sanitizeLoop n us.flatten = us.flatten) := by
  induction us generalizing n with
  | nil => cases n <;> exact ⟨rfl, fun _ => rfl⟩
  | cons u us ih =>
      obtain ⟨hshaped, hrest⟩ := List.forall_mem_cons.mp hus
      obtain ⟨c, t, rfl, -⟩ := hshaped.exists_cons
      rw [List.flatten_cons, List.cons_append] at hn ⊢
      rw [List.length_cons, List.length_append] at hn
      obtain ⟨n, rfl⟩ : ∃ m, n = m + 1 := ⟨n - 1, by omega⟩
      obtain ⟨hlatin, hsan⟩ := ih hrest (n := n) (by omega)
      refine ⟨by rw [latinLoop_shaped hshaped, hlatin]; rfl, fun hzero => ?_⟩
      have hc : c ≠ 0 := by
        rintro rfl
        exact hzero (List.mem_cons_self ..)
      rw [sanitizeLoop_shaped hshaped hc, hsan fun hmem => hzero ?_]
      · rfl
      · exact List.mem_cons_of_mem _ (List.mem_append_right _ hmem)

/-- Well-formed text goes through unchanged, without a NUL in the first case. -/
lemma loops_of_wellFormed {n : ℕ} {s : Text} (hn : s.length ≤ n) (h : WellFormed s) :
    latinLoop n s = s ∧ ((0 : UInt8) ∉ s → sanitizeLoop n s = s) := by
  obtain ⟨cs, rfl⟩ := h
  rw [List.flatMap_def] at hn ⊢
  refine loops_of_flatten (fun u hu => ?_) hn
  obtain ⟨ch, -, rfl⟩ := List.mem_map.mp hu
  exact shaped_of_isLegal (isLegal_encode ch)

/-- **What is stored** is made of shaped pieces, whatever the text. -/
lemma exists_pieces {n : ℕ} {s : Text} (hn : s.length ≤ n) :
    ∃ us : List Text, (∀ u ∈ us, Shaped u) ∧ sanitizeLoop n s = us.flatten := by
  refine sanitizeLoop_induction
    (P := fun _ out => ∃ us : List Text, (∀ u ∈ us, Shaped u) ∧ out = us.flatten)
    ⟨[], List.forall_mem_nil _, rfl⟩ (fun _ _ ih => ih) ?_ (fun _ _ _ _ ih => ih) hn
  rintro c t rest out hshaped - ⟨us, hus, rfl⟩
  exact ⟨(c :: t) :: us, List.forall_mem_cons.mpr ⟨hshaped, hus⟩, List.flatten_cons.symm⟩

/-! ### Both copies -/

/-- What both functions owe a text: output that is well-formed, without a NUL in the
tables of `NavDB`, and unchanged where there is nothing to do. -/
def Sanitized (s : Text) : Prop :=
  WellFormed (sanitizeUtf8 s) ∧ WellFormed (latinToUtf8 s) ∧ (0 : UInt8) ∉ sanitizeUtf8 s ∧
    (WellFormed s → (0 : UInt8) ∉ s → sanitizeUtf8 s = s ∧ latinToUtf8 s = s)

/-- **Both `sanitizeUtf8` do their work** exactly on text whose shaped pieces are all
characters. -/
theorem sanitized_iff (s : Text) : Sanitized s ↔ Clean s := by
  have hnav : WellFormed (sanitizeUtf8 s) ↔ Clean s := wellFormed_sanitizeLoop_iff le_rfl
  have hfaa : WellFormed (latinToUtf8 s) ↔ Clean s := wellFormed_latinLoop_iff le_rfl
  refine ⟨fun h => hnav.mp h.1, fun h => ⟨hnav.mpr h, hfaa.mpr h,
    zero_not_mem_sanitizeLoop le_rfl, fun hs hzero => ?_⟩⟩
  obtain ⟨hlatin, hsan⟩ := loops_of_wellFormed (le_refl s.length) hs
  exact ⟨hsan hzero, hlatin⟩

/-- A NUL in two bytes goes through both. -/
theorem overlong_nul_kept : ¬ ∀ s : Text, Sanitized s := by
  intro hall
  have hclean : Clean [0xC0, 0x80] := (wellFormed_sanitizeLoop_iff le_rfl).mp (hall [0xC0, 0x80]).1
  have hshaped : Shaped [0xC0, 0x80] := ⟨rfl, List.forall_mem_singleton.mpr rfl⟩
  exact absurd (hclean _ hshaped (List.infix_refl _)) (by decide)

end Gpsxdb
