import Mathlib.Tactic

/-!
UTF-8 text as lists of bytes.

* `leadLength`, `isContinuation`: what a byte looks like by its range;
* `Shaped`: a leading byte with as many continuation bytes as it announces;
* `isLegal`: one character, by the ranges of its bytes: no overlong form, no surrogate,
  nothing above U+10FFFF; `isLegal_iff`: **these are the encodings of characters**;
* `WellFormed`: the encoding of a list of characters; `wellFormed_append_iff`: a shaped
  piece at the front decides for itself;
* `Clean`: every shaped piece of a text is legal, wherever it stands;
  `clean_append_iff`, `clean_cons_of_not_shaped`;
* `charCount`, `AtBoundary`: characters and the boundaries between them, by the bytes
  that continue one; `charCount_flatten`, `atBoundary_flatten` of shaped pieces.
-/

namespace Gpsxdb

/-! ### Bytes -/

/-- The length a leading byte announces. -/
def leadLength (c : UInt8) : Option ℕ :=
  if c < 0x80 then some 1
  else if c < 0xC0 then none
  else if c < 0xE0 then some 2
  else if c < 0xF0 then some 3
  else if c < 0xF8 then some 4
  else none

/-- A byte that continues a character. -/
def isContinuation (c : UInt8) : Bool := 0x80 ≤ c && c < 0xC0

lemma leadLength_of_isContinuation {c : UInt8} (h : isContinuation c = true) :
    leadLength c = none := by
  rw [isContinuation, Bool.and_eq_true, decide_eq_true_eq, decide_eq_true_eq] at h
  rw [leadLength, if_neg (UInt8.not_lt.mpr h.1), if_pos h.2]

lemma ne_zero_of_isContinuation {c : UInt8} (h : isContinuation c = true) : c ≠ 0 := by
  rintro rfl
  exact absurd h (by decide)

/-- A leading byte with as many continuation bytes as it announces. -/
def Shaped : List UInt8 → Prop
  | [] => False
  | c :: t => leadLength c = some (t.length + 1) ∧ ∀ d ∈ t, isContinuation d = true

/-- One character: the ranges of its bytes. -/
def isLegal : List UInt8 → Bool
  | [a] => a < 0x80
  | [a, b] => 0xC2 ≤ a && a < 0xE0 && isContinuation b
  | [a, b, c] =>
      0xE0 ≤ a && a < 0xF0 && isContinuation b && isContinuation c
        && (a ≠ 0xE0 || 0xA0 ≤ b) && (a ≠ 0xED || b < 0xA0)
  | [a, b, c, d] =>
      0xF0 ≤ a && a < 0xF5 && isContinuation b && isContinuation c && isContinuation d
        && (a ≠ 0xF0 || 0x90 ≤ b) && (a ≠ 0xF4 || b < 0x90)
  | _ => false

/-- Text that encodes a list of characters. -/
def WellFormed (s : List UInt8) : Prop := ∃ cs : List Char, s = cs.flatMap String.utf8EncodeChar

/-! ### Ranges -/

lemma leadLength_eq (c : UInt8) : leadLength c
    = if c.toNat < 0x80 then some 1 else if c.toNat < 0xC0 then none
      else if c.toNat < 0xE0 then some 2 else if c.toNat < 0xF0 then some 3
      else if c.toNat < 0xF8 then some 4 else none := by
  simp [leadLength, UInt8.lt_iff_toNat_lt]

lemma isContinuation_iff {c : UInt8} :
    isContinuation c = true ↔ 0x80 ≤ c.toNat ∧ c.toNat < 0xC0 := by
  simp [isContinuation, UInt8.lt_iff_toNat_lt, UInt8.le_iff_toNat_le]

lemma isLegal_one {a : UInt8} : isLegal [a] = true ↔ a.toNat < 0x80 := by
  simp [isLegal, UInt8.lt_iff_toNat_lt]

lemma isLegal_two {a b : UInt8} : isLegal [a, b] = true ↔
    (0xC2 ≤ a.toNat ∧ a.toNat < 0xE0) ∧ isContinuation b = true := by
  simp [isLegal, UInt8.lt_iff_toNat_lt, UInt8.le_iff_toNat_le]

lemma isLegal_three {a b c : UInt8} : isLegal [a, b, c] = true ↔
    ((((0xE0 ≤ a.toNat ∧ a.toNat < 0xF0) ∧ isContinuation b = true) ∧ isContinuation c = true)
      ∧ (a.toNat ≠ 0xE0 ∨ 0xA0 ≤ b.toNat)) ∧ (a.toNat ≠ 0xED ∨ b.toNat < 0xA0) := by
  simp [isLegal, UInt8.lt_iff_toNat_lt, UInt8.le_iff_toNat_le, ← UInt8.toNat_inj]

lemma isLegal_four {a b c d : UInt8} : isLegal [a, b, c, d] = true ↔
    (((((0xF0 ≤ a.toNat ∧ a.toNat < 0xF5) ∧ isContinuation b = true) ∧ isContinuation c = true)
      ∧ isContinuation d = true) ∧ (a.toNat ≠ 0xF0 ∨ 0x90 ≤ b.toNat))
      ∧ (a.toNat ≠ 0xF4 ∨ b.toNat < 0x90) := by
  simp [isLegal, UInt8.lt_iff_toNat_lt, UInt8.le_iff_toNat_le, ← UInt8.toNat_inj]

/-- A piece of more than four bytes is not legal. -/
lemma isLegal_of_five (a b c d e : UInt8) (u : List UInt8) :
    isLegal (a :: b :: c :: d :: e :: u) = false := rfl

/-! ### Characters -/

/-- The encoding of a character is legal. -/
lemma isLegal_encode (c : Char) : isLegal (String.utf8EncodeChar c) = true := by
  have hv : c.val.toNat < 0xD800 ∨ 0xDFFF < c.val.toNat ∧ c.val.toNat < 0x110000 := by
    have hvalid := c.valid
    rw [UInt32.isValidChar, Nat.isValidChar] at hvalid
    exact hvalid
  rw [String.utf8EncodeChar]
  generalize c.val.toNat = v at hv
  split
  · rw [isLegal_one, UInt8.toNat_ofNat']
    omega
  · split
    · simp only [isLegal_two, isContinuation_iff, UInt8.toNat_ofNat']
      omega
    · split
      · simp only [isLegal_three, isContinuation_iff, UInt8.toNat_ofNat']
        omega
      · simp only [isLegal_four, isContinuation_iff, UInt8.toNat_ofNat']
        omega

/-- Every scalar value is a character. -/
lemma exists_char {v : ℕ} (hv : v < 0xD800 ∨ 0xDFFF < v ∧ v < 0x110000) :
    ∃ c : Char, c.val.toNat = v := by
  have hlt : v < UInt32.size := by
    have hsize : UInt32.size = 4294967296 := rfl
    omega
  exact ⟨⟨UInt32.ofNatLT v hlt, hv⟩, rfl⟩

/-- A legal piece is shaped, and it encodes a character. -/
lemma shaped_and_encoded {u : List UInt8} (h : isLegal u = true) :
    Shaped u ∧ ∃ c : Char, String.utf8EncodeChar c = u := by
  cases u with
  | nil => exact absurd h (by simp [isLegal])
  | cons a u =>
  cases u with
  | nil =>
      have ha := isLegal_one.mp h
      refine ⟨⟨by rw [leadLength_eq, if_pos ha]; rfl, by simp⟩, ?_⟩
      obtain ⟨c, hc⟩ := exists_char (v := a.toNat) (.inl (by omega))
      refine ⟨c, ?_⟩
      rw [String.utf8EncodeChar, hc, if_pos (by omega)]
      simp
  | cons b u =>
  cases u with
  | nil =>
      obtain ⟨ha, hb⟩ := isLegal_two.mp h
      refine ⟨⟨?_, by simpa using hb⟩, ?_⟩
      · rw [leadLength_eq, if_neg (by omega), if_neg (by omega), if_pos ha.2]
        rfl
      · rw [isContinuation_iff] at hb
        obtain ⟨c, hc⟩ := exists_char (v := (a.toNat - 0xC0) * 64 + (b.toNat - 0x80))
          (.inl (by omega))
        refine ⟨c, ?_⟩
        rw [String.utf8EncodeChar, hc, if_neg (by omega), if_pos (by omega)]
        simp only [List.cons.injEq, ← UInt8.toNat_inj, UInt8.toNat_ofNat', and_true]
        omega
  | cons d u =>
  cases u with
  | nil =>
      obtain ⟨⟨⟨⟨ha, hb⟩, hd⟩, hE0⟩, hED⟩ := isLegal_three.mp h
      refine ⟨⟨?_, by simp [hb, hd]⟩, ?_⟩
      · rw [leadLength_eq, if_neg (by omega), if_neg (by omega), if_neg (by omega), if_pos ha.2]
        rfl
      · rw [isContinuation_iff] at hb hd
        obtain ⟨c, hc⟩ := exists_char
          (v := (a.toNat - 0xE0) * 4096 + (b.toNat - 0x80) * 64 + (d.toNat - 0x80)) (by omega)
        refine ⟨c, ?_⟩
        rw [String.utf8EncodeChar, hc, if_neg (by omega), if_neg (by omega), if_pos (by omega)]
        simp only [List.cons.injEq, ← UInt8.toNat_inj, UInt8.toNat_ofNat', and_true]
        omega
  | cons e u =>
  cases u with
  | nil =>
      obtain ⟨⟨⟨⟨⟨ha, hb⟩, hd⟩, he⟩, hF0⟩, hF4⟩ := isLegal_four.mp h
      refine ⟨⟨?_, by simp [hb, hd, he]⟩, ?_⟩
      · rw [leadLength_eq, if_neg (by omega), if_neg (by omega), if_neg (by omega),
          if_neg (by omega), if_pos (by omega)]
        rfl
      · rw [isContinuation_iff] at hb hd he
        obtain ⟨c, hc⟩ := exists_char
          (v := (a.toNat - 0xF0) * 262144 + (b.toNat - 0x80) * 4096 + (d.toNat - 0x80) * 64
            + (e.toNat - 0x80)) (by omega)
        refine ⟨c, ?_⟩
        rw [String.utf8EncodeChar, hc, if_neg (by omega), if_neg (by omega), if_neg (by omega)]
        simp only [List.cons.injEq, ← UInt8.toNat_inj, UInt8.toNat_ofNat', and_true]
        omega
  | cons _ _ =>
      rw [isLegal_of_five] at h
      cases h

lemma shaped_of_isLegal {u : List UInt8} (h : isLegal u = true) : Shaped u :=
  (shaped_and_encoded h).1

/-- **Legal pieces are the characters.** -/
theorem isLegal_iff {u : List UInt8} :
    isLegal u = true ↔ ∃ c : Char, String.utf8EncodeChar c = u :=
  ⟨fun h => (shaped_and_encoded h).2, by rintro ⟨c, rfl⟩; exact isLegal_encode c⟩

/-! ### Pieces of a text -/

/-- A shaped piece is not empty. -/
lemma Shaped.exists_cons {u : List UInt8} (h : Shaped u) : ∃ c t, u = c :: t
    ∧ leadLength c = some (t.length + 1) ∧ ∀ d ∈ t, isContinuation d = true := by
  cases u with
  | nil => exact absurd h id
  | cons c t => exact ⟨c, t, rfl, h.1, h.2⟩

/-- The leading byte determines a shaped piece at the front of a text. -/
lemma Shaped.append_inj {u v s t : List UInt8} (hu : Shaped u) (hv : Shaped v)
    (h : u ++ s = v ++ t) : u = v ∧ s = t := by
  obtain ⟨c, u, rfl, hlen, -⟩ := hu.exists_cons
  obtain ⟨d, v, rfl, hlen', -⟩ := hv.exists_cons
  have hcd : c = d := (List.cons.inj h).1
  rw [hcd, hlen'] at hlen
  have hlength : u.length = v.length := by
    have := Option.some.inj hlen
    omega
  exact List.append_inj h (by simp [hlength])

/-- **A shaped piece** at the front of a text decides for itself. -/
theorem wellFormed_append_iff {u s : List UInt8} (hu : Shaped u) :
    WellFormed (u ++ s) ↔ isLegal u = true ∧ WellFormed s := by
  constructor
  · rintro ⟨cs, h⟩
    cases cs with
    | nil =>
        obtain ⟨c, t, rfl, -⟩ := hu.exists_cons
        cases h
    | cons c cs =>
        rw [List.flatMap_cons] at h
        obtain ⟨rfl, rfl⟩ := hu.append_inj (shaped_of_isLegal (isLegal_encode c)) h
        exact ⟨isLegal_encode c, cs, rfl⟩
  · rintro ⟨hlegal, cs, rfl⟩
    obtain ⟨c, rfl⟩ := isLegal_iff.mp hlegal
    exact ⟨c :: cs, rfl⟩

lemma wellFormed_nil : WellFormed [] := ⟨[], rfl⟩

/-- Every shaped piece of a text is legal, wherever it stands. -/
def Clean (s : List UInt8) : Prop := ∀ u, Shaped u → u <:+: s → isLegal u = true

lemma clean_nil : Clean [] := by
  intro u hu hinf
  rw [List.infix_nil.mp hinf] at hu
  exact absurd hu id

/-- A byte in front of a text matters if a shaped piece starts with it. -/
lemma clean_cons_iff {c : UInt8} {s : List UInt8} : Clean (c :: s) ↔
    (∀ u, Shaped u → u <+: c :: s → isLegal u = true) ∧ Clean s := by
  constructor
  · intro h
    exact ⟨fun u hu hpre => h u hu hpre.isInfix,
      fun u hu hinf => h u hu (hinf.trans (List.suffix_cons c s).isInfix)⟩
  · rintro ⟨hpre, hrest⟩ u hu hinf
    rcases List.infix_cons_iff.mp hinf with hinf | hinf
    · exact hpre u hu hinf
    · exact hrest u hu hinf

/-- No shaped piece starts with a continuation byte. -/
lemma clean_append_of_continuation {t s : List UInt8} (ht : ∀ d ∈ t, isContinuation d = true) :
    Clean (t ++ s) ↔ Clean s := by
  induction t with
  | nil => rfl
  | cons d t ih =>
      rw [List.cons_append, clean_cons_iff, ih fun e he => ht e (List.mem_cons_of_mem _ he)]
      refine and_iff_right fun u hu hpre => ?_
      obtain ⟨c, v, rfl, hlen, -⟩ := hu.exists_cons
      obtain ⟨rfl, -⟩ := List.cons_prefix_cons.mp hpre
      rw [leadLength_of_isContinuation (ht c (List.mem_cons_self ..))] at hlen
      cases hlen

/-- **A shaped piece** at the front of a text is looked at once. -/
lemma clean_append_iff {u s : List UInt8} (hu : Shaped u) :
    Clean (u ++ s) ↔ isLegal u = true ∧ Clean s := by
  obtain ⟨c, t, rfl, hlen, ht⟩ := hu.exists_cons
  rw [List.cons_append, clean_cons_iff, clean_append_of_continuation ht]
  refine and_congr_left fun _ => ⟨fun h => h _ hu ⟨s, rfl⟩, fun h v hv hpre => ?_⟩
  obtain ⟨rest, hrest⟩ := hpre
  rw [← List.cons_append] at hrest
  rw [(hv.append_inj hu hrest).1]
  exact h

/-- A byte that starts no shaped piece may be dropped. -/
lemma clean_cons_of_not_shaped {c : UInt8} {s : List UInt8}
    (h : ∀ u, Shaped u → ¬ u <+: c :: s) : Clean (c :: s) ↔ Clean s := by
  rw [clean_cons_iff]
  exact and_iff_right fun u hu hpre => absurd hpre (h u hu)

/-! ### Counting characters -/

/-- The characters of a text: the bytes that do not continue one. -/
def charCount (s : List UInt8) : ℕ := s.countP fun c => !isContinuation c

/-- What is left of a text starts with a character, if there is anything left. -/
def AtBoundary (rest : List UInt8) : Prop := ∀ c ∈ rest.head?, isContinuation c = false

/-- The first byte of a shaped piece continues nothing. -/
lemma Shaped.lead {c : UInt8} {t : List UInt8} (h : Shaped (c :: t)) :
    isContinuation c = false := by
  rw [Bool.eq_false_iff]
  intro hc
  exact absurd h.1 (by rw [leadLength_of_isContinuation hc]; exact nofun)

/-- A shaped piece is one character. -/
lemma Shaped.charCount_append {u : List UInt8} (h : Shaped u) (s : List UInt8) :
    charCount (u ++ s) = charCount s + 1 := by
  obtain ⟨c, t, rfl, -, ht⟩ := h.exists_cons
  have hrest : t.countP (fun c => !isContinuation c) = 0 :=
    List.countP_eq_zero.mpr fun d hd => by simp [ht d hd]
  rw [charCount, List.countP_append, List.countP_cons, hrest, h.lead, charCount]
  simp [Nat.add_comm]

lemma charCount_flatten {us : List (List UInt8)} (h : ∀ u ∈ us, Shaped u) :
    charCount us.flatten = us.length := by
  induction us with
  | nil => rfl
  | cons u us ih =>
      obtain ⟨hu, hus⟩ := List.forall_mem_cons.mp h
      rw [List.flatten_cons, hu.charCount_append, ih hus, List.length_cons]

lemma atBoundary_flatten {us : List (List UInt8)} (h : ∀ u ∈ us, Shaped u) :
    AtBoundary us.flatten := by
  cases us with
  | nil => exact nofun
  | cons u us =>
      have hu := h u (List.mem_cons_self ..)
      obtain ⟨c, t, rfl, -⟩ := hu.exists_cons
      rintro d hd
      obtain rfl := Option.some.inj hd
      exact hu.lead

end Gpsxdb
