import Mathlib.Tactic
import Gpsxdb.NodeStore.Entries

/-!
The bitmap scans of the node store, read against its entries.

* `mem_forEachPopulatedRange`: a scan of a range of bytes passes exactly the
  entries whose bit lies in the range;
* `pairwise_forEachPopulatedRange`: in strictly ascending order of id;
* `mem_forEachPopulatedRange_iff_select`: it passes exactly what a lookup finds;
* `highestPopulatedId_eq_iff`: the backward scan finds the largest entry, or
  `-1` on an empty store.
-/

namespace Gpsxdb

namespace OSMMMap

/-! ### One byte -/

/-- The ids of a set bit, with the bit and byte it stands in. -/
lemma populated_mul_add (s : OSMMMap) (byte : ℕ) {bit : ℕ} (hbit : bit < 8) :
    s.populated (byte * 8 + bit) = (decide (byte < s.bmp.size) && bitOf (s.bmp.cell byte) bit) := by
  rw [NodeFiles.populated, show (byte * 8 + bit) / 8 = byte by omega,
    show (byte * 8 + bit) % 8 = bit by omega]

/-- The record a scan makes of one bit: the entry of its id, if it has one. -/
lemma visit_bit {s : OSMMMap} (hs : s.Sound) {byte bit : ℕ} (hbyte : byte < s.bmp.size)
    (hbit : bit < 8) :
    (if !bitOf (s.bmp.cell byte) bit then none
      else
        let id : ℤ := byte * 8 + bit
        if s.pastEnd (recOffset id) then none else some (id, s.readCoord (recOffset id)))
      = (s.entry (byte * 8 + bit)).map fun c => (((byte * 8 + bit : ℕ) : ℤ), c) := by
  have hp := populated_mul_add s byte hbit
  rw [decide_eq_true hbyte, Bool.true_and] at hp
  rw [NodeFiles.entry, hp]
  by_cases hb : bitOf (s.bmp.cell byte) bit = true
  · have hin := hs.inside _ (hp.trans hb)
    have hlt := hs.dat_lt
    have hid : (byte * 8 + bit : ℤ) = ((byte * 8 + bit : ℕ) : ℤ) := by push_cast; ring
    simp only [hb, Bool.not_true, Bool.false_eq_true, if_false, if_true, Option.map_some]
    rw [hid, pastEnd_natCast s (by omega), readCoord_natCast s (by omega)]
    simp [not_lt.mpr hin]
  · simp [hb]

/-- The records visited in one byte, bit by bit. -/
lemma visitByte_eq {s : OSMMMap} (hs : s.Sound) {byte : ℕ} (hbyte : byte < s.bmp.size) :
    s.visitByte byte = (List.range 8).filterMap fun bit =>
      (s.entry (byte * 8 + bit)).map fun c => (((byte * 8 + bit : ℕ) : ℤ), c) := by
  rw [visitByte]
  by_cases hz : s.bmp.cell byte = 0
  · -- a zero byte is skipped: none of its eight ids has an entry
    simp only [hz, if_true]
    refine (List.filterMap_eq_nil_iff.mpr fun bit hbit => ?_).symm
    rw [List.mem_range] at hbit
    rw [Option.map_eq_none_iff, NodeFiles.entry_eq_none_iff, populated_mul_add s _ hbit, hz,
      bitOf_zero hbit, Bool.and_false]
  · simp only [hz, if_false]
    refine List.filterMap_congr fun bit hbit => ?_
    exact visit_bit hs hbyte (List.mem_range.mp hbit)

/-! ### Ranges of bytes -/

/-- **A range scan** passes exactly the entries of the ids whose byte lies in
the range. -/
theorem mem_forEachPopulatedRange {s : OSMMMap} (hs : s.Sound) {b₀ b₁ : ℕ} {id : ℤ} {c : Coord} :
    (id, c) ∈ s.forEachPopulatedRange b₀ b₁
      ↔ ∃ i : ℕ, id = i ∧ b₀ ≤ i / 8 ∧ i / 8 < b₁ ∧ s.entry i = some c := by
  simp only [forEachPopulatedRange, List.mem_flatMap, List.mem_range'_1]
  constructor
  · rintro ⟨byte, ⟨hlo, hhi⟩, hmem⟩
    rw [visitByte_eq hs (by omega)] at hmem
    simp only [List.mem_filterMap, List.mem_range, Option.map_eq_some_iff, Prod.mk.injEq] at hmem
    obtain ⟨bit, hbit, c', hent, rfl, rfl⟩ := hmem
    exact ⟨byte * 8 + bit, rfl, by omega, by omega, hent⟩
  · rintro ⟨i, rfl, hlo, hhi, hent⟩
    have hpop := (NodeFiles.entry_eq_some_iff.mp hent).1
    have hb := NodeFiles.lt_bmp_of_populated hpop
    refine ⟨i / 8, ⟨hlo, by omega⟩, ?_⟩
    rw [visitByte_eq hs hb]
    simp only [List.mem_filterMap, List.mem_range, Option.map_eq_some_iff, Prod.mk.injEq]
    have hi : i / 8 * 8 + i % 8 = i := by omega
    exact ⟨i % 8, by omega, c, by rw [hi]; exact hent, by rw [hi], rfl⟩

/-- An id whose bit is set and whose record is inside `.dat` is visited, whatever
the rest of the files holds. -/
lemma mem_forEachPopulated_of_populated {s : OSMMMap} (hlt : s.dat.size < 2 ^ 63) {i : ℕ}
    (hp : s.populated i) (hin : (i + 1) * 16 ≤ s.dat.size) :
    ((i : ℤ), s.coordAt i) ∈ s.forEachPopulated := by
  have hb := NodeFiles.lt_bmp_of_populated hp
  have hbit : bitOf (s.bmp.cell (i / 8)) (i % 8) = true := by
    rw [NodeFiles.populated, decide_eq_true hb, Bool.true_and] at hp
    exact hp
  have hne : s.bmp.cell (i / 8) ≠ 0 := by
    intro hz
    rw [hz, bitOf_zero (Nat.mod_lt _ (by norm_num))] at hbit
    simp at hbit
  have hid : ((i / 8 : ℕ) * 8 + (i % 8 : ℕ) : ℤ) = i := by omega
  simp only [forEachPopulated, forEachPopulatedRange, List.mem_flatMap, List.mem_range'_1]
  refine ⟨i / 8, by omega, ?_⟩
  rw [visitByte, if_neg hne, List.mem_filterMap]
  refine ⟨i % 8, List.mem_range.mpr (Nat.mod_lt _ (by norm_num)), ?_⟩
  simp only [hbit, Bool.not_true, Bool.false_eq_true, if_false]
  rw [hid, pastEnd_natCast s (by omega), readCoord_natCast s (by omega)]
  simp [not_lt.mpr hin]

/-- The ids visited in one byte are those of its bits, and ascend. -/
lemma pairwise_visitByte (s : OSMMMap) (byte : ℕ) :
    (∀ x ∈ s.visitByte byte, ∃ bit < 8, x.1 = ((byte * 8 + bit : ℕ) : ℤ))
      ∧ (s.visitByte byte).Pairwise fun a b => a.1 < b.1 := by
  have hid : ∀ bit x, (if !bitOf (s.bmp.cell byte) bit then none
      else
        let id : ℤ := byte * 8 + bit
        if s.pastEnd (recOffset id) then none else some (id, s.readCoord (recOffset id))) = some x →
      x.1 = ((byte * 8 + bit : ℕ) : ℤ) := by
    intro bit x hx
    dsimp only at hx
    split at hx
    · simp at hx
    · split at hx
      · simp at hx
      · obtain rfl := Option.some.inj hx
        push_cast
        rfl
  rw [visitByte]
  dsimp only
  split
  · simp
  · refine ⟨fun x hx => ?_, List.Pairwise.filterMap _ ?_ List.pairwise_lt_range⟩
    · obtain ⟨bit, hbit, hx⟩ := List.mem_filterMap.mp hx
      exact ⟨bit, List.mem_range.mp hbit, hid bit x hx⟩
    · intro a a' hlt b hb b' hb'
      rw [hid a b hb, hid a' b' hb']
      omega

/-- **A range scan ascends**: no id is passed twice. -/
theorem pairwise_forEachPopulatedRange (s : OSMMMap) (b₀ b₁ : ℕ) :
    (s.forEachPopulatedRange b₀ b₁).Pairwise fun a b => a.1 < b.1 := by
  rw [forEachPopulatedRange, List.pairwise_flatMap]
  refine ⟨fun byte _ => (pairwise_visitByte s byte).2, ?_⟩
  refine (List.pairwise_lt_range' _).imp fun {a b} hlt x hx y hy => ?_
  obtain ⟨k, hk, hxk⟩ := (pairwise_visitByte s a).1 x hx
  obtain ⟨l, hl, hyl⟩ := (pairwise_visitByte s b).1 y hy
  rw [hxk, hyl]
  omega

/-- The full scan passes exactly the entries. -/
lemma mem_forEachPopulated {s : OSMMMap} (hs : s.Sound) {id : ℤ} {c : Coord} :
    (id, c) ∈ s.forEachPopulated ↔ ∃ i : ℕ, id = i ∧ s.entry i = some c := by
  rw [forEachPopulated, mem_forEachPopulatedRange hs]
  constructor
  · rintro ⟨i, rfl, -, -, h⟩
    exact ⟨i, rfl, h⟩
  · rintro ⟨i, rfl, h⟩
    exact ⟨i, rfl, Nat.zero_le _,
      NodeFiles.lt_bmp_of_populated (NodeFiles.entry_eq_some_iff.mp h).1, h⟩

/-! ### Scans and lookups -/

/-- The record a scan makes of one bit is what a lookup of its id finds. -/
lemma mem_visitByte {s : OSMMMap} (hb : s.bmp.size ≤ 2 ^ 60) {byte : ℕ}
    (hbyte : byte < s.bmp.size) {id : ℤ} {c : Coord} :
    (id, c) ∈ s.visitByte byte
      ↔ ∃ bit < 8, id = ((byte * 8 + bit : ℕ) : ℤ) ∧ s.select id = some c := by
  have hget : ∀ bit < 8, bitmapGet s.bmp ((byte * 8 + bit : ℕ) : ℤ)
      = bitOf (s.bmp.cell byte) bit := by
    intro bit hbit
    have hdiv : (byte * 8 + bit) / 8 = byte := by omega
    have hmod : (byte * 8 + bit) % 8 = bit := by omega
    rw [bitmapGet_natCast _ (by omega), hdiv, hmod, decide_eq_true hbyte, Bool.true_and]
  have hcast : ∀ bit : ℕ, (byte * 8 + bit : ℤ) = ((byte * 8 + bit : ℕ) : ℤ) := by
    intro bit
    push_cast
    rfl
  rw [visitByte]
  dsimp only
  by_cases hz : s.bmp.cell byte = 0
  · -- none of the eight ids of a zero byte is found
    simp only [hz, if_true, List.not_mem_nil, false_iff]
    rintro ⟨bit, hbit, rfl, hsel⟩
    rw [select, hget bit hbit, hz, bitOf_zero hbit] at hsel
    simp at hsel
  · simp only [hz, if_false, List.mem_filterMap, List.mem_range]
    refine exists_congr fun bit => and_congr_right fun hbit => ?_
    rw [hcast bit]
    constructor
    · intro h
      split at h
      · simp at h
      · rename_i hset
        split at h
        · simp at h
        · rename_i hpast
          obtain ⟨rfl, rfl⟩ := Prod.mk.inj (Option.some.inj h)
          refine ⟨rfl, ?_⟩
          rw [select, hget bit hbit, if_neg hset, if_neg hpast]
    · rintro ⟨rfl, hsel⟩
      rw [select, hget bit hbit] at hsel
      split at hsel
      · simp at hsel
      · rename_i hset
        split at hsel
        · simp at hsel
        · rename_i hpast
          rw [if_neg hset, if_neg hpast, Option.some.inj hsel]

/-- **A range scan passes exactly what a lookup finds** of the ids whose byte lies in the
range, whatever the two files hold. -/
theorem mem_forEachPopulatedRange_iff_select {s : OSMMMap} (hb : s.bmp.size ≤ 2 ^ 60)
    {b₀ b₁ : ℕ} {id : ℤ} {c : Coord} :
    (id, c) ∈ s.forEachPopulatedRange b₀ b₁
      ↔ ∃ i : ℕ, id = i ∧ b₀ ≤ i / 8 ∧ i / 8 < min b₁ s.bmp.size ∧ s.select id = some c := by
  simp only [forEachPopulatedRange, List.mem_flatMap, List.mem_range'_1]
  constructor
  · rintro ⟨byte, ⟨hlo, hhi⟩, hmem⟩
    obtain ⟨bit, hbit, rfl, hsel⟩ := (mem_visitByte hb (by omega)).mp hmem
    exact ⟨byte * 8 + bit, rfl, by omega, by omega, hsel⟩
  · rintro ⟨i, rfl, hlo, hhi, hsel⟩
    have hi : i / 8 * 8 + i % 8 = i := by omega
    refine ⟨i / 8, ⟨hlo, by omega⟩, (mem_visitByte hb (by omega)).mpr ?_⟩
    exact ⟨i % 8, by omega, by rw [hi], hsel⟩

/-- An id that a lookup finds is set in the bitmap. -/
lemma populated_of_select {s : OSMMMap} (hb : s.bmp.size ≤ 2 ^ 60) {id : ℤ} (hid : IsInt64 id)
    {c : Coord} (h : s.select id = some c) : ∃ i : ℕ, id = i ∧ s.populated i = true := by
  by_cases h0 : 0 ≤ id
  · obtain ⟨i, rfl⟩ := Int.eq_ofNat_of_zero_le h0
    refine ⟨i, rfl, ?_⟩
    by_contra hp
    rw [select_of_not_populated hid.2 (by simpa using hp)] at h
    simp at h
  · rw [select_of_neg hb (not_le.mp h0) hid.1] at h
    simp at h

/-! ### The largest id -/

lemma highestBit_eq_some {b : UInt8} {k : ℕ} (h : highestBit b = some k) :
    k < 8 ∧ bitOf b k ∧ ∀ l < 8, bitOf b l → l ≤ k := by
  rw [highestBit, List.find?_eq_some_iff_append] at h
  obtain ⟨hk, as, bs, heq, has⟩ := h
  have hlt : k < 8 := by
    have : k ∈ [7, 6, 5, 4, 3, 2, 1, 0] := by rw [heq]; simp
    simp at this
    omega
  refine ⟨hlt, hk, fun l hl hbl => ?_⟩
  -- the bits above `k` come before it in the scan, and were all found clear
  by_contra hlk
  have hmem : l ∈ [7, 6, 5, 4, 3, 2, 1, 0] := by simp; omega
  have hsorted : ([7, 6, 5, 4, 3, 2, 1, 0] : List ℕ).Pairwise (· > ·) := by decide
  rw [heq] at hmem hsorted
  rw [List.mem_append, List.mem_cons] at hmem
  rcases hmem with hl' | rfl | hl'
  · simpa [hbl] using has l hl'
  · omega
  · have := (List.pairwise_cons.mp (List.pairwise_append.mp hsorted).2.1).1 l hl'
    omega

lemma highestBit_isSome {b : UInt8} (hb : b ≠ 0) : ∃ k, highestBit b = some k := by
  by_contra hnone
  rw [not_exists, ← Option.eq_none_iff_forall_ne_some, highestBit, List.find?_eq_none] at hnone
  refine hb (eq_zero_of_bitOf_eq_false fun k hk => ?_)
  have hmem : k ∈ [7, 6, 5, 4, 3, 2, 1, 0] := by simp; omega
  simpa using hnone k hmem

/-- The backward scan from byte `n` finds the largest id set below it. -/
lemma highestBelow_spec (s : OSMMMap) {n : ℕ} (hn : n ≤ s.bmp.size) :
    (s.highestBelow n = -1 ∧ ∀ i, i / 8 < n → s.populated i = false)
      ∨ ∃ m : ℕ, s.highestBelow n = m ∧ m / 8 < n ∧ s.populated m
          ∧ ∀ i, i / 8 < n → s.populated i → i ≤ m := by
  induction n with
  | zero => exact Or.inl ⟨rfl, fun i hi => absurd hi (Nat.not_lt_zero _)⟩
  | succ n ih =>
      have hbits : ∀ i, i / 8 = n → s.populated i = bitOf (s.bmp.cell n) (i % 8) := by
        rintro i rfl
        rw [NodeFiles.populated, decide_eq_true (by omega), Bool.true_and]
      by_cases hz : s.bmp.cell n = 0
      · -- an empty byte adds no id to those below
        have hclear : ∀ i, i / 8 = n → s.populated i = false := fun i hi => by
          rw [hbits i hi, hz, bitOf_zero (Nat.mod_lt _ (by norm_num))]
        rw [highestBelow, if_pos hz]
        rcases ih (by omega) with ⟨h, hall⟩ | ⟨m, h, hlt, hm, hmax⟩
        · refine Or.inl ⟨h, fun i hi => ?_⟩
          rcases Nat.lt_or_ge (i / 8) n with hlt | hge
          · exact hall i hlt
          · exact hclear i (by omega)
        · refine Or.inr ⟨m, h, by omega, hm, fun i hi hp => ?_⟩
          rcases Nat.lt_or_ge (i / 8) n with hlt' | hge
          · exact hmax i hlt' hp
          · rw [hclear i (by omega)] at hp
            simp at hp
      · obtain ⟨k, hk⟩ := highestBit_isSome hz
        obtain ⟨hk8, hset, hmax⟩ := highestBit_eq_some hk
        rw [highestBelow, if_neg hz, hk]
        refine Or.inr ⟨n * 8 + k, by push_cast; rfl, by omega, ?_, fun i hi hp => ?_⟩
        · rw [hbits _ (by omega), show (n * 8 + k) % 8 = k by omega]
          exact hset
        · rcases Nat.lt_or_ge (i / 8) n with hlt | hge
          · omega
          · have hi : i / 8 = n := by omega
            rw [hbits i hi] at hp
            have := hmax (i % 8) (Nat.mod_lt _ (by norm_num)) hp
            omega

/-- **The largest populated id**: that of the largest entry, or `-1` when there
is none. -/
theorem highestPopulatedId_spec (s : OSMMMap) :
    (s.highestPopulatedId = -1 ∧ ∀ i, s.entry i = none)
      ∨ ∃ m : ℕ, s.highestPopulatedId = m ∧ s.entry m ≠ none
          ∧ ∀ i, s.entry i ≠ none → i ≤ m := by
  have hlt : ∀ i, s.populated i → i / 8 < s.bmp.size := fun i => NodeFiles.lt_bmp_of_populated
  rcases highestBelow_spec s le_rfl with ⟨h, hall⟩ | ⟨m, h, -, hm, hmax⟩
  · refine Or.inl ⟨h, fun i => ?_⟩
    rw [NodeFiles.entry_eq_none_iff]
    by_contra hp
    rw [Bool.not_eq_false] at hp
    rw [hall i (hlt i hp)] at hp
    simp at hp
  · refine Or.inr ⟨m, h, ?_, fun i hi => ?_⟩
    · rw [ne_eq, NodeFiles.entry_eq_none_iff, hm]
      simp
    · rw [ne_eq, NodeFiles.entry_eq_none_iff, Bool.not_eq_false] at hi
      exact hmax i (hlt i hi) hi

end OSMMMap

end Gpsxdb
