import Mathlib.Tactic
import Gpsxdb.NodeStore.OSMMMap

/-!
What the two files of the node store hold together, and what each operation
does to it.

* `NodeFiles.entry`: the coordinate stored under an id, read off both files;
* `NodeFiles.Sound`: both lengths are in range and no bit is set past the end
  of `.dat`; `NodeFiles.Covers`: the bitmap has a bit for every record of
  `.dat` in the sane range, the invariant the write path relies on;
* one specification for each operation, in terms of `entry`: `select_natCast`,
  `growMergedIfNeeded_spec`, `update_spec`, `remove_spec`, `openFiles_spec`,
  `createFile_spec`.
-/

namespace Gpsxdb

namespace NodeFiles

/-- The bit of an id is set in the bitmap. -/
def populated (d : NodeFiles) (i : ℕ) : Bool :=
  decide (i / 8 < d.bmp.size) && bitOf (d.bmp.cell (i / 8)) (i % 8)

/-- The record of an id in `.dat`. -/
def coordAt (d : NodeFiles) (i : ℕ) : Coord := ⟨d.dat.cell (2 * i), d.dat.cell (2 * i + 1)⟩

/-- The coordinate stored under an id, read off both files. -/
def entry (d : NodeFiles) (i : ℕ) : Option Coord :=
  if d.populated i then some (d.coordAt i) else none

/-- Both lengths are in range, and no bit is set past the end of `.dat`. -/
structure Sound (d : NodeFiles) : Prop where
  dat_lt : d.dat.size < 2 ^ 63
  bmp_lt : d.bmp.size < 2 ^ 63
  inside : ∀ i, d.populated i → (i + 1) * 16 ≤ d.dat.size

/-- The bitmap has a bit for every record of `.dat` whose id is in the sane
range. -/
def Covers (d : NodeFiles) : Prop :=
  ∀ i : ℕ, (i : ℤ) ≤ kMaxSaneNodeId → (i + 1) * 16 ≤ d.dat.size → i / 8 < d.bmp.size

lemma entry_eq_some_iff {d : NodeFiles} {i : ℕ} {c : Coord} :
    d.entry i = some c ↔ d.populated i ∧ d.coordAt i = c := by
  rw [entry]
  split <;> simp_all

lemma entry_eq_none_iff {d : NodeFiles} {i : ℕ} : d.entry i = none ↔ d.populated i = false := by
  rw [entry]
  split <;> simp_all

/-- Two pairs of files with the same bits and the same records under them hold
the same entries. -/
lemma entry_congr {d e : NodeFiles} {i : ℕ} (hp : d.populated i = e.populated i)
    (hc : d.populated i → d.coordAt i = e.coordAt i) : d.entry i = e.entry i := by
  rw [entry, entry, ← hp]
  split
  · rw [hc ‹_›]
  · rfl

/-- Setting the length of `.bmp` keeps every bit of an id below both lengths
and sets none. -/
lemma populated_resize_bmp {d : NodeFiles} {sz i : ℕ} (h : d.populated i → i / 8 < sz) :
    (⟨d.dat, d.bmp.resize 1 sz⟩ : NodeFiles).populated i = d.populated i := by
  by_cases hi : i / 8 < sz
  · by_cases hd : i / 8 < d.bmp.size
    · simp only [populated, MappedFile.size_resize, hi, hd, decide_true, Bool.true_and]
      rw [MappedFile.cell_resize_of_le _ (by omega) (by omega)]
    · simp only [populated, MappedFile.size_resize, hi, hd, decide_true, Bool.true_and,
        decide_false, Bool.false_and]
      rw [MappedFile.cell_resize_of_lt _ (by omega)]
      exact bitOf_zero (Nat.mod_lt _ (by norm_num))
  · have hp : d.populated i = false := by
      by_contra hne
      exact hi (h (by simpa using hne))
    rw [hp]
    simp [populated, hi]

/-- Lengthening `.dat` keeps every record inside the old length. -/
lemma coordAt_resize_dat {d : NodeFiles} {sz i : ℕ} (hsz : d.dat.size ≤ sz)
    (hi : (i + 1) * 16 ≤ d.dat.size) :
    (⟨d.dat.resize 8 sz, d.bmp⟩ : NodeFiles).coordAt i = d.coordAt i := by
  simp only [coordAt]
  rw [MappedFile.cell_resize_of_le _ (by omega) (by omega),
    MappedFile.cell_resize_of_le _ (by omega) (by omega)]

/-- Growing both files, `.dat` to at least its old length and `.bmp` to cover
what is set, changes no entry. -/
lemma entry_resize {d : NodeFiles} (hs : d.Sound) {sz bsz : ℕ} (hsz : d.dat.size ≤ sz)
    (hb : ∀ i, d.populated i → i / 8 < bsz) (i : ℕ) :
    (⟨d.dat.resize 8 sz, d.bmp.resize 1 bsz⟩ : NodeFiles).entry i = d.entry i := by
  have hp : (⟨d.dat.resize 8 sz, d.bmp.resize 1 bsz⟩ : NodeFiles).populated i = d.populated i :=
    populated_resize_bmp (hb i)
  refine entry_congr hp fun hpop => ?_
  rw [hp] at hpop
  exact coordAt_resize_dat (d := d) hsz (hs.inside i hpop)

/-- Lengthening both files keeps the pair sound. -/
lemma Sound.resize {d : NodeFiles} (hs : d.Sound) {sz bsz : ℕ} (hsz : d.dat.size ≤ sz)
    (hlt : sz < 2 ^ 63) (hble : bsz < 2 ^ 63) (hb : ∀ i, d.populated i → i / 8 < bsz) :
    (⟨d.dat.resize 8 sz, d.bmp.resize 1 bsz⟩ : NodeFiles).Sound := by
  refine ⟨hlt, hble, fun i hi => ?_⟩
  rw [show (⟨d.dat.resize 8 sz, d.bmp.resize 1 bsz⟩ : NodeFiles).populated i = d.populated i
    from populated_resize_bmp (hb i)] at hi
  exact (hs.inside i hi).trans hsz

lemma lt_bmp_of_populated {d : NodeFiles} {i : ℕ} (h : d.populated i) : i / 8 < d.bmp.size := by
  rw [populated, Bool.and_eq_true, decide_eq_true_eq] at h
  exact h.1

/-- Covering is a matter of the two lengths. -/
lemma covers_of_sizes {d e : NodeFiles} (hc : d.Covers) (hd : e.dat.size = d.dat.size)
    (hb : e.bmp.size = d.bmp.size) : e.Covers := by
  intro j hle hj
  rw [hb]
  exact hc j hle (by rw [hd] at hj; exact hj)

end NodeFiles

/-! ### The helpers by natural id -/

lemma bitmapGet_natCast (bm : MappedFile UInt8) {i : ℕ} (hi : (i : ℤ) < 2 ^ 63) :
    bitmapGet bm i = (decide (i / 8 < bm.size) && bitOf (bm.cell (i / 8)) (i % 8)) := by
  rw [bitmapGet, toSize_of_nonneg (by omega) hi, Int.toNat_natCast]
  by_cases h : i / 8 < bm.size
  · simp [h, not_le.mpr h]
  · simp [h, not_lt.mp h]

lemma bitmapSet_natCast (bm : MappedFile UInt8) {i : ℕ} (hi : (i : ℤ) < 2 ^ 63) :
    bitmapSet bm i = if i / 8 < bm.size
      then bm.store (i / 8) (setBit (bm.cell (i / 8)) (i % 8)) else bm := by
  rw [bitmapSet, toSize_of_nonneg (by omega) hi, Int.toNat_natCast]
  by_cases h : i / 8 < bm.size
  · simp [h, not_le.mpr h]
  · simp [h, not_lt.mp h]

namespace OSMMMap

lemma recOffset_natCast {i : ℕ} (hi : i < 2 ^ 60) : recOffset i = 16 * i := by
  rw [recOffset, toSize_of_nonneg (by omega) (by omega), Int.toNat_natCast, recSize,
    wrapSize_of_lt (by omega)]
  omega

lemma pastEnd_natCast (s : OSMMMap) {i : ℕ} (hi : i < 2 ^ 59) :
    s.pastEnd (recOffset i) = decide (s.dat.size < (i + 1) * 16) := by
  rw [pastEnd, recOffset_natCast (by omega), recSize, wrapSize_of_lt (by omega)]
  congr 1
  rw [eq_iff_iff]
  constructor <;> intro h <;> omega

lemma neededData_natCast {i : ℕ} (hi : i < 2 ^ 59) : neededData i = (i + 1) * 16 := by
  rw [neededData, toSize_of_nonneg (by omega) (by omega), Int.toNat_natCast,
    wrapSize_of_lt (by omega : i + 1 < 2 ^ 64), recSize, wrapSize_of_lt (by omega)]

lemma readCoord_natCast (s : OSMMMap) {i : ℕ} (hi : i < 2 ^ 60) :
    s.readCoord (recOffset i) = s.coordAt i := by
  rw [readCoord, NodeFiles.coordAt, recOffset_natCast hi]
  congr 2 <;> omega

/-! ### Lookup -/

/-- An id whose bit is clear is not found. -/
lemma select_of_not_populated {s : OSMMMap} {i : ℕ} (hi : (i : ℤ) < 2 ^ 63)
    (hp : s.populated i = false) : s.select i = none := by
  have hget : bitmapGet s.bmp i = s.populated i := bitmapGet_natCast s.bmp hi
  rw [select, hget, hp]
  rfl

/-- An id whose bit is set and whose record is inside `.dat` is found there. -/
lemma select_of_populated {s : OSMMMap} (hlt : s.dat.size < 2 ^ 63) {i : ℕ}
    (hp : s.populated i) (hin : (i + 1) * 16 ≤ s.dat.size) : s.select i = some (s.coordAt i) := by
  have hget : bitmapGet s.bmp i = s.populated i := bitmapGet_natCast s.bmp (by omega)
  rw [select, hget, hp, pastEnd_natCast s (by omega), readCoord_natCast s (by omega)]
  simp [not_lt.mpr hin]

/-- A lookup finds exactly the entry of the two files. -/
lemma select_natCast {s : OSMMMap} (hs : s.Sound) {i : ℕ} (hi : (i : ℤ) < 2 ^ 63) :
    s.select i = s.entry i := by
  rw [NodeFiles.entry]
  split
  · exact select_of_populated hs.dat_lt ‹_› (hs.inside i ‹_›)
  · exact select_of_not_populated hi (Bool.eq_false_iff.mpr ‹_›)

/-- A negative id is read as one past the largest bitmap in use. -/
lemma select_of_neg {s : OSMMMap} (hb : s.bmp.size ≤ 2 ^ 60) {j : ℤ} (h0 : j < 0)
    (hj : -2 ^ 63 ≤ j) : s.select j = none := by
  have hsz := le_toSize_of_neg h0 hj
  have hget : bitmapGet s.bmp j = false := by
    rw [bitmapGet]
    exact if_pos (by omega)
  rw [select, hget]
  rfl

/-! ### The live grow -/

lemma needsGrow_natCast (s : OSMMMap) {i : ℕ} (hi : (i : ℤ) ≤ kMaxSaneNodeId) :
    s.needsGrow i = decide (s.dat.size < (i + 1) * 16) := by
  rw [needsGrow, neededData_natCast (by rw [kMaxSaneNodeId] at hi; omega)]
  simp [hi]

/-- The new length of `.dat` under the sanity ceiling: it holds the record of
the id, is no shorter than before, and is far from the range of `off_t`. -/
lemma newDataSize_bounds (s : OSMMMap) {i : ℕ} (hi : (i : ℤ) ≤ kMaxSaneNodeId)
    (hg : s.dat.size < (i + 1) * 16) :
    (i + 1) * 16 ≤ s.newDataSize i ∧ s.dat.size ≤ s.newDataSize i ∧ s.newDataSize i < 2 ^ 62 := by
  rw [kMaxSaneNodeId] at hi
  rw [newDataSize, neededData_natCast (by omega), recSize, wrapSize_of_lt (by omega),
    wrapSize_of_lt (by omega)]
  omega

/-- The new length of `.bmp` has a bit for every record of the new `.dat`. -/
lemma lt_newBmSize (s : OSMMMap) {id : ℤ} {j : ℕ} (hj : (j + 1) * 16 ≤ s.newDataSize id) :
    j / 8 < s.newBmSize id := by
  rw [newBmSize, recSize]
  omega

/-- The live grow of a record past the end of `.dat`. -/
lemma growMergedIfNeeded_of_lt (s : OSMMMap) {i : ℕ} (hi : (i : ℤ) ≤ kMaxSaneNodeId)
    (hg : s.dat.size < (i + 1) * 16) :
    s.growMergedIfNeeded i = some ⟨⟨s.dat.resize 8 (s.newDataSize i),
      s.bmp.resize 1 (s.newBmSize i)⟩, max s.max_id i⟩ := by
  obtain ⟨hneed, hle, hlt⟩ := newDataSize_bounds s hi hg
  have hbm : s.newBmSize i < 2 ^ 60 := by rw [newBmSize, recSize]; omega
  have hdat : s.growDat i = some { s with dat := s.dat.resize 8 (s.newDataSize i) } := by
    rw [growDat, MappedFile.ftruncate_eq_some _ (by omega)]
    rfl
  rw [growMergedIfNeeded, needsGrow_natCast s hi]
  simp only [hg, decide_true, if_true, hdat, growBmp]
  rw [Option.bind_eq_bind, Option.bind_some, MappedFile.ftruncate_eq_some _ (by omega)]
  rfl

/-- The live grow of a record inside `.dat`: the fast path. -/
lemma growMergedIfNeeded_of_le (s : OSMMMap) {i : ℕ} (hi : (i : ℤ) ≤ kMaxSaneNodeId)
    (hg : (i + 1) * 16 ≤ s.dat.size) : s.growMergedIfNeeded i = some s := by
  rw [growMergedIfNeeded, needsGrow_natCast s hi]
  simp [not_lt.mpr hg]

/-- **The live grow**: it succeeds under the sanity ceiling, makes room for the
record, loses and invents no entry, and either leaves both files alone or leaves
a bitmap that covers `.dat`. -/
lemma growMergedIfNeeded_spec {s : OSMMMap} (hs : s.Sound) {i : ℕ}
    (hi : (i : ℤ) ≤ kMaxSaneNodeId) :
    ∃ s' : OSMMMap, s.growMergedIfNeeded i = some s' ∧ s'.Sound ∧ (i + 1) * 16 ≤ s'.dat.size
      ∧ (∀ j, s'.entry j = s.entry j)
      ∧ (s'.Covers ∧ s'.bmp.size ≤ 2 ^ 60 ∨ s' = s) := by
  by_cases hg : s.dat.size < (i + 1) * 16
  · obtain ⟨hneed, hle, hlt⟩ := newDataSize_bounds s hi hg
    have hbm : s.newBmSize i < 2 ^ 60 := by rw [newBmSize, recSize]; omega
    have hcov : ∀ j, s.populated j → j / 8 < s.newBmSize i := fun j hj =>
      lt_newBmSize s ((hs.inside j hj).trans hle)
    exact ⟨_, growMergedIfNeeded_of_lt s hi hg, hs.resize hle (by omega) (by omega) hcov, hneed,
      NodeFiles.entry_resize hs hle hcov, Or.inl ⟨fun j _ hj => lt_newBmSize s hj, hbm.le⟩⟩
  · exact ⟨s, growMergedIfNeeded_of_le s hi (by omega), hs, by omega, fun _ => rfl, Or.inr rfl⟩

/-! ### Writes -/

/-- Reading a record back after a write of record `i`. -/
lemma coordAt_writeCoord (d : NodeFiles) (bm : MappedFile UInt8) (i j : ℕ) (c : Coord) :
    (⟨writeCoord d.dat (16 * i) c, bm⟩ : NodeFiles).coordAt j
      = if j = i then c else d.coordAt j := by
  have h2 : 16 * i / 8 = 2 * i := by omega
  simp only [NodeFiles.coordAt, writeCoord, h2]
  by_cases hji : j = i
  · subst hji
    rw [MappedFile.cell_store_of_ne _ _ (by omega), MappedFile.cell_store_self,
      MappedFile.cell_store_self, if_pos rfl]
  · rw [MappedFile.cell_store_of_ne _ _ (by omega), MappedFile.cell_store_of_ne _ _ (by omega),
      MappedFile.cell_store_of_ne _ _ (by omega), MappedFile.cell_store_of_ne _ _ (by omega),
      if_neg hji]

/-- Storing a byte of the bitmap whose bits agree with the old one off bit
`i % 8` changes at most the bit of id `i`. -/
lemma populated_store (dat : MappedFile Double) (bm : MappedFile UInt8) {i : ℕ} {b : UInt8}
    {v : Bool} (hi : i / 8 < bm.size) (hv : bitOf b (i % 8) = v)
    (hb : ∀ k < 8, k ≠ i % 8 → bitOf b k = bitOf (bm.cell (i / 8)) k) (j : ℕ) :
    (⟨dat, bm.store (i / 8) b⟩ : NodeFiles).populated j
      = if j = i then v else (⟨dat, bm⟩ : NodeFiles).populated j := by
  simp only [NodeFiles.populated, MappedFile.size_store]
  by_cases hq : j / 8 = i / 8
  · rw [hq, MappedFile.cell_store_self]
    by_cases hji : j = i
    · subst hji
      simp [hi, hv]
    · rw [if_neg hji, hb (j % 8) (by omega) (by omega)]
      rfl
  · rw [MappedFile.cell_store_of_ne _ _ hq, if_neg (by rintro rfl; exact hq rfl)]
    rfl

lemma populated_bitmapSet (dat : MappedFile Double) (bm : MappedFile UInt8) {i : ℕ}
    (hi : (i : ℤ) < 2 ^ 63) (j : ℕ) :
    (⟨dat, bitmapSet bm i⟩ : NodeFiles).populated j
      = if j = i then decide (i / 8 < bm.size) else (⟨dat, bm⟩ : NodeFiles).populated j := by
  rw [bitmapSet_natCast bm hi]
  by_cases hlt : i / 8 < bm.size
  · rw [if_pos hlt, populated_store dat bm hlt (v := true)]
    · simp [hlt]
    · rw [bitOf_setBit _ (by omega) (by omega)]
      simp
    · intro k hk hne
      rw [bitOf_setBit _ (by omega) hk]
      simp [Ne.symm hne]
  · by_cases hji : j = i
    · subst hji
      simp [NodeFiles.populated, hlt]
    · simp [hlt, hji]

lemma size_bitmapSet (bm : MappedFile UInt8) (id : ℤ) : (bitmapSet bm id).size = bm.size := by
  rw [bitmapSet]
  split <;> rfl

/-- `update` once the record is inside the grown `.dat`. -/
lemma update_eq {s t : OSMMMap} {i : ℕ} (hi : (i : ℤ) ≤ kMaxSaneNodeId)
    (ht : s.growMergedIfNeeded i = some t) (hsz : (i + 1) * 16 ≤ t.dat.size) (c : Coord) :
    s.update i c = some { t with
      dat := writeCoord t.dat (recOffset i) c, bmp := bitmapSet t.bmp i } := by
  have hend : t.pastEnd (recOffset i) = false := by
    rw [kMaxSaneNodeId] at hi
    rw [pastEnd_natCast t (by omega)]
    simpa using hsz
  rw [update, if_neg (by omega), ht]
  simp only [Option.bind_eq_bind, Option.bind_some, hend]
  rfl

/-- The state after the two stores and the bit of `update`. -/
lemma write_spec {s : OSMMMap} (hs : s.Sound) {i : ℕ} (hi : (i + 1) * 16 ≤ s.dat.size)
    (c : Coord) :
    let d : NodeFiles := ⟨writeCoord s.dat (recOffset i) c, bitmapSet s.bmp i⟩
    d.Sound ∧ d.dat.size = s.dat.size ∧ d.bmp.size = s.bmp.size
      ∧ ∀ j, d.entry j
        = if j = i then (if i / 8 < s.bmp.size then some c else none) else s.entry j := by
  have hlt := hs.dat_lt
  have hpop : ∀ j, (⟨writeCoord s.dat (16 * i) c, bitmapSet s.bmp i⟩ : NodeFiles).populated j
      = if j = i then decide (i / 8 < s.bmp.size) else s.populated j :=
    populated_bitmapSet _ s.bmp (by omega)
  have hsize : (writeCoord s.dat (16 * i) c).size = s.dat.size := rfl
  simp only [recOffset_natCast (by omega : i < 2 ^ 60)]
  refine ⟨⟨hlt, by rw [size_bitmapSet]; exact hs.bmp_lt, fun j hj => ?_⟩, hsize,
    size_bitmapSet _ _, fun j => ?_⟩
  · rw [hpop j] at hj
    rw [hsize]
    split at hj
    · omega
    · exact hs.inside j hj
  · rw [NodeFiles.entry, hpop j, coordAt_writeCoord]
    by_cases hji : j = i
    · simp [hji]
    · simp [hji, NodeFiles.entry]

/-- **`update`**: under the sanity ceiling it succeeds and stores exactly the
given coordinate, if the bitmap it ends with has a bit for the id; that bitmap
covers `.dat`, or the lengths of both files are as before. -/
lemma update_spec {s : OSMMMap} (hs : s.Sound) {i : ℕ} (hi : (i : ℤ) ≤ kMaxSaneNodeId)
    (c : Coord) :
    ∃ s' : OSMMMap, s.update i c = some s' ∧ s'.Sound ∧ (i + 1) * 16 ≤ s'.dat.size
      ∧ (∀ j, s'.entry j
          = if j = i then (if i / 8 < s'.bmp.size then some c else none) else s.entry j)
      ∧ (s'.Covers ∧ s'.bmp.size ≤ 2 ^ 60
          ∨ s'.dat.size = s.dat.size ∧ s'.bmp.size = s.bmp.size) := by
  obtain ⟨t, ht, hts, htsz, hte, htc⟩ := growMergedIfNeeded_spec hs hi
  obtain ⟨hd, hdsz, hbsz, hent⟩ := write_spec hts htsz c
  refine ⟨_, update_eq hi ht htsz c, hd, htsz.trans hdsz.ge, fun j => ?_, ?_⟩
  · rw [hent j, hbsz, hte j]
  · rcases htc with ⟨hcov, hble⟩ | rfl
    · exact Or.inl ⟨NodeFiles.covers_of_sizes hcov hdsz hbsz, by rw [hbsz]; exact hble⟩
    · exact Or.inr ⟨hdsz, hbsz⟩

/-- **`remove`**: an id in the sane range loses its entry, every other entry
and both lengths stay. -/
lemma remove_spec {s : OSMMMap} (hs : s.Sound) {i : ℕ} (hi : (i : ℤ) ≤ kMaxSaneNodeId) :
    (s.remove i).Sound ∧ (s.remove i).dat.size = s.dat.size
      ∧ (s.remove i).bmp.size = s.bmp.size
      ∧ ∀ j, (s.remove i).entry j = if j = i then none else s.entry j := by
  rw [kMaxSaneNodeId] at hi
  rw [remove, if_neg (by omega), pastEnd_natCast s (by omega)]
  by_cases hend : s.dat.size < (i + 1) * 16
  · -- past the end of `.dat` there is no bit to clear
    have hnone : s.entry i = none := by
      rw [NodeFiles.entry_eq_none_iff]
      by_contra hp
      exact absurd (hs.inside i (by simpa using hp)) (by omega)
    rw [decide_eq_true hend, if_pos rfl]
    refine ⟨hs, rfl, rfl, fun j => ?_⟩
    split
    · rw [‹j = i›, hnone]
    · rfl
  · simp only [hend, decide_false, Bool.false_eq_true, if_false]
    rw [recOffset_natCast (by omega : i < 2 ^ 60), toSize_of_nonneg (by omega) (by omega),
      Int.toNat_natCast]
    have hpop : ∀ j, (⟨writeCoord s.dat (16 * i) ⟨0, 0⟩, if i / 8 < s.bmp.size
          then s.bmp.store (i / 8) (clearBit (s.bmp.cell (i / 8)) (i % 8)) else s.bmp⟩
          : NodeFiles).populated j = if j = i then false else s.populated j := by
      intro j
      split
      · rw [populated_store _ s.bmp ‹_› (v := false)]
        · rfl
        · rw [bitOf_clearBit _ (by omega) (by omega)]
          simp
        · intro k hk hne
          rw [bitOf_clearBit _ (by omega) hk]
          simp [Ne.symm hne]
      · split
        · rw [‹j = i›]
          simp [NodeFiles.populated, ‹¬ i / 8 < s.bmp.size›]
        · rfl
    have hbsz : (if i / 8 < s.bmp.size
        then s.bmp.store (i / 8) (clearBit (s.bmp.cell (i / 8)) (i % 8)) else s.bmp).size
        = s.bmp.size := by
      split <;> rfl
    refine ⟨⟨hs.dat_lt, by rw [hbsz]; exact hs.bmp_lt, fun j hj => ?_⟩, rfl, hbsz, fun j => ?_⟩
    · rw [hpop j] at hj
      split at hj
      · simp at hj
      · exact hs.inside j hj
    · rw [NodeFiles.entry, hpop j, coordAt_writeCoord]
      by_cases hji : j = i
      · simp [hji]
      · simp [hji, NodeFiles.entry]

/-! ### Creating and opening -/

lemma bitmapSize_eq {m : ℤ} (h0 : 0 ≤ m) (h : m < 2 ^ 63) :
    bitmapSize m = (m.toNat + 8) / 8 := by
  rw [bitmapSize, toSize_of_nonneg h0 h, wrapSize_of_lt (by omega : m.toNat + 1 < 2 ^ 64),
    wrapSize_of_lt (by omega)]

lemma dataSize_eq {m : ℤ} (h0 : 0 ≤ m) (h : m < 2 ^ 59) : dataSize m = (m.toNat + 1) * 16 := by
  rw [dataSize, toSize_of_nonneg h0 (by omega), wrapSize_of_lt (by omega : m.toNat + 1 < 2 ^ 64),
    recSize, wrapSize_of_lt (by omega)]

/-- The bitmap opened for a largest id has a bit for every record of the `.dat`
opened for it, whatever the two lengths wrap to. -/
lemma lt_bitmapSize {m : ℤ} (hm : IsInt64 m) (hd : dataSize m < 2 ^ 63) {i : ℕ}
    (h : (i + 1) * 16 ≤ dataSize m) : i / 8 < bitmapSize m := by
  obtain ⟨h0, h1⟩ := hm
  simp only [dataSize, bitmapSize, toSize, wrapSize, recSize] at *
  omega

/-- **`createFile`**: a blank, covered pair. -/
lemma createFile_spec {m : ℤ} (hm : IsInt64 m) {d : NodeFiles} (hd : createFile m = some d) :
    d.Sound ∧ d.Covers ∧ (0 ≤ m → d.bmp.size ≤ 2 ^ 60) ∧ ∀ j, d.entry j = none := by
  rw [createFile, createBlank, createBlank] at hd
  by_cases h1 : dataSize m < 2 ^ 63
  · by_cases h2 : bitmapSize m < 2 ^ 63
    · simp only [h1, h2, if_true, Option.bind_eq_bind, Option.bind_some, Option.some.injEq] at hd
      subst hd
      have hp : ∀ j, (⟨MappedFile.blank (dataSize m), MappedFile.blank (bitmapSize m)⟩
          : NodeFiles).populated j = false := by
        intro j
        simp [NodeFiles.populated, bitOf_zero (Nat.mod_lt j (by norm_num : 0 < 8))]
      refine ⟨⟨h1, h2, fun j hj => ?_⟩, fun j _ hj => lt_bitmapSize hm h1 hj,
        fun h0 => ?_, fun j => ?_⟩
      · rw [hp j] at hj
        simp at hj
      · rw [MappedFile.size_blank, bitmapSize_eq h0 hm.2]
        have := hm.2
        omega
      · rw [NodeFiles.entry_eq_none_iff, hp j]
    · rw [if_pos h1, if_neg h2] at hd
      simp at hd
  · rw [if_neg h1] at hd
    simp at hd

/-- `growFileIfNeeded` sets the length to the larger of the two, keeps the cells
inside the old length and reads as zero past it. -/
lemma growFileIfNeeded_spec {α : Type} [Zero α] {w : ℕ} {f g : MappedFile α} {sz : ℕ}
    (h : growFileIfNeeded w f sz = some g) :
    g.size = max sz f.size ∧ (∀ i, (i + 1) * w ≤ f.size → g.cell i = f.cell i)
      ∧ ∀ i, f.size < (i + 1) * w → (i + 1) * w ≤ g.size → g.cell i = 0 := by
  rw [growFileIfNeeded] at h
  split at h
  · obtain ⟨rfl, -⟩ := MappedFile.eq_resize_of_ftruncate w h
    exact ⟨rfl, fun i hi => MappedFile.cell_resize_of_le w hi (hi.trans (le_max_right _ _)),
      fun i hi _ => MappedFile.cell_resize_of_lt w hi⟩
  · obtain rfl := Option.some.inj h
    exact ⟨by omega, fun _ _ => rfl, fun i h1 h2 => absurd h2 (by omega)⟩

/-- A length inside `off_t` stays inside. -/
lemma growFileIfNeeded_lt {α : Type} [Zero α] {w : ℕ} {f g : MappedFile α} {sz : ℕ}
    (hf : f.size < 2 ^ 63) (h : growFileIfNeeded w f sz = some g) : g.size < 2 ^ 63 := by
  rw [growFileIfNeeded] at h
  split at h
  · obtain ⟨rfl, hlt⟩ := MappedFile.eq_resize_of_ftruncate w h
    exact hlt
  · obtain rfl := Option.some.inj h
    exact hf

/-- `growFileIfNeeded` succeeds for the lengths that are an `off_t`. -/
lemma growFileIfNeeded_isSome {α : Type} [Zero α] (w : ℕ) (f : MappedFile α) (sz : ℕ)
    (hf : f.size < 2 ^ 63) (hsz : sz < 2 ^ 63) : (growFileIfNeeded w f sz).isSome := by
  rw [growFileIfNeeded]
  split
  · rw [MappedFile.ftruncate_eq_some _ (max_lt hsz hf)]
    rfl
  · rfl

/-- The lengths and the mapped pair of a successful opening. -/
lemma openFiles_eq_some {d : NodeFiles} {m : ℤ} {s : OSMMMap} (h : openFiles d m = some s) :
    growFileIfNeeded 8 d.dat (dataSize m) = some s.dat
      ∧ growFileIfNeeded 1 d.bmp (bitmapSize m) = some s.bmp ∧ s.max_id = m := by
  simp only [openFiles, Option.bind_eq_bind, Option.bind_eq_some_iff] at h
  obtain ⟨dat, hdat, bmp, hbmp, h⟩ := h
  split at h
  · simp at h
  · obtain rfl := Option.some.inj h
    exact ⟨hdat, hbmp, rfl⟩

/-- **Reopening**: whatever largest id is configured, the pair stays sound, no
entry is lost or invented, and a covering bitmap stays one. -/
lemma openFiles_spec {d : NodeFiles} (hs : d.Sound) {m : ℤ} (hm : IsInt64 m) {s : OSMMMap}
    (h : openFiles d m = some s) :
    s.Sound ∧ (d.Covers → s.Covers) ∧ ∀ j, s.entry j = d.entry j := by
  obtain ⟨hdat, hbmp, -⟩ := openFiles_eq_some h
  obtain ⟨hdsz, hdkeep, -⟩ := growFileIfNeeded_spec hdat
  obtain ⟨hbsz, hbkeep, hbzero⟩ := growFileIfNeeded_spec hbmp
  have hdlt := growFileIfNeeded_lt hs.dat_lt hdat
  have hblt := growFileIfNeeded_lt hs.bmp_lt hbmp
  have hpop : ∀ i, s.populated i = d.populated i := by
    intro i
    rw [NodeFiles.populated, NodeFiles.populated]
    by_cases hold : i / 8 < d.bmp.size
    · rw [hbkeep _ (by omega)]
      congr 1
      rw [hbsz]
      simp [hold]
    · by_cases hnew : i / 8 < s.bmp.size
      · rw [hbzero _ (by omega) (by omega), bitOf_zero (Nat.mod_lt _ (by norm_num))]
        simp [hold]
      · simp [hold, hnew]
  refine ⟨⟨hdlt, hblt, fun i hi => ?_⟩, fun hc i hle hi => ?_, fun i => ?_⟩
  · rw [hpop i] at hi
    have := hs.inside i hi
    omega
  · rw [hbsz]
    by_cases hold : (i + 1) * 16 ≤ d.dat.size
    · have := hc i hle hold
      omega
    · have := lt_bitmapSize hm (by omega) (by omega : (i + 1) * 16 ≤ dataSize m)
      omega
  · refine NodeFiles.entry_congr (hpop i) fun hi => ?_
    rw [hpop i] at hi
    have hin := hs.inside i hi
    rw [NodeFiles.coordAt, NodeFiles.coordAt, hdkeep _ (by omega), hdkeep _ (by omega)]

/-- Creation and reopening succeed for every configured id whose record offset
is far inside `off_t`. -/
lemma createFile_isSome {m : ℤ} (h0 : 0 ≤ m) (h : m < 2 ^ 58) : (createFile m).isSome := by
  have hd := dataSize_eq h0 (by omega : m < 2 ^ 59)
  have hb := bitmapSize_eq h0 (by omega : m < 2 ^ 63)
  rw [createFile, createBlank, createBlank, if_pos (by omega), if_pos (by omega)]
  rfl

lemma openFiles_isSome {d : NodeFiles} (hs : d.Sound) {m : ℤ} (h0 : 0 ≤ m) (h : m < 2 ^ 58) :
    (openFiles d m).isSome := by
  have hd := dataSize_eq h0 (by omega : m < 2 ^ 59)
  have hb := bitmapSize_eq h0 (by omega : m < 2 ^ 63)
  obtain ⟨dat, hdat⟩ := Option.isSome_iff_exists.mp
    (growFileIfNeeded_isSome 8 d.dat (dataSize m) hs.dat_lt (by omega))
  obtain ⟨bmp, hbmp⟩ := Option.isSome_iff_exists.mp
    (growFileIfNeeded_isSome 1 d.bmp (bitmapSize m) hs.bmp_lt (by omega))
  have h1 := (growFileIfNeeded_spec hdat).1
  have h2 := (growFileIfNeeded_spec hbmp).1
  rw [openFiles, hdat, hbmp]
  simp only [Option.bind_eq_bind, Option.bind_some]
  rw [if_neg (by omega)]
  rfl

end OSMMMap

end Gpsxdb
