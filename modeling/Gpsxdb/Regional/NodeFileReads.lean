import Mathlib.Tactic
import Gpsxdb.Regional.NodeFile

/-!
Where `RegionalNodeMap` reads (`RegionalNodeMap.cpp`).

* `recordOffset`, `readBytes`: offsets in `size_t` arithmetic, and reads that may
  fall outside the mapping;
* `selectRead`, `mergeFrom`: `select` and the loops of `merge` with their reads;
  `selectRead_eq`, `mergeFrom_eq`: inside the file they are the search in the
  records and the merge of the records;
* `reads_inside_iff`: **an accepted file is read inside its bounds** exactly when
  the length it is checked for does not wrap;
* `accepts_huge_count`: a header of 64 bytes that is accepted for `2 ^ 61` records.
-/

namespace Gpsxdb

/-- Why a merge does not return: an access outside a mapping, or an exception. -/
inductive MergeFault where
  | outOfFile
  | thrown
deriving DecidableEq

namespace OpenNodeMap

/-! ### Reads -/

/-- The offset of a record, in `size_t`. -/
def recordOffset (i : ℕ) : ℕ := wrapSize (kHeaderSize + i * nodeRecordFormat.width)

/-- `memcpy` from the mapping; `none` stands for an access outside the file. -/
def readBytes (m : OpenNodeMap) (offset n : ℕ) : Option (List UInt8) :=
  if offset + n ≤ m.data.length then some ((m.data.drop offset).take n) else none

lemma readBytes_eq {m : OpenNodeMap} {offset n : ℕ} (h : offset + n ≤ m.data.length) :
    m.readBytes offset n = some ((m.data.drop offset).take n) :=
  if_pos h

/-- The id of a record. -/
def readId (m : OpenNodeMap) (i : ℕ) : Option ℤ := (m.readBytes (recordOffset i) 8).map ri64

/-- `readRecord`. -/
def readRecord (m : OpenNodeMap) (i : ℕ) : Option NodeRecord :=
  (m.readBytes (recordOffset i) nodeRecordFormat.width).map nodeRecordFormat.decode

/-- The bisection of `select`. -/
def bisect (m : OpenNodeMap) (id : ℤ) : ℕ → ℕ → ℕ → Option ℕ
  | 0, lo, _ => some lo
  | fuel + 1, lo, hi =>
      if lo < hi then do
        let mid := lo + (hi - lo) / 2
        let mid_id ← m.readId mid
        if mid_id < id then m.bisect id fuel (mid + 1) hi else m.bisect id fuel lo mid
      else some lo

/-- `select` with its reads; the outer `none` stands for an access outside the file. -/
def selectRead (m : OpenNodeMap) (id : ℤ) : Option (Option Coord) := do
  let lo ← m.bisect id m.record_count 0 m.record_count
  if m.record_count ≤ lo then some none
  else do
    let found_id ← m.readId lo
    if found_id ≠ id then some none
    else do
      let r ← m.readRecord lo
      some (some r.coord)

/-! ### The loops of `merge` -/

section Merge

variable {W : Type} (append : W → NodeRecord → Except MergeFault W)

/-- `readRecord` in the loops of `merge`. -/
def read (m : OpenNodeMap) (i : ℕ) : Except MergeFault NodeRecord :=
  (m.readRecord i).elim (.error .outOfFile) .ok

/-- The loop over the rest of one file. -/
def restFrom (m : OpenNodeMap) (i : ℕ) (w : W) : Except MergeFault W :=
  if _h : i < m.record_count then do
    let r ← m.read i
    let w ← append w r
    restFrom m (i + 1) w
  else .ok w
termination_by m.record_count - i

/-- The loop over both files, and the two over the rests. -/
def mergeFrom (a b : OpenNodeMap) (i j : ℕ) (w : W) : Except MergeFault W :=
  if _h : i < a.record_count ∧ j < b.record_count then do
    let ra ← a.read i
    let rb ← b.read j
    if ra.id < rb.id then do
      let w ← append w ra
      mergeFrom a b (i + 1) j w
    else if rb.id < ra.id then do
      let w ← append w rb
      mergeFrom a b i (j + 1) w
    else do
      let w ← append w ra
      mergeFrom a b (i + 1) (j + 1) w
  else do
    let w ← a.restFrom append i w
    b.restFrom append j w
termination_by a.record_count - i + (b.record_count - j)

end Merge

/-! ### Files that hold their records -/

/-- The records of the header's count lie in the file, whose length is an `off_t`. -/
structure Inside (m : OpenNodeMap) : Prop where
  length_lt : m.data.length < 2 ^ 63
  le_length : kHeaderSize + m.record_count * nodeRecordFormat.width ≤ m.data.length

lemma drop_records {m : OpenNodeMap} {i : ℕ} (hi : i < m.record_count) :
    m.records.drop i = m.record i :: m.records.drop (i + 1) := by
  rw [List.drop_eq_getElem_cons (by rwa [length_records])]
  simp [records]

lemma recordOffset_of_lt {i : ℕ} (h : 64 + i * 24 < 2 ^ 64) : recordOffset i = 64 + i * 24 := by
  rw [recordOffset]
  exact wrapSize_of_lt h

section Inside

variable {m : OpenNodeMap} {i : ℕ}

lemma Inside.recordOffset_eq (h : m.Inside) (hi : i < m.record_count) :
    recordOffset i = 64 + i * 24 ∧ 64 + i * 24 + 24 ≤ m.data.length := by
  have hle : 64 + m.record_count * 24 ≤ m.data.length := h.le_length
  have hlt := h.length_lt
  exact ⟨recordOffset_of_lt (by omega), by omega⟩

lemma Inside.readRecord_eq (h : m.Inside) (hi : i < m.record_count) :
    m.readRecord i = some (m.record i) := by
  obtain ⟨hoff, hle⟩ := h.recordOffset_eq hi
  rw [readRecord, readBytes_eq (by rw [hoff]; exact hle), hoff, record, RecordFormat.recordAt,
    List.drop_drop]
  rfl

lemma Inside.readId_eq (h : m.Inside) (hi : i < m.record_count) :
    m.readId i = some (m.record i).id := by
  obtain ⟨hoff, hle⟩ := h.recordOffset_eq hi
  have hwidth : nodeRecordFormat.width = 24 := rfl
  rw [readId, readBytes_eq (by omega), hoff, Option.map_some, record, RecordFormat.recordAt,
    id_decode, List.drop_drop, List.take_take, hwidth, kHeaderSize]
  rfl

/-- Inside the file the bisection is that of the search. -/
lemma Inside.bisect_eq (h : m.Inside) (id : ℤ) {fuel lo hi : ℕ} (hhi : hi ≤ m.record_count) :
    m.bisect id fuel lo hi
      = some (lowerBound (fun mid => (m.record mid).id < id) fuel lo hi) := by
  induction fuel generalizing lo hi with
  | zero => rfl
  | succ fuel ih =>
      rw [bisect, lowerBound]
      by_cases hlt : lo < hi
      · have hmid : lo + (hi - lo) / 2 < m.record_count := by omega
        rw [if_pos hlt, if_pos hlt]
        dsimp only
        rw [h.readId_eq hmid, Option.bind_eq_bind, Option.bind_some, ih hhi, ih hmid.le]
        simp only [decide_eq_true_eq]
        split <;> rfl
      · rw [if_neg hlt, if_neg hlt]

/-- **Inside the file `select` reads the records.** -/
lemma Inside.selectRead_eq (h : m.Inside) (id : ℤ) : m.selectRead id = some (m.select id) := by
  rw [selectRead, h.bisect_eq id le_rfl, select, Option.bind_eq_bind, Option.bind_some]
  generalize lowerBound _ m.record_count 0 m.record_count = lo
  by_cases hlo : m.record_count ≤ lo
  · rw [if_pos hlo, if_pos hlo]
  · rw [if_neg hlo, if_neg hlo, h.readId_eq (not_le.mp hlo), h.readRecord_eq (not_le.mp hlo),
      Option.bind_eq_bind, Option.bind_some]
    split <;> rfl

variable {W : Type} {append : W → NodeRecord → Except MergeFault W}

lemma Inside.read_eq (h : m.Inside) (hi : i < m.record_count) : m.read i = pure (m.record i) := by
  rw [read, h.readRecord_eq hi]
  rfl

lemma Inside.restFrom_eq (h : m.Inside) (i : ℕ) (w : W) :
    m.restFrom append i w = (m.records.drop i).foldlM append w := by
  induction i, w using restFrom.induct m with
  | case1 i w hi ih =>
      rw [restFrom, dif_pos hi, h.read_eq hi, pure_bind, drop_records hi, List.foldlM_cons]
      exact bind_congr fun w' => ih w'
  | case2 i w hi =>
      rw [restFrom, dif_neg hi, List.drop_eq_nil_of_le (by rw [length_records]; omega)]
      rfl

/-- **Inside the files `merge` writes the merge of the records.** -/
lemma Inside.mergeFrom_eq {a b : OpenNodeMap} (ha : a.Inside) (hb : b.Inside) (i j : ℕ) (w : W) :
    a.mergeFrom append b i j w
      = (mergeBy NodeRecord.id (a.records.drop i) (b.records.drop j)).foldlM append w := by
  induction i, j, w using mergeFrom.induct a b with
  | case1 i j w h ih1 ih2 ih3 =>
      have hmerge : mergeBy NodeRecord.id (a.records.drop i) (b.records.drop j)
          = if (a.record i).id < (b.record j).id
            then a.record i :: mergeBy NodeRecord.id (a.records.drop (i + 1)) (b.records.drop j)
            else if (b.record j).id < (a.record i).id
            then b.record j :: mergeBy NodeRecord.id (a.records.drop i) (b.records.drop (j + 1))
            else a.record i
              :: mergeBy NodeRecord.id (a.records.drop (i + 1)) (b.records.drop (j + 1)) := by
        rw [drop_records h.1, drop_records h.2, mergeBy]
      rw [mergeFrom, dif_pos h, ha.read_eq h.1, hb.read_eq h.2, pure_bind, pure_bind, hmerge]
      split
      · rw [List.foldlM_cons]
        exact bind_congr fun w' => ih1 w'
      · split
        · rw [List.foldlM_cons]
          exact bind_congr fun w' => ih2 w'
        · rw [List.foldlM_cons]
          exact bind_congr fun w' => ih3 w'
  | case2 i j w h =>
      rw [mergeFrom, dif_neg h, ha.restFrom_eq]
      rcases not_and_or.mp h with hi | hj
      · rw [List.drop_eq_nil_of_le (by rw [length_records]; omega), mergeBy]
        exact hb.restFrom_eq j w
      · have hnil : b.records.drop j = [] :=
          List.drop_eq_nil_of_le (by rw [length_records]; omega)
        have hj' : b.restFrom append j = pure := by
          funext w'
          rw [restFrom, dif_neg hj]
          rfl
        rw [hnil, hj', bind_pure]
        cases a.records.drop i <;> rw [mergeBy]

end Inside

/-! ### What acceptance says -/

/-- The length that `parseHeader` compares with the file's does not wrap. -/
def Unwrapped (m : OpenNodeMap) : Prop :=
  kHeaderSize + m.record_count * nodeRecordFormat.width < 2 ^ 64

/-- No read of `select`, for any id, falls outside the file, nor any of `merge`
with a file that holds its records. -/
structure ReadsInside (m : OpenNodeMap) : Prop where
  select : ∀ id, IsInt64 id → (m.selectRead id).isSome
  merge : ∀ o : OpenNodeMap, o.Inside → ∀ {W : Type},
    ∀ append : W → NodeRecord → Except MergeFault W,
    (∀ w r, append w r ≠ .error .outOfFile) → ∀ w, m.mergeFrom append o 0 0 w ≠ .error .outOfFile
      ∧ o.mergeFrom append m 0 0 w ≠ .error .outOfFile

variable {bytes : List UInt8} {m : OpenNodeMap}

/-- What the constructor has checked. -/
lemma of_openNodeMap (h : openNodeMap bytes = some m) :
    m.data = bytes ∧ m.record_count = leValue ((bytes.drop 12).take 8)
      ∧ wrapSize (kHeaderSize + m.record_count * nodeRecordFormat.width) ≤ bytes.length := by
  rw [openNodeMap] at h
  split at h
  · simp at h
  · split at h
    · simp at h
    · split at h
      · simp at h
      · dsimp only at h
        split at h
        · simp at h
        · rename_i hle
          obtain rfl := Option.some.inj h
          exact ⟨rfl, rfl, not_lt.mp hle⟩

lemma inside_iff_unwrapped (h : openNodeMap bytes = some m) (hlen : bytes.length < 2 ^ 63) :
    m.Inside ↔ m.Unwrapped := by
  obtain ⟨rfl, -, hle⟩ := of_openNodeMap h
  constructor
  · intro hin
    have := hin.le_length
    rw [Unwrapped]
    omega
  · intro hun
    rw [wrapSize_of_lt hun] at hle
    exact ⟨hlen, hle⟩

/-- No id is below the least one. -/
lemma le_of_readId {i : ℕ} {x : ℤ} (h : m.readId i = some x) : -2 ^ 63 ≤ x := by
  rw [readId, Option.map_eq_some_iff] at h
  obtain ⟨bs, -, rfl⟩ := h
  exact (isInt64_ri64 _).1

/-- **The search for the least id** halves its index until the offset no longer
wraps, and then it is still past every file. -/
lemma bisect_eq_none (hlen : m.data.length < 2 ^ 63) {fuel hi : ℕ} (hfuel : hi ≤ fuel)
    (hwrap : 2 ^ 64 ≤ 64 + hi * 24) : m.bisect (-2 ^ 63) fuel 0 hi = none := by
  induction fuel generalizing hi with
  | zero => omega
  | succ fuel ih =>
      rw [bisect, if_pos (by omega), Nat.zero_add, Nat.sub_zero]
      dsimp only
      cases hread : m.readId (hi / 2) with
      | none => rfl
      | some mid_id =>
          rw [Option.bind_eq_bind, Option.bind_some, if_neg (not_lt.mpr (le_of_readId hread))]
          refine ih (by omega) ?_
          -- an offset that does not wrap would have been inside the file
          by_contra hmid
          rw [readId, readBytes, recordOffset_of_lt (not_le.mp hmid), if_neg (by omega)] at hread
          simp at hread

/-- A merge that reads inside ends as its writes do. -/
lemma foldlM_ne_outOfFile {W : Type} {append : W → NodeRecord → Except MergeFault W}
    (h : ∀ w r, append w r ≠ .error .outOfFile) (rs : List NodeRecord) (w : W) :
    rs.foldlM append w ≠ .error .outOfFile := by
  induction rs generalizing w with
  | nil => simp [pure, Except.pure]
  | cons r rs ih =>
      rw [List.foldlM_cons]
      cases happend : append w r with
      | ok w' => exact ih w'
      | error e =>
          intro he
          exact h w r (happend.trans he)

lemma Inside.readsInside (h : m.Inside) : ReadsInside m where
  select id _ := by
    rw [h.selectRead_eq]
    rfl
  merge o ho W append happend w := by
    rw [h.mergeFrom_eq ho, ho.mergeFrom_eq h]
    exact ⟨foldlM_ne_outOfFile happend _ w, foldlM_ne_outOfFile happend _ w⟩

/-- **Acceptance and bounds.**  In a file that is accepted, `select` and `merge`
read inside the file exactly when the length computed from the count does not
wrap, and so does the count of the header say no more than the file holds. -/
theorem reads_inside_iff (h : openNodeMap bytes = some m) (hlen : bytes.length < 2 ^ 63) :
    (m.ReadsInside ↔ m.Unwrapped)
      ∧ (kHeaderSize + m.record_count * nodeRecordFormat.width ≤ bytes.length ↔ m.Unwrapped) := by
  obtain ⟨hdata, -⟩ := of_openNodeMap h
  have hin := inside_iff_unwrapped h hlen
  refine ⟨⟨fun hreads => ?_, fun hun => (hin.mpr hun).readsInside⟩,
    fun hle => hin.mp ⟨hdata ▸ hlen, hdata ▸ hle⟩, fun hun => hdata ▸ (hin.mpr hun).le_length⟩
  by_contra hwrap
  have hsome := hreads.select (-2 ^ 63) (by decide)
  rw [selectRead, bisect_eq_none (hdata ▸ hlen) le_rfl (not_lt.mp hwrap)] at hsome
  simp at hsome

/-- Three records. -/
def threeNodes : List NodeRecord := [⟨-4, ⟨1, 2⟩⟩, ⟨3, ⟨5, 6⟩⟩, ⟨70, ⟨7, 8⟩⟩]

/-- A file of them, and one byte more. -/
def threeNodesFile : List UInt8 := writeNodeFile (ascii "andorra") ⟨0, 0, 0, 0⟩ 0 threeNodes ++ [9]

/-- The file is accepted, its records are inside, and the last is found. -/
theorem reads_inside_iff_threeNodes : ∃ m, openNodeMap threeNodesFile = some m
    ∧ m.record_count = 3 ∧ m.ReadsInside
    ∧ kHeaderSize + m.record_count * nodeRecordFormat.width ≤ threeNodesFile.length
    ∧ m.selectRead 70 = some (some ⟨7, 8⟩) := by
  have hopen : openNodeMap threeNodesFile = some ⟨threeNodesFile, 3⟩ := by
    have heval : (openNodeMap threeNodesFile).map OpenNodeMap.record_count = some 3 := by
      decide +kernel
    obtain ⟨m, hm, hcount⟩ := Option.map_eq_some_iff.mp heval
    obtain ⟨hdata, -⟩ := of_openNodeMap hm
    rw [hm, ← hdata, ← hcount]
  have hlen : threeNodesFile.length < 2 ^ 63 := by decide +kernel
  have hun : (⟨threeNodesFile, 3⟩ : OpenNodeMap).Unwrapped := by
    show kHeaderSize + 3 * 24 < 2 ^ 64
    decide
  obtain ⟨hreads, hheld⟩ := reads_inside_iff hopen hlen
  exact ⟨_, hopen, rfl, hreads.mpr hun, hheld.mpr hun, by decide +kernel⟩

/-- A header alone, for `2 ^ 61` records. -/
def hugeFile : List UInt8 := nodeFileHeader [] ⟨0, 0, 0, 0⟩ 0 (2 ^ 61)

/-- **A count that wraps.**  64 bytes are accepted for `2 ^ 61` records; the first
index a search looks at is outside the file, and a search that reads it ends there. -/
theorem accepts_huge_count :
    ∃ m, openNodeMap hugeFile = some m ∧ m.record_count = 2 ^ 61
      ∧ m.readId (m.record_count / 2) = none ∧ m.selectRead (-2 ^ 63) = none
      ∧ ¬kHeaderSize + m.record_count * nodeRecordFormat.width ≤ hugeFile.length := by
  have hsome : (openNodeMap hugeFile).isSome := by decide +kernel
  obtain ⟨m, hopen⟩ := Option.isSome_iff_exists.mp hsome
  obtain ⟨hdata, hcount, -⟩ := of_openNodeMap hopen
  have hvalue : leValue ((hugeFile.drop 12).take 8) = 2 ^ 61 := by decide +kernel
  rw [hvalue] at hcount
  refine ⟨m, hopen, hcount, ?_, ?_, by rw [hcount]; decide⟩
  · rw [readId, readBytes, hcount, if_neg (by rw [hdata]; decide)]
    rfl
  · rw [selectRead, bisect_eq_none (by rw [hdata]; decide) le_rfl (by omega)]
    rfl

end OpenNodeMap

end Gpsxdb
