import Mathlib.Tactic

/-!
Records of one width in one file.

* `RecordFormat`: records as a fixed number of symbols;
* `readRecords`: the loop that reads whole records until the file ends;
  `readRecords_flatMap_encode`: **it reads back what was written**;
* `recordAt`: the record at an index, read by its offset;
  `recordAt_flatMap_encode`;
* `leValue`: the number that some bytes are, the lowest first; `leValue_inj`.
-/

namespace Gpsxdb

/-- Records as a fixed number of symbols. -/
structure RecordFormat (β ρ : Type*) where
  width : ℕ
  encode : ρ → List β
  decode : List β → ρ
  /-- the records that can be read back -/
  valid : ρ → Prop
  width_pos : 0 < width
  length_encode : ∀ r, (encode r).length = width
  decode_encode : ∀ r, valid r → decode (encode r) = r

namespace RecordFormat

variable {β ρ : Type*} (f : RecordFormat β ρ)

/-- The records of a file; a rest that is shorter than a record is left. -/
def readRecords (bs : List β) : List ρ :=
  if _h : f.width ≤ bs.length then f.decode (bs.take f.width) :: readRecords (bs.drop f.width)
  else []
termination_by bs.length
decreasing_by
  have hpos := f.width_pos
  simp only [List.length_drop]
  omega

/-- The record at an index. -/
def recordAt (bs : List β) (i : ℕ) : ρ := f.decode ((bs.drop (i * f.width)).take f.width)

lemma readRecords_nil : f.readRecords [] = [] := by
  rw [readRecords, dif_neg (by simpa using f.width_pos.ne')]

variable {f} {rs : List ρ}

/-- **Reading gives back the records that were written.** -/
theorem readRecords_flatMap_encode (h : ∀ r ∈ rs, f.valid r) :
    f.readRecords (rs.flatMap f.encode) = rs := by
  induction rs with
  | nil => exact f.readRecords_nil
  | cons r rs ih =>
      obtain ⟨hr, hrs⟩ := List.forall_mem_cons.mp h
      have hlen := f.length_encode r
      rw [List.flatMap_cons, readRecords, dif_pos (by rw [List.length_append, hlen]; omega),
        List.take_left' hlen, List.drop_left' hlen, f.decode_encode r hr, ih hrs]

lemma length_flatMap_encode (f : RecordFormat β ρ) (rs : List ρ) :
    (rs.flatMap f.encode).length = rs.length * f.width := by
  induction rs with
  | nil => simp
  | cons r rs ih =>
      rw [List.flatMap_cons, List.length_append, f.length_encode, ih, List.length_cons]
      ring

/-- **The record at an index** is the one written there. -/
theorem recordAt_flatMap_encode (h : ∀ r ∈ rs, f.valid r) {i : ℕ} (hi : i < rs.length) :
    f.recordAt (rs.flatMap f.encode) i = rs[i] := by
  induction rs generalizing i with
  | nil => simp at hi
  | cons r rs ih =>
      obtain ⟨hr, hrs⟩ := List.forall_mem_cons.mp h
      have hlen := f.length_encode r
      cases i with
      | zero =>
          rw [recordAt, Nat.zero_mul, List.drop_zero, List.flatMap_cons, List.take_left' hlen,
            f.decode_encode r hr, List.getElem_cons_zero]
      | succ i =>
          have hdrop : (f.encode r ++ rs.flatMap f.encode).drop ((i + 1) * f.width)
              = (rs.flatMap f.encode).drop (i * f.width) := by
            rw [Nat.succ_mul, Nat.add_comm, ← List.drop_drop, List.drop_left' hlen]
          have hi' : i < rs.length := Nat.lt_of_succ_lt_succ hi
          rw [recordAt, List.flatMap_cons, hdrop, List.getElem_cons_succ]
          exact ih hrs hi'

end RecordFormat

/-! ### Bytes -/

/-- The number that some bytes are, the lowest first. -/
def leValue : List UInt8 → ℕ
  | [] => 0
  | b :: bs => b.toNat + 2 ^ 8 * leValue bs

lemma leValue_lt (bs : List UInt8) : leValue bs < 2 ^ (8 * bs.length) := by
  induction bs with
  | nil => exact Nat.one_pos
  | cons b bs ih =>
      have hb := b.toNat_lt
      have hpow : 2 ^ (8 * (b :: bs).length) = 2 ^ 8 * 2 ^ (8 * bs.length) := by
        rw [List.length_cons, Nat.mul_succ, Nat.add_comm, pow_add]
      rw [hpow, leValue]
      omega

/-- **The number determines the bytes**, once their number is known. -/
lemma leValue_inj {as bs : List UInt8} (hlen : as.length = bs.length)
    (h : leValue as = leValue bs) : as = bs := by
  induction as generalizing bs with
  | nil => exact (List.eq_nil_of_length_eq_zero hlen.symm).symm
  | cons a as ih =>
      cases bs with
      | nil => simp at hlen
      | cons b bs =>
          have ha := a.toNat_lt
          have hb := b.toNat_lt
          rw [leValue, leValue] at h
          have hhead : a = b := UInt8.toNat_inj.mp (by omega)
          rw [hhead, ih (Nat.succ.inj hlen) (by omega)]

end Gpsxdb
