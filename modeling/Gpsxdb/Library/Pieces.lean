import Mathlib.Tactic
import Gpsxdb.Library.Records

/-!
Records of one width out of a stream that comes in pieces.

* `leftover`: what is left behind the last whole record;
* `readRecords_append`, `leftover_append`: **records over a cut** are those before
  it, and those of the leftover with what follows; `readRecords_append_of_dvd`,
  `readRecords_flatMap`: whole records in front, and in each of some parts;
* `feed`: one piece behind what is carried over, the record begun before completed
  first; `feed_eq`: **it reads as if the stream were whole**;
* `readRecords_take`: the records of a stream that ends early.
-/

namespace Gpsxdb

namespace RecordFormat

variable {β ρ : Type*} (f : RecordFormat β ρ)

/-- What is left behind the last whole record. -/
def leftover (bs : List β) : List β := bs.drop (bs.length / f.width * f.width)

/-- One piece of a stream behind what is carried over: the records it completes, and
what is carried on. -/
def feed (carried piece : List β) : List ρ × List β :=
  if carried = [] then (f.readRecords piece, f.leftover piece)
  else
    let need := f.width - carried.length
    if piece.length < need then ([], carried ++ piece)
    else (f.decode (carried ++ piece.take need) :: f.readRecords (piece.drop need),
      f.leftover (piece.drop need))

lemma leftover_of_lt {bs : List β} (h : bs.length < f.width) : f.leftover bs = bs := by
  rw [leftover, Nat.div_eq_of_lt h, Nat.zero_mul, List.drop_zero]

lemma readRecords_of_lt {bs : List β} (h : bs.length < f.width) : f.readRecords bs = [] := by
  rw [readRecords, dif_neg (not_le.mpr h)]

lemma length_leftover (bs : List β) : (f.leftover bs).length = bs.length % f.width := by
  rw [leftover, List.length_drop, Nat.mod_eq_sub, Nat.mul_comm]

lemma length_leftover_lt (bs : List β) : (f.leftover bs).length < f.width := by
  rw [length_leftover]
  exact Nat.mod_lt _ f.width_pos

/-- A whole record in front is no part of the leftover. -/
lemma leftover_of_le {bs : List β} (h : f.width ≤ bs.length) :
    f.leftover bs = f.leftover (bs.drop f.width) := by
  have hdiv : bs.length / f.width = (bs.length - f.width) / f.width + 1 :=
    Nat.div_eq_sub_div f.width_pos h
  rw [leftover, leftover, List.drop_drop, List.length_drop, hdiv]
  congr 1
  ring

lemma readRecords_of_le {bs : List β} (h : f.width ≤ bs.length) :
    f.readRecords bs = f.decode (bs.take f.width) :: f.readRecords (bs.drop f.width) := by
  rw [readRecords, dif_pos h]

/-- **Records over a cut**, and what is left. -/
theorem read_append (as bs : List β) :
    f.readRecords (as ++ bs) = f.readRecords as ++ f.readRecords (f.leftover as ++ bs)
      ∧ f.leftover (as ++ bs) = f.leftover (f.leftover as ++ bs) := by
  induction hn : as.length using Nat.strong_induction_on generalizing as with
  | _ n ih =>
      by_cases h : as.length < f.width
      · rw [f.readRecords_of_lt h, f.leftover_of_lt h]
        exact ⟨rfl, rfl⟩
      · have hle : f.width ≤ as.length := not_lt.mp h
        have hle' : f.width ≤ (as ++ bs).length := by
          rw [List.length_append]
          omega
        have hpos := f.width_pos
        obtain ⟨hread, hleft⟩ := ih (as.drop f.width).length
          (by rw [List.length_drop]; omega) (as.drop f.width) rfl
        rw [f.readRecords_of_le hle, f.readRecords_of_le hle', f.leftover_of_le hle,
          f.leftover_of_le hle', List.take_append_of_le_length hle,
          List.drop_append_of_le_length hle, hread, hleft]
        exact ⟨rfl, rfl⟩

lemma readRecords_append (as bs : List β) :
    f.readRecords (as ++ bs) = f.readRecords as ++ f.readRecords (f.leftover as ++ bs) :=
  (f.read_append as bs).1

lemma leftover_append (as bs : List β) :
    f.leftover (as ++ bs) = f.leftover (f.leftover as ++ bs) := (f.read_append as bs).2

/-- **Reading on behind whole records.** -/
lemma readRecords_append_of_dvd {as : List β} (h : f.width ∣ as.length) (bs : List β) :
    f.readRecords (as ++ bs) = f.readRecords as ++ f.readRecords bs := by
  have hnone : f.leftover as = [] := by
    rw [← List.length_eq_zero_iff, length_leftover]
    exact Nat.mod_eq_zero_of_dvd h
  rw [readRecords_append, hnone, List.nil_append]

/-- Whole records in each of some parts of a file. -/
lemma readRecords_flatMap {α : Type*} {l : List α} {part : α → List β}
    (h : ∀ a ∈ l, f.width ∣ (part a).length) :
    f.width ∣ (l.flatMap part).length
      ∧ f.readRecords (l.flatMap part) = l.flatMap fun a => f.readRecords (part a) := by
  induction l with
  | nil => exact ⟨dvd_zero _, f.readRecords_of_lt f.width_pos⟩
  | cons a l ih =>
      obtain ⟨ha, hl⟩ := List.forall_mem_cons.mp h
      obtain ⟨hlength, hread⟩ := ih hl
      rw [List.flatMap_cons, List.flatMap_cons, f.readRecords_append_of_dvd ha, hread,
        List.length_append]
      exact ⟨Nat.dvd_add ha hlength, rfl⟩

/-- **A piece reads as if the stream were whole.** -/
theorem feed_eq {carried : List β} (h : carried.length < f.width) (piece : List β) :
    f.feed carried piece = (f.readRecords (carried ++ piece), f.leftover (carried ++ piece)) := by
  rw [feed]
  split
  · rw [‹carried = []›, List.nil_append]
  · dsimp only
    split
    · have hlt : (carried ++ piece).length < f.width := by
        rw [List.length_append]
        omega
      rw [f.readRecords_of_lt hlt, f.leftover_of_lt hlt]
    · have hle : f.width ≤ (carried ++ piece).length := by
        rw [List.length_append]
        omega
      rw [f.readRecords_of_le hle, f.leftover_of_le hle, List.take_append, List.drop_append,
        List.take_of_length_le h.le, List.drop_of_length_le h.le, List.nil_append]

variable {f}

/-- **The records of a stream that ends early** are the first ones. -/
theorem readRecords_take {rs : List ρ} (h : ∀ r ∈ rs, f.valid r) (m : ℕ) :
    f.readRecords ((rs.flatMap f.encode).take m) = rs.take (m / f.width) := by
  induction rs generalizing m with
  | nil => simp [f.readRecords_nil]
  | cons r rs ih =>
      obtain ⟨hr, hrs⟩ := List.forall_mem_cons.mp h
      have hlen := f.length_encode r
      by_cases hm : m < f.width
      · rw [Nat.div_eq_of_lt hm, List.take_zero]
        exact f.readRecords_of_lt ((List.length_take_le ..).trans_lt hm)
      · have hle : f.width ≤ m := not_lt.mp hm
        have hdiv : m / f.width = (m - f.width) / f.width + 1 := Nat.div_eq_sub_div f.width_pos hle
        have hwhole : (f.encode r ++ rs.flatMap f.encode).take m
            = f.encode r ++ (rs.flatMap f.encode).take (m - f.width) := by
          rw [List.take_append, hlen, List.take_of_length_le (by omega)]
        rw [List.flatMap_cons, hwhole, f.readRecords_of_le (by rw [List.length_append]; omega),
          List.take_left' hlen, List.drop_left' hlen, f.decode_encode r hr, ih hrs, hdiv,
          List.take_succ_cons]

end RecordFormat

end Gpsxdb
