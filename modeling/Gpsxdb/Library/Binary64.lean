import Mathlib.Tactic
import Mathlib.Order.Interval.Set.Basic
import Mathlib.Algebra.Order.Field.Rat

/-!
The values of the doubles, as numbers.

* `scaledValue`: what the exponent and mantissa bits stand for, in units of the least
  positive double; `scaledValue_strictMono`: **the bits are in the order of the values**;
* `signedValue`, `doubleValue`: with the sign; `doubleValue_lt_iff`.
-/

namespace Gpsxdb

/-- The value of the bits below the sign, in units of `2 ^ (-1074)`: subnormal numbers,
and then 52 bits of mantissa after the leading one. -/
def scaledValue (n : ℕ) : ℕ :=
  if n < 2 ^ 52 then n else (2 ^ 52 + n % 2 ^ 52) * 2 ^ (n / 2 ^ 52 - 1)

/-- **The bits are in the order of the values.** -/
lemma scaledValue_strictMono : StrictMono scaledValue := by
  refine strictMono_nat_of_lt_succ fun n => ?_
  rw [scaledValue, scaledValue]
  rcases Nat.lt_or_ge (n + 1) (2 ^ 52) with hsmall | hlarge
  · rw [if_pos (by omega), if_pos hsmall]
    exact Nat.lt_succ_self n
  · rw [if_neg (not_lt.mpr hlarge)]
    rcases Nat.lt_or_ge n (2 ^ 52) with hlast | hnormal
    · -- the last subnormal number
      obtain rfl : n = 2 ^ 52 - 1 := by omega
      norm_num
    · rw [if_neg (not_lt.mpr hnormal)]
      rcases Nat.lt_or_ge (n % 2 ^ 52 + 1) (2 ^ 52) with hsame | hnext
      · have hexp : (n + 1) / 2 ^ 52 = n / 2 ^ 52 := by omega
        have hman : (n + 1) % 2 ^ 52 = n % 2 ^ 52 + 1 := by omega
        rw [hexp, hman]
        exact Nat.mul_lt_mul_of_pos_right (by omega) (by positivity)
      · -- the mantissa overflows into the exponent
        have hexp : (n + 1) / 2 ^ 52 - 1 = n / 2 ^ 52 - 1 + 1 := by omega
        have hman : (n + 1) % 2 ^ 52 = 0 := by omega
        rw [hexp, hman]
        calc (2 ^ 52 + n % 2 ^ 52) * 2 ^ (n / 2 ^ 52 - 1)
            < 2 ^ 53 * 2 ^ (n / 2 ^ 52 - 1) :=
              Nat.mul_lt_mul_of_pos_right (by omega) (by positivity)
          _ = (2 ^ 52 + 0) * 2 ^ (n / 2 ^ 52 - 1 + 1) := by
              rw [pow_succ 2 (n / 2 ^ 52 - 1)]
              ring

/-- The value of signed bits, in the same units. -/
def signedValue (k : ℤ) : ℤ :=
  if 0 ≤ k then scaledValue k.toNat else -scaledValue (-k).toNat

lemma signedValue_strictMono : StrictMono signedValue := by
  refine strictMono_int_of_lt_succ fun k => ?_
  rw [signedValue, signedValue]
  rcases lt_or_ge k 0 with hneg | hpos
  · rw [if_neg (not_le.mpr hneg)]
    split
    · obtain rfl : k = -1 := by omega
      decide
    · have h := scaledValue_strictMono (by omega : (-(k + 1)).toNat < (-k).toNat)
      omega
  · rw [if_pos hpos, if_pos (by omega)]
    have h := scaledValue_strictMono (by omega : k.toNat < (k + 1).toNat)
    omega

/-- The value of signed bits. -/
def doubleValue (k : ℤ) : ℚ := signedValue k / 2 ^ 1074

lemma doubleValue_le_iff {k l : ℤ} : doubleValue k ≤ doubleValue l ↔ k ≤ l := by
  rw [doubleValue, doubleValue, div_le_div_iff_of_pos_right (by positivity), Int.cast_le,
    signedValue_strictMono.le_iff_le]

end Gpsxdb
