import Mathlib.Tactic

/-!
Fixed-width machine integers read as numbers: the value a `size_t` or an
`int64_t` expression keeps, and single bits of a byte.

* `wrapSize`, `toSize`: unsigned 64-bit arithmetic and the conversion of a
  signed value, both the identity in range (`wrapSize_of_lt`,
  `toSize_of_nonneg`);
* `wrapInt64`: signed 64-bit arithmetic, the identity in range
  (`wrapInt64_of_isInt64`);
* `bitOf`, `setBit`, `clearBit`: one bit of a byte, with the read-over-write
  rules `bitOf_setBit` and `bitOf_clearBit`;
* `forall_byte`: what holds of the 256 bytes.
-/

namespace Gpsxdb

/-! ### Unsigned and signed 64-bit values -/

/-- The value a `size_t` expression keeps. -/
def wrapSize (n : ℕ) : ℕ := n % 2 ^ 64

/-- The conversion of a signed value to `size_t`. -/
def toSize (x : ℤ) : ℕ := (x % 2 ^ 64).toNat

/-- The value an `int64_t` expression keeps. -/
def wrapInt64 (x : ℤ) : ℤ := Int.bmod x (2 ^ 64)

/-- The value an `int` expression keeps. -/
def wrapInt32 (x : ℤ) : ℤ := Int.bmod x (2 ^ 32)

/-- The values of the type `int64_t`. -/
def IsInt64 (x : ℤ) : Prop := -2 ^ 63 ≤ x ∧ x < 2 ^ 63

instance (x : ℤ) : Decidable (IsInt64 x) := inferInstanceAs (Decidable (_ ∧ _))

lemma wrapSize_of_lt {n : ℕ} (h : n < 2 ^ 64) : wrapSize n = n := Nat.mod_eq_of_lt h

lemma toSize_of_nonneg {x : ℤ} (h0 : 0 ≤ x) (h : x < 2 ^ 63) : toSize x = x.toNat := by
  rw [toSize, Int.emod_eq_of_lt h0 (by omega)]

/-- A negative value is read as one of the upper half of `size_t`. -/
lemma le_toSize_of_neg {x : ℤ} (h0 : x < 0) (h : -2 ^ 63 ≤ x) : 2 ^ 63 ≤ toSize x := by
  have hmod : x % 2 ^ 64 = x + 2 ^ 64 := by omega
  rw [toSize, hmod]
  omega

lemma wrapInt64_of_isInt64 {x : ℤ} (h : IsInt64 x) : wrapInt64 x = x := by
  obtain ⟨h1, h2⟩ := h
  rw [wrapInt64, Int.bmod_eq_of_le_mul_two] <;> omega

/-- Sums are taken modulo 2^64. -/
lemma wrapInt64_add_wrapInt64 (x y : ℤ) : wrapInt64 (x + wrapInt64 y) = wrapInt64 (x + y) :=
  Int.add_bmod_bmod

/-! ### The bits of a byte -/

/-- `(b >> k) & 1u`. -/
def bitOf (b : UInt8) (k : ℕ) : Bool := (b >>> UInt8.ofNat k) &&& 1 != 0

/-- `b | (1u << k)`. -/
def setBit (b : UInt8) (k : ℕ) : UInt8 := b ||| (1 <<< UInt8.ofNat k)

/-- `b & ~(1u << k)`. -/
def clearBit (b : UInt8) (k : ℕ) : UInt8 := b &&& ~~~(1 <<< UInt8.ofNat k)

/-- The shift by `k < 8` of a byte is the shift by the number `k`. -/
lemma toNat_ofNat_mod_eight {k : ℕ} (hk : k < 8) : (UInt8.ofNat k).toNat % 8 = k := by
  simp; omega

lemma bitOf_eq_testBit (b : UInt8) {k : ℕ} (hk : k < 8) : bitOf b k = b.toNat.testBit k := by
  have hz : ∀ x : UInt8, (x != 0) = (x.toNat != 0) := by
    intro x
    rw [Bool.eq_iff_iff]
    simp [← UInt8.toNat_inj]
  rw [bitOf, hz, UInt8.toNat_and, UInt8.toNat_shiftRight, toNat_ofNat_mod_eight hk,
    Nat.testBit, Nat.and_comm]
  rfl

@[simp] lemma bitOf_zero {k : ℕ} (hk : k < 8) : bitOf 0 k = false := by
  rw [bitOf_eq_testBit _ hk]
  simp

/-- Setting a bit and reading one back. -/
lemma bitOf_setBit (b : UInt8) {k l : ℕ} (hk : k < 8) (hl : l < 8) :
    bitOf (setBit b k) l = (bitOf b l || decide (k = l)) := by
  rw [bitOf_eq_testBit _ hl, bitOf_eq_testBit _ hl, setBit, UInt8.toNat_or, Nat.testBit_or,
    UInt8.toNat_shiftLeft, toNat_ofNat_mod_eight hk]
  congr 1
  rw [Nat.testBit_mod_two_pow]
  simp [Nat.shiftLeft_eq, Nat.testBit_two_pow, hl]

/-- Clearing a bit and reading one back. -/
lemma bitOf_clearBit (b : UInt8) {k l : ℕ} (hk : k < 8) (hl : l < 8) :
    bitOf (clearBit b k) l = (bitOf b l && !decide (k = l)) := by
  have hlt : (1 <<< UInt8.ofNat k : UInt8).toNat < 2 ^ 8 := UInt8.toNat_lt _
  have hnot : UInt8.size - 1 - (1 <<< UInt8.ofNat k : UInt8).toNat
      = 2 ^ 8 - ((1 <<< UInt8.ofNat k : UInt8).toNat + 1) := by
    rw [show UInt8.size = 2 ^ 8 from rfl]
    omega
  rw [bitOf_eq_testBit _ hl, bitOf_eq_testBit _ hl, clearBit, UInt8.toNat_and, Nat.testBit_and,
    UInt8.toNat_not, hnot, Nat.testBit_two_pow_sub_succ hlt, UInt8.toNat_shiftLeft,
    toNat_ofNat_mod_eight hk, Nat.testBit_mod_two_pow]
  simp [Nat.shiftLeft_eq, Nat.testBit_two_pow, hl]

/-- A byte with no bit set is zero. -/
lemma eq_zero_of_bitOf_eq_false {b : UInt8} (h : ∀ k < 8, bitOf b k = false) : b = 0 := by
  rw [← UInt8.toNat_inj]
  refine Nat.eq_of_testBit_eq fun k => ?_
  by_cases hk : k < 8
  · rw [← bitOf_eq_testBit b hk, h k hk]
    simp
  · have hb : b.toNat < 2 ^ k :=
      lt_of_lt_of_le (UInt8.toNat_lt b) (Nat.pow_le_pow_right (by norm_num) (by omega))
    rw [Nat.testBit_lt_two_pow hb]
    simp

/-! ### Bytes -/

/-- A fact about bytes, checked one by one. -/
lemma forall_byte {p : UInt8 → Prop} (h : ∀ n : Fin 256, p (UInt8.ofNat n)) (c : UInt8) : p c := by
  have hc := h ⟨c.toNat, c.toNat_lt⟩
  rwa [UInt8.ofNat_toNat] at hc

end Gpsxdb
