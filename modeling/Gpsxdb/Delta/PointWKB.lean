import Mathlib.Tactic
import Gpsxdb.Import.Tags
import Gpsxdb.NodeStore.OSMMMap

/-!
The point of a node row as text (`toHex` and `pointWKB` of `GeoUtils.cpp`).

* `toHex`: two upper-case digits a byte, `toHex_injective`;
* `wu32`, `wf64`: little-endian words, injective;
* `pointWKB`: byte order, type with the SRID flag, SRID, the two coordinates;
  `pointWKB_inj`: the text determines the SRID and the point.
-/

namespace Gpsxdb

/-! ### Hexadecimal text -/

/-- The digits of `toHex`. -/
def hexDigits : Text := ascii "0123456789ABCDEF"

/-- The digit of the low four bits. -/
def hexDigit (n : UInt8) : UInt8 := hexDigits.getD n.toNat 0

/-- `toHex`. -/
def toHex (buf : List UInt8) : Text :=
  buf.flatMap fun b : UInt8 => [hexDigit (b >>> 4), hexDigit (b &&& 0xf)]

/-- The two digits of a byte determine it. -/
lemma hexDigits_inj {a b : UInt8} (hhi : hexDigit (a >>> 4) = hexDigit (b >>> 4))
    (hlo : hexDigit (a &&& 0xf) = hexDigit (b &&& 0xf)) : a = b := by
  have hall : ∀ m n : Fin 16, hexDigits.getD m 0 = hexDigits.getD n 0 → m = n := by decide
  have hnibble : ∀ m n : ℕ, m < 16 → n < 16 → hexDigits.getD m 0 = hexDigits.getD n 0 → m = n :=
    fun m n hm hn h => congrArg Fin.val (hall ⟨m, hm⟩ ⟨n, hn⟩ h)
  have hshift : ∀ x : UInt8, (x >>> 4).toNat = x.toNat / 16 := fun x => by
    simp [Nat.shiftRight_eq_div_pow]
  have hmask : ∀ x : UInt8, (x &&& 0xf).toNat = x.toNat % 16 := fun x => by
    have h := Nat.and_two_pow_sub_one_eq_mod x.toNat 4
    simpa using h
  have ha := a.toNat_lt
  have hb := b.toNat_lt
  have h1 := hnibble _ _ (by rw [hshift]; omega) (by rw [hshift]; omega) hhi
  have h2 := hnibble _ _ (by rw [hmask]; omega) (by rw [hmask]; omega) hlo
  rw [hshift, hshift] at h1
  rw [hmask, hmask] at h2
  exact UInt8.toNat_inj.mp (by omega)

/-- **The text determines the bytes.** -/
theorem toHex_injective : Function.Injective toHex := by
  intro as
  induction as with
  | nil =>
      intro bs h
      cases bs with
      | nil => rfl
      | cons b bs => simp [toHex] at h
  | cons a as ih =>
      intro bs h
      cases bs with
      | nil => simp [toHex] at h
      | cons b bs =>
          simp only [toHex, List.flatMap_cons, List.cons_append, List.nil_append,
            List.cons.injEq] at h
          obtain ⟨hhi, hlo, htail⟩ := h
          rw [hexDigits_inj hhi hlo, ih htail]

/-! ### Little-endian words -/

/-- `wu32`. -/
def wu32 (v : UInt32) : List UInt8 :=
  [v.toUInt8, (v >>> 8).toUInt8, (v >>> 16).toUInt8, (v >>> 24).toUInt8]

/-- `wf64`: the bytes of a double. -/
def wf64 (u : Double) : List UInt8 :=
  [u.toUInt8, (u >>> 8).toUInt8, (u >>> 16).toUInt8, (u >>> 24).toUInt8, (u >>> 32).toUInt8,
    (u >>> 40).toUInt8, (u >>> 48).toUInt8, (u >>> 56).toUInt8]

lemma wu32_inj {u v : UInt32} (h : wu32 u = wu32 v) : u = v := by
  simp only [wu32, List.cons.injEq, ← UInt8.toNat_inj, UInt32.toNat_toUInt8,
    UInt32.toNat_shiftRight, and_true] at h
  obtain ⟨h0, h1, h2, h3⟩ := h
  simp only [UInt32.reduceToNat, Nat.reduceMod, Nat.shiftRight_eq_div_pow, Nat.reducePow]
    at h0 h1 h2 h3
  have hu := u.toNat_lt
  have hv := v.toNat_lt
  exact UInt32.toNat_inj.mp (by omega)

lemma wf64_inj {u v : Double} (h : wf64 u = wf64 v) : u = v := by
  simp only [wf64, List.cons.injEq, ← UInt8.toNat_inj, UInt64.toNat_toUInt8,
    UInt64.toNat_shiftRight, and_true] at h
  obtain ⟨h0, h1, h2, h3, h4, h5, h6, h7⟩ := h
  simp only [UInt64.reduceToNat, Nat.reduceMod, Nat.shiftRight_eq_div_pow, Nat.reducePow]
    at h0 h1 h2 h3 h4 h5 h6 h7
  have hu := u.toNat_lt
  have hv := v.toNat_lt
  exact UInt64.toNat_inj.mp (by omega)

/-! ### Points -/

/-- `pointWKB`, with the process-level SRID. -/
def pointWKB (g_srid : UInt32) (x y : Double) : Text :=
  toHex (0x01 :: (wu32 0x20000001 ++ wu32 g_srid ++ wf64 x ++ wf64 y))

/-- **The text of a point determines the SRID and the point.** -/
theorem pointWKB_inj {s s' : UInt32} {x x' y y' : Double}
    (h : pointWKB s x y = pointWKB s' x' y') : s = s' ∧ x = x' ∧ y = y' := by
  have hbytes := List.cons.inj (toHex_injective h)
  obtain ⟨hxs, hy⟩ := List.append_inj' hbytes.2 rfl
  obtain ⟨hs, hx⟩ := List.append_inj' hxs rfl
  obtain ⟨-, hs⟩ := List.append_inj' hs rfl
  exact ⟨wu32_inj hs, wf64_inj hx, wf64_inj hy⟩

example : pointWKB 3857 0 0x3FF0000000000000
    = ascii "0101000020110F00000000000000000000000000000000F03F" := by decide

end Gpsxdb
