import Mathlib.Tactic
import Gpsxdb.Copy.PgCopyBinary
import Gpsxdb.Delta.PointWKB
import Gpsxdb.Library.StreamFormat
import Gpsxdb.Regional.NodeFile

/-!
The rows of a COPY-binary stream as a format.

* `i16be_be16`, `i32be_be32` and their inverses: lengths in network byte order;
* `fieldFormat`: NULL, or the bytes of a field behind their number;
* `Entry`, `entryFormat`: a row, or the trailer.
-/

namespace Gpsxdb

namespace PgCopyBinary

/-! ### Lengths -/

/-- A number as an `int16_t` in network byte order. -/
def be16 (n : ℕ) : List UInt8 := [UInt8.ofNat (n / 2 ^ 8), UInt8.ofNat n]

/-- A number as an `int32_t` in network byte order. -/
def be32 (n : ℕ) : List UInt8 := (wu32 (UInt32.ofNat n)).reverse

lemma leValue_be16 {n : ℕ} (h : n < 2 ^ 16) : leValue (be16 n).reverse = n := by
  have hvalue : leValue (be16 n).reverse
      = (UInt8.ofNat n).toNat + 2 ^ 8 * ((UInt8.ofNat (n / 2 ^ 8)).toNat + 2 ^ 8 * 0) := rfl
  rw [hvalue, UInt8.toNat_ofNat', UInt8.toNat_ofNat']
  omega

lemma leValue_be32 {n : ℕ} (h : n < 2 ^ 32) : leValue (be32 n).reverse = n := by
  rw [be32, List.reverse_reverse, leValue_wu32, UInt32.toNat_ofNat_of_lt' h]

/-- A remainder that is not negative is the number. -/
lemma bmod_of_nonneg {n m : ℕ} (h : n < m) (h0 : 0 ≤ Int.bmod n m) : Int.bmod n m = n := by
  have hmod : (n : ℤ) % m = n := Int.emod_eq_of_lt (by omega) (by omega)
  rw [Int.bmod_def, hmod] at h0 ⊢
  split at h0 <;> split <;> omega

lemma i16be_be16 {n : ℕ} (h : n < 2 ^ 15) : i16be (be16 n) = n := by
  unfold i16be
  rw [leValue_be16 (by omega)]
  exact Int.bmod_eq_of_le (by omega) (by omega)

lemma i32be_be32 {n : ℕ} (h : n < 2 ^ 31) : i32be (be32 n) = n := by
  unfold i32be wrapInt32
  rw [leValue_be32 (by omega)]
  exact Int.bmod_eq_of_le (by omega) (by omega)

/-- The bytes of a length that is not negative. -/
lemma be16_i16be {p : List UInt8} (hlen : p.length = 2) (h0 : 0 ≤ i16be p) :
    be16 (i16be p).toNat = p := by
  have hlt := leValue_lt p.reverse
  rw [List.length_reverse, hlen] at hlt
  have hvalue : i16be p = leValue p.reverse := by
    unfold i16be at h0 ⊢
    exact bmod_of_nonneg hlt h0
  refine List.reverse_injective (leValue_inj ?_ ?_)
  · rw [List.length_reverse, List.length_reverse, hlen]
    rfl
  · rw [hvalue, Int.toNat_natCast, leValue_be16 hlt]

lemma be32_i32be {p : List UInt8} (hlen : p.length = 4) (h0 : 0 ≤ i32be p) :
    be32 (i32be p).toNat = p := by
  have hlt := leValue_lt p.reverse
  rw [List.length_reverse, hlen] at hlt
  have hvalue : i32be p = leValue p.reverse := by
    unfold i32be wrapInt32 at h0 ⊢
    exact bmod_of_nonneg hlt h0
  refine List.reverse_injective (leValue_inj ?_ ?_)
  · rw [List.length_reverse, List.length_reverse, hlen]
    rfl
  · rw [hvalue, Int.toNat_natCast, leValue_be32 hlt]

/-- The one length that is `-1`. -/
lemma eq_of_i16be {p : List UInt8} (hlen : p.length = 2) (h : i16be p = -1) : p = [0xFF, 0xFF] := by
  have hlt := leValue_lt p.reverse
  rw [List.length_reverse, hlen] at hlt
  refine List.reverse_injective (leValue_inj (by rw [List.length_reverse, hlen]; rfl) ?_)
  have hvalue : leValue [0xFF, 0xFF].reverse = 2 ^ 16 - 1 := by
    simp [leValue]
  unfold i16be at h
  rw [Int.bmod_def] at h
  rw [hvalue]
  split at h <;> omega

lemma eq_of_i32be {p : List UInt8} (hlen : p.length = 4) (h : i32be p = -1) :
    p = [0xFF, 0xFF, 0xFF, 0xFF] := by
  have hlt := leValue_lt p.reverse
  rw [List.length_reverse, hlen] at hlt
  refine List.reverse_injective (leValue_inj (by rw [List.length_reverse, hlen]; rfl) ?_)
  have hvalue : leValue [0xFF, 0xFF, 0xFF, 0xFF].reverse = 2 ^ 32 - 1 := by
    simp [leValue]
  unfold i32be wrapInt32 at h
  rw [Int.bmod_def] at h
  rw [hvalue]
  split at h <;> omega

lemma i16be_trailer : i16be [0xFF, 0xFF] = -1 := by
  decide +kernel

lemma i32be_null : i32be [0xFF, 0xFF, 0xFF, 0xFF] = -1 := by
  decide +kernel

lemma i16be_lt (p : List UInt8) : i16be p < 2 ^ 15 := by
  have h := @Int.bmod_lt (leValue p.reverse) (2 ^ 16) (by norm_num)
  unfold i16be
  omega

lemma i32be_lt (p : List UInt8) : i32be p < 2 ^ 31 := by
  have h := @Int.bmod_lt (leValue p.reverse) (2 ^ 32) (by norm_num)
  unfold i32be wrapInt32
  omega

/-! ### Fields -/

/-- A field as it stands in the stream. -/
def writeField : Option (List UInt8) → List UInt8
  | none => [0xFF, 0xFF, 0xFF, 0xFF]
  | some bytes => be32 bytes.length ++ bytes

/-- What stands behind the length of a field. -/
def splitData (flen : ℤ) (bs : List UInt8) : Option (Option (List UInt8) × List UInt8) :=
  if flen = -1 then some (none, bs)
  else if flen < 0 then none
  else if bs.length < flen.toNat then none
  else some (some (bs.take flen.toNat), bs.drop flen.toNat)

/-- A field off the front of a stream. -/
def readField (bs : List UInt8) : Option (Option (List UInt8) × List UInt8) :=
  if bs.length < 4 then none else splitData (i32be (bs.take 4)) (bs.drop 4)

/-- NULL, or the bytes of a field behind their number. -/
def fieldFormat : StreamFormat UInt8 (Option (List UInt8)) where
  valid f := ∀ bytes, f = some bytes → bytes.length < 2 ^ 31
  write := writeField
  read := readField
  read_write := by
    intro f hf rest
    cases f with
    | none => simp [writeField, readField, splitData, i32be_null]
    | some bytes =>
        have hflen := i32be_be32 (hf bytes rfl)
        have hwhole : be32 bytes.length ++ bytes ++ rest = be32 bytes.length ++ (bytes ++ rest) :=
          List.append_assoc ..
        have htake : (be32 bytes.length ++ (bytes ++ rest)).take 4 = be32 bytes.length :=
          List.take_left' rfl
        have hdrop : (be32 bytes.length ++ (bytes ++ rest)).drop 4 = bytes ++ rest :=
          List.drop_left' rfl
        have hlen : ¬ (be32 bytes.length ++ (bytes ++ rest)).length < 4 := by
          rw [List.length_append]
          have hbe : (be32 bytes.length).length = 4 := rfl
          omega
        rw [writeField, hwhole, readField, if_neg hlen, htake, hdrop, hflen, splitData,
          if_neg (by omega), if_neg (by omega), Int.toNat_natCast,
          if_neg (by rw [List.length_append]; omega), List.take_left, List.drop_left]
  eq_of_read := by
    intro bs f rest h
    rw [readField, splitData] at h
    split_ifs at h with h4 h1 h0 hlen
    · obtain ⟨rfl, rfl⟩ := Prod.mk.inj (Option.some.inj h)
      refine ⟨fun _ hf => absurd hf (by simp), ?_⟩
      have hp := eq_of_i32be (p := bs.take 4) (by rw [List.length_take]; omega) h1
      rw [writeField, ← hp, List.take_append_drop]
    · obtain ⟨rfl, rfl⟩ := Prod.mk.inj (Option.some.inj h)
      have hlt := i32be_lt (bs.take 4)
      have hcount : ((bs.drop 4).take (i32be (bs.take 4)).toNat).length
          = (i32be (bs.take 4)).toNat := by
        rw [List.length_take]
        omega
      refine ⟨fun bytes hf => ?_, ?_⟩
      · obtain rfl := Option.some.inj hf
        rw [hcount]
        omega
      · have hp := be32_i32be (p := bs.take 4) (by rw [List.length_take]; omega) (by omega)
        rw [writeField, hcount, hp, List.append_assoc, List.take_append_drop,
          List.take_append_drop]

/-! ### Rows and the trailer -/

/-- What stands in a stream: a row with its fields, or the trailer. -/
inductive Entry where
  | row (fields : List (Option (List UInt8)))
  | trailer

namespace Entry

/-- A row as it stands in the stream, or the trailer. -/
def write : Entry → List UInt8
  | row fields => be16 fields.length ++ fields.flatMap writeField
  | trailer => [0xFF, 0xFF]

/-- A row whose counts fit. -/
def WellFormed : Entry → Prop
  | row fields => fields.length ≤ 32767
      ∧ ∀ f ∈ fields, ∀ bytes, f = some bytes → bytes.length < 2 ^ 31
  | trailer => True

end Entry

/-- A row as `next` returns it: its bytes, and what its fields show. -/
structure Row.Shows (row : Row) (fields : List (Option (List UInt8))) : Prop where
  raw : row.raw = Entry.write (.row fields)
  views : row.fields.map row.view = fields

/-- What stands behind the number of fields. -/
def splitBody (field_count : ℤ) (bs : List UInt8) : Option (Entry × List UInt8) :=
  if field_count = -1 then some (.trailer, bs)
  else if field_count < 0 then none
  else (readTimes readField field_count.toNat bs).map (Prod.map .row id)

/-- An entry off the front of a stream. -/
def readEntry (bs : List UInt8) : Option (Entry × List UInt8) :=
  if bs.length < 2 then none else splitBody (i16be (bs.take 2)) (bs.drop 2)

/-- Rows, and the trailer. -/
def entryFormat : StreamFormat UInt8 Entry where
  valid := Entry.WellFormed
  write := Entry.write
  read := readEntry
  read_write := by
    intro e he rest
    cases e with
    | trailer => simp [Entry.write, readEntry, splitBody, i16be_trailer]
    | row fields =>
        have hcount := i16be_be16 (by have := he.1; omega : fields.length < 2 ^ 15)
        have hwhole : be16 fields.length ++ fields.flatMap writeField ++ rest
            = be16 fields.length ++ (fields.flatMap writeField ++ rest) := List.append_assoc ..
        have htake : (be16 fields.length ++ (fields.flatMap writeField ++ rest)).take 2
            = be16 fields.length := List.take_left' rfl
        have hdrop : (be16 fields.length ++ (fields.flatMap writeField ++ rest)).drop 2
            = fields.flatMap writeField ++ rest := List.drop_left' rfl
        have hlen : ¬ (be16 fields.length ++ (fields.flatMap writeField ++ rest)).length < 2 := by
          rw [List.length_append]
          have hbe : (be16 fields.length).length = 2 := rfl
          omega
        have hfields := StreamFormat.readTimes_write (F := fieldFormat) he.2 rest
        rw [Entry.write, hwhole, readEntry, if_neg hlen, htake, hdrop, hcount, splitBody,
          if_neg (by omega), if_neg (by omega), Int.toNat_natCast]
        exact congrArg (Option.map _) hfields
  eq_of_read := by
    intro bs e rest h
    rw [readEntry, splitBody] at h
    split_ifs at h with h2 h1 h0
    · obtain ⟨rfl, rfl⟩ := Prod.mk.inj (Option.some.inj h)
      refine ⟨trivial, ?_⟩
      have hp := eq_of_i16be (p := bs.take 2) (by rw [List.length_take]; omega) h1
      rw [Entry.write, ← hp, List.take_append_drop]
    · obtain ⟨⟨fields, rest'⟩, hread, h⟩ := Option.map_eq_some_iff.mp h
      obtain ⟨rfl, rfl⟩ := Prod.mk.inj h
      obtain ⟨hcount, hvalid, hbs⟩ := StreamFormat.eq_of_readTimes (F := fieldFormat) hread
      have hlt := i16be_lt (bs.take 2)
      refine ⟨⟨by omega, hvalid⟩, ?_⟩
      have hp := be16_i16be (p := bs.take 2) (by rw [List.length_take]; omega) (by omega)
      have hfields : fields.flatMap writeField ++ rest' = bs.drop 2 := hbs.symm
      rw [Entry.write, hcount, hp, List.append_assoc, id, hfields, List.take_append_drop]

lemma readEntry_write {e : Entry} (he : e.WellFormed) (rest : List UInt8) :
    readEntry (e.write ++ rest) = some (e, rest) := entryFormat.read_write e he rest

lemma readEntry_of_prefix {e : Entry} (he : e.WellFormed) {p : List UInt8} (hp : p <+: e.write)
    (hne : p ≠ e.write) : readEntry p = none := entryFormat.read_eq_none_of_prefix he hp hne

end PgCopyBinary

end Gpsxdb
