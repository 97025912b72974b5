import Mathlib.Tactic
import Gpsxdb.Wkb.WkbFormat

/-!
What the decoder does with an encoding, and with any other buffer.

* `valid_of_documented`: a documented encoding is one the decoder reads;
* `decode_write`: **the round trip**, whatever follows, and nothing of what is cut short;
* `typeWords`, `decode_documented_iff`: **what is decoded is documented** exactly where no
  type word has a bit of its own;
* `decode_lineString_z`: a line string with heights.
-/

namespace Gpsxdb

namespace WkbDecode

/-! ### Documented encodings -/

/-- A documented header can be read, and has its type code. -/
lemma header_of_documented {type : UInt32} (ht : type ∈ ([1, 2, 3, 5, 6] : List UInt32))
    {h : Header} (hd : h.Documented type) : headerFormat.valid h ∧ h.type = type := by
  obtain ⟨raw_type, srid⟩ := h
  have hraw : raw_type = if srid.isSome then type ||| 0x20000000 else type := hd
  subst hraw
  have hword : ∀ t ∈ ([1, 2, 3, 5, 6] : List UInt32), t &&& 0x20000000 = 0
      ∧ (t ||| 0x20000000) &&& 0x20000000 ≠ 0 ∧ t &&& 0xFFFF = t
      ∧ (t ||| 0x20000000) &&& 0xFFFF = t := by
    simp only [List.forall_mem_cons]
    refine ⟨?_, ?_, ?_, ?_, ?_, nofun⟩ <;> decide
  obtain ⟨hplain, hflag, htype, htype'⟩ := hword type ht
  cases srid with
  | none => exact ⟨(decide_eq_false (not_not.mpr hplain)).symm, htype⟩
  | some srid => exact ⟨(decide_eq_true hflag).symm, htype'⟩

lemma Body.type_mem (b : Body) : b.type ∈ ([1, 2, 3, 5, 6] : List UInt32) := by
  cases b <;> simp [Body.type]

lemma Body.valid_of_documented {b : Body} (h : b.Documented) : b.Valid := by
  cases b with
  | point p => exact ⟨trivial, trivial, trivial⟩
  | lineString ls => exact valid_pointsFormat.mpr h
  | polygon rings => exact valid_ringsFormat.mpr h
  | multiLineString parts =>
      refine ⟨⟨h.1, trivial⟩, fun part hpart => ?_⟩
      obtain ⟨hheader, hpoints⟩ := h.2 part hpart
      exact ⟨header_of_documented (by decide) hheader, valid_pointsFormat.mpr hpoints⟩
  | multiPolygon parts =>
      refine ⟨⟨h.1, trivial⟩, fun part hpart => ?_⟩
      obtain ⟨hheader, hrings⟩ := h.2 part hpart
      exact ⟨header_of_documented (by decide) hheader, valid_ringsFormat.mpr hrings⟩

/-- **A documented encoding is one the decoder reads.** -/
theorem valid_of_documented {e : Ewkb} (h : e.Documented) : ewkbFormat.valid e := by
  obtain ⟨hvalid, htype⟩ := header_of_documented e.body.type_mem h.1
  exact ⟨trivial, hvalid, htype.symm, Body.valid_of_documented h.2⟩

/-! ### The round trip -/

/-- An encoding is decoded, whatever bytes are behind it. -/
lemma decode_write_append (e : Ewkb) (h : e.Documented) (rest : List UInt8) :
    decode (e.write ++ rest) = some e.decoded := by
  have hread : ewkbFormat.read (e.write ++ rest) = some (e, rest) :=
    ewkbFormat.read_write e (valid_of_documented h) rest
  rw [decode_eq, hread]
  rfl

/-- **The round trip.**  An encoding of a geometry, with any bytes behind it, is decoded
to that geometry and the SRID of its outer header; an encoding that is cut short
anywhere is not decoded. -/
theorem decode_write (e : Ewkb) (h : e.Documented) :
    (∀ rest, decode (e.write ++ rest) = some ⟨e.body.geom, e.header.srid.getD 0⟩)
      ∧ ∀ p, p <+: e.write → p ≠ e.write → decode p = none := by
  refine ⟨decode_write_append e h, fun p hp hne => ?_⟩
  have hread : ewkbFormat.read p = none :=
    ewkbFormat.read_eq_none_of_prefix (valid_of_documented h) hp hne
  rw [decode_eq, hread]
  rfl

/-- A collection of two lines: one part with an SRID, the other without, and a byte behind
it. -/
theorem decode_write_lines :
    decode (Ewkb.write ⟨⟨0x20000005, some 3857⟩, .multiLineString
        [(⟨0x20000002, some 3857⟩, [⟨1, 2⟩, ⟨3, 4⟩]), (⟨2, none⟩, [⟨5, 6⟩])]⟩ ++ [0xff])
      = some ⟨.multiLineString [[⟨1, 2⟩, ⟨3, 4⟩], [⟨5, 6⟩]], 3857⟩ := by
  have hdoc : Ewkb.Documented ⟨⟨0x20000005, some 3857⟩, .multiLineString
      [(⟨0x20000002, some 3857⟩, [⟨1, 2⟩, ⟨3, 4⟩]), (⟨2, none⟩, [⟨5, 6⟩])]⟩ := by
    refine ⟨rfl, by decide, fun part hpart => ?_⟩
    simp only [List.mem_cons, List.not_mem_nil, or_false] at hpart
    rcases hpart with rfl | rfl
    · exact ⟨rfl, by decide⟩
    · exact ⟨rfl, by decide⟩
  exact (decode_write _ hdoc).1 [0xff]

/-! ### Other buffers -/

/-- The type words of the documented variant. -/
def typeWords : List UInt32 := [1, 2, 3, 5, 6].flatMap fun type => [type, type ||| 0x20000000]

lemma raw_type_mem_typeWords {e : Ewkb} (h : e.Documented) : e.header.raw_type ∈ typeWords := by
  refine List.mem_flatMap.mpr ⟨e.body.type, e.body.type_mem, ?_⟩
  have hraw := h.1
  rw [Header.Documented] at hraw
  rw [hraw]
  split <;> simp

/-- **What is decoded is documented.**  For every buffer: what the decoder consumes is a
documented encoding of what it returns, and a buffer with another type word is rejected,
exactly where the buffer does not begin with an encoding that has a bit in one of its
type words besides the type code and the SRID flag. -/
theorem decode_documented_iff (data : List UInt8) :
    ((∀ d rest, decodeOne (data.length + 2) data = some (d, rest) →
          ∃ e : Ewkb, e.Documented ∧ data = e.write ++ rest ∧ e.decoded = d)
        ∧ ∀ raw_type rest, data = 0x01 :: (wu32 raw_type ++ rest) → raw_type ∉ typeWords →
          decode data = none)
      ↔ ∀ e : Ewkb, ewkbFormat.valid e → e.write <+: data → e.Documented := by
  rw [decodeOne_eq]
  constructor
  · rintro ⟨hsound, -⟩ e hvalid ⟨rest, rfl⟩
    have hread : ewkbFormat.read (e.write ++ rest) = some (e, rest) :=
      ewkbFormat.read_write e hvalid rest
    rw [hread] at hsound
    obtain ⟨e', hdoc, hwrite, -⟩ := hsound _ _ rfl
    obtain ⟨rfl, -⟩ := ewkbFormat.write_append_inj hvalid (valid_of_documented hdoc) hwrite
    exact hdoc
  · intro hdoc
    constructor
    · intro d rest h
      obtain ⟨⟨e, rest'⟩, hread, h⟩ := Option.map_eq_some_iff.mp h
      obtain ⟨rfl, rfl⟩ := Prod.mk.inj h
      obtain ⟨hvalid, hdata⟩ := ewkbFormat.eq_of_read _ _ _ hread
      exact ⟨e, hdoc e hvalid ⟨_, hdata.symm⟩, hdata, rfl⟩
    · rintro raw_type rest rfl hword
      rw [decode_eq, Option.map_eq_none_iff, Option.eq_none_iff_forall_ne_some]
      rintro ⟨e, rest'⟩ hread
      obtain ⟨hvalid, hdata⟩ := ewkbFormat.eq_of_read _ _ _ hread
      have hmem := raw_type_mem_typeWords (hdoc e hvalid ⟨_, hdata.symm⟩)
      have hbytes : 0x01 :: (wu32 raw_type ++ rest) = 0x01 :: (wu32 e.header.raw_type
          ++ (e.header.srid.elim [] (fun srid => wu32 srid.toUInt32)
            ++ (e.body.write ++ rest'))) := by
        rw [hdata]
        simp [ewkbFormat, StreamFormat.imap, StreamFormat.seq, headerFormat, bodyFormat,
          Header.write]
      obtain ⟨hraw, -⟩ := List.append_inj (List.cons.inj hbytes).2 rfl
      exact hword (wu32_inj hraw ▸ hmem)

/-- **A line string with heights**: the Z flag is masked out, and the numbers are read two
by two. -/
theorem decode_lineString_z :
    0x80000002 ∉ typeWords
      ∧ decode (0x01 :: (wu32 0x80000002 ++ wu32 2 ++ [1, 2, 3, 4, 5, 6].flatMap wf64))
        = some ⟨.lineString [⟨1, 2⟩, ⟨3, 4⟩], 0⟩ := by
  decide +kernel

end WkbDecode

end Gpsxdb
