import Mathlib.Tactic
import Gpsxdb.NodeStore.Shards

/-!
What `merge` reads out of a shard file.

* `decompressAll_spec`: one read buffer, whatever pieces the decoder cuts it into;
* `readBuffers_spec`: the read buffers of a file, or of the part of it that is on disk;
* `readShard_of_prefix`: **a cut file gives the first of its records**, and a whole
  file all of them.
-/

namespace Gpsxdb

namespace ShardStore

variable {lz : LZ4F} {frame content : List UInt8} {At : lz.DCtx → ℕ → ℕ → Prop}

/-- A stretch of a list that has an element. -/
lemma exists_cons_of_stretch {α : Type} {l : List α} {k n : ℕ} (h : k + n ≤ l.length)
    (hn : 0 < n) : ∃ a as, (l.drop k).take n = a :: as := by
  refine List.exists_cons_of_length_pos ?_
  rw [List.length_take, List.length_drop]
  omega

/-! ### One read buffer -/

/-- **One read buffer**: its records are those between the content put out before and
after, and what is left is carried on. -/
lemma decompressAll_spec (hdec : lz.Decodes frame content At) (bound : ℕ) {k m n : ℕ} {d : lz.DCtx}
    (hat : At d k m) (hk : k + n ≤ frame.length) (hm : m ≤ content.length)
    (hend : k = frame.length → m = content.length)
    (hbound : n + (content.length - m) ≤ bound) :
    ∃ records d' m', (∀ fuel ≥ bound, decompressAll lz fuel d ((frame.drop k).take n)
        (nodeRecordFormat.leftover (content.take m))
        = some (records, d', nodeRecordFormat.leftover (content.take m')))
      ∧ At d' (k + n) m' ∧ m' ≤ content.length
      ∧ (k + n = frame.length → m' = content.length)
      ∧ nodeRecordFormat.readRecords (content.take m')
        = nodeRecordFormat.readRecords (content.take m) ++ records := by
  induction bound generalizing k m n d with
  | zero =>
      obtain rfl : n = 0 := by omega
      refine ⟨[], d, m, fun fuel _ => ?_, hat, hm, hend, (List.append_nil _).symm⟩
      rw [List.take_zero, decompressAll]
  | succ bound ih =>
      cases n with
      | zero =>
          refine ⟨[], d, m, fun fuel _ => ?_, hat, hm, hend, (List.append_nil _).symm⟩
          rw [List.take_zero, decompressAll]
      | succ n =>
          obtain ⟨d₁, c, p, ret, hcall, hc, hcp, hp, hfull, hret, hat₁⟩ :=
            hdec.step d k m (n + 1) hat (Nat.succ_pos n) hk
          -- the piece continues the content put out so far
          have hpiece : content.take m ++ (content.drop m).take p = content.take (m + p) :=
            (List.take_add ..).symm
          have hfeed := nodeRecordFormat.feed_eq
            (nodeRecordFormat.length_leftover_lt (content.take m)) ((content.drop m).take p)
          rw [← nodeRecordFormat.leftover_append, hpiece] at hfeed
          have hread := nodeRecordFormat.readRecords_append (content.take m)
            ((content.drop m).take p)
          rw [hpiece] at hread
          generalize nodeRecordFormat.readRecords (nodeRecordFormat.leftover (content.take m)
            ++ (content.drop m).take p) = found at hfeed hread
          obtain ⟨b, src, hsrc⟩ := exists_cons_of_stretch hk (Nat.succ_pos n)
          have hrest : (b :: src).drop c = (frame.drop (k + c)).take (n + 1 - c) := by
            rw [← hsrc, List.drop_take, List.drop_drop]
          rw [hsrc] at hcall ⊢
          by_cases hzero : ret = 0
          · -- the end of the frame is the end of the buffer
            have hkc := hret hzero
            obtain rfl : c = n + 1 := by omega
            refine ⟨found, d₁, m + p, fun fuel hfuel => ?_, hat₁, hp, fun _ => hfull hkc, hread⟩
            obtain ⟨fuel, rfl⟩ : ∃ fuel', fuel = fuel' + 1 :=
              Nat.exists_eq_succ_of_ne_zero (by omega)
            simp [decompressAll, hcall, hfeed, hzero]
          · obtain ⟨records, d', m', hdrain, hat', hm', hend', hrecords⟩ :=
              ih (k := k + c) (m := m + p) (n := n + 1 - c) hat₁ (by omega) hp hfull (by omega)
            refine ⟨found ++ records, d', m', fun fuel hfuel => ?_, ?_, hm',
              fun h => hend' (by omega), ?_⟩
            · obtain ⟨fuel, rfl⟩ : ∃ fuel', fuel = fuel' + 1 :=
                Nat.exists_eq_succ_of_ne_zero (by omega)
              simp [decompressAll, hcall, hfeed, hzero, hrest, hdrain fuel (by omega)]
            · rw [show k + (n + 1) = k + c + (n + 1 - c) by omega]
              exact hat'
            · rw [hrecords, hread, List.append_assoc]

/-! ### A file -/

/-- **The read buffers of a file**: of what is left of it, the records up to where the
decoder gets. -/
lemma readBuffers_spec (hdec : lz.Decodes frame content At) (reads : ℕ) {k m n : ℕ} {d : lz.DCtx}
    (hat : At d k m) (hk : k + n ≤ frame.length) (hm : m ≤ content.length)
    (hend : k = frame.length → m = content.length) (hreads : n ≤ reads) :
    ∃ records m', (∀ fuel ≥ frame.length + content.length,
        readBuffers lz fuel reads d ((frame.drop k).take n)
          (nodeRecordFormat.leftover (content.take m)) = some records)
      ∧ m' ≤ content.length ∧ (k + n = frame.length → m' = content.length)
      ∧ nodeRecordFormat.readRecords (content.take m')
        = nodeRecordFormat.readRecords (content.take m) ++ records := by
  induction reads generalizing k m n d with
  | zero =>
      obtain rfl : n = 0 := by omega
      refine ⟨[], m, fun fuel _ => ?_, hm, hend, (List.append_nil _).symm⟩
      rw [List.take_zero, readBuffers]
  | succ reads ih =>
      by_cases hn : n = 0
      · subst hn
        refine ⟨[], m, fun fuel _ => ?_, hm, hend, (List.append_nil _).symm⟩
        rw [List.take_zero, readBuffers]
      obtain ⟨b, file, hfile⟩ := exists_cons_of_stretch hk (Nat.pos_of_ne_zero hn)
      have hbuf : (b :: file).take inbufSize = (frame.drop k).take (min inbufSize n) := by
        rw [← hfile, List.take_take]
      have hrest : (b :: file).drop inbufSize
          = (frame.drop (k + min inbufSize n)).take (n - min inbufSize n) := by
        rw [← hfile, List.drop_take]
        by_cases hle : inbufSize ≤ n
        · rw [min_eq_left hle, List.drop_drop]
        · rw [min_eq_right (by omega), Nat.sub_self, List.take_zero,
            Nat.sub_eq_zero_of_le (by omega), List.take_zero]
      have hpos : 0 < min inbufSize n := lt_min (by decide) (Nat.pos_of_ne_zero hn)
      obtain ⟨records₁, d₁, m₁, hdrain, hat₁, hm₁, hend₁, hrecords₁⟩ :=
        decompressAll_spec hdec (frame.length + content.length) (n := min inbufSize n)
          hat (by omega) hm hend (by omega)
      obtain ⟨records₂, m₂, hbuffers, hm₂, hend₂, hrecords₂⟩ :=
        ih (k := k + min inbufSize n) (m := m₁) (n := n - min inbufSize n) hat₁ (by omega) hm₁
          hend₁ (by omega)
      refine ⟨records₁ ++ records₂, m₂, fun fuel hfuel => ?_, hm₂, fun h => hend₂ (by omega), ?_⟩
      · rw [hfile, readBuffers, hbuf, hdrain fuel hfuel, hrest]
        simp [hbuffers fuel hfuel]
      · rw [hrecords₂, hrecords₁, List.append_assoc]

/-- **A cut file gives the first of its records**, and a whole one all of them. -/
theorem readShard_of_prefix {records : List NodeRecord}
    (hdec : lz.Decodes frame (records.flatMap nodeRecordFormat.encode) At)
    (hvalid : ∀ r ∈ records, nodeRecordFormat.valid r) (reached : ℕ) :
    ∃ kept ≤ records.length, (frame.length ≤ reached → kept = records.length)
      ∧ ∃ bound, ∀ fuel ≥ bound,
        readShard lz fuel (frame.take reached) = some (records.take kept) := by
  have hlen := RecordFormat.length_flatMap_encode nodeRecordFormat records
  have hwidth : nodeRecordFormat.width = 24 := rfl
  obtain ⟨found, m', hbuffers, hm', hend', hfound⟩ := readBuffers_spec hdec
    (frame.take reached).length (k := 0) (m := 0) (n := min reached frame.length)
    hdec.start (by omega) (Nat.zero_le _)
    (fun h => absurd (List.eq_nil_of_length_eq_zero h.symm) hdec.nonempty)
    (by rw [List.length_take])
  rw [List.take_zero, nodeRecordFormat.readRecords_nil, List.nil_append,
    RecordFormat.readRecords_take hvalid] at hfound
  have hfile : (frame.drop 0).take (min reached frame.length) = frame.take reached := by
    rw [List.drop_zero, ← List.take_eq_take_min]
  have hnil : nodeRecordFormat.leftover [] = [] :=
    nodeRecordFormat.leftover_of_lt nodeRecordFormat.width_pos
  rw [List.take_zero, hnil, hfile] at hbuffers
  refine ⟨m' / nodeRecordFormat.width, ?_, fun hreached => ?_,
    ⟨frame.length + (records.flatMap nodeRecordFormat.encode).length, fun fuel hfuel => ?_⟩⟩
  · rw [hwidth] at hlen ⊢
    omega
  · rw [hend' (by omega), hlen, hwidth, Nat.mul_div_cancel _ (by norm_num)]
  · rw [readShard, hbuffers fuel hfuel, hfound]

end ShardStore

end Gpsxdb
