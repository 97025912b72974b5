import Mathlib.Tactic
import Gpsxdb.NodeStore.Shards

/-!
The node phase as a whole.

* `recordsOf`: what is inserted into a shard, in order;
* `ShardWriter.Holds`: the stream and the buffer of a writer hold some records;
  `holds_flushInbuf`, `Holds.closed`, `Holds.stream`;
* `Recording`: **the invariant of the node phase**; `recording_start`,
  `recording_step`, `recording_run`: every insertion in range goes through.
-/

namespace Gpsxdb

/-! ### What is inserted -/

namespace ShardStore.ShardOp

/-- The shard and the id of an insertion are in range. -/
def InRange (num_shards : ℕ) (max_id : ℤ) : ShardOp → Prop
  | .insert shard id _ => shard < num_shards ∧ 0 ≤ id ∧ id ≤ max_id
  | .flushInbuf shard => shard < num_shards

instance (num_shards : ℕ) (max_id : ℤ) :
    ∀ op : ShardOp, Decidable (op.InRange num_shards max_id)
  | .insert shard id _ => inferInstanceAs (Decidable (shard < num_shards ∧ 0 ≤ id ∧ id ≤ max_id))
  | .flushInbuf shard => inferInstanceAs (Decidable (shard < num_shards))

/-- The record an operation adds to a shard. -/
def recordFor (j : ℕ) : ShardOp → Option NodeRecord
  | .insert shard id c => if shard = j then some ⟨id, c⟩ else none
  | .flushInbuf _ => none

end ShardStore.ShardOp

/-- What some operations insert into a shard, in order. -/
def recordsOf (ops : List ShardStore.ShardOp) (j : ℕ) : List NodeRecord :=
  ops.filterMap (ShardStore.ShardOp.recordFor j)

/-! ### Writers -/

namespace LZ4F

variable (lz : LZ4F)

lemma compress_concat (chunks : List (List UInt8)) (chunk : List UInt8) :
    lz.compress (chunks ++ [chunk])
      = ((lz.compressUpdate (lz.compress chunks).1 chunk).1,
        (lz.compress chunks).2 ++ (lz.compressUpdate (lz.compress chunks).1 chunk).2) := by
  rw [compress, List.foldl_append]
  rfl

end LZ4F

namespace ShardWriter

variable {lz : LZ4F} {w : ShardWriter lz} {records : List NodeRecord}

/-- The stream and the buffer of an open writer hold some records. -/
def Holds (w : ShardWriter lz) (records : List NodeRecord) : Prop :=
  ∃ chunks, w.f = some (lz.compress chunks).2 ∧ w.lz4ctx = (lz.compress chunks).1
    ∧ chunks.flatten ++ w.inbuf = records.flatMap nodeRecordFormat.encode

lemma flushInbuf_inbuf (w : ShardWriter lz) : w.flushInbuf.inbuf = [] := by
  rw [flushInbuf]
  split
  · assumption
  · rfl

/-- A flush moves the buffer into the stream. -/
lemma holds_flushInbuf (h : w.Holds records) : w.flushInbuf.Holds records := by
  rw [flushInbuf]
  split
  · exact h
  · obtain ⟨chunks, hf, hctx, hbytes⟩ := h
    refine ⟨chunks ++ [w.inbuf], ?_, ?_, ?_⟩
    · rw [lz.compress_concat, ← hctx, hf]
      rfl
    · rw [lz.compress_concat, ← hctx]
    · rw [← hbytes, List.flatten_append, List.flatten_singleton, List.append_nil]

/-- The stream of a writer is the beginning of the frame it closes with. -/
lemma flushInbuf_stream {bytes : List UInt8} (h : w.f = some bytes) :
    ∃ more, w.flushInbuf.f = some (bytes ++ more) := by
  rw [flushInbuf]
  split
  · exact ⟨[], by rw [h, List.append_nil]⟩
  · exact ⟨_, by rw [h]; rfl⟩

/-- **What a writer closes with** is the frame of its records, and its stream so far the
beginning of it. -/
lemma Holds.closed (h : w.Holds records) : ∃ chunks bytes more,
    chunks.flatten = records.flatMap nodeRecordFormat.encode ∧ w.f = some bytes
      ∧ w.flushInbuf.f = some (lz.compress chunks).2
      ∧ w.flushInbuf.lz4ctx = (lz.compress chunks).1 ∧ lz.frame chunks = bytes ++ more := by
  obtain ⟨chunks, hf, hctx, hbytes⟩ := holds_flushInbuf h
  rw [flushInbuf_inbuf, List.append_nil] at hbytes
  obtain ⟨_, hstream, -, -⟩ := h
  obtain ⟨more, hmore⟩ := flushInbuf_stream hstream
  refine ⟨chunks, _, more ++ lz.compressEnd (lz.compress chunks).1, hbytes, hstream, hf, hctx, ?_⟩
  rw [LZ4F.frame, ← List.append_assoc]
  congr 1
  exact Option.some.inj (hf.symm.trans hmore)

end ShardWriter

/-! ### The sidecar -/

/-- A sidecar grows with the ids, far from the range of `off_t`. -/
lemma growBitmap_spec {bm : MappedFile UInt8} (hsize : bm.size ≤ 2 ^ 60) {id : ℤ} (h0 : 0 ≤ id)
    (hid : id < 2 ^ 60) : ∃ bm', growBitmap bm id = some bm' ∧ bm'.size ≤ 2 ^ 60 := by
  rw [growBitmap, toSize_of_nonneg h0 (by omega)]
  split
  · exact ⟨bm, rfl, hsize⟩
  · rw [MappedFile.ftruncate_eq_some _ (by omega)]
    exact ⟨_, rfl, by rw [MappedFile.size_resize]; omega⟩

/-! ### The phase -/

namespace ShardStore

variable {lz : LZ4F} {dir : ShardDir} {s s' : ShardStore lz} {num_shards : ℕ} {max_id : ℤ}
  {records : ℕ → List NodeRecord}

/-- **The invariant of the node phase**: every writer is open and holds what was
inserted into its shard. -/
structure Recording (num_shards : ℕ) (records : ℕ → List NodeRecord) (s : ShardStore lz) :
    Prop where
  length : s.shards.length = num_shards
  writer : ∀ (j : ℕ) (w : ShardWriter lz), s.shards[j]? = some w → w.Holds (records j)
  bmp : ∀ j < num_shards, ∃ bm, s.bmp j = some bm ∧ bm.size ≤ 2 ^ 60

lemma recording_start (h : openForImport lz dir max_id num_shards = some s) :
    s.Recording num_shards fun _ => [] := by
  rw [openForImport] at h
  simp only [Option.bind_eq_bind, Option.bind_eq_some_iff] at h
  obtain ⟨d, -, h⟩ := h
  split at h
  · obtain rfl := Option.some.inj h
    refine ⟨List.length_replicate, fun j w hw => ?_, fun j hj => ⟨_, if_pos hj, ?_⟩⟩
    · obtain rfl := List.eq_of_mem_replicate (List.mem_of_getElem? hw)
      exact ⟨[], rfl, rfl, rfl⟩
    · rw [MappedFile.size_blank]
      norm_num
  · simp at h

/-- A writer that takes over its place keeps the others. -/
lemma holds_set {j : ℕ} {w : ShardWriter lz} {records' : ℕ → List NodeRecord}
    (hs : ∀ (i : ℕ) (w : ShardWriter lz), s.shards[i]? = some w → w.Holds (records i))
    (hw : w.Holds (records' j)) (hsame : ∀ i, i ≠ j → records' i = records i) (i : ℕ)
    (v : ShardWriter lz) (hv : (s.shards.set j w)[i]? = some v) : v.Holds (records' i) := by
  by_cases hij : i = j
  · subst hij
    rw [List.getElem?_set_self'] at hv
    obtain ⟨-, -, rfl⟩ := Option.map_eq_some_iff.mp hv
    exact hw
  · rw [List.getElem?_set_ne (Ne.symm hij)] at hv
    rw [hsame i hij]
    exact hs i v hv

/-- An insertion in range goes through, and adds its record. -/
lemma insert_spec (hs : s.Recording num_shards records) (hmax : max_id < 2 ^ 60) {shard : ℕ}
    {id : ℤ} (c : Coord) (hshard : shard < num_shards) (h0 : 0 ≤ id) (hid : id ≤ max_id) :
    ∃ s', s.insert shard id c = some s' ∧ s'.merged = s.merged
      ∧ s'.Recording num_shards
        (Function.update records shard (records shard ++ [⟨id, c⟩])) := by
  obtain ⟨w, hw⟩ : ∃ w, s.shards[shard]? = some w :=
    ⟨_, List.getElem?_eq_getElem (hs.length.symm ▸ hshard)⟩
  obtain ⟨bm, hbm, hsize⟩ := hs.bmp shard hshard
  obtain ⟨bm', hgrow, hsize'⟩ := growBitmap_spec hsize h0 (by omega)
  obtain ⟨chunks, hf, hctx, hbytes⟩ := hs.writer shard w hw
  have hnew : ({ w with inbuf := w.inbuf ++ nodeRecordFormat.encode ⟨id, c⟩ }
      : ShardWriter lz).Holds (records shard ++ [⟨id, c⟩]) := by
    refine ⟨chunks, hf, hctx, ?_⟩
    rw [← List.append_assoc, hbytes, List.flatMap_append, List.flatMap_singleton]
  rw [insert, hw, Option.bind_eq_bind, Option.bind_some, hbm, Option.bind_eq_bind,
    Option.bind_some, hgrow]
  refine ⟨_, rfl, rfl, ?_, ?_, fun j hj => ?_⟩
  · exact (List.length_set ..).trans hs.length
  · refine holds_set hs.writer ?_ fun i hi => Function.update_of_ne hi ..
    rw [Function.update_self]
    split
    · exact ShardWriter.holds_flushInbuf hnew
    · exact hnew
  · by_cases hjs : j = shard
    · subst hjs
      exact ⟨_, Function.update_self .., by rw [OSMMMap.size_bitmapSet]; exact hsize'⟩
    · obtain ⟨bm, hbm, hsize⟩ := hs.bmp j hj
      exact ⟨bm, (Function.update_of_ne hjs ..).trans hbm, hsize⟩

/-- **An operation in range goes through.** -/
lemma recording_step (hs : s.Recording num_shards records) (hmax : max_id < 2 ^ 60)
    {op : ShardOp} (hop : op.InRange num_shards max_id) :
    ∃ s', s.step op = some s' ∧ s'.merged = s.merged
      ∧ s'.Recording num_shards fun j => records j ++ (op.recordFor j).toList := by
  cases op with
  | insert shard id c =>
      obtain ⟨hshard, h0, hid⟩ := hop
      obtain ⟨s', hinsert, hmerged, hs'⟩ := insert_spec hs hmax c hshard h0 hid
      refine ⟨s', hinsert, hmerged, ?_⟩
      have hrecords : Function.update records shard (records shard ++ [⟨id, c⟩])
          = fun j => records j ++ ((ShardOp.insert shard id c).recordFor j).toList := by
        funext j
        by_cases hj : j = shard
        · subst hj
          simp [ShardOp.recordFor]
        · simp [ShardOp.recordFor, hj, Ne.symm hj]
      exact hrecords ▸ hs'
  | flushInbuf shard =>
      have hshard : shard < s.shards.length := hs.length.symm ▸ hop
      have hget := List.getElem?_eq_getElem hshard
      refine ⟨{ s with shards := s.shards.set shard (s.shards[shard]).flushInbuf }, ?_, rfl, ?_,
        ?_, hs.bmp⟩
      · rw [step, hget]
        rfl
      · exact (List.length_set ..).trans hs.length
      · simp only [ShardOp.recordFor, Option.toList_none, List.append_nil]
        exact holds_set hs.writer (ShardWriter.holds_flushInbuf (hs.writer shard _ hget))
          fun _ _ => rfl

/-- **The node phase goes through**: every writer holds what was inserted. -/
lemma recording_run {ops : List ShardOp} (hs : s.Recording num_shards records)
    (hmax : max_id < 2 ^ 60) (hops : ∀ op ∈ ops, op.InRange num_shards max_id) :
    ∃ s', s.run ops = some s' ∧ s'.merged = s.merged
      ∧ s'.Recording num_shards fun j => records j ++ recordsOf ops j := by
  induction ops generalizing s records with
  | nil => exact ⟨s, rfl, rfl, by simpa [recordsOf] using hs⟩
  | cons op ops ih =>
      rw [List.forall_mem_cons] at hops
      obtain ⟨s₁, hstep, hmerged, hs₁⟩ := recording_step hs hmax hops.1
      obtain ⟨s', hrun, hmerged', hs'⟩ := ih hs₁ hops.2
      refine ⟨s', ?_, hmerged'.trans hmerged, ?_⟩
      · rw [run, foldlM_cons_of_step hstep]
        exact hrun
      · have hrecords : (fun j => records j ++ (op.recordFor j).toList ++ recordsOf ops j)
            = fun j => records j ++ recordsOf (op :: ops) j := by
          funext j
          rw [List.append_assoc, recordsOf, recordsOf]
          cases hj : op.recordFor j <;> simp [hj]
        exact hrecords ▸ hs'

end ShardStore

end Gpsxdb
