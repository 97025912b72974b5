import Mathlib.Tactic
import Gpsxdb.NodeStore.Refinement
import Gpsxdb.NodeStore.ShardCrash

/-!
The node phase, its merge and the merge after a kill, as a whole.

* `room_openForImport`: the store the import creates;
* `merge_spec`, `openForResume_spec`: **a merge**, and the store of the next process;
* `select_eq_lastInsert`: what a lookup answers;
* `tagged`, `tagged_lossless`: a small codec that keeps the promises of the library;
* `merge_lossless_iff`: **the merge is lossless**, and the merge after a kill exactly when
  no id has lost its last record with the kill;
* `merge_killed_loses`: a kill between two shards.
-/

namespace Gpsxdb

/-! ### A small codec -/

/-- The places of the decoder: before the header, before a tag, behind a tag. -/
inductive TagState where
  | header
  | tag
  | data
deriving DecidableEq

/-- A codec in the manner of the library: the chunks are held back until the frame ends;
every byte has a tag in front, and a zero tag is the end mark. -/
def tagged : LZ4F where
  CCtx := List UInt8
  DCtx := TagState
  compressBegin := ([], [4])
  compressUpdate ctx chunk := (ctx ++ chunk, [])
  compressEnd ctx := ctx.flatMap (fun b => [1, b]) ++ [0]
  resetDecompressionContext := .header
  decompress
    | .header, _ :: _, _ => some (.tag, 1, [], 1)
    | .tag, t :: _, _ => if t = 0 then some (.tag, 1, [], 0) else some (.data, 1, [], 1)
    | .data, b :: _, _ => some (.tag, 1, [b], 1)
    | d, [], _ => some (d, 0, [], 1)

lemma compress_tagged (chunks : List (List UInt8)) :
    tagged.compress chunks = (chunks.flatten, [4]) := by
  induction chunks using List.reverseRecOn with
  | nil => rfl
  | append_singleton chunks chunk ih =>
      rw [tagged.compress_concat, ih, List.flatten_append, List.flatten_singleton]
      rfl

lemma frame_tagged (chunks : List (List UInt8)) :
    tagged.frame chunks = 4 :: (chunks.flatten.flatMap (fun b => [1, b]) ++ [0]) := by
  rw [LZ4F.frame, compress_tagged]
  rfl

/-- The file from a tag on. -/
lemma drop_tagged (content : List UInt8) (m : ℕ) (hm : m ≤ content.length) :
    (4 :: (content.flatMap (fun b => [1, b]) ++ [0])).drop (2 * m + 1)
      = (content.drop m).flatMap (fun b => [1, b]) ++ [0] := by
  rw [List.drop_succ_cons]
  induction m generalizing content with
  | zero => rfl
  | succ m ih =>
      obtain ⟨b, content, rfl⟩ := List.exists_cons_of_length_pos (by omega : 0 < content.length)
      exact ih content (by simpa using hm)

lemma length_tagged (content : List UInt8) :
    (4 :: (content.flatMap (fun b => [1, b]) ++ [0]) : List UInt8).length
      = 2 * content.length + 2 := by
  simp [List.length_flatMap]
  omega

/-- Where the decoder is after `k` bytes of the file. -/
def TagState.At (content : List UInt8) (d : TagState) (k m : ℕ) : Prop :=
  m ≤ content.length ∧ match d with
    | .header => k = 0 ∧ m = 0
    | .tag => k = 2 * m + 1 ∨ (k = 2 * m + 2 ∧ m = content.length)
    | .data => k = 2 * m + 2 ∧ m < content.length

/-- **The small codec keeps the promises.** -/
theorem tagged_lossless : tagged.Lossless := by
  intro chunks
  refine ⟨TagState.At chunks.flatten, ?_⟩
  rw [frame_tagged]
  generalize chunks.flatten = content
  have hlen := length_tagged content
  refine ⟨List.cons_ne_nil _ _, ⟨Nat.zero_le _, rfl, rfl⟩, fun d k m n hat hn hk => ?_⟩
  rw [hlen] at hk ⊢
  obtain ⟨n, rfl⟩ := Nat.exists_eq_succ_of_ne_zero hn.ne'
  obtain ⟨hm, hd⟩ := hat
  cases d with
  | header =>
      obtain ⟨rfl, rfl⟩ := hd
      exact ⟨.tag, 1, 0, 1, rfl, by omega, by omega, by omega, by omega, by omega,
        ⟨by omega, Or.inl rfl⟩⟩
  | tag =>
      rcases hd with rfl | ⟨rfl, rfl⟩
      · rw [drop_tagged content m hm]
        cases hrest : content.drop m with
        | nil =>
            have hend : content.length ≤ m := List.drop_eq_nil_iff.mp hrest
            exact ⟨.tag, 1, 0, 0, rfl, by omega, by omega, by omega, by omega, by omega,
              ⟨by omega, Or.inr (by omega)⟩⟩
        | cons b rest =>
            have hlt : m < content.length := by
              by_contra h
              simp [List.drop_eq_nil_of_le (not_lt.mp h)] at hrest
            exact ⟨.data, 1, 0, 1, rfl, by omega, by omega, by omega, by omega, by omega,
              ⟨by omega, by omega, hlt⟩⟩
      · omega
  | data =>
      obtain ⟨rfl, hlt⟩ := hd
      have hdrop : (4 :: (content.flatMap (fun b => [1, b]) ++ [0])).drop (2 * m + 2)
          = content[m] :: ((content.drop (m + 1)).flatMap (fun b => [1, b]) ++ [0]) := by
        rw [← List.drop_drop (i := 1), drop_tagged content m hm, List.drop_eq_getElem_cons hlt]
        rfl
      rw [hdrop]
      refine ⟨.tag, 1, 1, 1, ?_, by omega, by omega, by omega, by omega, by omega,
        ⟨by omega, Or.inl (by omega)⟩⟩
      rw [List.drop_eq_getElem_cons hlt]
      rfl

namespace ShardStore

variable {lz : LZ4F} {dir : ShardDir} {s s' : ShardStore lz} {num_shards : ℕ} {max_id : ℤ}
  {records : ℕ → List NodeRecord}

/-! ### The store of the import -/

/-- The sizes the import can map leave no room for an overflow. -/
lemma size_createFile (hmax : IsInt64 max_id) {d : NodeFiles} (hd : createFile max_id = some d)
    (hdat : mmapOk d.dat.size) (hbmp : mmapOk d.bmp.size) :
    0 ≤ max_id ∧ max_id < 2 ^ 53 ∧ d.dat.size = (max_id.toNat + 1) * 16
      ∧ d.bmp.size = (max_id.toNat + 8) / 8 := by
  obtain ⟨hlo, hhi⟩ := hmax
  have hsizes : d.dat.size = dataSize max_id ∧ d.bmp.size = bitmapSize max_id := by
    rw [createFile, createBlank, createBlank] at hd
    split at hd
    · split at hd
      · obtain rfl := Option.some.inj hd
        exact ⟨MappedFile.size_blank _, MappedFile.size_blank _⟩
      · simp at hd
    · simp at hd
  obtain ⟨hdsz, hbsz⟩ := hsizes
  rw [mmapOk, Bool.and_eq_true, decide_eq_true_eq, decide_eq_true_eq] at hdat hbmp
  rw [hdsz] at hdat ⊢
  rw [hbsz] at hbmp ⊢
  have h0 : 0 ≤ max_id := by
    simp only [dataSize, bitmapSize, toSize, wrapSize, recSize] at hdat hbmp
    omega
  rw [OSMMMap.bitmapSize_eq h0 hhi] at hbmp ⊢
  have h59 : max_id < 2 ^ 60 - 1 := by omega
  have hdata : dataSize max_id = (max_id.toNat + 1) * 16 := by
    rw [dataSize, toSize_of_nonneg h0 hhi, wrapSize_of_lt (by omega : max_id.toNat + 1 < 2 ^ 64),
      recSize, wrapSize_of_lt (by omega)]
  rw [hdata] at hdat ⊢
  exact ⟨h0, by omega, rfl, rfl⟩

/-- **The store the import creates** is empty, with room for every id in range. -/
lemma room_openForImport (hmax : IsInt64 max_id)
    (h : openForImport lz dir max_id num_shards = some s) :
    0 ≤ max_id ∧ max_id < 2 ^ 53 ∧ Room max_id s.merged ∧ s.merged.bmp.size ≤ 2 ^ 60
      ∧ ∀ j : ℕ, s.merged.entry j = none := by
  rw [openForImport] at h
  simp only [Option.bind_eq_bind, Option.bind_eq_some_iff] at h
  obtain ⟨d, hd, h⟩ := h
  split at h
  · rename_i hok
    rw [Bool.and_eq_true] at hok
    obtain rfl := Option.some.inj h
    obtain ⟨h0, h53, hdat, hbmp⟩ := size_createFile hmax hd hok.1 hok.2
    obtain ⟨hsound, -, hsmall, hnone⟩ := OSMMMap.createFile_spec hmax hd
    refine ⟨h0, h53, ⟨hsound, fun i hi => ?_, fun i hi => ?_⟩, hsmall h0, hnone⟩
    · show (i + 1) * 16 ≤ d.dat.size
      omega
    · show i / 8 < d.bmp.size
      omega
  · simp at h

/-! ### A merge -/

lemma size_bmp_writeAll (m : OSMMMap) (rs : List NodeRecord) :
    (writeAll m rs).bmp.size = m.bmp.size := by
  induction rs generalizing m with
  | nil => rfl
  | cons r rs ih =>
      refine (ih (writeToMerged m r.id r.coord)).trans ?_
      rw [writeToMerged]
      split
      · rfl
      · split
        · rfl
        · exact OSMMMap.size_bitmapSet ..

lemma inRange_flatMap {S : ℕ → List NodeRecord} (h : ∀ j < num_shards, InRange max_id (S j)) :
    InRange max_id ((List.range num_shards).flatMap S) := by
  intro r hr
  obtain ⟨j, hj, hr⟩ := List.mem_flatMap.mp hr
  exact h j (List.mem_range.mp hj) r hr

/-- **A merge**: what is found of the shards goes into the store, in order. -/
theorem merge_spec {found : ℕ → Option (List NodeRecord)} (hroom : Room max_id s.merged)
    (hlen : s.shards.length = num_shards)
    (hfinds : ∀ j < num_shards, Finds lz (s.closedFile j) (found j))
    (hrange : ∀ j < num_shards, InRange max_id ((found j).getD [])) :
    let steps := (List.range num_shards).flatMap (block found)
    (∃ bound, ∀ fuel ≥ bound, s.mergeSteps fuel = some steps)
      ∧ Room max_id (s.execAll steps).merged
      ∧ (s.execAll steps).merged.bmp.size = s.merged.bmp.size
      ∧ ∀ j : ℕ, (s.execAll steps).merged.entry j
        = (lastInsert ((List.range num_shards).flatMap fun i => (found i).getD []) j).or
          (s.merged.entry j) := by
  intro steps
  have hwrites : writesOf steps = (List.range num_shards).flatMap fun i => (found i).getD [] :=
    writesOf_flatMap_block ..
  have hmerged := merged_execAll (s := s) steps
  rw [hwrites] at hmerged
  obtain ⟨hroom', hentry⟩ := entry_writeAll hroom (inRange_flatMap hrange)
  rw [hmerged]
  refine ⟨?_, hroom', size_bmp_writeAll .., hentry⟩
  simp only [mergeSteps, hlen]
  exact mergeFrom_spec List.nodup_range fun i hi => hfinds i (List.mem_range.mp hi)

/-- **The store of the next process**: the merged pair as it was, and the files. -/
lemma openForResume_spec {m : OSMMMap} (hroom : Room max_id m) {max_id' : ℤ}
    (hmax' : IsInt64 max_id') {dir : ShardDir}
    (h : openForResume lz m.toNodeFiles dir max_id' num_shards = some s') :
    Room max_id s'.merged ∧ (∀ j : ℕ, s'.merged.entry j = m.entry j)
      ∧ s'.shards.length = num_shards ∧ ∀ j, s'.closedFile j = dir.lz4 j := by
  rw [openForResume] at h
  simp only [Option.bind_eq_bind, Option.bind_eq_some_iff] at h
  obtain ⟨merged, hopen, h⟩ := h
  obtain rfl := Option.some.inj h
  obtain ⟨hsound, -, hentry⟩ := OSMMMap.openFiles_spec hroom.sound hmax' hopen
  obtain ⟨hdat, hbmp, -⟩ := OSMMMap.openFiles_eq_some hopen
  have hdsz := (OSMMMap.growFileIfNeeded_spec hdat).1
  have hbsz := (OSMMMap.growFileIfNeeded_spec hbmp).1
  refine ⟨⟨hsound, fun i hi => ?_, fun i hi => ?_⟩, hentry, List.length_replicate, fun j => ?_⟩
  · show (i + 1) * 16 ≤ merged.dat.size
    exact hdsz ▸ (hroom.dat i hi).trans (le_max_right ..)
  · show i / 8 < merged.bmp.size
    exact hbsz ▸ (hroom.bmp i hi).trans_le (le_max_right ..)
  · rw [closedFile, closeWriter_of_closed]
    intro w hw
    obtain rfl := List.eq_of_mem_replicate (List.mem_of_getElem? hw)
    rfl

/-- **What a lookup answers**: the last record, and nothing for a negative id. -/
lemma select_eq_lastInsert {m : OSMMMap} (hm : Room max_id m) (hb : m.bmp.size ≤ 2 ^ 60)
    {rs : List NodeRecord} (hr : InRange max_id rs)
    (he : ∀ j : ℕ, m.entry j = lastInsert rs j) {id : ℤ} (hid : IsInt64 id) :
    m.select id = lastInsert rs id := by
  by_cases h0 : 0 ≤ id
  · obtain ⟨i, rfl⟩ := Int.eq_ofNat_of_zero_le h0
    rw [OSMMMap.select_natCast hm.sound hid.2, he]
  · rw [OSMMMap.select_of_neg hb (not_le.mp h0) hid.1, lastInsert_eq_none.mpr]
    intro r hr' heq
    exact h0 (heq ▸ (hr r hr').1)

/-! ### What the node phase inserts -/

/-- Every record of the phase comes from an insertion in range. -/
lemma inRange_recordsOf {ops : List ShardOp} (hops : ∀ op ∈ ops, op.InRange num_shards max_id)
    (j : ℕ) : InRange max_id (recordsOf ops j) := by
  intro r hr
  obtain ⟨op, hop, hrec⟩ := List.mem_filterMap.mp hr
  cases op with
  | insert shard id c =>
      rw [ShardOp.recordFor] at hrec
      split at hrec
      · obtain rfl := Option.some.inj hrec
        exact (hops _ hop).2
      · simp at hrec
  | flushInbuf shard => simp [ShardOp.recordFor] at hrec

/-- **The node phase is over**: the writers hold the records, and the store is empty. -/
structure Filled (max_id : ℤ) (num_shards : ℕ) (records : ℕ → List NodeRecord)
    (s : ShardStore lz) : Prop where
  max_nonneg : 0 ≤ max_id
  max_lt : max_id < 2 ^ 53
  recording : s.Recording num_shards records
  room : Room max_id s.merged
  small : s.merged.bmp.size ≤ 2 ^ 60
  empty : ∀ j : ℕ, s.merged.entry j = none
  range : ∀ j, InRange max_id (records j)

lemma Filled.valid (hs : s.Filled max_id num_shards records) : Valid records := by
  intro j r hr
  obtain ⟨h0, h1⟩ := hs.range j r hr
  have hlt := hs.max_lt
  exact ⟨by omega, by omega⟩

lemma Filled.inRange (hs : s.Filled max_id num_shards records) :
    InRange max_id ((List.range num_shards).flatMap records) :=
  inRange_flatMap fun j _ => hs.range j

/-- **The node phase goes through.** -/
theorem filled_run (hmax : IsInt64 max_id) (h : openForImport lz dir max_id num_shards = some s)
    {ops : List ShardOp} (hops : ∀ op ∈ ops, op.InRange num_shards max_id) :
    ∃ t, s.run ops = some t ∧ t.Filled max_id num_shards (recordsOf ops) := by
  obtain ⟨h0, h53, hroom, hsmall, hempty⟩ := room_openForImport hmax h
  obtain ⟨t, hrun, hmerged, hrec⟩ := recording_run (recording_start h) (by omega) hops
  rw [← hmerged] at hroom hsmall hempty
  exact ⟨t, hrun, h0, h53, hrec, hroom, hsmall, hempty, inRange_recordsOf hops⟩

/-- The merge that runs to its end. -/
lemma Filled.merge (hlz : lz.Lossless) (hs : s.Filled max_id num_shards records) :
    let steps := (List.range num_shards).flatMap (fullBlock records)
    (∃ bound, ∀ fuel ≥ bound, s.mergeSteps fuel = some steps)
      ∧ ∀ id, IsInt64 id → (s.execAll steps).merged.select id
        = lastInsert ((List.range num_shards).flatMap records) id := by
  have hfinds : ∀ j < num_shards, Finds lz (s.closedFile j) (some (records j)) :=
    fun j hj => finds_closedFile hlz hs.recording hs.valid hj
  obtain ⟨hsteps, hroom, hsize, hentry⟩ :=
    merge_spec hs.room hs.recording.length hfinds fun j _ => hs.range j
  refine ⟨hsteps, fun id hid => select_eq_lastInsert hroom (hsize.trans_le hs.small) hs.inRange
    (fun j => ?_) hid⟩
  rw [hentry j, hs.empty j, Option.or_none]
  rfl

/-! ### The merge after a kill -/

/-- The store after part of the steps of a merge. -/
lemma Filled.part (hs : s.Filled max_id num_shards records) (n : ℕ) :
    let steps := ((List.range num_shards).flatMap (fullBlock records)).take n
    InRange max_id (writesOf steps) ∧ Room max_id (s.execAll steps).merged
      ∧ (s.execAll steps).merged.bmp.size ≤ 2 ^ 60
      ∧ ∀ j : ℕ, (s.execAll steps).merged.entry j = lastInsert (writesOf steps) j := by
  intro steps
  have hwritten : InRange max_id (writesOf steps) := by
    intro r hr
    obtain ⟨step, hstep, hr⟩ := List.mem_filterMap.mp hr
    have hall : r ∈ writesOf ((List.range num_shards).flatMap (fullBlock records)) :=
      List.mem_filterMap.mpr ⟨step, List.mem_of_mem_take hstep, hr⟩
    rw [writesOf_flatMap_block] at hall
    exact hs.inRange r hall
  obtain ⟨hroom, hentry⟩ := entry_writeAll hs.room hwritten
  rw [merged_execAll]
  refine ⟨hwritten, hroom, (size_bmp_writeAll ..).trans_le hs.small, fun j => ?_⟩
  rw [hentry j, hs.empty j, Option.or_none]

/-- **The merge after a kill** answers with the records that are kept. -/
lemma Filled.rerun (hlz : lz.Lossless) (hmax : IsInt64 max_id)
    (hs : s.Filled max_id num_shards records) (n : ℕ) (reached : ℕ → ℕ) :
    let t := s.execAll (((List.range num_shards).flatMap (fullBlock records)).take n)
    ∃ s' steps kept,
      openForResume lz t.merged.toNodeFiles (t.killed reached) max_id num_shards = some s'
        ∧ (∃ bound, ∀ fuel ≥ bound, s'.mergeSteps fuel = some steps)
        ∧ t.Kept reached num_shards records kept
        ∧ ∀ id, IsInt64 id → (s'.execAll steps).merged.select id
          = lastInsert (keptRecords num_shards records kept) id := by
  intro t
  obtain ⟨kept, found, hkept, hsub, hfinds, hlast⟩ :=
    interrupted hlz hs.recording hs.valid n reached
  obtain ⟨hwritten, hroom, hsmall, hentry⟩ := hs.part n
  have hlt := hs.max_lt
  obtain ⟨merged, hopen⟩ := Option.isSome_iff_exists.mp
    (OSMMMap.openFiles_isSome hroom.sound hs.max_nonneg (by omega : max_id < 2 ^ 58))
  have hresume : openForResume lz t.merged.toNodeFiles (t.killed reached) max_id num_shards = some
      { toShardDir := t.killed reached
        merged := merged
        shards := List.replicate num_shards ⟨none, lz.compressBegin.1, []⟩ } := by
    rw [openForResume, hopen]
    rfl
  obtain ⟨hroom', hentry', hlen, hfile⟩ := openForResume_spec hroom hmax hresume
  have hrange : ∀ j, InRange max_id ((found j).getD []) := fun j r hr => hs.range j r (hsub j hr)
  obtain ⟨hsteps, hroom₂, hsize₂, hentry₂⟩ := merge_spec hroom' hlen
    (fun j hj => (hfile j).symm ▸ hfinds j hj) fun j _ => hrange j
  have hsmall' : merged.bmp.size ≤ 2 ^ 60 :=
    OSMMMap.bmp_le_of_openFiles hsmall hs.max_nonneg hmax.2 hopen
  refine ⟨_, _, kept, hresume, hsteps, hkept, fun id hid => ?_⟩
  have hread : InRange max_id ((List.range num_shards).flatMap fun j => (found j).getD []) :=
    inRange_flatMap fun j _ => hrange j
  have hboth := List.forall_mem_append.mpr ⟨hwritten, hread⟩
  refine (select_eq_lastInsert hroom₂ (hsize₂.trans_le hsmall') hboth (fun j => ?_) hid).trans
    (hlast id)
  rw [hentry₂ j, hentry' j, hentry j, lastInsert_append]

/-- Lookups tell all ids apart that are in range. -/
lemma Filled.nothingLost_iff (hs : s.Filled max_id num_shards records) {kept : ℕ → ℕ} :
    (∀ id, IsInt64 id → lastInsert (keptRecords num_shards records kept) id
        = lastInsert ((List.range num_shards).flatMap records) id)
      ↔ NothingLost num_shards records kept := by
  rw [ShardStore.nothingLost_iff]
  refine ⟨fun h id => ?_, fun h id _ => h id⟩
  by_cases hid : IsInt64 id
  · exact h id hid
  · have hnone : ∀ r ∈ (List.range num_shards).flatMap records, r.id ≠ id := by
      intro r hr heq
      obtain ⟨h0, h1⟩ := hs.inRange r hr
      have hlt := hs.max_lt
      exact hid (heq ▸ ⟨by omega, by omega⟩)
    rw [lastInsert_eq_none.mpr hnone, lastInsert_eq_none]
    exact fun r hr => hnone r (mem_of_mem_keptRecords hr)

/-- **The merge is lossless**: whatever is inserted, in whatever order and with whatever
flushes, after `merge` a lookup answers the last record of its id.  A merge killed after
any number of its steps, with any part of the open streams on disk, and run again by a
new process comes to the same store exactly when no id has lost its last record. -/
theorem merge_lossless_iff (hlz : lz.Lossless) (hmax : IsInt64 max_id)
    (h₀ : openForImport lz dir max_id num_shards = some s) {ops : List ShardOp}
    (hops : ∀ op ∈ ops, op.InRange num_shards max_id) :
    ∃ t steps, s.run ops = some t ∧ (∃ bound, ∀ fuel ≥ bound, t.mergeSteps fuel = some steps)
      ∧ (∀ id, IsInt64 id → (t.execAll steps).merged.select id
          = lastInsert ((List.range num_shards).flatMap (recordsOf ops)) id)
      ∧ ∀ n reached, ∃ s' steps' kept,
        openForResume lz (t.execAll (steps.take n)).merged.toNodeFiles
            ((t.execAll (steps.take n)).killed reached) max_id num_shards = some s'
          ∧ (∃ bound, ∀ fuel ≥ bound, s'.mergeSteps fuel = some steps')
          ∧ (t.execAll (steps.take n)).Kept reached num_shards (recordsOf ops) kept
          ∧ ((∀ id, IsInt64 id → (s'.execAll steps').merged.select id
              = (t.execAll steps).merged.select id)
            ↔ NothingLost num_shards (recordsOf ops) kept) := by
  obtain ⟨t, hrun, ht⟩ := filled_run hmax h₀ hops
  obtain ⟨hsteps, hselect⟩ := ht.merge hlz
  refine ⟨t, _, hrun, hsteps, hselect, fun n reached => ?_⟩
  obtain ⟨s', steps', kept, hresume, hsteps', hkept, hselect'⟩ := ht.rerun hlz hmax n reached
  refine ⟨s', steps', kept, hresume, hsteps', hkept, ?_⟩
  rw [← ht.nothingLost_iff]
  refine forall₂_congr fun id hid => ?_
  rw [hselect id hid, hselect' id hid]

/-- Two shards, and a kill once both writers are closed: the first file is deleted, and the
second not yet read. -/
theorem merge_lossless_two_shards : ∃ s t steps s' steps', openForImport tagged .empty 10 2 = some s
    ∧ s.run [.insert 0 1 ⟨5, 6⟩, .insert 1 2 ⟨7, 8⟩] = some t
    ∧ (∃ bound, ∀ fuel ≥ bound, t.mergeSteps fuel = some steps)
    ∧ openForResume tagged (t.execAll (steps.take 5)).merged.toNodeFiles
        ((t.execAll (steps.take 5)).killed fun _ => 0) 10 2 = some s'
    ∧ (∃ bound, ∀ fuel ≥ bound, s'.mergeSteps fuel = some steps')
    ∧ ∀ id, IsInt64 id → (t.execAll steps).merged.select id
          = lastInsert [⟨1, ⟨5, 6⟩⟩, ⟨2, ⟨7, 8⟩⟩] id
        ∧ (s'.execAll steps').merged.select id = (t.execAll steps).merged.select id := by
  have hops : ∀ op ∈ [ShardOp.insert 0 1 ⟨5, 6⟩, .insert 1 2 ⟨7, 8⟩], op.InRange 2 10 := by decide
  have heval : (do
      let s ← openForImport tagged .empty 10 2
      let t ← s.run [.insert 0 1 ⟨5, 6⟩, .insert 1 2 ⟨7, 8⟩]
      let steps ← t.mergeSteps 200
      some ((t.execAll (steps.take 5)).shards.map ShardWriter.f)) = some [none, none] := by
    decide +kernel
  simp only [Option.bind_eq_bind, Option.bind_eq_some_iff] at heval
  obtain ⟨s, hs, t, ht, steps, hsteps, hclosed⟩ := heval
  obtain ⟨t', steps', hrun, ⟨bound, hbound⟩, hselect, hkill⟩ :=
    merge_lossless_iff tagged_lossless (by decide) hs hops
  obtain rfl := Option.some.inj (hrun.symm.trans ht)
  have hsame : steps = steps' := Option.some.inj
    ((mergeSteps_mono (le_max_right bound 200) hsteps).symm.trans (hbound _ (le_max_left ..)))
  subst hsame
  obtain ⟨s', again, kept, hresume, hagain, hkept, hiff⟩ := hkill 5 fun _ => 0
  -- no writer is open, and all is kept
  have hnone : ∀ j, (t'.execAll (steps.take 5)).Closed j := by
    intro j w hw
    have hmem := List.mem_map_of_mem (f := ShardWriter.f) (List.mem_of_getElem? hw)
    rw [Option.some.inj hclosed] at hmem
    simpa using hmem
  have hlost : NothingLost 2 (recordsOf [.insert 0 1 ⟨5, 6⟩, .insert 1 2 ⟨7, 8⟩]) kept := by
    refine nothingLost_iff.mpr fun id => congrArg (lastInsert · id) ?_
    refine List.flatMap_congr fun j hj => ?_
    rw [hkept.closed j (List.mem_range.mp hj) (hnone j), List.take_length]
  exact ⟨s, t', steps, s', again, hs, ht, ⟨bound, hbound⟩, hresume, hagain,
    fun id hid => ⟨hselect id hid, hiff.mpr hlost id hid⟩⟩

/-- **A kill between two shards**: the record of the first one is written, the process
is killed, and the second shard's stream has not reached the disk.  The next merge
finds an empty file. -/
theorem merge_killed_loses :
    (do let s ← openForImport tagged .empty 10 2
        let t ← s.run [.insert 0 1 ⟨5, 6⟩, .insert 1 2 ⟨7, 8⟩]
        let steps ← t.mergeSteps 200
        let cut := t.execAll (steps.take 2)
        let s' ← openForResume tagged cut.merged.toNodeFiles (cut.killed fun _ => 0) 10 2
        let again ← s'.merge 200
        some ((t.execAll steps).merged.select 2, again.merged.select 2))
      = some (some ⟨7, 8⟩, none) := by
  decide +kernel

end ShardStore

end Gpsxdb
