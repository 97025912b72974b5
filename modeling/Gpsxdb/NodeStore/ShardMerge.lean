import Mathlib.Tactic
import Gpsxdb.NodeStore.ShardReader
import Gpsxdb.NodeStore.ShardWriting

/-!
What `merge` does, step by step.

* `lastInsert`: the coordinates of the last record of an id;
* `Room`, `entry_writeAll`: the merged store after some writes holds the last of each id;
* `closedFile`, `Finds`: the file of a shard once its writer is closed, and the records
  in it;
* `mergeFrom_spec`: **the steps of a merge**, block by block;
* `block_effect`: what a block leaves of its shard, and of the others.
-/

namespace Gpsxdb

/-! ### The last record of an id -/

/-- The coordinates of the last record of an id. -/
def lastInsert (records : List NodeRecord) (id : ℤ) : Option Coord :=
  (records.reverse.find? fun r => r.id == id).map NodeRecord.coord

@[simp] lemma lastInsert_nil (id : ℤ) : lastInsert [] id = none := rfl

lemma lastInsert_append (as bs : List NodeRecord) (id : ℤ) :
    lastInsert (as ++ bs) id = (lastInsert bs id).or (lastInsert as id) := by
  rw [lastInsert, List.reverse_append, List.find?_append, Option.map_or]
  rfl

lemma lastInsert_singleton (r : NodeRecord) (id : ℤ) :
    lastInsert [r] id = if r.id = id then some r.coord else none := by
  by_cases h : r.id = id <;> simp [lastInsert, h]

lemma lastInsert_eq_none {records : List NodeRecord} {id : ℤ} :
    lastInsert records id = none ↔ ∀ r ∈ records, r.id ≠ id := by
  simp [lastInsert]

/-- Records repeated ahead of all of them change nothing. -/
lemma lastInsert_take_append (records : List NodeRecord) (q : ℕ) (id : ℤ) :
    lastInsert (records.take q ++ records) id = lastInsert records id := by
  rw [lastInsert_append]
  cases h : lastInsert records id with
  | some c => rfl
  | none =>
      rw [Option.none_or, lastInsert_eq_none]
      exact fun r hr => lastInsert_eq_none.mp h r (List.mem_of_mem_take hr)

namespace ShardStore

variable {lz : LZ4F} {s s' : ShardStore lz} {max_id : ℤ}

/-! ### The merged store -/

/-- The merged store has room for every id in range. -/
structure Room (max_id : ℤ) (m : OSMMMap) : Prop where
  sound : m.Sound
  dat : ∀ i : ℕ, (i : ℤ) ≤ max_id → (i + 1) * 16 ≤ m.dat.size
  bmp : ∀ i : ℕ, (i : ℤ) ≤ max_id → i / 8 < m.bmp.size

/-- **One record written.** -/
lemma writeToMerged_spec {m : OSMMMap} (hm : Room max_id m) {i : ℕ} (hi : (i : ℤ) ≤ max_id)
    (c : Coord) : Room max_id (writeToMerged m i c)
      ∧ ∀ j, (writeToMerged m i c).entry j = if j = i then some c else m.entry j := by
  have hlt := hm.sound.dat_lt
  have hin := hm.dat i hi
  have hend : m.pastEnd (OSMMMap.recOffset i) = false := by
    rw [OSMMMap.pastEnd_natCast m (by omega)]
    simpa using hin
  have heq : writeToMerged m i c = { m with
      dat := OSMMMap.writeCoord m.dat (OSMMMap.recOffset i) c
      bmp := bitmapSet m.bmp i } := by
    rw [writeToMerged, if_neg (by omega), hend]
    rfl
  obtain ⟨hsound, hdat, hbmp, hentry⟩ := OSMMMap.write_spec hm.sound hin c
  rw [heq]
  refine ⟨⟨hsound, fun j hj => ?_, fun j hj => ?_⟩, fun j => ?_⟩
  · exact hdat.ge.trans' (hm.dat j hj)
  · exact hbmp.ge.trans_lt' (hm.bmp j hj)
  · rw [hentry j, if_pos (hm.bmp i hi)]

/-- Records whose ids are in range. -/
def InRange (max_id : ℤ) (records : List NodeRecord) : Prop :=
  ∀ r ∈ records, 0 ≤ r.id ∧ r.id ≤ max_id

/-- The merged store after some records. -/
def writeAll (m : OSMMMap) (records : List NodeRecord) : OSMMMap :=
  records.foldl (fun m r => writeToMerged m r.id r.coord) m

/-- **Some records written**: an id has its last one, or what it had. -/
lemma entry_writeAll {m : OSMMMap} {records : List NodeRecord} (hm : Room max_id m)
    (hr : InRange max_id records) : Room max_id (writeAll m records)
      ∧ ∀ j : ℕ, (writeAll m records).entry j = (lastInsert records j).or (m.entry j) := by
  induction records generalizing m with
  | nil => exact ⟨hm, fun j => rfl⟩
  | cons r records ih =>
      obtain ⟨⟨h0, hid⟩, hrest⟩ := List.forall_mem_cons.mp hr
      obtain ⟨i, hi⟩ := Int.eq_ofNat_of_zero_le h0
      obtain ⟨hroom, hentry⟩ := writeToMerged_spec hm (hi ▸ hid) r.coord
      rw [← hi] at hroom hentry
      obtain ⟨hroom', hentry'⟩ := ih hroom hrest
      refine ⟨hroom', fun j => ?_⟩
      have hcons : lastInsert (r :: records) j
          = (lastInsert records j).or (if r.id = j then some r.coord else none) := by
        rw [← lastInsert_singleton, ← lastInsert_append, List.singleton_append]
      have hji : j = i ↔ r.id = j := by
        rw [hi, Nat.cast_inj, eq_comm]
      calc (writeAll m (r :: records)).entry j
          = (lastInsert records j).or (if j = i then some r.coord else m.entry j) := by
            rw [← hentry j]
            exact hentry' j
        _ = (lastInsert (r :: records) j).or (m.entry j) := by
            rw [hcons, Option.or_assoc]
            by_cases h : j = i
            · rw [if_pos h, if_pos (hji.mp h)]
              rfl
            · rw [if_neg h, if_neg fun h' => h (hji.mpr h')]
              rfl

/-! ### Files -/

/-- The file of a shard once its writer is closed. -/
def closedFile (s : ShardStore lz) (i : ℕ) : Option (List UInt8) := (s.closeWriter i).lz4 i

/-- A shard without an open writer. -/
def Closed (s : ShardStore lz) (i : ℕ) : Prop :=
  ∀ w : ShardWriter lz, s.shards[i]? = some w → w.f = none

lemma flushInbuf_f {w : ShardWriter lz} (h : w.f = none) : w.flushInbuf.f = none := by
  rw [ShardWriter.flushInbuf]
  split
  · exact h
  · simp [h]

lemma closeWriter_of_closed {i : ℕ} (h : s.Closed i) : s.closeWriter i = s := by
  rw [closeWriter]
  cases hw : s.shards[i]? with
  | none => rfl
  | some w => simp [flushInbuf_f (h w hw)]

/-- `closeWriter` leaves the other shards alone, and the merged store. -/
lemma closeWriter_other (s : ShardStore lz) {i j : ℕ} (h : j ≠ i) :
    (s.closeWriter i).shards[j]? = s.shards[j]? ∧ (s.closeWriter i).lz4 j = s.lz4 j := by
  rw [closeWriter]
  split
  · exact ⟨rfl, rfl⟩
  · split
    · exact ⟨rfl, rfl⟩
    · exact ⟨List.getElem?_set_ne (Ne.symm h), Function.update_of_ne h ..⟩

lemma closeWriter_merged (s : ShardStore lz) (i : ℕ) : (s.closeWriter i).merged = s.merged := by
  rw [closeWriter]
  split
  · rfl
  · split <;> rfl

/-- It leaves the shard closed. -/
lemma closed_closeWriter (s : ShardStore lz) (i : ℕ) : (s.closeWriter i).Closed i := by
  intro w hw
  rw [closeWriter] at hw
  split at hw
  · simp_all
  · split at hw
    · rename_i v hv _ hf
      obtain rfl := Option.some.inj (hv.symm.trans hw)
      by_contra hne
      obtain ⟨bytes, hbytes⟩ := Option.ne_none_iff_exists'.mp hne
      obtain ⟨more, hmore⟩ := ShardWriter.flushInbuf_stream hbytes
      simp [hf] at hmore
    · rw [List.getElem?_set_self'] at hw
      obtain ⟨-, -, rfl⟩ := Option.map_eq_some_iff.mp hw
      rfl

/-- The file of a shard depends on that shard only. -/
lemma closedFile_congr {i : ℕ} (hshards : s.shards[i]? = s'.shards[i]?)
    (hlz4 : s.lz4 i = s'.lz4 i) : s.closedFile i = s'.closedFile i := by
  rw [closedFile, closedFile, closeWriter, closeWriter, ← hshards]
  cases s.shards[i]? with
  | none => exact hlz4
  | some w =>
      cases hf : w.flushInbuf.f with
      | none => simpa only [hf] using hlz4
      | some bytes => simp [hf]

/-! ### Blocks -/

/-- What a step is about. -/
def MergeStep.index : MergeStep → Option ℕ
  | .closeWriter i => some i
  | .write _ => none
  | .unlink i => some i
  | .unlinkBmp i => some i

/-- The record a step writes. -/
def MergeStep.record : MergeStep → Option NodeRecord
  | .write r => some r
  | _ => none

/-- The records some steps write. -/
def writesOf (steps : List MergeStep) : List NodeRecord := steps.filterMap MergeStep.record

/-- A step about another shard leaves this one alone. -/
lemma exec_other {step : MergeStep} {j : ℕ} (h : step.index ≠ some j) :
    (s.exec step).shards[j]? = s.shards[j]? ∧ (s.exec step).lz4 j = s.lz4 j := by
  cases step with
  | closeWriter i => exact s.closeWriter_other fun hij => h (congrArg some hij.symm)
  | write r => exact ⟨rfl, rfl⟩
  | unlink i => exact ⟨rfl, Function.update_of_ne (fun hij => h (congrArg some hij.symm)) ..⟩
  | unlinkBmp i => exact ⟨rfl, rfl⟩

lemma execAll_other (steps : List MergeStep) {j : ℕ} (h : ∀ step ∈ steps, step.index ≠ some j) :
    (s.execAll steps).shards[j]? = s.shards[j]? ∧ (s.execAll steps).lz4 j = s.lz4 j := by
  induction steps generalizing s with
  | nil => exact ⟨rfl, rfl⟩
  | cons step steps ih =>
      rw [List.forall_mem_cons] at h
      obtain ⟨h1, h2⟩ := exec_other (s := s) h.1
      obtain ⟨h3, h4⟩ := ih (s := s.exec step) h.2
      exact ⟨h3.trans h1, h4.trans h2⟩

lemma execAll_append (steps steps' : List MergeStep) :
    s.execAll (steps ++ steps') = (s.execAll steps).execAll steps' := List.foldl_append ..

/-- The merged store after some steps is that after their writes. -/
lemma merged_execAll (steps : List MergeStep) :
    (s.execAll steps).merged = writeAll s.merged (writesOf steps) := by
  induction steps generalizing s with
  | nil => rfl
  | cons step steps ih =>
      refine ih.trans ?_
      cases step with
      | closeWriter i => exact congrArg (writeAll · (writesOf steps)) (s.closeWriter_merged i)
      | write r => rfl
      | unlink i => rfl
      | unlinkBmp i => rfl

/-- What is done to a shard whose file has the given records. -/
def foundSteps (i : ℕ) : Option (List NodeRecord) → List MergeStep
  | none => []
  | some records => records.map .write ++ [.unlink i, .unlinkBmp i]

/-- With enough fuel the given records are found in a file. -/
def Finds (lz : LZ4F) (file : Option (List UInt8)) (found : Option (List NodeRecord)) : Prop :=
  ∃ bound, ∀ fuel ≥ bound, ∀ i, shardSteps lz fuel i file = some (foundSteps i found)

lemma finds_none : Finds lz none none := ⟨0, fun _ _ _ => rfl⟩

lemma finds_some {file : List UInt8} {records : List NodeRecord}
    (h : ∃ bound, ∀ fuel ≥ bound, readShard lz fuel file = some records) :
    Finds lz (some file) (some records) := by
  obtain ⟨bound, h⟩ := h
  refine ⟨bound, fun fuel hfuel i => ?_⟩
  rw [shardSteps, h fuel hfuel]
  rfl

/-- The steps about one shard. -/
def block (found : ℕ → Option (List NodeRecord)) (i : ℕ) : List MergeStep :=
  .closeWriter i :: foundSteps i (found i)

lemma index_of_mem_block {found : ℕ → Option (List NodeRecord)} {i j : ℕ} (h : j ≠ i)
    {step : MergeStep} (hstep : step ∈ block found i) : step.index ≠ some j := by
  rw [block, List.mem_cons] at hstep
  rcases hstep with rfl | hstep
  · exact fun heq => h (Option.some.inj heq).symm
  · cases hf : found i with
    | none => simp [hf, foundSteps] at hstep
    | some records =>
        rw [hf, foundSteps, List.mem_append, List.mem_map] at hstep
        rcases hstep with ⟨r, -, rfl⟩ | hstep
        · simp [MergeStep.index]
        · simp only [List.mem_cons, List.not_mem_nil, or_false] at hstep
          rcases hstep with rfl | rfl <;> exact fun heq => h (Option.some.inj heq).symm

lemma writesOf_block (found : ℕ → Option (List NodeRecord)) (i : ℕ) :
    writesOf (block found i) = (found i).getD [] := by
  cases hf : found i with
  | none => simp [block, foundSteps, writesOf, MergeStep.record, hf]
  | some records =>
      have hmap : (records.map MergeStep.write).filterMap MergeStep.record = records := by
        rw [List.filterMap_map]
        exact List.filterMap_some
      rw [block, hf, foundSteps, writesOf, List.filterMap_cons_none rfl, List.filterMap_append,
        hmap]
      simp [MergeStep.record]

lemma writesOf_append (steps steps' : List MergeStep) :
    writesOf (steps ++ steps') = writesOf steps ++ writesOf steps' := List.filterMap_append ..

lemma writesOf_flatMap_block (found : ℕ → Option (List NodeRecord)) (is : List ℕ) :
    writesOf (is.flatMap (block found)) = is.flatMap fun i => (found i).getD [] := by
  induction is with
  | nil => rfl
  | cons i is ih =>
      rw [List.flatMap_cons, List.flatMap_cons, writesOf_append, writesOf_block, ih]

/-- **The steps of a merge.** -/
theorem mergeFrom_spec {found : ℕ → Option (List NodeRecord)} {is : List ℕ} (hnd : is.Nodup)
    (h : ∀ i ∈ is, Finds lz (s.closedFile i) (found i)) :
    ∃ bound, ∀ fuel ≥ bound, s.mergeFrom fuel is = some (is.flatMap (block found)) := by
  induction is generalizing s with
  | nil => exact ⟨0, fun _ _ => rfl⟩
  | cons i is ih =>
      rw [List.nodup_cons] at hnd
      obtain ⟨⟨bound₁, h₁⟩, hrest⟩ := List.forall_mem_cons.mp h
      have hother : ∀ j ∈ is, (s.execAll (block found i)).closedFile j = s.closedFile j := by
        intro j hj
        have hji : j ≠ i := fun hij => hnd.1 (hij ▸ hj)
        obtain ⟨hshards, hlz4⟩ := execAll_other (s := s) (block found i)
          fun step hstep => index_of_mem_block hji hstep
        exact closedFile_congr hshards hlz4
      obtain ⟨bound₂, h₂⟩ := ih (s := s.execAll (block found i)) hnd.2 fun j hj =>
        hother j hj ▸ hrest j hj
      refine ⟨max bound₁ bound₂, fun fuel hfuel => ?_⟩
      have hsteps := h₁ fuel ((le_max_left ..).trans hfuel) i
      have hmore : mergeFrom fuel is ((s.closeWriter i).execAll (foundSteps i (found i)))
          = some (is.flatMap (block found)) := h₂ fuel ((le_max_right ..).trans hfuel)
      rw [closedFile] at hsteps
      simp [mergeFrom, exec, hsteps, hmore, block]

/-! ### More fuel -/

/-- **A decoder that comes to an end** does so with any more fuel. -/
lemma decompressAll_mono {fuel fuel' : ℕ} (hle : fuel ≤ fuel') {dctx : lz.DCtx}
    {src carried : List UInt8} {r : List NodeRecord × lz.DCtx × List UInt8}
    (h : decompressAll lz fuel dctx src carried = some r) :
    decompressAll lz fuel' dctx src carried = some r := by
  induction fuel generalizing fuel' dctx src carried r with
  | zero =>
      cases src with
      | nil =>
          cases fuel' <;> exact h
      | cons b src => cases h
  | succ fuel ih =>
      obtain ⟨fuel', rfl⟩ : ∃ n, fuel' = n + 1 := ⟨fuel' - 1, by omega⟩
      cases src with
      | nil => exact h
      | cons b src =>
          simp only [decompressAll, Option.bind_eq_bind, Option.bind_eq_some_iff] at h ⊢
          obtain ⟨⟨d, c, out, ret⟩, hd, h⟩ := h
          refine ⟨⟨d, c, out, ret⟩, hd, ?_⟩
          dsimp only at h ⊢
          split at h
          · rw [if_pos ‹_›]
            exact h
          · rw [if_neg ‹_›]
            obtain ⟨more, hmore, h⟩ := Option.bind_eq_some_iff.mp h
            exact Option.bind_eq_some_iff.mpr ⟨more, ih (by omega) hmore, h⟩

lemma readBuffers_mono {fuel fuel' : ℕ} (hle : fuel ≤ fuel') {reads : ℕ} {dctx : lz.DCtx}
    {file carried : List UInt8} {r : List NodeRecord}
    (h : readBuffers lz fuel reads dctx file carried = some r) :
    readBuffers lz fuel' reads dctx file carried = some r := by
  induction reads generalizing dctx file carried r with
  | zero =>
      cases file with
      | nil => exact h
      | cons b file => cases h
  | succ reads ih =>
      cases file with
      | nil => exact h
      | cons b file =>
          simp only [readBuffers, Option.bind_eq_bind, Option.bind_eq_some_iff] at h ⊢
          obtain ⟨buffer, hbuffer, more, hmore, h⟩ := h
          exact ⟨buffer, decompressAll_mono hle hbuffer, more, ih hmore, h⟩

lemma mergeFrom_mono {fuel fuel' : ℕ} (hle : fuel ≤ fuel') {is : List ℕ} {s : ShardStore lz}
    {steps : List MergeStep} (h : mergeFrom fuel is s = some steps) :
    mergeFrom fuel' is s = some steps := by
  have hshard : ∀ {i : ℕ} {file : Option (List UInt8)} {steps : List MergeStep},
      shardSteps lz fuel i file = some steps → shardSteps lz fuel' i file = some steps := by
    intro i file steps h
    cases file with
    | none => exact h
    | some file =>
        obtain ⟨records, hread, rfl⟩ := Option.map_eq_some_iff.mp h
        exact Option.map_eq_some_iff.mpr ⟨records, readBuffers_mono hle hread, rfl⟩
  induction is generalizing s steps with
  | nil => exact h
  | cons i is ih =>
      simp only [mergeFrom, Option.bind_eq_bind, Option.bind_eq_some_iff] at h ⊢
      obtain ⟨found, hfound, rest, hrest, h⟩ := h
      exact ⟨found, hshard hfound, rest, ih hrest, h⟩

/-- **A merge that comes to an end** makes the same steps with any more fuel. -/
lemma mergeSteps_mono {fuel fuel' : ℕ} (hle : fuel ≤ fuel') {s : ShardStore lz}
    {steps : List MergeStep} (h : s.mergeSteps fuel = some steps) :
    s.mergeSteps fuel' = some steps := mergeFrom_mono hle h

end ShardStore

end Gpsxdb
