import Mathlib.Tactic
import Gpsxdb.NodeStore.ShardLossless

/-!
A node phase that ends without its merge, and the merge of a later process with node
threads of its own.

* `closeAll`: the destructor; `closeAll_spec`: every shard file is closed, and no more;
* `lz4_run`: the files an earlier import left for further shards are still there;
* `keptOf`: what a process with fewer threads reads;
* `placedAt`, `lastPlaced`, `Holding`: **what records of another import do** to a node that
  is merged;
* `Harmless`: no file of an earlier import that is read does any;
* `resume_merge_iff`: **the later merge** comes to its end and returns every node exactly when
  no node has its last record in a shard it does not read, and what it reads besides is
  harmless;
* `resume_merge_loses`: the run of the README, with the default of one thread, and a run
  with more threads than shards.
-/

namespace Gpsxdb

namespace ShardStore

variable {lz : LZ4F} {dir : ShardDir} {s t s' : ShardStore lz} {num_shards num_shards' : ℕ}
  {max_id max_id' : ℤ} {records : ℕ → List NodeRecord}

/-! ### The destructor -/

/-- `~OSMMMap`: every writer is closed. -/
def closeAll (s : ShardStore lz) : ShardStore lz :=
  (List.range s.shards.length).foldl closeWriter s

lemma closeWriters_spec (s : ShardStore lz) (n : ℕ) :
    let u := (List.range n).foldl closeWriter s
    u.merged = s.merged ∧ (∀ j < n, u.lz4 j = s.closedFile j)
      ∧ ∀ j ≥ n, u.shards[j]? = s.shards[j]? ∧ u.lz4 j = s.lz4 j := by
  induction n with
  | zero => exact ⟨rfl, fun j hj => absurd hj (Nat.not_lt_zero j), fun j _ => ⟨rfl, rfl⟩⟩
  | succ n ih =>
      rw [List.range_succ, List.foldl_append]
      set u := (List.range n).foldl closeWriter s
      obtain ⟨hmerged, hclosed, hopen⟩ := ih
      refine ⟨(u.closeWriter_merged n).trans hmerged, fun j hj => ?_, fun j hj => ?_⟩
      · by_cases hjn : j = n
        · subst hjn
          obtain ⟨hshards, hlz4⟩ := hopen j le_rfl
          exact closedFile_congr hshards hlz4
        · exact (u.closeWriter_other hjn).2.trans (hclosed j (by omega))
      · obtain ⟨hshards, hlz4⟩ := u.closeWriter_other (by omega : j ≠ n)
        obtain ⟨hshards', hlz4'⟩ := hopen j (by omega)
        exact ⟨hshards.trans hshards', hlz4.trans hlz4'⟩

/-- **The destructor** closes every shard file, and leaves the rest. -/
lemma closeAll_spec (s : ShardStore lz) :
    s.closeAll.merged = s.merged ∧ (∀ j < s.shards.length, s.closeAll.lz4 j = s.closedFile j)
      ∧ ∀ j ≥ s.shards.length, s.closeAll.lz4 j = s.lz4 j := by
  obtain ⟨hmerged, hclosed, hopen⟩ := s.closeWriters_spec s.shards.length
  exact ⟨hmerged, hclosed, fun j hj => (hopen j hj).2⟩

/-! ### Files of other shards -/

lemma lz4_step {op : ShardOp} (h : s.step op = some s') : s'.lz4 = s.lz4 := by
  cases op with
  | insert shard id c =>
      simp only [step, insert, Option.bind_eq_bind, Option.bind_eq_some_iff] at h
      obtain ⟨w, -, bm, -, bm', -, h⟩ := h
      obtain rfl := Option.some.inj h
      rfl
  | flushInbuf shard =>
      obtain ⟨w, -, rfl⟩ := Option.map_eq_some_iff.mp h
      rfl

/-- The node phase leaves the files of further shards as it finds them. -/
lemma lz4_run (h : openForImport lz dir max_id num_shards = some s) {ops : List ShardOp}
    (hrun : s.run ops = some t) {j : ℕ} (hj : num_shards ≤ j) : t.lz4 j = dir.lz4 j := by
  have hkeep : t.lz4 = s.lz4 := foldlM_invariant (I := fun u : ShardStore lz => u.lz4 = s.lz4)
    (fun u op u' hu hstep => (lz4_step hstep).trans hu) rfl hrun
  rw [hkeep]
  rw [openForImport] at h
  simp only [Option.bind_eq_bind, Option.bind_eq_some_iff] at h
  obtain ⟨d, -, h⟩ := h
  split at h
  · obtain rfl := Option.some.inj h
    exact if_neg (not_lt.mpr hj)
  · simp at h

/-! ### Records of another import -/

/-- A record is written at the place of an id. -/
def placedAt (id : ℤ) (r : NodeRecord) : Bool :=
  0 ≤ r.id && OSMMMap.recOffset r.id == OSMMMap.recOffset id

/-- What some records leave at the place of an id. -/
def lastPlaced (records : List NodeRecord) (id : ℤ) : Option Coord :=
  (records.reverse.find? (placedAt id)).map NodeRecord.coord

lemma lastPlaced_cons (r : NodeRecord) (records : List NodeRecord) (id : ℤ) :
    lastPlaced (r :: records) id
      = (lastPlaced records id).or (if placedAt id r then some r.coord else none) := by
  rw [lastPlaced, List.reverse_cons, List.find?_append, Option.map_or]
  by_cases h : placedAt id r <;> simp [lastPlaced, h]

/-- The store has an id, inside both files. -/
structure Holding (j : ℕ) (c : Coord) (m : OSMMMap) : Prop where
  dat_lt : m.dat.size < 2 ^ 63
  inside : (j + 1) * 16 ≤ m.dat.size
  populated : m.populated j
  coord : m.coordAt j = c

/-- No write clears a bit. -/
lemma populated_bitmapSet_of_populated {m : OSMMMap} {j : ℕ} (h : m.populated j)
    (dat : MappedFile Double) (id : ℤ) :
    (⟨dat, bitmapSet m.bmp id⟩ : NodeFiles).populated j := by
  rw [bitmapSet]
  split
  · exact h
  · rename_i hlt
    rw [OSMMMap.populated_store dat m.bmp (v := true) (not_le.mp hlt)]
    · split
      · rfl
      · exact h
    · rw [bitOf_setBit _ (Nat.mod_lt _ (by norm_num)) (Nat.mod_lt _ (by norm_num))]
      simp
    · intro k hk hne
      rw [bitOf_setBit _ (Nat.mod_lt _ (by norm_num)) hk]
      simp [Ne.symm hne]

/-- **A record of another import** changes what is at its own place. -/
lemma holding_writeToMerged {m : OSMMMap} {j : ℕ} {c : Coord} (h : Holding j c m)
    (r : NodeRecord) :
    Holding j (if placedAt j r then r.coord else c) (writeToMerged m r.id r.coord) := by
  have hlt := h.dat_lt
  have hin := h.inside
  have hj : OSMMMap.recOffset j = 16 * j := OSMMMap.recOffset_natCast (by omega)
  by_cases hneg : r.id < 0
  · -- a negative id is dropped
    have hplaced : placedAt j r = false := by simp [placedAt, hneg]
    rw [hplaced, writeToMerged, if_pos hneg]
    exact h
  · rw [writeToMerged, if_neg hneg]
    by_cases hend : m.pastEnd (OSMMMap.recOffset r.id)
    · -- so is one past the end, and this is not the place
      have hplaced : placedAt j r = false := by
        refine Bool.eq_false_iff.mpr fun hp => ?_
        rw [placedAt, Bool.and_eq_true, beq_iff_eq] at hp
        rw [hp.2, OSMMMap.pastEnd_natCast m (by omega)] at hend
        simp only [decide_eq_true_eq] at hend
        omega
      rw [hplaced, if_pos hend]
      exact h
    · rw [if_neg hend]
      obtain ⟨k, hk⟩ : ∃ k, OSMMMap.recOffset r.id = 16 * k := by
        refine ⟨toSize r.id % 2 ^ 60, ?_⟩
        rw [OSMMMap.recOffset, wrapSize, recSize]
        omega
      have hplaced : placedAt j r = decide (j = k) := by
        rw [placedAt, hj, hk]
        simp only [not_lt.mp hneg, decide_true, Bool.true_and]
        rw [Bool.eq_iff_iff, beq_iff_eq, decide_eq_true_eq]
        omega
      refine ⟨hlt, hin, populated_bitmapSet_of_populated h.populated .., ?_⟩
      rw [hk]
      refine (OSMMMap.coordAt_writeCoord m.toNodeFiles (bitmapSet m.bmp r.id) k j r.coord).trans ?_
      rw [hplaced, h.coord]
      simp only [decide_eq_true_eq]

lemma holding_writeAll {m : OSMMMap} {j : ℕ} {c : Coord} (h : Holding j c m)
    (records : List NodeRecord) :
    Holding j ((lastPlaced records j).getD c) (writeAll m records) := by
  induction records generalizing m c with
  | nil => exact h
  | cons r records ih =>
      have hcons : (lastPlaced (r :: records) j).getD c
          = (lastPlaced records j).getD (if placedAt j r then r.coord else c) := by
        rw [lastPlaced_cons]
        cases lastPlaced records j with
        | some c' => rfl
        | none =>
            rw [Option.none_or, Option.getD_none]
            split <;> rfl
      rw [hcons]
      exact ih (holding_writeToMerged h r)

/-- **What records of another import leave of an id**: what they place there, or the
coordinates there were. -/
lemma select_writeAll_of_entry {m : OSMMMap} (hm : Room max_id m) {j : ℕ} {c : Coord}
    (h : m.entry j = some c) (records : List NodeRecord) :
    (writeAll m records).select j = some ((lastPlaced records j).getD c) := by
  obtain ⟨hpop, hcoord⟩ := NodeFiles.entry_eq_some_iff.mp h
  have hholding := holding_writeAll ⟨hm.sound.dat_lt, hm.sound.inside j hpop, hpop, hcoord⟩ records
  rw [OSMMMap.select_of_populated hholding.dat_lt hholding.populated hholding.inside,
    hholding.coord]

/-! ### The later merge -/

/-- What a process with `num_shards'` threads reads of the records of each shard. -/
def keptOf (num_shards' : ℕ) (records : ℕ → List NodeRecord) (j : ℕ) : ℕ :=
  if j < num_shards' then (records j).length else 0

/-- The records of the shards beyond those of the node phase. -/
def beyond (num_shards num_shards' : ℕ) (stale : ℕ → Option (List NodeRecord)) :
    List NodeRecord :=
  (List.range' num_shards (num_shards' - num_shards)).flatMap fun j => (stale j).getD []

lemma beyond_eq_nil (h : num_shards' ≤ num_shards) (stale : ℕ → Option (List NodeRecord)) :
    beyond num_shards num_shards' stale = [] := by
  rw [beyond, Nat.sub_eq_zero_of_le h]
  rfl

/-- **The files of an earlier import are harmless**: those that a merge over
`num_shards'` shards reads besides its own can be read, and none of their records leaves
other coordinates at the place of a node. -/
def Harmless (lz : LZ4F) (dir : ShardDir) (num_shards num_shards' : ℕ)
    (inserted : List NodeRecord) : Prop :=
  ∃ stale : ℕ → Option (List NodeRecord),
    (∀ j, num_shards ≤ j → j < num_shards' → Finds lz (dir.lz4 j) (stale j))
    ∧ ∀ id c c', lastInsert inserted id = some c →
        lastPlaced (beyond num_shards num_shards' stale) id = some c' → c' = c

/-- The shards of the node phase, and those beyond. -/
lemma flatMap_range_beyond {α : Type} (S R : ℕ → List α) (m n : ℕ) :
    ((List.range n).flatMap fun j => if j < m then S j else R j)
      = (List.range (min m n)).flatMap S ++ (List.range' m (n - m)).flatMap R := by
  induction n with
  | zero => simp
  | succ n ih =>
      rw [List.range_succ, List.flatMap_append, List.flatMap_singleton, ih]
      by_cases h : n < m
      · have hnone : n + 1 - m = 0 ∧ n - m = 0 := by omega
        rw [if_pos h, min_eq_right (by omega), min_eq_right (by omega), hnone.1, hnone.2,
          List.range_succ, List.flatMap_append, List.flatMap_singleton]
        simp
      · have hlast : m + (n - m) = n := by omega
        rw [if_neg h, min_eq_left (by omega), min_eq_left (by omega),
          show n + 1 - m = n - m + 1 by omega, List.range'_concat, List.flatMap_append,
          List.append_assoc, Nat.one_mul, hlast, List.flatMap_singleton]

lemma keptRecords_keptOf : keptRecords num_shards records (keptOf num_shards' records)
    = (List.range (min num_shards num_shards')).flatMap records := by
  have hnil : ((List.range' num_shards' (num_shards - num_shards')).flatMap
      fun _ => ([] : List NodeRecord)) = [] := List.flatMap_eq_nil_iff.mpr fun _ _ => rfl
  rw [← List.append_nil ((List.range _).flatMap _), ← hnil, min_comm, ← flatMap_range_beyond,
    keptRecords]
  refine List.flatMap_congr fun j _ => ?_
  rw [keptOf]
  split_ifs
  · exact List.take_length
  · rfl

/-- A merge that comes to its end has read every shard. -/
lemma finds_of_mergeFrom {is : List ℕ} (hnd : is.Nodup) {fuel : ℕ} {steps : List MergeStep}
    (h : s.mergeFrom fuel is = some steps) :
    ∀ i ∈ is, ∃ found, Finds lz (s.closedFile i) found := by
  induction is generalizing s steps with
  | nil => simp
  | cons i is ih =>
      rw [List.nodup_cons] at hnd
      simp only [mergeFrom, Option.bind_eq_bind, Option.bind_eq_some_iff] at h
      obtain ⟨read, hread, rest, hrest, -⟩ := h
      have hfirst : ∃ found, Finds lz (s.closedFile i) found
          ∧ (s.exec (.closeWriter i)).execAll read = s.execAll (block (fun _ => found) i) := by
        rw [closedFile]
        rw [exec] at hread ⊢
        cases hfile : (s.closeWriter i).lz4 i with
        | none =>
            rw [hfile, shardSteps] at hread
            obtain rfl := Option.some.inj hread
            exact ⟨none, finds_none, rfl⟩
        | some file =>
            rw [hfile, shardSteps] at hread
            obtain ⟨records, hrecords, rfl⟩ := Option.map_eq_some_iff.mp hread
            exact ⟨some records,
              finds_some ⟨fuel, fun fuel' hle => readBuffers_mono hle hrecords⟩, rfl⟩
      obtain ⟨found, hfound, hexec⟩ := hfirst
      rw [hexec] at hrest
      intro j hj
      by_cases hji : j = i
      · exact hji ▸ ⟨found, hfound⟩
      · obtain ⟨found', hfound'⟩ := ih hnd.2 hrest j ((List.mem_cons.mp hj).resolve_left hji)
        obtain ⟨hshards, hlz4⟩ := execAll_other (s := s) (block (fun _ => found) i)
          fun step hstep => index_of_mem_block hji hstep
        exact ⟨found', closedFile_congr hshards hlz4 ▸ hfound'⟩

/-- **A merge by another process** over what it finds: a node has what the shards beyond
leave at its place, or its last record of those that are read. -/
lemma Filled.merge_closed (hlz : lz.Lossless) (ht : t.Filled max_id num_shards records)
    (hdir : ∀ j ≥ num_shards, t.lz4 j = dir.lz4 j) (hmax' : IsInt64 max_id')
    (hresume : openForResume lz t.closeAll.merged.toNodeFiles t.closeAll.toShardDir max_id'
      num_shards' = some s') :
    (∀ j ≥ num_shards, s'.closedFile j = dir.lz4 j) ∧ s'.shards.length = num_shards'
      ∧ ∀ stale : ℕ → Option (List NodeRecord),
        (∀ j, num_shards ≤ j → j < num_shards' → Finds lz (dir.lz4 j) (stale j)) →
        ∃ steps, (∃ bound, ∀ fuel ≥ bound, s'.mergeSteps fuel = some steps)
          ∧ ∀ id c, lastInsert ((List.range num_shards).flatMap records) id = some c →
            (s'.execAll steps).merged.select id
              = (lastPlaced (beyond num_shards num_shards' stale) id).or
                (lastInsert (keptRecords num_shards records (keptOf num_shards' records)) id) := by
  obtain ⟨hmerged, hclosed, hopen⟩ := t.closeAll_spec
  rw [ht.recording.length] at hclosed hopen
  rw [hmerged] at hresume
  obtain ⟨hroom, hentry, hlen, hfile⟩ := openForResume_spec ht.room hmax' hresume
  have hbeyond : ∀ j ≥ num_shards, s'.closedFile j = dir.lz4 j := fun j hj =>
    (hfile j).trans ((hopen j hj).trans (hdir j hj))
  refine ⟨hbeyond, hlen, fun stale hstale => ?_⟩
  let found : ℕ → Option (List NodeRecord) :=
    fun j => if j < num_shards then some (records j) else stale j
  have hfinds : ∀ j < num_shards', Finds lz (s'.closedFile j) (found j) := by
    intro j hj
    by_cases hown : j < num_shards
    · rw [show found j = some (records j) from if_pos hown, hfile j, hclosed j hown]
      exact finds_closedFile hlz ht.recording ht.valid hown
    · rw [show found j = stale j from if_neg hown, hbeyond j (not_lt.mp hown)]
      exact hstale j (not_lt.mp hown) hj
  have hwrites : writesOf ((List.range num_shards').flatMap (block found))
      = keptRecords num_shards records (keptOf num_shards' records)
        ++ beyond num_shards num_shards' stale := by
    rw [writesOf_flatMap_block, keptRecords_keptOf, beyond, ← flatMap_range_beyond]
    exact List.flatMap_congr fun j _ => apply_ite (Option.getD · []) (j < num_shards) ..
  refine ⟨(List.range num_shards').flatMap (block found), ?_, fun id c hall => ?_⟩
  · simp only [mergeSteps, hlen]
    exact mergeFrom_spec List.nodup_range fun i hi => hfinds i (List.mem_range.mp hi)
  obtain ⟨pre, r, post, hsplit, rfl, -, -⟩ := lastInsert_eq_some hall
  obtain ⟨h0, h1⟩ := ht.inRange r (hsplit ▸ List.mem_append_cons_self)
  obtain ⟨i, hi⟩ := Int.eq_ofNat_of_zero_le h0
  have hlt := ht.max_lt
  have hkept : InRange max_id (keptRecords num_shards records (keptOf num_shards' records)) :=
    fun q hq => ht.inRange q (mem_of_mem_keptRecords hq)
  obtain ⟨hroom', hentry'⟩ := entry_writeAll hroom hkept
  have hown := hentry' i
  rw [hentry i, ht.empty i, Option.or_none] at hown
  rw [merged_execAll, hwrites, writeAll, List.foldl_append, ← writeAll, ← writeAll, hi]
  by_cases hle : num_shards ≤ num_shards'
  · -- all its own shards are merged before those beyond
    rw [keptRecords_keptOf, min_eq_left hle] at hown hroom' ⊢
    rw [hi] at hall
    rw [hall] at hown ⊢
    rw [select_writeAll_of_entry hroom' hown]
    cases lastPlaced (beyond num_shards num_shards' stale) i <;> rfl
  · rw [beyond_eq_nil (le_of_not_ge hle)]
    exact (OSMMMap.select_natCast hroom'.sound (by omega)).trans hown

/-- A merge that comes to its end has read the shards beyond. -/
lemma exists_stale_of_merge (hlen : s'.shards.length = num_shards')
    (hbeyond : ∀ j ≥ num_shards, s'.closedFile j = dir.lz4 j) {fuel : ℕ} {u : ShardStore lz}
    (h : s'.merge fuel = some u) : ∃ stale : ℕ → Option (List NodeRecord),
      ∀ j, num_shards ≤ j → j < num_shards' → Finds lz (dir.lz4 j) (stale j) := by
  obtain ⟨read, hread, -⟩ := Option.map_eq_some_iff.mp h
  have hfinds : ∀ j, ∃ found, num_shards ≤ j → j < num_shards' →
      Finds lz (dir.lz4 j) found := by
    intro j
    by_cases hj : num_shards ≤ j ∧ j < num_shards'
    · obtain ⟨found, hfound⟩ := finds_of_mergeFrom List.nodup_range hread j
        (List.mem_range.mpr (hlen.symm ▸ hj.2))
      exact ⟨found, fun _ _ => hbeyond j hj.1 ▸ hfound⟩
    · exact ⟨none, fun h h' => absurd ⟨h, h'⟩ hj⟩
  choose stale hstale using hfinds
  exact ⟨stale, hstale⟩

/-- Nothing is lost if no id has lost its last record. -/
lemma nothingLost_of_last {kept : ℕ → ℕ}
    (h : ∀ id c, lastInsert ((List.range num_shards).flatMap records) id = some c →
      lastInsert (keptRecords num_shards records kept) id = some c) :
    NothingLost num_shards records kept := by
  intro j hj pre r post hsplit _ hpost hlater
  have hlast : lastInsert (records j) r.id = some r.coord := by
    rw [hsplit]
    exact lastInsert_of_split hpost
  have hinsert := lastInsert_flatMap hj hlater (by rw [hlast]; rfl)
  exact h r.id r.coord (hinsert.trans hlast)

/-- **The merge of a later run.**  Whatever shard files an earlier import has left, and
whatever `-n` and `-t` the run with `-R merge` has: it comes to its end and returns every
node of a node phase whose shard files are all closed with its coordinates, exactly when no
node has its last record in a shard beyond the threads of that run, and the files of
further shards that it reads are harmless. -/
theorem resume_merge_iff (hlz : lz.Lossless) (hmax : IsInt64 max_id)
    (h₀ : openForImport lz dir max_id num_shards = some s) {ops : List ShardOp}
    (hops : ∀ op ∈ ops, op.InRange num_shards max_id) (hrun : s.run ops = some t)
    (hmax' : IsInt64 max_id')
    (hresume : openForResume lz t.closeAll.merged.toNodeFiles t.closeAll.toShardDir max_id'
      num_shards' = some s') :
    (∃ bound, ∀ fuel ≥ bound, ∃ u, s'.merge fuel = some u
      ∧ ∀ id c, lastInsert ((List.range num_shards).flatMap (recordsOf ops)) id = some c →
          u.merged.select id = some c)
    ↔ NothingLost num_shards (recordsOf ops) (keptOf num_shards' (recordsOf ops))
      ∧ Harmless lz dir num_shards num_shards'
        ((List.range num_shards).flatMap (recordsOf ops)) := by
  obtain ⟨t', ht', ht⟩ := filled_run hmax h₀ hops
  obtain rfl := Option.some.inj (ht'.symm.trans hrun)
  obtain ⟨hbeyond, hlen, hmerge⟩ :=
    ht.merge_closed hlz (fun j hj => lz4_run h₀ hrun hj) hmax' hresume
  constructor
  · rintro ⟨bound, h⟩
    obtain ⟨u, hu, -⟩ := h bound le_rfl
    obtain ⟨stale, hstale⟩ := exists_stale_of_merge hlen hbeyond hu
    obtain ⟨steps, ⟨bound', hsteps⟩, hplaced⟩ := hmerge stale hstale
    obtain ⟨u, hu, hselect⟩ := h (max bound bound') (le_max_left ..)
    rw [merge, hsteps _ (le_max_right ..), Option.map_some] at hu
    obtain rfl := Option.some.inj hu
    refine ⟨nothingLost_of_last fun id c hc => ?_, stale, hstale, fun id c c' hc hc' => ?_⟩
    · by_cases hle : num_shards ≤ num_shards'
      · rw [keptRecords_keptOf, min_eq_left hle, hc]
      · have hsame := (hplaced id c hc).symm.trans (hselect id c hc)
        rw [beyond_eq_nil (le_of_not_ge hle)] at hsame
        exact hsame
    · have hsame := (hplaced id c hc).symm.trans (hselect id c hc)
      rw [hc', Option.some_or] at hsame
      exact Option.some.inj hsame
  · rintro ⟨hlost, stale, hstale, hagree⟩
    obtain ⟨steps, ⟨bound, hsteps⟩, hplaced⟩ := hmerge stale hstale
    refine ⟨bound, fun fuel hfuel => ⟨_, by rw [merge, hsteps fuel hfuel]; rfl,
      fun id c hc => ?_⟩⟩
    rw [hplaced id c hc]
    cases hp : lastPlaced (beyond num_shards num_shards' stale) id with
    | some c' => rw [hagree id c c' hc hp, Option.some_or]
    | none => rw [Option.none_or, nothingLost_iff.mp hlost id, hc]

/-- A shard directory with one record in a file of its own. -/
def leftShard (j : ℕ) (r : NodeRecord) : ShardDir where
  lz4 i := if i = j then some (tagged.frame [nodeRecordFormat.encode r]) else none
  bmp _ := none

/-- Two threads, a third shard of an earlier import with another node, and three threads. -/
theorem resume_merge_three_threads : ∃ s t s',
    openForImport tagged (leftShard 2 ⟨9, ⟨1, 1⟩⟩) 10 2 = some s
    ∧ s.run [.insert 0 1 ⟨5, 6⟩, .insert 1 2 ⟨7, 8⟩] = some t
    ∧ openForResume tagged t.closeAll.merged.toNodeFiles t.closeAll.toShardDir 20 3 = some s'
    ∧ ∃ bound, ∀ fuel ≥ bound, ∃ u, s'.merge fuel = some u
      ∧ ∀ id c, lastInsert [⟨1, ⟨5, 6⟩⟩, ⟨2, ⟨7, 8⟩⟩] id = some c →
          u.merged.select id = some c := by
  have hops : ∀ op ∈ [ShardOp.insert 0 1 ⟨5, 6⟩, .insert 1 2 ⟨7, 8⟩], op.InRange 2 10 := by decide
  have heval : (do
      let s ← openForImport tagged (leftShard 2 ⟨9, ⟨1, 1⟩⟩) 10 2
      let t ← s.run [.insert 0 1 ⟨5, 6⟩, .insert 1 2 ⟨7, 8⟩]
      openForResume tagged t.closeAll.merged.toNodeFiles t.closeAll.toShardDir 20 3).isSome := by
    decide +kernel
  obtain ⟨s', h⟩ := Option.isSome_iff_exists.mp heval
  simp only [Option.bind_eq_bind, Option.bind_eq_some_iff] at h
  obtain ⟨s, hs, t, ht, hresume⟩ := h
  have hread : readShard tagged 200 (tagged.frame [nodeRecordFormat.encode ⟨9, ⟨1, 1⟩⟩])
      = some [⟨9, ⟨1, 1⟩⟩] := by
    decide +kernel
  have hlost : NothingLost 2 (recordsOf [.insert 0 1 ⟨5, 6⟩, .insert 1 2 ⟨7, 8⟩])
      (keptOf 3 (recordsOf [.insert 0 1 ⟨5, 6⟩, .insert 1 2 ⟨7, 8⟩])) :=
    nothingLost_iff.mpr fun id => by rw [keptRecords_keptOf, min_eq_left (by norm_num)]
  refine ⟨s, t, s', hs, ht, hresume, (resume_merge_iff tagged_lossless (by decide) hs hops ht
    (by decide) hresume).mpr ⟨hlost, fun _ => some [⟨9, ⟨1, 1⟩⟩], fun j h2 h3 => ?_,
      fun id c c' hc hc' => ?_⟩⟩
  · obtain rfl : j = 2 := by omega
    exact finds_some ⟨200, fun fuel hle => readBuffers_mono hle hread⟩
  · -- node 9 is not among those inserted
    obtain ⟨pre, r, post, hsplit, rfl, -, -⟩ := lastInsert_eq_some hc
    have hnone : ∀ q ∈ (List.range 2).flatMap
        (recordsOf [.insert 0 1 ⟨5, 6⟩, .insert 1 2 ⟨7, 8⟩]),
        lastPlaced (beyond 2 3 fun _ => some [⟨9, ⟨1, 1⟩⟩]) q.id = none := by
      decide +kernel
    rw [hnone r (hsplit ▸ List.mem_append_cons_self)] at hc'
    cases hc'

/-- **A node phase with two threads, and `-R merge` with the default of one**: the
second shard is not read, and its node is not there.  **With one thread and `-R merge` with
two** the second shard of an earlier import is read, and moves the node. -/
theorem resume_merge_loses :
    (do let s ← openForImport tagged .empty 10 2
        let t ← s.run [.insert 0 1 ⟨5, 6⟩, .insert 1 2 ⟨7, 8⟩]
        let s' ← openForResume tagged t.closeAll.merged.toNodeFiles t.closeAll.toShardDir 10 1
        let s' ← s'.merge 200
        some (s'.merged.select 1, s'.merged.select 2)) = some (some ⟨5, 6⟩, none)
    ∧ (do let s ← openForImport tagged (leftShard 1 ⟨1, ⟨1, 1⟩⟩) 10 1
          let t ← s.run [.insert 0 1 ⟨5, 6⟩]
          let s' ← openForResume tagged t.closeAll.merged.toNodeFiles t.closeAll.toShardDir 10 2
          let s' ← s'.merge 200
          some (s'.merged.select 1)) = some (some ⟨1, 1⟩) := by
  decide +kernel

end ShardStore

end Gpsxdb
