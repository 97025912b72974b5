import Mathlib.Tactic
import Gpsxdb.NodeStore.ShardMerge

/-!
A merge that is killed part of the way, and the merge of the process after it.

* `finds_closedFile`, `finds_stream`: what is read from the file of a writer that was
  closed, and from the part of an open stream that is on disk;
* `take_flatMap_range`: the blocks that are through, and the block that is cut;
* `interrupted_block`, `interrupted`: **what the next merge reads** after a kill at any
  step;
* `NothingLost`, `nothingLost_iff`: **no id loses its last record**.
-/

namespace Gpsxdb

namespace ShardStore

variable {lz : LZ4F} {s t : ShardStore lz} {num_shards : ℕ} {max_id : ℤ}
  {records : ℕ → List NodeRecord}

/-! ### The files of one process, read by the next -/

/-- Records that can be read back. -/
def Valid (records : ℕ → List NodeRecord) : Prop :=
  ∀ j, ∀ r ∈ records j, nodeRecordFormat.valid r

/-- **A closed shard** has all of its records. -/
lemma finds_closedFile (hlz : lz.Lossless) (hs : s.Recording num_shards records)
    (hvalid : Valid records) {j : ℕ} (hj : j < num_shards) :
    Finds lz (s.closedFile j) (some (records j)) := by
  have hget := List.getElem?_eq_getElem (hs.length.symm ▸ hj : j < s.shards.length)
  obtain ⟨chunks, bytes, more, hcontent, -, hf, hctx, -⟩ := (hs.writer j _ hget).closed
  obtain ⟨At, hdec⟩ := hlz chunks
  rw [hcontent] at hdec
  have hfile : s.closedFile j = some (lz.frame chunks) := by
    simp [closedFile, closeWriter, hget, hf, hctx, LZ4F.frame]
  obtain ⟨kept, -, hkept, hread⟩ :=
    readShard_of_prefix hdec (hvalid j) (lz.frame chunks).length
  rw [hkept le_rfl, List.take_length, List.take_length] at hread
  exact hfile ▸ finds_some hread

/-- **An open stream** has the first of its records on disk. -/
lemma finds_stream (hlz : lz.Lossless) (hs : s.Recording num_shards records)
    (hvalid : Valid records) {j : ℕ} (hj : j < num_shards) (reached : ℕ) :
    ∃ w bytes, s.shards[j]? = some w ∧ w.f = some bytes ∧ ∃ kept ≤ (records j).length,
      Finds lz (some (bytes.take reached)) (some ((records j).take kept)) := by
  have hget := List.getElem?_eq_getElem (hs.length.symm ▸ hj : j < s.shards.length)
  obtain ⟨chunks, bytes, more, hcontent, hstream, -, -, hframe⟩ := (hs.writer j _ hget).closed
  obtain ⟨At, hdec⟩ := hlz chunks
  rw [hcontent] at hdec
  obtain ⟨kept, hle, -, hread⟩ := readShard_of_prefix hdec (hvalid j) (min reached bytes.length)
  refine ⟨_, bytes, hget, hstream, kept, hle, finds_some ?_⟩
  rw [hframe, List.take_append_of_le_length (min_le_right ..), ← List.take_eq_take_min] at hread
  exact hread

/-! ### A merge cut short -/

/-- The beginning of a sequence of blocks: some of them whole, and part of the next. -/
lemma take_flatMap_range {α : Type} (B : ℕ → List α) (k n : ℕ) :
    ∃ i ≤ k, ∃ P, ((List.range k).flatMap B).take n = (List.range i).flatMap B ++ P
      ∧ P <+: B i ∧ (i = k → P = []) := by
  induction k with
  | zero => exact ⟨0, le_rfl, [], by simp, List.nil_prefix, fun _ => rfl⟩
  | succ k ih =>
      rw [List.range_succ, List.flatMap_append, List.flatMap_singleton, List.take_append]
      by_cases hn : n ≤ ((List.range k).flatMap B).length
      · obtain ⟨i, hi, P, htake, hP, -⟩ := ih
        rw [Nat.sub_eq_zero_of_le hn, List.take_zero, List.append_nil]
        exact ⟨i, by omega, P, htake, hP, fun h => by omega⟩
      · refine ⟨k, by omega, (B k).take (n - ((List.range k).flatMap B).length), ?_,
          List.take_prefix .., fun h => by omega⟩
        rw [List.take_of_length_le (by omega)]

/-- The steps about one shard with all of its records. -/
abbrev fullBlock (records : ℕ → List NodeRecord) : ℕ → List MergeStep :=
  block fun i => some (records i)

lemma execAll_writes (rs : List NodeRecord) :
    (s.execAll (rs.map .write)).shards = s.shards ∧ (s.execAll (rs.map .write)).lz4 = s.lz4 := by
  induction rs generalizing s with
  | nil => exact ⟨rfl, rfl⟩
  | cons r rs ih => exact ih (s := s.exec (.write r))

lemma writesOf_writes (rs : List NodeRecord) : writesOf (rs.map .write) = rs := by
  rw [writesOf, List.filterMap_map]
  exact List.filterMap_some

/-- The beginnings of what is done to a file. -/
lemma prefix_foundSteps {rs : List NodeRecord} {i : ℕ} {P : List MergeStep}
    (h : P <+: foundSteps i (some rs)) :
    (∃ q, P = (rs.take q).map .write)
      ∨ ∃ Q, P = rs.map MergeStep.write ++ MergeStep.unlink i :: Q
        ∧ (Q = [] ∨ Q = [.unlinkBmp i]) := by
  have hsplit : rs.map MergeStep.write ++ ([.unlink i, .unlinkBmp i] : List MergeStep)
      = (rs.map MergeStep.write ++ ([.unlink i] : List MergeStep)) ++ [.unlinkBmp i] := by simp
  rw [foundSteps, hsplit, List.prefix_concat_iff, List.prefix_concat_iff] at h
  rcases h with rfl | rfl | h
  · exact Or.inr ⟨[.unlinkBmp i], by simp, Or.inr rfl⟩
  · exact Or.inr ⟨[], rfl, Or.inl rfl⟩
  · refine Or.inl ⟨P.length, ?_⟩
    rw [List.map_take]
    exact List.prefix_iff_eq_take.mp h

/-- Once the file is gone its records are written. -/
lemma execAll_removed (s : ShardStore lz) (i : ℕ) (rs : List NodeRecord) {Q : List MergeStep}
    (hQ : Q = [] ∨ Q = [.unlinkBmp i]) :
    (s.execAll (.closeWriter i :: (rs.map MergeStep.write ++ MergeStep.unlink i :: Q))).Closed i
      ∧ (s.execAll (.closeWriter i :: (rs.map MergeStep.write ++ MergeStep.unlink i :: Q))).lz4 i
        = none
      ∧ writesOf (.closeWriter i :: (rs.map MergeStep.write ++ MergeStep.unlink i :: Q)) = rs := by
  have hcons : s.execAll (.closeWriter i :: (rs.map MergeStep.write ++ MergeStep.unlink i :: Q))
      = ((s.closeWriter i).execAll (rs.map .write)).execAll (.unlink i :: Q) :=
    execAll_append (s := s.closeWriter i) (rs.map .write) (.unlink i :: Q)
  obtain ⟨hshards, -⟩ := execAll_writes (s := s.closeWriter i) rs
  rw [hcons]
  refine ⟨fun w hw => s.closed_closeWriter i w (hshards ▸ ?_), ?_, ?_⟩
  · rcases hQ with rfl | rfl <;> exact hw
  · rcases hQ with rfl | rfl <;> exact Function.update_self ..
  · have hwrites : writesOf (.closeWriter i :: (rs.map MergeStep.write ++ MergeStep.unlink i :: Q))
        = writesOf (rs.map MergeStep.write ++ MergeStep.unlink i :: Q) := rfl
    rw [hwrites, writesOf_append, writesOf_writes]
    rcases hQ with rfl | rfl <;> exact List.append_nil _

/-- **A block cut short**: not begun, its file still there, or its file gone with all of
its records written. -/
lemma interrupted_block (s : ShardStore lz) {i : ℕ} {P : List MergeStep}
    (h : P <+: fullBlock records i) :
    P = []
      ∨ ((s.execAll P).Closed i ∧ (s.execAll P).lz4 i = s.closedFile i
        ∧ ∃ q, writesOf P = (records i).take q)
      ∨ ((s.execAll P).Closed i ∧ (s.execAll P).lz4 i = none ∧ writesOf P = records i) := by
  rcases List.prefix_cons_iff.mp h with rfl | ⟨P, rfl, hP⟩
  · exact Or.inl rfl
  refine Or.inr ?_
  rcases prefix_foundSteps hP with ⟨q, rfl⟩ | ⟨Q, rfl, hQ⟩
  · obtain ⟨hshards, hlz4⟩ := execAll_writes (s := s.closeWriter i) ((records i).take q)
    refine Or.inl ⟨fun w hw => s.closed_closeWriter i w (hshards ▸ hw), ?_, q,
      writesOf_writes _⟩
    exact congrFun hlz4 i
  · exact Or.inr (s.execAll_removed i (records i) hQ)

/-- Whole blocks leave their shards closed and their files gone. -/
lemma execAll_blocks (s : ShardStore lz) (records : ℕ → List NodeRecord) (i : ℕ) {j : ℕ}
    (hj : j < i) :
    (s.execAll ((List.range i).flatMap (fullBlock records))).Closed j
      ∧ (s.execAll ((List.range i).flatMap (fullBlock records))).lz4 j = none := by
  induction i with
  | zero => omega
  | succ i ih =>
      rw [List.range_succ, List.flatMap_append, List.flatMap_singleton, execAll_append]
      set u := s.execAll ((List.range i).flatMap (fullBlock records))
      by_cases hji : j = i
      · subst hji
        obtain ⟨hclosed, hlz4, -⟩ := u.execAll_removed j (records j) (Or.inr rfl)
        exact ⟨hclosed, hlz4⟩
      · obtain ⟨hshards, hlz4⟩ := execAll_other (s := u) (fullBlock records i)
          fun step hstep => index_of_mem_block hji hstep
        obtain ⟨hclosed, hnone⟩ := ih (by omega)
        exact ⟨fun w hw => hclosed w (hshards ▸ hw), hlz4.trans hnone⟩

/-- The blocks before a shard leave it alone. -/
lemma execAll_blocks_other (s : ShardStore lz) (records : ℕ → List NodeRecord) {i j : ℕ}
    (hj : i ≤ j) :
    (s.execAll ((List.range i).flatMap (fullBlock records))).shards[j]? = s.shards[j]?
      ∧ (s.execAll ((List.range i).flatMap (fullBlock records))).lz4 j = s.lz4 j := by
  refine execAll_other _ fun step hstep => ?_
  obtain ⟨k, hk, hstep⟩ := List.mem_flatMap.mp hstep
  have hki := List.mem_range.mp hk
  exact index_of_mem_block (by omega) hstep

/-! ### What the next merge reads -/

lemma killed_of_closed {j : ℕ} (h : t.Closed j) (reached : ℕ → ℕ) :
    (t.killed reached).lz4 j = t.lz4 j := by
  simp only [killed]
  split
  · rename_i bytes _ _ hw
    simpa using h _ hw
  · rfl

lemma killed_of_open {j : ℕ} {w : ShardWriter lz} {bytes : List UInt8}
    (hw : t.shards[j]? = some w) (hf : w.f = some bytes) (reached : ℕ → ℕ) :
    (t.killed reached).lz4 j = some (bytes.take (reached j)) := by
  obtain ⟨f, ctx, inbuf⟩ := w
  obtain rfl : f = some bytes := hf
  simp only [killed, hw]

/-- A sequence of lists split at one of them. -/
lemma flatMap_range_split {α : Type} (S : ℕ → List α) {i k : ℕ} (h : i < k) :
    (List.range k).flatMap S = (List.range i).flatMap S
      ++ (S i ++ (List.range (k - i - 1)).flatMap fun m => S (i + 1 + m)) := by
  have hk : k = i + (1 + (k - i - 1)) := by omega
  conv_lhs => rw [hk, List.range_add, List.range_add]
  simp [List.flatMap_map, Function.comp_def, Nat.add_assoc]

/-- What is kept of the records of each shard once the process is killed: all of them
where the writer was closed, and elsewhere as many as are read from the disk. -/
structure Kept (t : ShardStore lz) (reached : ℕ → ℕ) (num_shards : ℕ)
    (records : ℕ → List NodeRecord) (kept : ℕ → ℕ) : Prop where
  le : ∀ j, kept j ≤ (records j).length
  closed : ∀ j < num_shards, t.Closed j → kept j = (records j).length
  opened : ∀ j < num_shards, ¬ t.Closed j →
    Finds lz ((t.killed reached).lz4 j) (some ((records j).take (kept j)))

/-- The records that are kept, in the order of a merge. -/
def keptRecords (num_shards : ℕ) (records : ℕ → List NodeRecord) (kept : ℕ → ℕ) :
    List NodeRecord :=
  (List.range num_shards).flatMap fun j => (records j).take (kept j)

lemma mem_of_mem_keptRecords {num_shards : ℕ} {records : ℕ → List NodeRecord} {kept : ℕ → ℕ}
    {r : NodeRecord} (h : r ∈ keptRecords num_shards records kept) :
    r ∈ (List.range num_shards).flatMap records := by
  obtain ⟨j, hj, hr⟩ := List.mem_flatMap.mp h
  exact List.mem_flatMap.mpr ⟨j, hj, List.mem_of_mem_take hr⟩

/-- What the next merge finds of a shard, given the one at the cut. -/
def foundAfter (i : ℕ) (C : Option (List NodeRecord)) (records : ℕ → List NodeRecord)
    (kept : ℕ → ℕ) (j : ℕ) : Option (List NodeRecord) :=
  if j < i then none else if j = i then C else some ((records j).take (kept j))

/-- How many of its records are kept of each shard, given the one at the cut. -/
def keptAfter (i k : ℕ) (records : ℕ → List NodeRecord) (kept : ℕ → ℕ) (j : ℕ) : ℕ :=
  if j < i then (records j).length else if j = i then k else kept j

/-- **The writes of both merges**: those through before the cut, and what is found
after it. -/
lemma lastInsert_cut {i : ℕ} (hi : i < num_shards) {kept : ℕ → ℕ}
    (hwhole : ∀ j < i, kept j = (records j).length) {A : List NodeRecord}
    {C : Option (List NodeRecord)} {id : ℤ}
    (hcut : lastInsert (A ++ C.getD []) id = lastInsert ((records i).take (kept i)) id) :
    lastInsert ((List.range i).flatMap records ++ A ++ (List.range num_shards).flatMap
        fun j => (foundAfter i C records kept j).getD []) id
      = lastInsert (keptRecords num_shards records kept) id := by
  have hbefore :
      ((List.range i).flatMap fun j => (foundAfter i C records kept j).getD []) = [] := by
    refine List.flatMap_eq_nil_iff.mpr fun j hj => ?_
    rw [foundAfter, if_pos (List.mem_range.mp hj), Option.getD_none]
  have hwhole' : ((List.range i).flatMap fun j => (records j).take (kept j))
      = (List.range i).flatMap records := by
    refine List.flatMap_congr fun j hj => ?_
    rw [hwhole j (List.mem_range.mp hj), List.take_length]
  have hat : foundAfter i C records kept i = C := by simp [foundAfter]
  have hafter : ∀ m, (foundAfter i C records kept (i + 1 + m)).getD []
      = (records (i + 1 + m)).take (kept (i + 1 + m)) := by
    intro m
    rw [foundAfter, if_neg (by omega), if_neg (by omega), Option.getD_some]
  rw [keptRecords, flatMap_range_split _ hi, flatMap_range_split _ hi, hbefore, hwhole', hat,
    List.nil_append]
  simp only [hafter]
  generalize (List.range (num_shards - i - 1)).flatMap _ = rest
  calc lastInsert ((List.range i).flatMap records ++ A ++ (C.getD [] ++ rest)) id
      = (lastInsert rest id).or ((lastInsert (A ++ C.getD []) id).or
          (lastInsert ((List.range i).flatMap records) id)) := by
        rw [← lastInsert_append, ← lastInsert_append]
        simp only [List.append_assoc]
    _ = (lastInsert rest id).or ((lastInsert ((records i).take (kept i)) id).or
          (lastInsert ((List.range i).flatMap records) id)) := by rw [hcut]
    _ = _ := by
        rw [← lastInsert_append, ← lastInsert_append, List.append_assoc]

/-- **The shard at the cut**: as many of its records are kept as are found, or all of
them. -/
lemma interrupted_shard (hlz : lz.Lossless) (hs : s.Recording num_shards records)
    (hvalid : Valid records) {i : ℕ} (hi : i < num_shards) (hu : t.shards[i]? = s.shards[i]?)
    (hu' : t.lz4 i = s.lz4 i) {P : List MergeStep} (hP : P <+: fullBlock records i)
    (reached : ℕ → ℕ) :
    ∃ k ≤ (records i).length, ∃ C, ((t.execAll P).Closed i → k = (records i).length)
      ∧ (¬ (t.execAll P).Closed i → C = some ((records i).take k))
      ∧ C.getD [] ⊆ records i ∧ Finds lz (((t.execAll P).killed reached).lz4 i) C
      ∧ ∀ id, lastInsert (writesOf P ++ C.getD []) id = lastInsert ((records i).take k) id := by
  rcases interrupted_block t hP with rfl | ⟨hclosed, hlz4, q, hq⟩ | ⟨hclosed, hlz4, hq⟩
  · obtain ⟨w, bytes, hw, hf, k, hk, hfinds⟩ := finds_stream hlz hs hvalid hi (reached i)
    have hw' : t.shards[i]? = some w := hu.trans hw
    refine ⟨k, hk, _, fun hclosed => ?_, fun _ => rfl, List.take_subset .., ?_, fun _ => rfl⟩
    · have hnone : w.f = none := hclosed w hw'
      simp [hf] at hnone
    · exact (killed_of_open (t := t) hw' hf reached) ▸ hfinds
  · refine ⟨_, le_rfl, some (records i), fun _ => rfl, fun hnot => absurd hclosed hnot,
      List.Subset.refl _, ?_, fun id => ?_⟩
    · rw [killed_of_closed hclosed, hlz4, closedFile_congr hu hu']
      exact finds_closedFile hlz hs hvalid hi
    · rw [hq, Option.getD_some, lastInsert_take_append, List.take_length]
  · refine ⟨_, le_rfl, none, fun _ => rfl, fun hnot => absurd hclosed hnot,
      List.nil_subset _, ?_, fun id => ?_⟩
    · rw [killed_of_closed hclosed, hlz4]
      exact finds_none
    · rw [hq, Option.getD_none, List.append_nil, List.take_length]

/-- **What the next merge reads** after a kill at any step: for every id the last record
is the last of those that are kept. -/
theorem interrupted (hlz : lz.Lossless) (hs : s.Recording num_shards records)
    (hvalid : Valid records) (n : ℕ) (reached : ℕ → ℕ) :
    let steps := ((List.range num_shards).flatMap (fullBlock records)).take n
    ∃ (kept : ℕ → ℕ) (found : ℕ → Option (List NodeRecord)),
      (s.execAll steps).Kept reached num_shards records kept
      ∧ (∀ j, (found j).getD [] ⊆ records j)
      ∧ (∀ j < num_shards, Finds lz (((s.execAll steps).killed reached).lz4 j) (found j))
      ∧ ∀ id, lastInsert (writesOf steps ++ (List.range num_shards).flatMap
            fun j => (found j).getD []) id
          = lastInsert (keptRecords num_shards records kept) id := by
  intro steps
  obtain ⟨i, hi, P, htake, hP, hlast⟩ := take_flatMap_range (fullBlock records) num_shards n
  have hsteps : steps = (List.range i).flatMap (fullBlock records) ++ P := htake
  have hblocks : writesOf ((List.range i).flatMap (fullBlock records))
      = (List.range i).flatMap records := writesOf_flatMap_block ..
  rw [hsteps, execAll_append, writesOf_append, hblocks]
  set u := s.execAll ((List.range i).flatMap (fullBlock records))
  have hindex : ∀ j, j ≠ i → (u.execAll P).shards[j]? = u.shards[j]?
      ∧ (u.execAll P).lz4 j = u.lz4 j := fun j hj =>
    execAll_other _ fun step hstep => index_of_mem_block hj (hP.subset hstep)
  -- the shards before the cut are gone, those behind it are as they were
  have hbefore : ∀ j < i, (u.execAll P).Closed j ∧ ((u.execAll P).killed reached).lz4 j = none := by
    intro j hj
    obtain ⟨hclosed, hnone⟩ := s.execAll_blocks records i hj
    obtain ⟨hshards, hlz4⟩ := hindex j (by omega)
    have hclosed' : (u.execAll P).Closed j := fun w hw => hclosed w (hshards ▸ hw)
    exact ⟨hclosed', (killed_of_closed hclosed' reached).trans (hlz4.trans hnone)⟩
  have hafter : ∀ j, ∃ k ≤ (records j).length, i < j → j < num_shards →
      ¬ (u.execAll P).Closed j
        ∧ Finds lz (((u.execAll P).killed reached).lz4 j) (some ((records j).take k)) := by
    intro j
    by_cases hj : i < j ∧ j < num_shards
    · obtain ⟨w, bytes, hw, hf, k, hk, hfinds⟩ := finds_stream hlz hs hvalid hj.2 (reached j)
      have hw' : (u.execAll P).shards[j]? = some w :=
        (hindex j (by omega)).1.trans ((s.execAll_blocks_other records hj.1.le).1.trans hw)
      refine ⟨k, hk, fun _ _ => ⟨fun hclosed => ?_, ?_⟩⟩
      · have hnone : w.f = none := hclosed w hw'
        simp [hf] at hnone
      · rw [killed_of_open hw' hf]
        exact hfinds
    · exact ⟨0, Nat.zero_le _, fun h1 h2 => absurd ⟨h1, h2⟩ hj⟩
  choose k₀ hk₀ hopen using hafter
  by_cases hin : i < num_shards
  · obtain ⟨hshards, hlz4⟩ := s.execAll_blocks_other records (le_refl i)
    obtain ⟨k, hk, C, hclosed, hnot, hsub, hfinds, hwrites⟩ :=
      interrupted_shard hlz hs hvalid hin hshards hlz4 hP reached
    refine ⟨keptAfter i k records k₀, foundAfter i C records (keptAfter i k records k₀),
      ⟨fun j => ?_, fun j hj hc => ?_, fun j hj hn => ?_⟩, fun j => ?_, fun j hj => ?_,
      fun id => ?_⟩
    · rw [keptAfter]
      split_ifs with h1 h2
      · exact le_rfl
      · exact h2 ▸ hk
      · exact hk₀ j
    · rw [keptAfter]
      split_ifs with h1 h2
      · rfl
      · subst h2
        exact hclosed hc
      · exact absurd hc (hopen j (by omega) hj).1
    · rw [keptAfter]
      split_ifs with h1 h2
      · exact absurd (hbefore j h1).1 hn
      · subst h2
        exact hnot hn ▸ hfinds
      · exact (hopen j (by omega) hj).2
    · rw [foundAfter]
      split_ifs with h1 h2
      · exact List.nil_subset _
      · exact h2 ▸ hsub
      · exact List.take_subset ..
    · rw [foundAfter, keptAfter]
      split_ifs with h1 h2
      · exact (hbefore j h1).2 ▸ finds_none
      · subst h2
        exact hfinds
      · exact (hopen j (by omega) hj).2
    · have hat : keptAfter i k records k₀ i = k := by simp [keptAfter]
      have hwhole : ∀ j < i, keptAfter i k records k₀ j = (records j).length :=
        fun j hj => if_pos hj
      have hcut : lastInsert (writesOf P ++ C.getD []) id
          = lastInsert ((records i).take (keptAfter i k records k₀ i)) id := by
        rw [hat]
        exact hwrites id
      exact lastInsert_cut hin hwhole hcut
  · -- the merge is through
    obtain rfl : i = num_shards := by omega
    obtain rfl := hlast rfl
    refine ⟨fun j => (records j).length, fun _ => none, ⟨fun _ => le_rfl, fun _ _ _ => rfl,
      fun j hj hn => absurd (hbefore j hj).1 hn⟩, fun j => List.nil_subset _,
      fun j hj => (hbefore j hj).2 ▸ finds_none, fun id => ?_⟩
    have hnil : ((List.range i).flatMap fun _ => ([] : List NodeRecord)) = [] :=
      List.flatMap_eq_nil_iff.mpr fun _ _ => rfl
    simp [keptRecords, writesOf, hnil]

/-! ### The last records -/

/-- **No id loses its last record**: where the last record of an id is not kept, the last
one that is kept has the same coordinates. -/
def NothingLost (num_shards : ℕ) (records : ℕ → List NodeRecord) (kept : ℕ → ℕ) : Prop :=
  ∀ j < num_shards, ∀ pre r post, records j = pre ++ r :: post → kept j ≤ pre.length →
    (∀ q ∈ post, q.id ≠ r.id) → (∀ k, j < k → k < num_shards → ∀ q ∈ records k, q.id ≠ r.id) →
    lastInsert (keptRecords num_shards records kept) r.id = some r.coord

/-- The last record of an id in a list. -/
lemma lastInsert_eq_some {rs : List NodeRecord} {id : ℤ} {c : Coord}
    (h : lastInsert rs id = some c) : ∃ pre r post, rs = pre ++ r :: post ∧ r.id = id
      ∧ r.coord = c ∧ ∀ q ∈ post, q.id ≠ id := by
  obtain ⟨r, hfind, rfl⟩ := Option.map_eq_some_iff.mp h
  obtain ⟨hid, as, bs, hsplit, has⟩ := List.find?_eq_some_iff_append.mp hfind
  refine ⟨bs.reverse, r, as.reverse, ?_, by simpa using hid, rfl, fun q hq => ?_⟩
  · rw [← List.reverse_reverse rs, hsplit]
    simp
  · simpa using has q (List.mem_reverse.mp hq)

lemma lastInsert_of_split {pre post : List NodeRecord} {r : NodeRecord}
    (h : ∀ q ∈ post, q.id ≠ r.id) : lastInsert (pre ++ r :: post) r.id = some r.coord := by
  rw [← List.singleton_append, lastInsert_append, lastInsert_append, lastInsert_eq_none.mpr h,
    lastInsert_singleton, if_pos rfl]
  rfl

/-- Of several lists, the last one with the id decides. -/
lemma lastInsert_flatMap {S : ℕ → List NodeRecord} {k j : ℕ} (hj : j < k) {id : ℤ}
    (hlater : ∀ m, j < m → m < k → ∀ q ∈ S m, q.id ≠ id) (hsome : (lastInsert (S j) id).isSome) :
    lastInsert ((List.range k).flatMap S) id = lastInsert (S j) id := by
  have hrest : lastInsert ((List.range (k - j - 1)).flatMap fun m => S (j + 1 + m)) id = none := by
    refine lastInsert_eq_none.mpr fun q hq => ?_
    obtain ⟨m, hm, hq⟩ := List.mem_flatMap.mp hq
    have hlt := List.mem_range.mp hm
    exact hlater (j + 1 + m) (by omega) (by omega) q hq
  rw [flatMap_range_split S hj, lastInsert_append, lastInsert_append, hrest, Option.none_or]
  obtain ⟨c, hc⟩ := Option.isSome_iff_exists.mp hsome
  rw [hc, Option.some_or]

/-- The shard that has the last record of an id. -/
lemma exists_last_shard {S : ℕ → List NodeRecord} {k : ℕ} {id : ℤ} {c : Coord}
    (h : lastInsert ((List.range k).flatMap S) id = some c) : ∃ j < k,
      lastInsert (S j) id = some c ∧ ∀ m, j < m → m < k → ∀ q ∈ S m, q.id ≠ id := by
  induction k with
  | zero => simp at h
  | succ k ih =>
      rw [List.range_succ, List.flatMap_append, List.flatMap_singleton, lastInsert_append] at h
      cases hlast : lastInsert (S k) id with
      | some c' =>
          rw [hlast, Option.some_or] at h
          exact ⟨k, by omega, h ▸ hlast, fun m h1 h2 => by omega⟩
      | none =>
          rw [hlast, Option.none_or] at h
          obtain ⟨j, hj, hsome, hlater⟩ := ih h
          refine ⟨j, by omega, hsome, fun m h1 h2 => ?_⟩
          by_cases hm : m = k
          · exact hm ▸ lastInsert_eq_none.mp hlast
          · exact hlater m h1 (by omega)

/-- **Nothing is lost** exactly when the kept records have the same last ones. -/
theorem nothingLost_iff {kept : ℕ → ℕ} : NothingLost num_shards records kept
    ↔ ∀ id, lastInsert (keptRecords num_shards records kept) id
      = lastInsert ((List.range num_shards).flatMap records) id := by
  constructor
  · intro h id
    cases hall : lastInsert ((List.range num_shards).flatMap records) id with
    | none =>
        refine lastInsert_eq_none.mpr fun q hq => ?_
        obtain ⟨j, hj, hq⟩ := List.mem_flatMap.mp hq
        exact lastInsert_eq_none.mp hall q
          (List.mem_flatMap.mpr ⟨j, hj, List.mem_of_mem_take hq⟩)
    | some c =>
        obtain ⟨j, hj, hlast, hlater⟩ := exists_last_shard hall
        obtain ⟨pre, r, post, hsplit, rfl, rfl, hpost⟩ := lastInsert_eq_some hlast
        by_cases hkept : kept j ≤ pre.length
        · exact h j hj pre r post hsplit hkept hpost hlater
        · -- the last record is kept
          have htake : (records j).take (kept j)
              = pre ++ r :: post.take (kept j - pre.length - 1) := by
            obtain ⟨m, hm⟩ : ∃ m, kept j = pre.length + (m + 1) :=
              ⟨kept j - pre.length - 1, by omega⟩
            have hsub : pre.length + (m + 1) - pre.length - 1 = m := by omega
            rw [hm, hsub, hsplit, List.take_length_add_append, List.take_succ_cons]
          have hsome : lastInsert ((records j).take (kept j)) r.id = some r.coord := by
            rw [htake]
            exact lastInsert_of_split fun q hq => hpost q (List.mem_of_mem_take hq)
          have hsame := lastInsert_flatMap (S := fun k => (records k).take (kept k)) hj
            (fun m h1 h2 q hq => hlater m h1 h2 q (List.mem_of_mem_take hq))
            (by rw [hsome]; rfl)
          exact hsame.trans hsome
  · intro h j hj pre r post hsplit _ hpost hlater
    have hlast : lastInsert (records j) r.id = some r.coord := by
      rw [hsplit]
      exact lastInsert_of_split hpost
    rw [h, lastInsert_flatMap hj hlater (by rw [hlast]; rfl), hlast]

end ShardStore

end Gpsxdb
