import Mathlib.Tactic
import Gpsxdb.Export.PairMerge

/-!
`processPair` is an exact filter of its two tables.

* `minMax_eq_some`: the range of the ids;
* `windowFor_disjoint`, `exists_windowFor`: **the windows split the range**;
  `windowSums_mem_int64`: they are computed within 64 bits;
* `perm_chunkRows`: the chunks together have the matching rows;
* `HoldsRows`, `LeavesNoRows`: what a `.bin` is to hold, and what files of earlier runs add;
  `mergedRows_eq`, `Processed`, `bins_iff_of_processPair`;
* `processPair_exact_iff`: **each region gets the rows that match it**, each once, and
  their child rows, under every schedule, exactly if earlier runs have left no rows;
  `stale_rows_exported`.
-/

namespace Gpsxdb

namespace PairExport

variable {G : Type} {cfg : PairExport G} {min_id max_id : ℤ}

/-! ### Windows -/

lemma minMax_eq_some (h : cfg.minMax = some (min_id, max_id)) :
    (∃ r ∈ cfg.parent.rows, r.id = min_id) ∧ (∃ r ∈ cfg.parent.rows, r.id = max_id)
      ∧ ∀ r ∈ cfg.parent.rows, min_id ≤ r.id ∧ r.id ≤ max_id := by
  rw [minMax] at h
  split at h
  · rename_i a b hmin hmax
    obtain ⟨rfl, rfl⟩ := Prod.mk.inj (Option.some.inj h)
    obtain ⟨hmin_mem, hmin_le⟩ := List.min?_eq_some_iff.mp hmin
    obtain ⟨hmax_mem, hmax_le⟩ := List.max?_eq_some_iff.mp hmax
    refine ⟨List.mem_map.mp hmin_mem, List.mem_map.mp hmax_mem, fun r hr => ?_⟩
    have hid := List.mem_map_of_mem (f := CopyRow.id) hr
    exact ⟨hmin_le _ hid, hmax_le _ hid⟩
  · simp at h

lemma minMax_eq_none (h : cfg.minMax = none) : cfg.parent.rows = [] := by
  cases hrows : cfg.parent.rows with
  | nil => rfl
  | cons r rows =>
      obtain ⟨a, ha⟩ := Option.isSome_iff_exists.mp
        (List.isSome_min?_of_mem (l := cfg.parent.rows.map CopyRow.id) (a := r.id)
          (by simp [hrows]))
      obtain ⟨b, hb⟩ := Option.isSome_iff_exists.mp
        (List.isSome_max?_of_mem (l := cfg.parent.rows.map CopyRow.id) (a := r.id)
          (by simp [hrows]))
      simp [minMax, ha, hb] at h

lemma min_le_max (h : cfg.minMax = some (min_id, max_id)) : min_id ≤ max_id := by
  obtain ⟨⟨r, hr, rfl⟩, -, hrange⟩ := minMax_eq_some h
  exact (hrange r hr).2

/-- The width of the windows. -/
def chunk (cfg : PairExport G) (min_id max_id : ℤ) : ℤ :=
  windowWidth (max_id - min_id + 1) (cfg.nchunks min_id max_id)

lemma chunk_pos (h : min_id ≤ max_id) (hn : 0 < cfg.nchunks min_id max_id) :
    0 < cfg.chunk min_id max_id :=
  windowWidth_pos (by omega) hn

/-- The windows reach over the range. -/
lemma span_le_chunks (hn : 0 < cfg.nchunks min_id max_id) :
    max_id - min_id + 1 ≤ (cfg.nchunks min_id max_id).toNat * cfg.chunk min_id max_id := by
  have hle : max_id - min_id + 1 ≤ _ := le_mul_windowWidth hn
  rwa [Int.toNat_of_nonneg hn.le]

/-- **Two windows have no id in common.** -/
lemma windowFor_disjoint (h : min_id ≤ max_id) (hn : 0 < cfg.nchunks min_id max_id) {i j : ℕ}
    {x : ℤ} (hi : inWindow (cfg.windowFor min_id max_id i) x)
    (hj : inWindow (cfg.windowFor min_id max_id j) x) : i = j := by
  have hc := chunk_pos h hn
  have hx := inWindow.range hc hi
  have hindex := (mem_window_iff hc hx).mp hi
  have hindex' := (mem_window_iff hc hx).mp hj
  exact_mod_cast hindex.symm.trans hindex'

/-- **Every id of the range is in a window.** -/
lemma exists_windowFor (h : min_id ≤ max_id) (hn : 0 < cfg.nchunks min_id max_id) {x : ℤ}
    (hx : min_id ≤ x ∧ x ≤ max_id) :
    ∃ i < (cfg.nchunks min_id max_id).toNat, inWindow (cfg.windowFor min_id max_id i) x := by
  have hc := chunk_pos h hn
  have hlt := window_index_lt hc hx (span_le_chunks hn)
  have hnonneg : 0 ≤ (x - min_id) / cfg.chunk min_id max_id :=
    Int.ediv_nonneg (by linarith [hx.1]) hc.le
  refine ⟨((x - min_id) / cfg.chunk min_id max_id).toNat, by omega, ?_⟩
  exact (mem_window_iff hc hx).mpr (Int.toNat_of_nonneg hnonneg).symm

/-- The values that `nchunks`, `chunk` and `windowFor` compute on the way. -/
def windowSums (cfg : PairExport G) (min_id max_id : ℤ) (ci : ℕ) : List ℤ :=
  let span := max_id - min_id + 1
  let c := cfg.chunk min_id max_id
  [max_id - min_id, span, span + cfg.nchunks min_id max_id,
    span + cfg.nchunks min_id max_id - 1, c, ci * c, min_id + ci * c, min_id + ci * c + c,
    min_id + ci * c + c - 1]

lemma nchunks_lt : cfg.nchunks min_id max_id < 2 ^ 31 := by
  have h := Int.bmod_lt (x := max 1 (min ((cfg.nthreads : ℤ) * kChunksPerThread)
    (max_id - min_id + 1))) (m := 2 ^ 32) (by norm_num)
  exact h.trans_le (by norm_num)

/-- Where there are fewer than `2 ^ 28` threads there is a chunk. -/
lemma nchunks_pos (hthreads : cfg.threads < 2 ^ 28) :
    0 < cfg.nchunks min_id max_id := by
  have hnt : (cfg.nthreads : ℤ) < 2 ^ 28 := by
    rw [nthreads]
    omega
  rw [nchunks, wrapInt32, kChunksPerThread, Int.bmod_eq_of_le (by omega) (by omega)]
  omega

/-- **The windows are computed within 64 bits.** -/
lemma windowSums_mem_int64 (h : min_id ≤ max_id) (hn : 0 < cfg.nchunks min_id max_id)
    (hmin : |min_id| < 2 ^ 61) (hmax : |max_id| < 2 ^ 61) {ci : ℕ}
    (hci : ci < (cfg.nchunks min_id max_id).toNat) :
    ∀ x ∈ cfg.windowSums min_id max_id ci, -2 ^ 63 ≤ x ∧ x < 2 ^ 63 := by
  have hlt : cfg.nchunks min_id max_id < 2 ^ 31 := nchunks_lt
  have hc := chunk_pos h hn
  rw [abs_lt] at hmin hmax
  -- the width times the number of windows is the span, but for less than one more each
  have hmul : cfg.nchunks min_id max_id * cfg.chunk min_id max_id
      ≤ max_id - min_id + 1 + cfg.nchunks min_id max_id - 1 :=
    Int.mul_ediv_self_le hn.ne'
  have hci' : ((ci : ℤ) + 1) * cfg.chunk min_id max_id
      ≤ cfg.nchunks min_id max_id * cfg.chunk min_id max_id :=
    mul_le_mul_of_nonneg_right (by omega) hc.le
  have hnonneg : 0 ≤ (ci : ℤ) * cfg.chunk min_id max_id := by positivity
  rw [add_mul, one_mul] at hci'
  simp only [windowSums, List.forall_mem_cons, List.not_mem_nil, false_imp_iff, implies_true,
    and_true]
  omega

/-! ### Rows -/

/-- A chunk's rows are those that match with an id in its window. -/
lemma perm_chunkRows (ri ci : ℕ) :
    (cfg.chunkRows min_id max_id ri ci .parent).Perm ((cfg.matchingParents ri).filter
        fun r => inWindow (cfg.windowFor min_id max_id ci) r.id)
      ∧ (cfg.chunkRows min_id max_id ri ci .child).Perm ((cfg.matchingChildren ri).filter
        fun r => inWindow (cfg.windowFor min_id max_id ci) r.id) := by
  have hcomm : ∀ (rows : List CopyRow) (p : CopyRow → Bool),
      (rows.filter fun r => (cfg.windowFor min_id max_id ci).1 ≤ r.id
        ∧ r.id ≤ (cfg.windowFor min_id max_id ci).2).filter p
      = (rows.filter p).filter fun r => inWindow (cfg.windowFor min_id max_id ci) r.id := by
    intro rows p
    rw [List.filter_filter, List.filter_filter]
    exact List.filter_congr fun r _ => Bool.and_comm _ _
  constructor
  · exact ((cfg.parent.between_perm _ _).filter _).trans (.of_eq (hcomm _ _))
  · exact ((cfg.child.between_perm _ _).filter _).trans (.of_eq (hcomm _ _))

/-- **The chunks together have the matching rows**, each once. -/
lemma perm_flatMap_chunkRows (h : cfg.minMax = some (min_id, max_id))
    (hn : 0 < cfg.nchunks min_id max_id) (ri : ℕ) :
    ((List.range (cfg.nchunks min_id max_id).toNat).flatMap
        fun ci => cfg.chunkRows min_id max_id ri ci .parent).Perm (cfg.matchingParents ri)
      ∧ ((List.range (cfg.nchunks min_id max_id).toNat).flatMap
        fun ci => cfg.chunkRows min_id max_id ri ci .child).Perm (cfg.matchingChildren ri) := by
  have hc := chunk_pos (min_le_max h) hn
  have hspan := span_le_chunks hn
  obtain ⟨-, -, hrange⟩ := minMax_eq_some h
  constructor
  · refine (List.Perm.flatMap_left _ fun ci _ => (perm_chunkRows ri ci).1).trans ?_
    refine perm_windows hc hspan fun r hr => ?_
    exact hrange r (List.mem_of_mem_filter hr)
  · refine (List.Perm.flatMap_left _ fun ci _ => (perm_chunkRows ri ci).2).trans ?_
    refine perm_windows hc hspan fun r hr => ?_
    obtain ⟨p, hp, hid, -⟩ := of_decide_eq_true (List.mem_filter.mp hr).2
    exact hid ▸ hrange p hp

/-! ### The exact filter -/

/-- A `.bin` holds some rows, each once; no file holds none. -/
def HoldsRows (file : Option (List UInt8)) (rows : List CopyRow) : Prop :=
  match file with
  | none => rows = []
  | some bytes => ∃ written : List CopyRow, written.Perm rows
      ∧ bytes = copyBinary (written.map CopyRow.raw)

/-- There is no `.bin`, or one without a row. -/
def NoRows (file : Option (List UInt8)) : Prop := file = none ∨ file = some (copyBinary [])

lemma holdsRows_nil_iff {file : Option (List UInt8)} : HoldsRows file [] ↔ NoRows file := by
  cases file with
  | none => simp [HoldsRows, NoRows]
  | some bytes => simp [HoldsRows, NoRows]

/-- **What stands in the directory adds no row.**  A pair with an empty parent leaves the
`.bin`s of the export before, and no worker opens the scratch files of an empty window,
which the merge reads all the same. -/
def LeavesNoRows (cfg : PairExport G) (d : ExportDir) : Prop :=
  match cfg.minMax with
  | none => ∀ ri < cfg.regions.length, NoRows (d.parent_bin ri) ∧ NoRows (d.child_bin ri)
  | some (min_id, max_id) => ∀ ri < cfg.regions.length,
      ∀ ci < (cfg.nchunks min_id max_id).toNat, ¬ cfg.NonemptyWindow min_id max_id ci →
        ∀ c, c ≠ .extra_vertices →
          ∀ row ∈ lengthPrefix.readFrames ((d.scratch (cfg.path ⟨c, ri, ci⟩)).getD []), row = []

lemma leavesNoRows_of_empty {d : ExportDir} (h : cfg.minMax = none) :
    cfg.LeavesNoRows d
      ↔ ∀ ri < cfg.regions.length, NoRows (d.parent_bin ri) ∧ NoRows (d.child_bin ri) := by
  rw [LeavesNoRows, h]

lemma leavesNoRows_of_range {d : ExportDir} (h : cfg.minMax = some (min_id, max_id)) :
    cfg.LeavesNoRows d ↔ ∀ ri < cfg.regions.length,
      ∀ ci < (cfg.nchunks min_id max_id).toNat, ¬ cfg.NonemptyWindow min_id max_id ci →
        ∀ c, c ≠ .extra_vertices → ∀ row ∈ lengthPrefix.readFrames
          ((d.scratch (cfg.path ⟨c, ri, ci⟩)).getD []), row = [] := by
  rw [LeavesNoRows, h]

/-- A directory without files of the pair. -/
structure Fresh (cfg : PairExport G) (d : ExportDir) : Prop where
  scratch : ∀ f, cfg.Valid f → d.scratch (cfg.path f) = none
  parent_bin : ∀ ri < cfg.regions.length, d.parent_bin ri = none
  child_bin : ∀ ri < cfg.regions.length, d.child_bin ri = none

lemma Fresh.leavesNoRows {d : ExportDir} (h : cfg.Fresh d) : cfg.LeavesNoRows d := by
  rw [LeavesNoRows]
  split
  · exact fun ri hri => ⟨Or.inl (h.parent_bin ri hri), Or.inl (h.child_bin ri hri)⟩
  · intro ri hri ci _ _ c _ row hrow
    rw [h.scratch ⟨c, ri, ci⟩ hri, Option.getD_none, lengthPrefix.readFrames_nil] at hrow
    cases hrow

/-- The rows in the scratch files of the empty windows. -/
def staleRows (cfg : PairExport G) (min_id max_id : ℤ) (d : ExportDir) (c : ScratchContent)
    (ri ci : ℕ) : List (List UInt8) :=
  if cfg.NonemptyWindow min_id max_id ci then []
  else lengthPrefix.readFrames ((d.scratch (cfg.path ⟨c, ri, ci⟩)).getD [])

/-- No row has an id in an empty window. -/
lemma chunkRows_eq_nil {ri ci : ℕ} {c : ScratchContent}
    (hw : ¬ cfg.NonemptyWindow min_id max_id ci) : cfg.chunkRows min_id max_id ri ci c = [] := by
  have hnone : ∀ rows : List CopyRow,
      (rows.filter fun r => inWindow (cfg.windowFor min_id max_id ci) r.id) = [] := by
    intro rows
    rw [List.filter_eq_nil_iff]
    intro r _ hr
    have hid := of_decide_eq_true hr
    exact hw (hid.1.trans hid.2)
  cases c with
  | parent => exact ((perm_chunkRows ri ci).1.trans (.of_eq (hnone _))).eq_nil
  | child => exact ((perm_chunkRows ri ci).2.trans (.of_eq (hnone _))).eq_nil
  | extra_vertices => rfl

/-- **The rows that the merge reads**: those of each chunk, and what lies in the files of
the empty windows. -/
lemma mergedRows_eq (hregions : cfg.regions.length ≤ 32)
    (honly : cfg.extra_vertices_only = false) {d : ExportDir}
    {files : String → Option (List UInt8)} {schedule schedule' : List (Fin cfg.nthreads)}
    (h : cfg.passes min_id max_id d.scratch schedule schedule' = some files)
    {c : ScratchContent} (hc : c ≠ .extra_vertices) {ri : ℕ} (hri : ri < cfg.regions.length) :
    cfg.mergedRows files c (cfg.nchunks min_id max_id).toNat ri
      = (List.range (cfg.nchunks min_id max_id).toNat).flatMap fun ci =>
          (cfg.chunkRows min_id max_id ri ci c).map CopyRow.raw
            ++ cfg.staleRows min_id max_id d c ri ci := by
  rw [mergedRows]
  refine List.flatMap_congr fun ci hci => ?_
  rw [passes_files hregions honly h hc hri (List.mem_range.mp hci), staleRows]
  by_cases hw : cfg.NonemptyWindow min_id max_id ci
  · have hraw : ∀ row ∈ (cfg.chunkRows min_id max_id ri ci c).map CopyRow.raw,
        row.length < lengthPrefix.bound := by
      intro row hrow
      obtain ⟨r, hr, rfl⟩ := List.mem_map.mp hrow
      cases c with
      | parent =>
          have hmem := (cfg.parent.between_perm _ _).mem_iff.mp (List.mem_of_mem_filter hr)
          exact cfg.parent.raw_lt r (List.mem_of_mem_filter hmem)
      | child =>
          have hmem := (cfg.child.between_perm _ _).mem_iff.mp (List.mem_of_mem_filter hr)
          exact cfg.child.raw_lt r (List.mem_of_mem_filter hmem)
      | extra_vertices => exact absurd rfl hc
    rw [if_pos hw, if_pos hw, Option.getD_some, lengthPrefix.readFrames_flatMap_frame hraw,
      List.append_nil]
  · rw [if_neg hw, if_neg hw, chunkRows_eq_nil hw, List.map_nil, List.nil_append]

/-- The bytes of rows that are taken out of several lists in turn. -/
lemma length_flatten_flatMap_append (l : List ℕ) (f g : ℕ → List (List UInt8)) :
    (l.flatMap fun ci => f ci ++ g ci).flatten.length
      = (l.flatMap f).flatten.length + (l.flatMap g).flatten.length := by
  induction l with
  | nil => rfl
  | cons ci l ih =>
      simp only [List.flatMap_cons, List.flatten_append, List.length_append, ih]
      omega

/-- Rows without bytes add none. -/
lemma flatten_flatMap_append_of_nil {l : List ℕ} {f g : ℕ → List (List UInt8)}
    (h : ∀ ci ∈ l, (g ci).flatten = []) :
    (l.flatMap fun ci => f ci ++ g ci).flatten = (l.flatMap f).flatten := by
  induction l with
  | nil => rfl
  | cons ci l ih =>
      obtain ⟨hci, hl⟩ := List.forall_mem_cons.mp h
      simp only [List.flatMap_cons, List.flatten_append, hci, ih hl, List.append_nil]

/-- **When a merged file holds the rows of the chunks**: what the empty windows add has no
bytes. -/
lemma holdsRows_merged_iff {n : ℕ} {rows : List CopyRow} {chunk : ℕ → List CopyRow}
    {stale : ℕ → List (List UInt8)} (hrows : ((List.range n).flatMap chunk).Perm rows) :
    HoldsRows (some (copyBinary ((List.range n).flatMap fun ci =>
        (chunk ci).map CopyRow.raw ++ stale ci))) rows
      ↔ ∀ ci < n, ∀ row ∈ stale ci, row = [] := by
  have hchunks : (List.range n).flatMap (fun ci => (chunk ci).map CopyRow.raw)
      = ((List.range n).flatMap chunk).map CopyRow.raw := List.map_flatMap.symm
  have hempty : (∀ ci < n, ∀ row ∈ stale ci, row = [])
      ↔ ((List.range n).flatMap stale).flatten = [] := by
    simp only [List.flatten_eq_nil_iff, List.mem_flatMap, List.mem_range]
    exact ⟨fun h row ⟨ci, hci, hrow⟩ => h ci hci row hrow,
      fun h ci hci row hrow => h row ⟨ci, hci, hrow⟩⟩
  rw [hempty]
  constructor
  · rintro ⟨written, hwritten, hbytes⟩
    -- as many bytes as the rows themselves have
    have hraw := ((hwritten.trans hrows.symm).map CopyRow.raw).flatten.length_eq
    have hflatten : ((List.range n).flatMap fun ci =>
        (chunk ci).map CopyRow.raw ++ stale ci).flatten
          = (written.map CopyRow.raw).flatten := by
      simpa [copyBinary] using hbytes
    have hlength := congrArg List.length hflatten
    rw [length_flatten_flatMap_append, hchunks, hraw] at hlength
    exact List.length_eq_zero_iff.mp (by omega)
  · intro hstale
    refine ⟨(List.range n).flatMap chunk, hrows, ?_⟩
    have hflatten : ((List.range n).flatMap fun ci =>
        (chunk ci).map CopyRow.raw ++ stale ci).flatten
          = (((List.range n).flatMap chunk).map CopyRow.raw).flatten := by
      rw [← hchunks]
      refine flatten_flatMap_append_of_nil fun ci hci => ?_
      rw [List.flatten_eq_nil_iff]
      exact fun row hrow => hempty.mpr hstale ci (List.mem_range.mp hci) row hrow
    rw [copyBinary, copyBinary, hflatten]

/-- **What `processPair` does**: it has no files to write, finds an empty parent, or makes its
passes and merges the files of every region. -/
inductive Processed (cfg : PairExport G) (d : ExportDir)
    (schedule schedule' : List (Fin cfg.nthreads)) : ExportDir → Prop
  | skipped : cfg.extra_vertices_only = true → cfg.emit_extra_vertices = false →
      Processed cfg d schedule schedule' d
  | empty : cfg.minMax = none → Processed cfg d schedule schedule' d
  | merged {min_id max_id : ℤ} {files : String → Option (List UInt8)} :
      cfg.minMax = some (min_id, max_id) → 0 < cfg.nchunks min_id max_id →
      cfg.passes min_id max_id d.scratch schedule schedule' = some files →
      Processed cfg d schedule schedule' ((List.range cfg.regions.length).foldl
        (cfg.mergeRegion (cfg.nchunks min_id max_id).toNat) { d with scratch := files })

lemma processed_of_processPair {d d' : ExportDir} {schedule schedule' : List (Fin cfg.nthreads)}
    (h : cfg.processPair d schedule schedule' = some d') :
    cfg.Processed d schedule schedule' d' := by
  rw [processPair] at h
  split at h
  · rename_i hskip
    obtain rfl := Option.some.inj h
    obtain ⟨honly, hemit⟩ := Bool.and_eq_true_iff.mp hskip
    exact .skipped honly (by simpa using hemit)
  · split at h
    · rename_i hnone
      obtain rfl := Option.some.inj h
      exact .empty hnone
    · rename_i min_id max_id hsome
      dsimp only at h
      split at h
      · simp at h
      · rename_i hn
        obtain ⟨files, hfiles, rfl⟩ := Option.map_eq_some_iff.mp h
        exact .merged hsome (not_le.mp hn) hfiles

/-- **When `processPair` leaves exactly the matching rows behind.** -/
theorem bins_iff_of_processPair (hregions : cfg.regions.length ≤ 32)
    (honly : cfg.extra_vertices_only = false) {d d' : ExportDir}
    {schedule schedule' : List (Fin cfg.nthreads)}
    (h : cfg.processPair d schedule schedule' = some d') :
    (∀ ri < cfg.regions.length, HoldsRows (d'.parent_bin ri) (cfg.matchingParents ri)
        ∧ HoldsRows (d'.child_bin ri) (cfg.matchingChildren ri))
      ↔ cfg.LeavesNoRows d := by
  cases processed_of_processPair h with
  | skipped htrue => exact absurd (honly.symm.trans htrue) Bool.false_ne_true
  | empty hnone =>
      have hempty := minMax_eq_none hnone
      rw [leavesNoRows_of_empty hnone]
      refine forall₂_congr fun ri _ => ?_
      have hparents : cfg.matchingParents ri = [] := by simp [matchingParents, hempty]
      have hchildren : cfg.matchingChildren ri = [] := by
        simp [matchingChildren, idMatches, hempty]
      rw [hparents, hchildren, holdsRows_nil_iff, holdsRows_nil_iff]
  | @merged min_id max_id files hsome hn hfiles =>
      rw [leavesNoRows_of_range hsome]
      refine forall₂_congr fun ri hri => ?_
      have hmerged := merged_regions cfg (cfg.nchunks min_id max_id).toNat
        { d with scratch := files }
      have hperm := perm_flatMap_chunkRows hsome hn ri
      rw [hmerged.parent_bin honly ri hri, hmerged.child_bin honly ri hri]
      dsimp only
      rw [mergedRows_eq hregions honly hfiles (by simp) hri,
        mergedRows_eq hregions honly hfiles (by simp) hri, holdsRows_merged_iff hperm.1,
        holdsRows_merged_iff hperm.2, ← forall₂_and]
      refine forall₂_congr fun ci _ => ?_
      by_cases hw : cfg.NonemptyWindow min_id max_id ci
      · simp [staleRows, hw]
      · simp only [staleRows, hw, if_false, not_false_eq_true, true_implies]
        constructor
        · rintro ⟨hparent, hchild⟩ c hc
          cases c with
          | parent => exact hparent
          | child => exact hchild
          | extra_vertices => exact absurd rfl hc
        · exact fun hall => ⟨hall .parent (by simp), hall .child (by simp)⟩

/-- What `processPair` leaves behind for a region, in a directory without files of it. -/
lemma bins_of_processPair (hregions : cfg.regions.length ≤ 32)
    (honly : cfg.extra_vertices_only = false) {d d' : ExportDir} (hfresh : cfg.Fresh d)
    {schedule schedule' : List (Fin cfg.nthreads)}
    (h : cfg.processPair d schedule schedule' = some d') {ri : ℕ}
    (hri : ri < cfg.regions.length) :
    HoldsRows (d'.parent_bin ri) (cfg.matchingParents ri)
      ∧ HoldsRows (d'.child_bin ri) (cfg.matchingChildren ri) :=
  (bins_iff_of_processPair hregions honly h).mpr hfresh.leavesNoRows ri hri

/-- It leaves the two `.bin`s behind unless the parent is empty. -/
lemma bins_isSome_of_processPair (honly : cfg.extra_vertices_only = false) {d d' : ExportDir}
    (hfresh : cfg.Fresh d) {schedule schedule' : List (Fin cfg.nthreads)}
    (h : cfg.processPair d schedule schedule' = some d') {ri : ℕ}
    (hri : ri < cfg.regions.length) :
    ((d'.parent_bin ri).isSome ↔ cfg.parent.rows ≠ [])
      ∧ ((d'.child_bin ri).isSome ↔ cfg.parent.rows ≠ []) := by
  cases processed_of_processPair h with
  | skipped htrue => exact absurd (honly.symm.trans htrue) Bool.false_ne_true
  | empty hnone =>
      rw [hfresh.parent_bin ri hri, hfresh.child_bin ri hri]
      simp [minMax_eq_none hnone]
  | @merged min_id max_id files hsome _ _ =>
      have hne : cfg.parent.rows ≠ [] := by
        obtain ⟨⟨r, hr, -⟩, -⟩ := minMax_eq_some hsome
        exact List.ne_nil_of_mem hr
      have hmerged := merged_regions cfg (cfg.nchunks min_id max_id).toNat
        { d with scratch := files }
      rw [hmerged.parent_bin honly ri hri, hmerged.child_bin honly ri hri]
      simp [hne]

/-- **The pools of `processPair` can always be run to their end.** -/
lemma exists_processPair (d : ExportDir)
    (hn : ∀ min_id max_id, cfg.minMax = some (min_id, max_id) → 0 < cfg.nchunks min_id max_id) :
    ∃ schedule schedule', (cfg.processPair d schedule schedule').isSome := by
  cases hminMax : cfg.minMax with
  | none => exact ⟨[], [], by simp [processPair, hminMax]⟩
  | some range =>
      obtain ⟨min_id, max_id⟩ := range
      obtain ⟨schedule, hparents⟩ := WorkPool.exists_finished cfg.act
        (cfg.nchunks min_id max_id).toNat (cfg.parentWorkForChunk min_id max_id)
        (WorkPool.start cfg.nthreads ⟨d.scratch, fun _ => []⟩)
      obtain ⟨schedule', hchildren⟩ := WorkPool.exists_finished cfg.act
        (cfg.nchunks min_id max_id).toNat (cfg.childWorkForChunk
          (sortMaps (cfg.parentPass min_id max_id d.scratch schedule).shared).local_maps
          min_id max_id)
        (WorkPool.start cfg.nthreads
          (sortMaps (cfg.parentPass min_id max_id d.scratch schedule).shared))
      have hfin : (cfg.parentPass min_id max_id d.scratch schedule).hasFinished = true :=
        (WorkPool.hasFinished_iff _).mpr hparents
      have hfin' : (cfg.childPass min_id max_id
          (sortMaps (cfg.parentPass min_id max_id d.scratch schedule).shared)
          schedule').hasFinished = true := (WorkPool.hasFinished_iff _).mpr hchildren
      refine ⟨schedule, schedule', ?_⟩
      have hpos := not_le.mpr (hn min_id max_id hminMax)
      cases honly : cfg.extra_vertices_only <;> cases hemit : cfg.emit_extra_vertices <;>
        simp [processPair, hminMax, hpos, passes, hfin, hfin', honly, hemit]

/-- **When `processPair` is an exact filter.**  The windows are disjoint and cover the ids
of the table, and are computed within 64 bits; the pools can be run to their end; and
under every schedule that does so, the regions' `.bin`s hold the rows of the parent that
match and the rows of the child with the id of one of these, exactly if what stood in the
directory adds no row. -/
theorem processPair_exact_iff (cfg : PairExport G) (hregions : cfg.regions.length ≤ 32)
    (hids : ∀ r ∈ cfg.parent.rows, |r.id| < 2 ^ 61) (honly : cfg.extra_vertices_only = false)
    (d : ExportDir) :
    (∀ min_id max_id, cfg.minMax = some (min_id, max_id) → 0 < cfg.nchunks min_id max_id →
      (∀ i j x, inWindow (cfg.windowFor min_id max_id i) x →
          inWindow (cfg.windowFor min_id max_id j) x → i = j)
        ∧ (∀ x, min_id ≤ x ∧ x ≤ max_id → ∃ i < (cfg.nchunks min_id max_id).toNat,
          inWindow (cfg.windowFor min_id max_id i) x)
        ∧ ∀ ci < (cfg.nchunks min_id max_id).toNat, ∀ x ∈ cfg.windowSums min_id max_id ci,
          -2 ^ 63 ≤ x ∧ x < 2 ^ 63)
      ∧ (cfg.threads < 2 ^ 28 →
        ∃ schedule schedule', (cfg.processPair d schedule schedule').isSome)
      ∧ ∀ schedule schedule' d', cfg.processPair d schedule schedule' = some d' →
        ((∀ ri < cfg.regions.length, HoldsRows (d'.parent_bin ri) (cfg.matchingParents ri)
          ∧ HoldsRows (d'.child_bin ri) (cfg.matchingChildren ri)) ↔ cfg.LeavesNoRows d) := by
  refine ⟨fun min_id max_id h hn => ?_, fun hthreads => ?_,
    fun schedule schedule' d' h => bins_iff_of_processPair hregions honly h⟩
  · have hle := min_le_max h
    obtain ⟨⟨a, ha, rfl⟩, ⟨b, hb, rfl⟩, -⟩ := minMax_eq_some h
    refine ⟨fun i j x hi hj => windowFor_disjoint hle hn hi hj,
      fun x hx => exists_windowFor hle hn hx, fun ci hci => ?_⟩
    exact windowSums_mem_int64 hle hn (hids a ha) (hids b hb) hci
  · exact exists_processPair d fun min_id max_id _ => nchunks_pos hthreads

/-- A table of short rows whose `SELECT`s come in the order of the table. -/
def tableOf (rows : List CopyRow) (h : ∀ r ∈ rows, r.raw.length < 2 ^ 32) : CopyTable where
  rows := rows
  between lo hi := rows.filter fun r => lo ≤ r.id ∧ r.id ≤ hi
  between_perm _ _ := List.Perm.refl _
  raw_lt := h

lemma raw_lt_nil : ∀ r ∈ ([] : List CopyRow), r.raw.length < 2 ^ 32 := List.forall_mem_nil _

/-- Two ways, of which the one with the negative id lies in the only region, and a tag of
each. -/
def twoWays : PairExport Bool where
  pair := ⟨"ways", 2, "way_tags"⟩
  pair_mem := ways_mem_kTablePairs
  parent := tableOf [⟨[1], -7⟩, ⟨[2], 5⟩] (by decide)
  child := tableOf [⟨[3], 5⟩, ⟨[4], -7⟩] (by decide)
  nodup_ids := by decide
  decode r := some (r.id < 0)
  vertices _ := []
  ofPoint _ := false
  out_dir := "out"
  regions := [⟨"andorra", id⟩]
  nodup_names := by decide
  threads := 2
  extra_vertices_only := false

/-- A directory of an earlier export, with a row in every scratch file and in every
`.bin`. -/
def usedDir : ExportDir where
  scratch _ := some (lengthPrefix.frame [9])
  parent_bin _ := some (copyBinary [[9]])
  child_bin _ := some (copyBinary [[9]])
  extra_vertices _ := none

theorem processPair_exact_iff_twoWays : ∃ schedule schedule' d',
    twoWays.processPair usedDir schedule schedule' = some d'
      ∧ HoldsRows (d'.parent_bin 0) [⟨[1], -7⟩] ∧ HoldsRows (d'.child_bin 0) [⟨[4], -7⟩] := by
  obtain ⟨-, hrun, hexact⟩ := processPair_exact_iff twoWays (by decide) (by decide) rfl usedDir
  obtain ⟨schedule, schedule', hsome⟩ := hrun (by decide)
  obtain ⟨d', hd'⟩ := Option.isSome_iff_exists.mp hsome
  have hrange : twoWays.minMax = some (-7, 5) := by decide
  have hwindows : ∀ ci < (twoWays.nchunks (-7) 5).toNat, twoWays.NonemptyWindow (-7) 5 ci := by
    decide
  refine ⟨schedule, schedule', d', hd', (hexact _ _ _ hd').mpr ?_ 0 (by decide)⟩
  rw [leavesNoRows_of_range hrange]
  exact fun ri _ ci hci hw => absurd (hwindows ci hci) hw

/-! ### Rows that should not be there -/

/-- The pair after all ways have been deleted. -/
def noWays : PairExport Bool :=
  { twoWays with
    parent := tableOf [] raw_lt_nil
    child := tableOf [] raw_lt_nil
    nodup_ids := List.nodup_nil }

/-- Ways over a range of nine ids, which one worker cuts into eight windows of two ids,
the last three of them empty. -/
def grownWays : PairExport Bool :=
  { twoWays with
    parent := tableOf [⟨[1], -8⟩, ⟨[2], 0⟩] (by decide)
    child := tableOf [] raw_lt_nil
    nodup_ids := by decide
    threads := 1 }

/-- **Rows that match no region are exported**: an empty parent leaves the `.bin` of the
export before, and a scratch file that a killed run left for what is now an empty window is
merged. -/
theorem stale_rows_exported :
    (∃ d', noWays.processPair usedDir [] [] = some d'
      ∧ ¬ HoldsRows (d'.parent_bin 0) (noWays.matchingParents 0))
    ∧ ∃ schedule schedule' d', grownWays.processPair usedDir schedule schedule' = some d'
      ∧ ¬ ∀ ri < grownWays.regions.length,
        HoldsRows (d'.parent_bin ri) (grownWays.matchingParents ri)
          ∧ HoldsRows (d'.child_bin ri) (grownWays.matchingChildren ri) := by
  constructor
  · refine ⟨usedDir, rfl, fun h => ?_⟩
    have hrows : noWays.matchingParents 0 = [] := rfl
    rw [hrows, holdsRows_nil_iff] at h
    rcases h with h | h
    · cases h
    · exact absurd h (by decide)
  · have hpass : ∃ schedule schedule',
        (grownWays.processPair usedDir schedule schedule').isSome :=
      exists_processPair usedDir fun _ _ _ => nchunks_pos (by decide)
    obtain ⟨schedule, schedule', hsome⟩ := hpass
    obtain ⟨d', hd'⟩ := Option.isSome_iff_exists.mp hsome
    refine ⟨schedule, schedule', d', hd', fun h => ?_⟩
    have hrange : grownWays.minMax = some (-8, 0) := by decide
    have hleft := (bins_iff_of_processPair (by decide) rfl hd').mp h
    rw [leavesNoRows_of_range hrange] at hleft
    have hframe : lengthPrefix.readFrames (lengthPrefix.frame [9]) = [[9]] := by
      have h : lengthPrefix.readFrames ([[9]].flatMap lengthPrefix.frame) = [[9]] :=
        lengthPrefix.readFrames_flatMap_frame (by decide)
      simpa using h
    have hrow := hleft 0 (by decide) 7 (by decide) (by decide) .parent (by decide) [9]
      (by rw [usedDir, Option.getD_some, hframe]; exact List.mem_singleton_self _)
    cases hrow

end PairExport

end Gpsxdb
