import Mathlib.Tactic
import Gpsxdb.Library.FileOps
import Gpsxdb.Export.PairChunks

/-!
What the child pass of `processPair` leaves in the scratch files, and what the merge
makes of them.

* `childPass_files`: what the child pass leaves;
* `matchingParents`, `matchingChildren`: the rows that a region is to get;
* `passes_files`, `passes_extra_vertices`: **the scratch files after both passes**;
* `mergeTempFiles_paths`, `appendExtraVertices_paths`: the merge of a region's files;
* `Merged`, `merged_regions`: **the region files after the merge**.
-/

namespace Gpsxdb

namespace PairExport

variable {G : Type} {cfg : PairExport G} {min_id max_id : ℤ}

/-! ### The child pass -/

/-- What a child worker writes of a row to a file of a region. -/
def childWrites (entries : List (ℤ × BitVec 32)) (ri : ℕ) (r : CopyRow) : List (List UInt8) :=
  if (lookupBitmask entries r.id).getLsbD ri then [lengthPrefix.frame r.raw] else []

/-- The actions of the child loop's body on one file. -/
lemma filter_childRow (hregions : cfg.regions.length ≤ 32) (entries : List (ℤ × BitVec 32))
    {ri : ℕ} (hri : ri < cfg.regions.length) (ci : ℕ) (r : CopyRow) :
    (cfg.childRow entries ci r).filter (·.onFile ⟨.child, ri, ci⟩)
      = (childWrites entries ri r).map (.fwrite ⟨.child, ri, ci⟩) := by
  have hon : ∀ i bytes, (ScratchAction.fwrite ⟨.child, i, ci⟩ bytes).onFile ⟨.child, ri, ci⟩
      = decide (i = ri) := by
    intro i bytes
    simp [ScratchAction.onFile, ScratchAction.file?]
  rw [childRow]
  by_cases hzero : lookupBitmask entries r.id = 0#32
  · rw [if_pos hzero, childWrites, hzero]
    simp
  · rw [if_neg hzero, List.filter_flatMap, flatMap_range_single hri]
    · have hbit := and_regionBit_ne_zero (m := lookupBitmask entries r.id)
        (show ri < 32 by omega)
      rw [childWrites]
      by_cases hb : (lookupBitmask entries r.id).getLsbD ri = true
      · rw [if_pos (hbit.mpr hb), if_pos hb]
        simp [hon]
      · rw [if_neg (mt hbit.mp hb), if_neg hb]
        rfl
    · intro i _ hne
      split
      · simp [hon, hne]
      · rfl

/-- The actions of a child worker on one of its chunk's files. -/
lemma filter_childWork (hregions : cfg.regions.length ≤ 32)
    (local_maps : ℕ → List (ℤ × BitVec 32)) {ri : ℕ} (hri : ri < cfg.regions.length) (ci : ℕ) :
    (cfg.childWorkForChunk local_maps min_id max_id ci).filter (·.onFile ⟨.child, ri, ci⟩)
      = if cfg.NonemptyWindow min_id max_id ci then
          .fopen ⟨.child, ri, ci⟩ :: ((cfg.childRows min_id max_id ci).flatMap
            (childWrites (local_maps ci) ri)).map (.fwrite ⟨.child, ri, ci⟩)
        else [] := by
  rw [childWorkForChunk]
  dsimp only
  by_cases h : cfg.NonemptyWindow min_id max_id ci
  · rw [if_neg (not_lt.mpr h), if_pos h, List.filter_append, filter_openWriters _ _ hri,
      if_pos rfl, List.filter_flatMap, List.singleton_append, List.map_flatMap]
    refine congrArg _ (List.flatMap_congr fun r _ => ?_)
    exact filter_childRow hregions _ hri ci r
  · rw [if_pos (not_le.mp h), if_neg h, List.filter_nil]

/-- An action of a child worker is on a child file of its chunk. -/
lemma mem_childWork {local_maps : ℕ → List (ℤ × BitVec 32)} {ci : ℕ} {a : ScratchAction}
    (ha : a ∈ cfg.childWorkForChunk local_maps min_id max_id ci) :
    ∃ ri < cfg.regions.length, a.file? = some ⟨.child, ri, ci⟩ := by
  rw [childWorkForChunk] at ha
  dsimp only at ha
  split at ha
  · simp at ha
  · rcases List.mem_append.mp ha with ha | ha
    · obtain ⟨ri, hri, rfl⟩ := List.mem_map.mp ha
      exact ⟨ri, List.mem_range.mp hri, rfl⟩
    · obtain ⟨r, -, ha⟩ := List.mem_flatMap.mp ha
      rw [childRow] at ha
      split at ha
      · simp at ha
      · obtain ⟨ri, hri, ha⟩ := List.mem_flatMap.mp ha
        split at ha
        · obtain rfl := List.mem_singleton.mp ha
          exact ⟨ri, List.mem_range.mp hri, rfl⟩
        · simp at ha

/-- A finished pass has run a shuffle of its tasks. -/
lemma exists_shuffle_childPass {s : Scratch} {schedule : List (Fin cfg.nthreads)}
    (hfin : (cfg.childPass min_id max_id s schedule).Finished) :
    ∃ trace, Shuffle (cfg.nchunks min_id max_id).toNat
        (cfg.childWorkForChunk s.local_maps min_id max_id) trace
      ∧ (cfg.childPass min_id max_id s schedule).shared
        = (trace.map Prod.snd).foldl cfg.act s := by
  exact WorkPool.exists_shuffle nthreads_pos hfin

/-- A shuffle of the tasks touches the child files of regions only. -/
lemma child_of_shuffle_childWork {n : ℕ} {local_maps : ℕ → List (ℤ × BitVec 32)}
    {trace : List (ℕ × ScratchAction)}
    (h : Shuffle n (cfg.childWorkForChunk local_maps min_id max_id) trace) :
    ∀ a ∈ trace.map Prod.snd, ∀ g, a.file? = some g → cfg.Valid g ∧ g.content = .child := by
  intro a ha g hg
  obtain ⟨x, hx, rfl⟩ := List.mem_map.mp ha
  obtain ⟨i, hi, hfile⟩ := mem_childWork (h.mem_tasks hx)
  obtain rfl := Option.some.inj (hfile.symm.trans hg)
  exact ⟨hi, rfl⟩

/-- **What the child pass leaves in a file.** -/
theorem childPass_files (hregions : cfg.regions.length ≤ 32) {s : Scratch}
    {schedule : List (Fin cfg.nthreads)}
    (hfin : (cfg.childPass min_id max_id s schedule).Finished) {ri ci : ℕ}
    (hri : ri < cfg.regions.length) (hci : ci < (cfg.nchunks min_id max_id).toNat) :
    (cfg.childPass min_id max_id s schedule).shared.files (cfg.path ⟨.child, ri, ci⟩)
      = if cfg.NonemptyWindow min_id max_id ci then
          some ((cfg.childRows min_id max_id ci).flatMap
            (childWrites (s.local_maps ci) ri)).flatten
        else s.files (cfg.path ⟨.child, ri, ci⟩) := by
  obtain ⟨trace, htrace, hshared⟩ := exists_shuffle_childPass hfin
  have hchild := child_of_shuffle_childWork htrace
  have hfilter : (trace.map Prod.snd).filter (·.onFile ⟨.child, ri, ci⟩)
      = (cfg.childWorkForChunk s.local_maps min_id max_id ci).filter
          (·.onFile ⟨.child, ri, ci⟩) := by
    refine htrace.filter_eq hci fun j _ hj a ha => ?_
    obtain ⟨i, -, hfile⟩ := mem_childWork ha
    simp [ScratchAction.onFile, hfile, hj]
  have hf : cfg.Valid ⟨.child, ri, ci⟩ := hri
  rw [hshared, files_foldl hf fun a ha g hg => (hchild a ha g hg).1, hfilter,
    filter_childWork hregions _ hri]
  split
  · exact writeTo_fopen_fwrite _ _ _
  · rfl

/-- The child pass leaves the other files as they are. -/
lemma childPass_files_other {s : Scratch} {schedule : List (Fin cfg.nthreads)}
    (hfin : (cfg.childPass min_id max_id s schedule).Finished) {f : ScratchFile}
    (hf : cfg.Valid f) (hcontent : f.content ≠ .child) :
    (cfg.childPass min_id max_id s schedule).shared.files (cfg.path f)
      = s.files (cfg.path f) := by
  obtain ⟨trace, htrace, hshared⟩ := exists_shuffle_childPass hfin
  have hchild := child_of_shuffle_childWork htrace
  have hnone : (trace.map Prod.snd).filter (·.onFile f) = [] := by
    rw [List.filter_eq_nil_iff]
    intro a ha hon
    have hf' : a.file? = some f := by simpa [ScratchAction.onFile] using hon
    exact hcontent (hchild a ha f hf').2
  rw [hshared, files_foldl hf fun a ha g hg => (hchild a ha g hg).1, hnone, List.foldl_nil]

/-! ### Both passes -/

/-- The rows of the parent that match a region. -/
def matchingParents (cfg : PairExport G) (ri : ℕ) : List CopyRow :=
  cfg.parent.rows.filter fun r => cfg.rowMatches r ri

/-- A row of the parent with an id matches a region. -/
def idMatches (cfg : PairExport G) (ri : ℕ) (id : ℤ) : Prop :=
  ∃ r ∈ cfg.parent.rows, r.id = id ∧ cfg.rowMatches r ri = true

instance (ri : ℕ) (id : ℤ) : Decidable (cfg.idMatches ri id) :=
  inferInstanceAs (Decidable (∃ r ∈ cfg.parent.rows, _))

/-- The rows of the child whose id is the id of such a row. -/
def matchingChildren (cfg : PairExport G) (ri : ℕ) : List CopyRow :=
  cfg.child.rows.filter fun r => cfg.idMatches ri r.id

/-- The rows of a chunk that a pass writes for a region. -/
def chunkRows (cfg : PairExport G) (min_id max_id : ℤ) (ri ci : ℕ) : ScratchContent →
    List CopyRow
  | .parent => (cfg.parentRows min_id max_id ci).filter fun r => cfg.rowMatches r ri
  | .child => (cfg.childRows min_id max_id ci).filter fun r => cfg.idMatches ri r.id
  | .extra_vertices => []

/-- The vertices of a chunk that the parent pass writes for a region. -/
def chunkVertices (cfg : PairExport G) (min_id max_id : ℤ) (ri ci : ℕ) : List Coord :=
  ((cfg.parentRows min_id max_id ci).filter fun r => cfg.rowMatches r ri).flatMap
    fun r => cfg.outsideVertices r ri

lemma flatMap_parentWrites (rows : List CopyRow) (ri : ℕ)
    (hopen : cfg.opened .parent = true) :
    (rows.flatMap (cfg.parentWrites .parent ri)).flatten
      = ((rows.filter fun r => cfg.rowMatches r ri).map CopyRow.raw).flatMap
          lengthPrefix.frame := by
  induction rows with
  | nil => rfl
  | cons r rows ih =>
      rw [List.flatMap_cons, List.flatten_append, ih, List.filter_cons]
      by_cases hm : cfg.rowMatches r ri = true <;> simp [parentWrites, hopen, hm]

lemma flatMap_parentWrites_vertices (rows : List CopyRow) (ri : ℕ)
    (hopen : cfg.opened .extra_vertices = true) :
    (rows.flatMap (cfg.parentWrites .extra_vertices ri)).flatten
      = ((rows.filter fun r => cfg.rowMatches r ri).flatMap
          fun r => cfg.outsideVertices r ri).flatMap vertexRecord := by
  induction rows with
  | nil => rfl
  | cons r rows ih =>
      rw [List.flatMap_cons, List.flatten_append, ih, List.filter_cons]
      by_cases hm : cfg.rowMatches r ri = true
      · simp [parentWrites, hopen, hm, List.flatMap_def]
      · simp [parentWrites, hm]

lemma flatMap_childWrites {entries : List (ℤ × BitVec 32)} {rows : List CopyRow} {ri : ℕ}
    (hlookup : ∀ r ∈ rows, (lookupBitmask entries r.id).getLsbD ri = true
      ↔ cfg.idMatches ri r.id) :
    (rows.flatMap (childWrites entries ri)).flatten
      = ((rows.filter fun r => cfg.idMatches ri r.id).map CopyRow.raw).flatMap
          lengthPrefix.frame := by
  induction rows with
  | nil => rfl
  | cons r rows ih =>
      have hr := hlookup r (List.mem_cons_self ..)
      rw [List.flatMap_cons, List.flatten_append,
        ih fun r' hr' => hlookup r' (List.mem_cons_of_mem _ hr'), List.filter_cons]
      by_cases hm : cfg.idMatches ri r.id
      · simp [childWrites, hr.mpr hm, hm]
      · have hbit : (lookupBitmask entries r.id).getLsbD ri = false := by
          simpa using mt hr.mp hm
        simp [childWrites, hbit, hm]

/-- The pools that `passes` waits for. -/
lemma finished_of_passes {files files' : String → Option (List UInt8)}
    {schedule schedule' : List (Fin cfg.nthreads)}
    (h : cfg.passes min_id max_id files schedule schedule' = some files') :
    (cfg.parentPass min_id max_id files schedule).Finished
      ∧ ((cfg.extra_vertices_only = true
          ∧ files' = (cfg.parentPass min_id max_id files schedule).shared.files)
        ∨ (cfg.extra_vertices_only = false
          ∧ (cfg.childPass min_id max_id
              (sortMaps (cfg.parentPass min_id max_id files schedule).shared) schedule').Finished
          ∧ files' = (cfg.childPass min_id max_id
              (sortMaps (cfg.parentPass min_id max_id files schedule).shared)
              schedule').shared.files)) := by
  rw [passes] at h
  split at h
  · simp at h
  · rename_i hparents
    have hfin := (WorkPool.hasFinished_iff _).mp
      (show (cfg.parentPass min_id max_id files schedule).hasFinished = true by
        simpa using hparents)
    refine ⟨hfin, ?_⟩
    split at h
    · rename_i honly
      exact Or.inl ⟨honly, (Option.some.inj h).symm⟩
    · rename_i honly
      split at h
      · rename_i hchildren
        exact Or.inr ⟨by simpa using honly, (WorkPool.hasFinished_iff _).mp hchildren,
          (Option.some.inj h).symm⟩
      · simp at h

/-- **The row files after both passes.** -/
theorem passes_files (hregions : cfg.regions.length ≤ 32)
    (honly : cfg.extra_vertices_only = false) {files files' : String → Option (List UInt8)}
    {schedule schedule' : List (Fin cfg.nthreads)}
    (h : cfg.passes min_id max_id files schedule schedule' = some files')
    {c : ScratchContent} (hc : c ≠ .extra_vertices) {ri ci : ℕ} (hri : ri < cfg.regions.length)
    (hci : ci < (cfg.nchunks min_id max_id).toNat) :
    files' (cfg.path ⟨c, ri, ci⟩)
      = if cfg.NonemptyWindow min_id max_id ci then
          some (((cfg.chunkRows min_id max_id ri ci c).map CopyRow.raw).flatMap
            lengthPrefix.frame)
        else files (cfg.path ⟨c, ri, ci⟩) := by
  have hf : ∀ c', cfg.Valid ⟨c', ri, ci⟩ := fun _ => hri
  obtain ⟨hparents, ⟨honly', -⟩ | ⟨-, hchildren, rfl⟩⟩ := finished_of_passes h
  · rw [honly] at honly'
    cases honly'
  · cases c with
    | parent =>
        have hopen : cfg.opened .parent = true := by simp [opened, honly]
        have hparent := parentPass_files hparents (hf .parent) hci
        rw [childPass_files_other hchildren (hf .parent) (by simp)]
        refine hparent.trans ?_
        by_cases hw : cfg.NonemptyWindow min_id max_id ci
        · rw [if_pos ⟨hw, hopen⟩, if_pos hw, flatMap_parentWrites _ ri hopen]
          rfl
        · rw [if_neg fun h' => hw h'.1, if_neg hw]
    | child =>
        have hparent := parentPass_files hparents (hf .child) hci
        rw [childPass_files hregions hchildren hri hci]
        by_cases hw : cfg.NonemptyWindow min_id max_id ci
        · rw [if_pos hw, if_pos hw, flatMap_childWrites fun r hr => ?_]
          · rfl
          · have hid : inWindow (cfg.windowFor min_id max_id ci) r.id := by
              rw [childRows, (cfg.child.between_perm _ _).mem_iff, List.mem_filter] at hr
              simpa [inWindow] using hr.2
            exact lookupBitmask_parentPass hparents hci hid hregions hri
        · rw [if_neg hw, if_neg hw]
          refine hparent.trans (if_neg fun h' => hw h'.1)
    | extra_vertices => exact absurd rfl hc

/-- **The vertex files after both passes.** -/
theorem passes_extra_vertices {files files' : String → Option (List UInt8)}
    {schedule schedule' : List (Fin cfg.nthreads)}
    (h : cfg.passes min_id max_id files schedule schedule' = some files') {ri ci : ℕ}
    (hri : ri < cfg.regions.length) (hci : ci < (cfg.nchunks min_id max_id).toNat) :
    files' (cfg.path ⟨.extra_vertices, ri, ci⟩)
      = if cfg.NonemptyWindow min_id max_id ci ∧ cfg.emit_extra_vertices = true then
          some ((cfg.chunkVertices min_id max_id ri ci).flatMap vertexRecord)
        else files (cfg.path ⟨.extra_vertices, ri, ci⟩) := by
  have hf : cfg.Valid ⟨.extra_vertices, ri, ci⟩ := hri
  obtain ⟨hparents, hfiles⟩ := finished_of_passes h
  have hparent := parentPass_files hparents hf hci
  have hfile : files' (cfg.path ⟨.extra_vertices, ri, ci⟩)
      = (cfg.parentPass min_id max_id files schedule).shared.files
          (cfg.path ⟨.extra_vertices, ri, ci⟩) := by
    obtain ⟨-, rfl⟩ | ⟨-, hchildren, rfl⟩ := hfiles
    · rfl
    · exact childPass_files_other hchildren hf (by simp)
  rw [hfile]
  refine hparent.trans ?_
  by_cases hw : cfg.NonemptyWindow min_id max_id ci ∧ cfg.emit_extra_vertices = true
  · rw [if_pos hw, if_pos (show _ ∧ cfg.opened .extra_vertices = true from hw),
      flatMap_parentWrites_vertices _ ri hw.2]
    rfl
  · exact (if_neg hw).trans (if_neg hw).symm

/-- A file of a chunk that there is not stays as it is. -/
lemma passes_extra_vertices_of_le {files files' : String → Option (List UInt8)}
    {schedule schedule' : List (Fin cfg.nthreads)}
    (h : cfg.passes min_id max_id files schedule schedule' = some files') {ri ci : ℕ}
    (hri : ri < cfg.regions.length) (hci : (cfg.nchunks min_id max_id).toNat ≤ ci) :
    files' (cfg.path ⟨.extra_vertices, ri, ci⟩)
      = files (cfg.path ⟨.extra_vertices, ri, ci⟩) := by
  have hf : cfg.Valid ⟨.extra_vertices, ri, ci⟩ := hri
  obtain ⟨hparents, hfiles⟩ := finished_of_passes h
  obtain ⟨trace, htrace, hshared⟩ := exists_shuffle_parentPass hparents
  have hnone : (trace.map Prod.snd).filter (·.onFile ⟨.extra_vertices, ri, ci⟩) = [] := by
    refine htrace.filter_eq_nil fun j hj a ha => ?_
    by_contra hon
    have hfile : a.file? = some ⟨.extra_vertices, ri, ci⟩ := by
      simpa [ScratchAction.onFile] using hon
    have hcj : ci = j := ((mem_parentWork ha).1 _ hfile).1
    omega
  have hparent : (cfg.parentPass min_id max_id files schedule).shared.files
      (cfg.path ⟨.extra_vertices, ri, ci⟩) = files (cfg.path ⟨.extra_vertices, ri, ci⟩) := by
    rw [hshared, files_foldl hf (valid_of_shuffle_parentWork htrace), hnone, List.foldl_nil]
  obtain ⟨-, rfl⟩ | ⟨-, hchildren, rfl⟩ := hfiles
  · exact hparent
  · exact (childPass_files_other hchildren hf (by simp)).trans hparent

/-! ### The merge -/

/-- The rows in the files of a region. -/
def mergedRows (cfg : PairExport G) (files : String → Option (List UInt8))
    (c : ScratchContent) (n ri : ℕ) : List (List UInt8) :=
  (List.range n).flatMap fun ci =>
    lengthPrefix.readFrames ((files (cfg.path ⟨c, ri, ci⟩)).getD [])

/-- The bytes in the vertex files of a region. -/
def mergedVertices (cfg : PairExport G) (files : String → Option (List UInt8)) (n ri : ℕ) :
    List UInt8 :=
  (List.range n).flatMap fun ci => (files (cfg.path ⟨.extra_vertices, ri, ci⟩)).getD []

section Paths

variable {c : ScratchContent} {n ri : ℕ}

lemma nodup_paths (hri : ri < cfg.regions.length) : (cfg.paths c n ri).Nodup := by
  refine List.Nodup.map_on (fun ci _ ci' _ h => ?_) List.nodup_range
  have hf : ∀ i, cfg.Valid ⟨c, ri, i⟩ := fun _ => hri
  exact congrArg ScratchFile.ci (path_inj (hf ci) (hf ci') h)

lemma path_mem_paths (hri : ri < cfg.regions.length) {f : ScratchFile} (hf : cfg.Valid f)
    (h : cfg.path f ∈ cfg.paths c n ri) : f.content = c ∧ f.ri = ri := by
  obtain ⟨ci, -, hci⟩ := List.mem_map.mp h
  obtain rfl := path_inj (f := ⟨c, ri, ci⟩) hri hf hci
  exact ⟨rfl, rfl⟩

variable {files : String → Option (List UInt8)}

/-- **Merging the files of a content and region**: their rows, and they are gone. -/
lemma mergeTempFiles_paths (hri : ri < cfg.regions.length) :
    mergeTempFiles files (cfg.paths c n ri) = (cfg.mergedRows files c n ri,
      fun p => if p ∈ cfg.paths c n ri then none else files p) := by
  refine (foldl_unlink (fun b => lengthPrefix.readFrames (b.getD [])) (nodup_paths hri) []
    files).trans ?_
  rw [paths, List.flatMap_map]
  rfl

/-- **Appending the vertex files of a region**: their bytes, and they are gone. -/
lemma appendExtraVertices_paths (hri : ri < cfg.regions.length) :
    appendExtraVertices files (cfg.paths .extra_vertices n ri) = (cfg.mergedVertices files n ri,
      fun p => if p ∈ cfg.paths .extra_vertices n ri then none else files p) := by
  refine (foldl_unlink (fun b => b.getD []) (nodup_paths hri) [] files).trans ?_
  rw [paths, List.flatMap_map]
  rfl

/-- The files left are those of other contents and regions. -/
lemma unlink_paths (hri : ri < cfg.regions.length) {f : ScratchFile} (hf : cfg.Valid f)
    (hne : f.content ≠ c ∨ f.ri ≠ ri) :
    (if cfg.path f ∈ cfg.paths c n ri then none else files (cfg.path f)) = files (cfg.path f) := by
  refine if_neg fun h => ?_
  obtain ⟨hc, hr⟩ := path_mem_paths hri hf h
  exact hne.elim (fun h => h hc) fun h => h hr

/-- What is read after the files of other contents are gone. -/
lemma mergedRows_unlink (hri : ri < cfg.regions.length) {c' : ScratchContent} (hc : c' ≠ c) :
    cfg.mergedRows (fun p => if p ∈ cfg.paths c n ri then none else files p) c' n ri
      = cfg.mergedRows files c' n ri := by
  refine List.flatMap_congr fun ci _ => ?_
  exact congrArg _ (congrArg (·.getD []) (unlink_paths (f := ⟨c', ri, ci⟩) hri hri (Or.inl hc)))

lemma mergedVertices_unlink (hri : ri < cfg.regions.length) (hc : c ≠ .extra_vertices) :
    cfg.mergedVertices (fun p => if p ∈ cfg.paths c n ri then none else files p) n ri
      = cfg.mergedVertices files n ri := by
  refine List.flatMap_congr fun ci _ => ?_
  exact congrArg (·.getD []) (unlink_paths (f := ⟨.extra_vertices, ri, ci⟩) hri hri
    (Or.inl hc.symm))

end Paths

section Region

variable {n ri : ℕ} (d : ExportDir)

/-- The merge of a region takes its scratch files only. -/
lemma mergeRegion_scratch (hri : ri < cfg.regions.length) {f : ScratchFile} (hf : cfg.Valid f)
    (hne : f.ri ≠ ri) : (cfg.mergeRegion n d ri).scratch (cfg.path f) = d.scratch (cfg.path f) := by
  have hother : ∀ (files : String → Option (List UInt8)) c,
      (if cfg.path f ∈ cfg.paths c n ri then none else files (cfg.path f)) = files (cfg.path f) :=
    fun files c => unlink_paths hri hf (Or.inr hne)
  cases honly : cfg.extra_vertices_only <;> cases hemit : cfg.emit_extra_vertices <;>
    simp only [mergeRegion, honly, hemit, mergeTempFiles_paths hri,
      appendExtraVertices_paths hri, hother, if_true, if_false, Bool.false_eq_true]

/-- The merge of a region takes its vertex files, if there are any. -/
lemma mergeRegion_scratch_vertices (hri : ri < cfg.regions.length) (ci : ℕ) :
    (cfg.mergeRegion n d ri).scratch (cfg.path ⟨.extra_vertices, ri, ci⟩)
      = if cfg.emit_extra_vertices = true ∧ ci < n then none
        else d.scratch (cfg.path ⟨.extra_vertices, ri, ci⟩) := by
  have hf : cfg.Valid ⟨.extra_vertices, ri, ci⟩ := hri
  have hother : ∀ (files : String → Option (List UInt8)) c, c ≠ .extra_vertices →
      (if cfg.path ⟨.extra_vertices, ri, ci⟩ ∈ cfg.paths c n ri then none
        else files (cfg.path ⟨.extra_vertices, ri, ci⟩))
        = files (cfg.path ⟨.extra_vertices, ri, ci⟩) :=
    fun files c hc => unlink_paths hri hf (Or.inl hc.symm)
  have hself : cfg.path ⟨.extra_vertices, ri, ci⟩ ∈ cfg.paths .extra_vertices n ri ↔ ci < n := by
    constructor
    · intro h
      obtain ⟨cj, hcj, hpath⟩ := List.mem_map.mp h
      have hg : cfg.Valid ⟨.extra_vertices, ri, cj⟩ := hri
      obtain rfl : cj = ci := congrArg ScratchFile.ci (path_inj hg hf hpath)
      exact List.mem_range.mp hcj
    · exact fun h => List.mem_map.mpr ⟨ci, List.mem_range.mpr h, rfl⟩
  cases honly : cfg.extra_vertices_only <;> cases hemit : cfg.emit_extra_vertices <;>
    simp only [mergeRegion, honly, hemit, mergeTempFiles_paths hri,
      appendExtraVertices_paths hri, hself, if_true, if_false, Bool.false_eq_true, false_and,
      true_and, hother _ .child (by simp), hother _ .parent (by simp)]

/-- The merge of a region writes its `.bin`s. -/
lemma mergeRegion_bins (hri : ri < cfg.regions.length)
    (honly : cfg.extra_vertices_only = false) :
    (cfg.mergeRegion n d ri).parent_bin
        = Function.update d.parent_bin ri
            (some (copyBinary (cfg.mergedRows d.scratch .parent n ri)))
      ∧ (cfg.mergeRegion n d ri).child_bin
        = Function.update d.child_bin ri
            (some (copyBinary (cfg.mergedRows d.scratch .child n ri))) := by
  have hchild : cfg.mergedRows (fun p => if p ∈ cfg.paths .parent n ri then none
      else d.scratch p) .child n ri = cfg.mergedRows d.scratch .child n ri :=
    mergedRows_unlink hri (by simp)
  cases hemit : cfg.emit_extra_vertices <;>
    simp only [mergeRegion, honly, hemit, mergeTempFiles_paths hri,
      appendExtraVertices_paths hri, hchild, if_true, if_false, Bool.false_eq_true,
      and_self]

/-- The merge of a region appends its vertices. -/
lemma mergeRegion_extra_vertices (hri : ri < cfg.regions.length) :
    (cfg.mergeRegion n d ri).extra_vertices
      = if cfg.emit_extra_vertices = true then Function.update d.extra_vertices ri
          (some ((d.extra_vertices ri).getD [] ++ cfg.mergedVertices d.scratch n ri))
        else d.extra_vertices := by
  have hunlink : ∀ files c, c ≠ .extra_vertices →
      cfg.mergedVertices (fun p => if p ∈ cfg.paths c n ri then none else files p) n ri
        = cfg.mergedVertices files n ri := fun files c hc => mergedVertices_unlink hri hc
  cases honly : cfg.extra_vertices_only <;> cases hemit : cfg.emit_extra_vertices <;>
    simp only [mergeRegion, honly, hemit, mergeTempFiles_paths hri,
      appendExtraVertices_paths hri, if_true, if_false, Bool.false_eq_true,
      hunlink _ .child (by simp), hunlink _ .parent (by simp)]

end Region

/-- The regions before `k` have been merged. -/
structure Merged (cfg : PairExport G) (n : ℕ) (d : ExportDir) (k : ℕ) (d' : ExportDir) :
    Prop where
  scratch : ∀ f, cfg.Valid f → k ≤ f.ri → d'.scratch (cfg.path f) = d.scratch (cfg.path f)
  parent_bin : cfg.extra_vertices_only = false → ∀ ri < k,
    d'.parent_bin ri = some (copyBinary (cfg.mergedRows d.scratch .parent n ri))
  child_bin : cfg.extra_vertices_only = false → ∀ ri < k,
    d'.child_bin ri = some (copyBinary (cfg.mergedRows d.scratch .child n ri))
  extra_vertices : ∀ ri, d'.extra_vertices ri
    = if cfg.emit_extra_vertices = true ∧ ri < k then
        some ((d.extra_vertices ri).getD [] ++ cfg.mergedVertices d.scratch n ri)
      else d.extra_vertices ri
  scratch_vertices : ∀ ri < cfg.regions.length, ∀ ci,
    d'.scratch (cfg.path ⟨.extra_vertices, ri, ci⟩)
      = if cfg.emit_extra_vertices = true ∧ ri < k ∧ ci < n then none
        else d.scratch (cfg.path ⟨.extra_vertices, ri, ci⟩)

lemma merged_zero (n : ℕ) (d : ExportDir) : cfg.Merged n d 0 d := by
  refine ⟨fun _ _ _ => rfl, fun _ ri hri => absurd hri (Nat.not_lt_zero ri),
    fun _ ri hri => absurd hri (Nat.not_lt_zero ri), fun ri => ?_, fun ri _ ci => ?_⟩
  · rw [if_neg fun h => Nat.not_lt_zero ri h.2]
  · rw [if_neg fun h => Nat.not_lt_zero ri h.2.1]

/-- **One region more.** -/
lemma Merged.succ {n k : ℕ} {d d' : ExportDir} (h : cfg.Merged n d k d')
    (hk : k < cfg.regions.length) : cfg.Merged n d (k + 1) (cfg.mergeRegion n d' k) := by
  have hrows : ∀ c, cfg.mergedRows d'.scratch c n k = cfg.mergedRows d.scratch c n k := by
    intro c
    refine List.flatMap_congr fun ci _ => ?_
    rw [h.scratch ⟨c, k, ci⟩ hk le_rfl]
  have hvertices : cfg.mergedVertices d'.scratch n k = cfg.mergedVertices d.scratch n k := by
    refine List.flatMap_congr fun ci _ => ?_
    rw [h.scratch ⟨.extra_vertices, k, ci⟩ hk le_rfl]
  refine ⟨fun f hf hle => ?_, fun honly ri hri => ?_, fun honly ri hri => ?_, fun ri => ?_,
    fun ri hri ci => ?_⟩
  · rw [mergeRegion_scratch d' hk hf (by omega), h.scratch f hf (by omega)]
  · rw [(mergeRegion_bins d' hk honly).1]
    by_cases hr : ri = k
    · rw [hr, Function.update_self, hrows]
    · rw [Function.update_of_ne hr, h.parent_bin honly ri (by omega)]
  · rw [(mergeRegion_bins d' hk honly).2]
    by_cases hr : ri = k
    · rw [hr, Function.update_self, hrows]
    · rw [Function.update_of_ne hr, h.child_bin honly ri (by omega)]
  · rw [mergeRegion_extra_vertices d' hk]
    cases hemit : cfg.emit_extra_vertices with
    | false => simp [h.extra_vertices, hemit]
    | true =>
        by_cases hr : ri = k
        · subst hr
          simp [h.extra_vertices, hvertices, hemit]
        · have hlt : ri < k + 1 ↔ ri < k := by omega
          simp [h.extra_vertices, hemit, hr, hlt]
  · by_cases hr : ri = k
    · subst hr
      have hold := h.scratch_vertices ri hk ci
      rw [if_neg fun hlt => lt_irrefl ri hlt.2.1] at hold
      rw [mergeRegion_scratch_vertices d' hk, hold]
      simp
    · have hf : cfg.Valid ⟨.extra_vertices, ri, ci⟩ := hri
      have hlt : ri < k + 1 ↔ ri < k := by omega
      rw [mergeRegion_scratch d' hk hf hr, h.scratch_vertices ri hri ci]
      simp [hlt]

/-- **The merge of all regions.** -/
theorem merged_regions (cfg : PairExport G) (n : ℕ) (d : ExportDir) :
    cfg.Merged n d cfg.regions.length
      ((List.range cfg.regions.length).foldl (cfg.mergeRegion n) d) := by
  have hall : ∀ k ≤ cfg.regions.length,
      cfg.Merged n d k ((List.range k).foldl (cfg.mergeRegion n) d) := by
    intro k
    induction k with
    | zero => exact fun _ => merged_zero n d
    | succ k ih =>
        intro hk
        rw [List.range_succ, List.foldl_append, List.foldl_cons, List.foldl_nil]
        exact (ih (by omega)).succ hk
  exact hall _ le_rfl

end PairExport

end Gpsxdb
