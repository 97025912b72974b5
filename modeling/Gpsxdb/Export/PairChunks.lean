import Mathlib.Tactic
import Gpsxdb.Export.ProcessPair

/-!
What the parent pass of `processPair` leaves in the scratch files and local maps,
under every schedule.

* `path_inj`: the scratch files have different names;
* `files_foldl`, `local_maps_foldl`: a file, and a map, after any actions is a
  matter of those on it;
* `getLsbD_bitmask`: the bits of a row are the regions it matches;
* `parentPass_files`, `parentPass_local_maps`: what the parent pass leaves;
* `lookupBitmask_mergeSort`: the search in a sorted map; `lookupBitmask_parentPass`:
  **a map has the regions of every row** of its chunk.
-/

namespace Gpsxdb

/-! ### Lists -/

/-- Of the numbers below a bound one is a given number. -/
lemma filter_range_eq {n i : ℕ} (hi : i < n) : ((List.range n).filter fun j => j = i) = [i] := by
  have hcount : (List.range n).count i = 1 :=
    List.count_eq_one_of_mem List.nodup_range (List.mem_range.mpr hi)
  have hbeq : ((List.range n).filter fun j => j = i) = (List.range n).filter (· == i) :=
    List.filter_congr fun j _ => by simp [beq_eq_decide]
  rw [hbeq, List.filter_beq, hcount, List.replicate_one]

/-- A list put together from parts of which only one has anything. -/
lemma flatMap_range_single {α : Type*} {n i : ℕ} (hi : i < n) {f : ℕ → List α}
    (h : ∀ j < n, j ≠ i → f j = []) : (List.range n).flatMap f = f i := by
  have hite : (List.range n).flatMap f
      = ((List.range n).filter fun j => j = i).flatMap f := by
    have hall : ∀ l : List ℕ, (∀ j ∈ l, j < n) →
        l.flatMap f = (l.filter fun j => j = i).flatMap f := by
      intro l hl
      induction l with
      | nil => rfl
      | cons j l ih =>
          have hl' := ih fun k hk => hl k (List.mem_cons_of_mem _ hk)
          rw [List.flatMap_cons, hl', List.filter_cons]
          by_cases hj : j = i
          · simp [hj]
          · simp [hj, h j (hl j (List.mem_cons_self ..)) hj]
    exact hall _ fun j hj => List.mem_range.mp hj
  rw [hite, filter_range_eq hi, List.flatMap_singleton]

/-! ### Files -/

namespace ScratchAction

/-- The file an action is on. -/
def file? : ScratchAction → Option ScratchFile
  | fopen f => some f
  | fwrite f _ => some f
  | emplace _ _ _ => none

/-- An action is on a file. -/
def onFile (f : ScratchFile) (a : ScratchAction) : Bool := a.file? = some f

/-- What an action on a file does to its content. -/
def writeTo (bytes : Option (List UInt8)) : ScratchAction → Option (List UInt8)
  | fopen _ => some []
  | fwrite _ more => bytes.map (· ++ more)
  | emplace _ _ _ => bytes

/-- The entry an action adds to the map of a chunk. -/
def entryOf (ci : ℕ) : ScratchAction → Option (ℤ × BitVec 32)
  | emplace i id bitmask => if i = ci then some (id, bitmask) else none
  | _ => none

/-- An action adds to the map of a chunk. -/
def onMap (ci : ℕ) (a : ScratchAction) : Bool := (a.entryOf ci).isSome

end ScratchAction

namespace PairExport

variable {G : Type} {cfg : PairExport G}

/-- The files of the regions there are. -/
def Valid (cfg : PairExport G) (f : ScratchFile) : Prop := f.ri < cfg.regions.length

lemma contentName_ne {out_dir region region' : String} {c c' : ScratchContent} {ci ci' : ℕ}
    (h : c ≠ c') : tempPath out_dir region ci (cfg.contentName c)
      ≠ tempPath out_dir region' ci' (cfg.contentName c') := by
  have hmem := cfg.pair_mem
  cases c <;> cases c' <;> simp only [contentName, ne_eq, not_true_eq_false] at h ⊢
  · exact tempPath_ne hmem
  · exact tempPath_ne_extra_vertices hmem (Or.inl rfl)
  · exact (tempPath_ne hmem).symm
  · exact tempPath_ne_extra_vertices hmem (Or.inr rfl)
  · exact (tempPath_ne_extra_vertices hmem (Or.inl rfl)).symm
  · exact (tempPath_ne_extra_vertices hmem (Or.inr rfl)).symm

/-- **Scratch files have different names.** -/
theorem path_inj {f f' : ScratchFile} (hf : cfg.Valid f) (hf' : cfg.Valid f')
    (h : cfg.path f = cfg.path f') : f = f' := by
  obtain ⟨content, ri, ci⟩ := f
  obtain ⟨content', ri', ci'⟩ := f'
  obtain rfl : content = content' := by
    by_contra hne
    exact contentName_ne hne h
  obtain ⟨hname, rfl⟩ := tempPath_inj h
  obtain rfl := RegionEntry.getD_name_inj cfg.nodup_names hf hf' hname
  rfl

/-- **A file after some actions** is a matter of those on it. -/
theorem files_foldl {f : ScratchFile} (hf : cfg.Valid f) {l : List ScratchAction}
    (hl : ∀ a ∈ l, ∀ g, a.file? = some g → cfg.Valid g) (s : Scratch) :
    (l.foldl cfg.act s).files (cfg.path f)
      = (l.filter (·.onFile f)).foldl ScratchAction.writeTo (s.files (cfg.path f)) := by
  induction l generalizing s with
  | nil => rfl
  | cons a l ih =>
      rw [List.foldl_cons, ih (fun b hb => hl b (List.mem_cons_of_mem _ hb)), List.filter_cons]
      have hstep : (cfg.act s a).files (cfg.path f)
          = if a.onFile f then a.writeTo (s.files (cfg.path f)) else s.files (cfg.path f) := by
        have hfile : ∀ g, a.file? = some g → ∀ bytes,
            Function.update s.files (cfg.path g) bytes (cfg.path f)
              = if g = f then bytes else s.files (cfg.path f) := by
          intro g hg bytes
          by_cases hgf : g = f
          · subst hgf
            rw [Function.update_self, if_pos rfl]
          · rw [if_neg hgf, Function.update_of_ne fun h => hgf (path_inj
              (hl a (List.mem_cons_self ..) g hg) hf h.symm)]
        cases a with
        | fopen g =>
            refine (hfile g rfl _).trans ?_
            by_cases hgf : g = f <;> simp [ScratchAction.onFile, ScratchAction.file?,
              ScratchAction.writeTo, hgf]
        | fwrite g bytes =>
            refine (hfile g rfl _).trans ?_
            by_cases hgf : g = f <;> simp [ScratchAction.onFile, ScratchAction.file?,
              ScratchAction.writeTo, hgf]
        | emplace i id bitmask => rfl
      rw [hstep]
      split <;> rfl

/-- A file opened once and then written to. -/
lemma writeTo_fopen_fwrite (f : ScratchFile) (chunks : List (List UInt8))
    (bytes : Option (List UInt8)) :
    (ScratchAction.fopen f :: chunks.map (.fwrite f)).foldl ScratchAction.writeTo bytes
      = some chunks.flatten := by
  have hwrite : ∀ old, (chunks.map (ScratchAction.fwrite f)).foldl ScratchAction.writeTo (some old)
      = some (old ++ chunks.flatten) := by
    intro old
    induction chunks generalizing old with
    | nil => simp
    | cons c chunks ih =>
        rw [List.map_cons, List.foldl_cons]
        exact (ih (old ++ c)).trans (by simp)
  exact (hwrite []).trans (by simp)

/-- **A map after some actions** has the entries they add. -/
lemma local_maps_foldl (l : List ScratchAction) (s : Scratch) (ci : ℕ) :
    (l.foldl cfg.act s).local_maps ci = s.local_maps ci ++ l.filterMap (·.entryOf ci) := by
  induction l generalizing s with
  | nil => simp
  | cons a l ih =>
      rw [List.foldl_cons, ih]
      cases a with
      | fopen f => rfl
      | fwrite f bytes => rfl
      | emplace i id bitmask =>
          by_cases hi : i = ci
          · subst hi
            simp [act, ScratchAction.entryOf]
          · have hne : ci ≠ i := fun h => hi h.symm
            simp [act, ScratchAction.entryOf, hi, Function.update_of_ne hne]

/-! ### Bits -/

/-- The test `bitmask & (1u << ri)`. -/
lemma and_regionBit_ne_zero {m : BitVec 32} {ri : ℕ} (hri : ri < 32) :
    m &&& regionBit ri ≠ 0#32 ↔ m.getLsbD ri = true := by
  have hbit : regionBit ri = BitVec.twoPow 32 ri := rfl
  have hne : BitVec.twoPow 32 ri ≠ 0#32 := by
    intro h
    have hget := congrArg (·.getLsbD ri) h
    simp [hri] at hget
  rw [hbit, BitVec.and_twoPow]
  by_cases h : m.getLsbD ri = true
  · rw [if_pos h]
    exact iff_of_true hne h
  · rw [if_neg h]
    exact iff_of_false (fun h' => h' rfl) h

lemma getLsbD_or_regionBit (m : BitVec 32) {ri i : ℕ} (hi : i < 32) :
    (m ||| regionBit ri).getLsbD i = (m.getLsbD i || decide (ri = i)) := by
  have hbit : regionBit ri = BitVec.twoPow 32 ri := rfl
  rw [hbit, BitVec.getLsbD_or, BitVec.getLsbD_twoPow]
  by_cases h : ri = i
  · subst h
    simp [hi]
  · simp [h]

/-- The bits of a mask put together region by region. -/
lemma getLsbD_foldl_regionBit (p : ℕ → Bool) {n : ℕ} (hn : n ≤ 32) {i : ℕ} (hi : i < 32) :
    ((List.range n).foldl (fun m ri => if p ri then m ||| regionBit ri else m) 0#32).getLsbD i
      = (decide (i < n) && p i) := by
  induction n with
  | zero => simp
  | succ n ih =>
      have hprev := ih (by omega)
      rw [List.range_succ, List.foldl_append, List.foldl_cons, List.foldl_nil]
      rcases Nat.lt_trichotomy i n with hlt | rfl | hlt
      · cases hp : p n <;> simp [getLsbD_or_regionBit _ hi, hprev, hlt, hlt.ne',
          Nat.lt_succ_of_lt hlt]
      · cases hp : p i <;> simp [getLsbD_or_regionBit _ hi, hprev]
      · have h1 : ¬ i < n := by omega
        have h2 : ¬ i < n + 1 := by omega
        cases hp : p n <;> simp [getLsbD_or_regionBit _ hi, hprev, h1, h2, hlt.ne]

/-- **The bits of a row** are the regions it matches. -/
lemma getLsbD_bitmask (hregions : cfg.regions.length ≤ 32) (r : CopyRow) {ri : ℕ}
    (hri : ri < cfg.regions.length) : (cfg.bitmask r).getLsbD ri = cfg.rowMatches r ri := by
  rw [bitmask, getLsbD_foldl_regionBit _ hregions (by omega)]
  simp [hri]

/-! ### The parent pass -/

/-- A chunk's parent worker opens files of this content. -/
def opened (cfg : PairExport G) : ScratchContent → Bool
  | .parent => !cfg.extra_vertices_only
  | .child => false
  | .extra_vertices => cfg.emit_extra_vertices

/-- What it writes of a row to a file of a region. -/
def parentWrites (cfg : PairExport G) (c : ScratchContent) (ri : ℕ) (r : CopyRow) :
    List (List UInt8) :=
  if cfg.opened c && cfg.rowMatches r ri then
    match c with
    | .parent => [lengthPrefix.frame r.raw]
    | .child => []
    | .extra_vertices => (cfg.outsideVertices r ri).map vertexRecord
  else []

lemma filter_openWriters (content c : ScratchContent) {ri ci : ℕ} (hri : ri < cfg.regions.length) :
    (cfg.openWriters content ci).filter (·.onFile ⟨c, ri, ci⟩)
      = if content = c then [.fopen ⟨c, ri, ci⟩] else [] := by
  have hon : ∀ i, (ScratchAction.fopen ⟨content, i, ci⟩).onFile ⟨c, ri, ci⟩
      = decide (content = c ∧ i = ri) := by
    intro i
    simp [ScratchAction.onFile, ScratchAction.file?]
  have hcomp : ((·.onFile ⟨c, ri, ci⟩) ∘ fun i => ScratchAction.fopen ⟨content, i, ci⟩)
      = fun i => decide (content = c ∧ i = ri) := funext hon
  rw [openWriters, List.filter_map, hcomp]
  by_cases hc : content = c
  · subst hc
    have hrange := filter_range_eq hri
    simp [hrange]
  · simp [hc]

/-- The actions of the parent loop's body on one file. -/
lemma filter_parentRow (c : ScratchContent) {ri : ℕ} (hri : ri < cfg.regions.length) (ci : ℕ)
    (r : CopyRow) : (cfg.parentRow ci r).filter (·.onFile ⟨c, ri, ci⟩)
      = (cfg.parentWrites c ri r).map (.fwrite ⟨c, ri, ci⟩) := by
  have hemplace : (if cfg.bitmask r ≠ 0#32 then
      [ScratchAction.emplace ci r.id (cfg.bitmask r)] else []).filter (·.onFile ⟨c, ri, ci⟩)
        = [] := by
    split <;> simp [ScratchAction.onFile, ScratchAction.file?]
  have hon : ∀ c' i bytes, (ScratchAction.fwrite ⟨c', i, ci⟩ bytes).onFile ⟨c, ri, ci⟩
      = decide (c' = c ∧ i = ri) := by
    intro c' i bytes
    simp [ScratchAction.onFile, ScratchAction.file?]
  rw [parentRow, List.filter_append, hemplace, List.append_nil, List.filter_flatMap,
    flatMap_range_single hri]
  · cases hmatch : cfg.rowMatches r ri with
    | false => simp [parentWrites, hmatch]
    | true =>
        cases c with
        | parent =>
            cases honly : cfg.extra_vertices_only <;> cases hemit : cfg.emit_extra_vertices <;>
              simp [parentWrites, opened, hmatch, honly, hon, List.filter_map, Function.comp_def]
        | child =>
            cases honly : cfg.extra_vertices_only <;> cases hemit : cfg.emit_extra_vertices <;>
              simp [parentWrites, opened, hmatch, hon, List.filter_map, Function.comp_def]
        | extra_vertices =>
            cases honly : cfg.extra_vertices_only <;> cases hemit : cfg.emit_extra_vertices <;>
              simp [parentWrites, opened, hmatch, hemit, hon, List.filter_map, Function.comp_def]
  · intro i _ hne
    cases hmatch : cfg.rowMatches r i <;> cases honly : cfg.extra_vertices_only <;>
      cases hemit : cfg.emit_extra_vertices <;>
        simp [hon, hne, List.filter_map, Function.comp_def]

/-- The ids of a chunk, if there are any. -/
def NonemptyWindow (cfg : PairExport G) (min_id max_id : ℤ) (ci : ℕ) : Prop :=
  (cfg.windowFor min_id max_id ci).1 ≤ (cfg.windowFor min_id max_id ci).2

instance (min_id max_id : ℤ) (ci : ℕ) : Decidable (cfg.NonemptyWindow min_id max_id ci) :=
  inferInstanceAs (Decidable (_ ≤ _))

/-- The rows of the parent in a chunk. -/
def parentRows (cfg : PairExport G) (min_id max_id : ℤ) (ci : ℕ) : List CopyRow :=
  cfg.parent.between (cfg.windowFor min_id max_id ci).1 (cfg.windowFor min_id max_id ci).2

/-- The rows of the child in a chunk. -/
def childRows (cfg : PairExport G) (min_id max_id : ℤ) (ci : ℕ) : List CopyRow :=
  cfg.child.between (cfg.windowFor min_id max_id ci).1 (cfg.windowFor min_id max_id ci).2

variable {min_id max_id : ℤ}

lemma parentWork_eq (cfg : PairExport G) (min_id max_id : ℤ) (ci : ℕ) :
    cfg.parentWorkForChunk min_id max_id ci
      = if cfg.NonemptyWindow min_id max_id ci then
          (if cfg.opened .parent then cfg.openWriters .parent ci else [])
            ++ (if cfg.opened .extra_vertices then cfg.openWriters .extra_vertices ci else [])
            ++ (cfg.parentRows min_id max_id ci).flatMap (cfg.parentRow ci)
        else [] := by
  rw [parentWorkForChunk]
  dsimp only
  by_cases h : cfg.NonemptyWindow min_id max_id ci
  · rw [if_neg (not_lt.mpr h), if_pos h]
    cases honly : cfg.extra_vertices_only <;> cases hemit : cfg.emit_extra_vertices <;>
      simp [opened, honly, hemit, parentRows]
  · rw [if_pos (not_le.mp h), if_neg h]

/-- The actions of a parent worker on one of its chunk's files. -/
lemma filter_parentWork (c : ScratchContent) {ri : ℕ} (hri : ri < cfg.regions.length) (ci : ℕ) :
    (cfg.parentWorkForChunk min_id max_id ci).filter (·.onFile ⟨c, ri, ci⟩)
      = if cfg.NonemptyWindow min_id max_id ci ∧ cfg.opened c = true then
          .fopen ⟨c, ri, ci⟩ :: ((cfg.parentRows min_id max_id ci).flatMap
            (cfg.parentWrites c ri)).map (.fwrite ⟨c, ri, ci⟩)
        else [] := by
  rw [parentWork_eq]
  by_cases h : cfg.NonemptyWindow min_id max_id ci
  · have hopen : ∀ c', (if cfg.opened c' then cfg.openWriters c' ci else []).filter
        (·.onFile ⟨c, ri, ci⟩) = if cfg.opened c' ∧ c' = c then [.fopen ⟨c, ri, ci⟩] else [] := by
      intro c'
      cases hc' : cfg.opened c' with
      | false => simp
      | true => simp [filter_openWriters c' c hri]
    have hrows : ((cfg.parentRows min_id max_id ci).flatMap (cfg.parentRow ci)).filter
        (·.onFile ⟨c, ri, ci⟩) = ((cfg.parentRows min_id max_id ci).flatMap
          (cfg.parentWrites c ri)).map (.fwrite ⟨c, ri, ci⟩) := by
      rw [List.filter_flatMap, List.map_flatMap]
      exact List.flatMap_congr fun r _ => filter_parentRow c hri ci r
    rw [if_pos h, List.filter_append, List.filter_append, hopen, hopen, hrows]
    cases c with
    | parent =>
        cases ho : cfg.opened .parent with
        | true => simp [h]
        | false => simp [parentWrites, ho]
    | child => simp [parentWrites, opened]
    | extra_vertices =>
        cases ho : cfg.opened .extra_vertices with
        | true => simp [h]
        | false => simp [parentWrites, ho]
  · rw [if_neg h, if_neg fun h' => h h'.1, List.filter_nil]

/-- An action of a parent worker is on a file or the map of its chunk. -/
lemma mem_parentWork {ci : ℕ} {a : ScratchAction}
    (ha : a ∈ cfg.parentWorkForChunk min_id max_id ci) :
    (∀ g, a.file? = some g → g.ci = ci ∧ cfg.Valid g)
      ∧ ∀ i, i ≠ ci → a.entryOf i = none := by
  have hopen : ∀ c, a ∈ cfg.openWriters c ci →
      (∀ g, a.file? = some g → g.ci = ci ∧ cfg.Valid g) ∧ ∀ i, i ≠ ci → a.entryOf i = none := by
    intro c ha
    obtain ⟨ri, hri, rfl⟩ := List.mem_map.mp ha
    refine ⟨fun g hg => ?_, fun _ _ => rfl⟩
    obtain rfl := Option.some.inj hg
    exact ⟨rfl, List.mem_range.mp hri⟩
  rw [parentWork_eq] at ha
  split at ha
  · rw [List.mem_append, List.mem_append] at ha
    rcases ha with (ha | ha) | ha
    · split at ha
      · exact hopen _ ha
      · simp at ha
    · split at ha
      · exact hopen _ ha
      · simp at ha
    · obtain ⟨r, -, ha⟩ := List.mem_flatMap.mp ha
      rw [parentRow, List.mem_append] at ha
      rcases ha with ha | ha
      · obtain ⟨ri, hri, ha⟩ := List.mem_flatMap.mp ha
        have hvalid : ∀ c bytes, a = .fwrite ⟨c, ri, ci⟩ bytes →
            (∀ g, a.file? = some g → g.ci = ci ∧ cfg.Valid g)
              ∧ ∀ i, i ≠ ci → a.entryOf i = none := by
          rintro c bytes rfl
          refine ⟨fun g hg => ?_, fun _ _ => rfl⟩
          obtain rfl := Option.some.inj hg
          exact ⟨rfl, List.mem_range.mp hri⟩
        split at ha
        · rcases List.mem_append.mp ha with ha | ha
          · split at ha
            · simp at ha
            · exact hvalid _ _ (List.mem_singleton.mp ha)
          · split at ha
            · obtain ⟨v, -, rfl⟩ := List.mem_map.mp ha
              exact hvalid _ _ rfl
            · simp at ha
        · simp at ha
      · split at ha
        · obtain rfl := List.mem_singleton.mp ha
          exact ⟨by simp [ScratchAction.file?], fun i hi => if_neg fun h => hi h.symm⟩
        · simp at ha
  · simp at ha

/-- The map entries of a row. -/
lemma filterMap_parentRow (ci : ℕ) (r : CopyRow) : (cfg.parentRow ci r).filterMap (·.entryOf ci)
    = if cfg.bitmask r ≠ 0#32 then [(r.id, cfg.bitmask r)] else [] := by
  have hfiles : ((List.range cfg.regions.length).flatMap fun ri =>
      if cfg.rowMatches r ri then
        (if cfg.extra_vertices_only then []
          else [ScratchAction.fwrite ⟨.parent, ri, ci⟩ (lengthPrefix.frame r.raw)])
        ++ (if cfg.emit_extra_vertices then
            (cfg.outsideVertices r ri).map fun v =>
              ScratchAction.fwrite ⟨.extra_vertices, ri, ci⟩ (vertexRecord v)
          else [])
      else []).filterMap (·.entryOf ci) = [] := by
    rw [List.filterMap_flatMap, List.flatMap_eq_nil_iff]
    intro ri _
    cases cfg.rowMatches r ri <;> cases cfg.extra_vertices_only <;>
      cases cfg.emit_extra_vertices <;>
        simp [ScratchAction.entryOf, List.filterMap_map]
  rw [parentRow, List.filterMap_append, hfiles, List.nil_append]
  split <;> simp [ScratchAction.entryOf]

/-- The map entries of a parent worker. -/
lemma filterMap_parentWork (ci : ℕ) :
    (cfg.parentWorkForChunk min_id max_id ci).filterMap (·.entryOf ci)
      = if cfg.NonemptyWindow min_id max_id ci then
          ((cfg.parentRows min_id max_id ci).filter fun r => cfg.bitmask r ≠ 0#32).map
            fun r => (r.id, cfg.bitmask r)
        else [] := by
  have hopen : ∀ c, (cfg.openWriters c ci).filterMap (·.entryOf ci) = [] := by
    intro c
    simp [openWriters, List.filterMap_map, ScratchAction.entryOf]
  rw [parentWork_eq]
  split
  · rw [List.filterMap_append, List.filterMap_append, List.filterMap_flatMap]
    have hrows : ∀ rows : List CopyRow,
        rows.flatMap (fun r => (cfg.parentRow ci r).filterMap (·.entryOf ci))
          = (rows.filter fun r => cfg.bitmask r ≠ 0#32).map fun r => (r.id, cfg.bitmask r) := by
      intro rows
      induction rows with
      | nil => rfl
      | cons r rows ih =>
          rw [List.flatMap_cons, filterMap_parentRow, ih, List.filter_cons]
          by_cases hm : cfg.bitmask r = 0#32 <;> simp [hm]
    rw [hrows]
    cases cfg.opened .parent <;> cases cfg.opened .extra_vertices <;> simp [hopen]
  · rfl

/-- There is a thread. -/
lemma nthreads_pos : 0 < cfg.nthreads := by
  rw [nthreads]
  omega

/-- A finished pass has run a shuffle of its tasks. -/
lemma exists_shuffle_parentPass {files : String → Option (List UInt8)}
    {schedule : List (Fin cfg.nthreads)}
    (hfin : (cfg.parentPass min_id max_id files schedule).Finished) :
    ∃ trace, Shuffle (cfg.nchunks min_id max_id).toNat (cfg.parentWorkForChunk min_id max_id) trace
      ∧ (cfg.parentPass min_id max_id files schedule).shared
        = (trace.map Prod.snd).foldl cfg.act ⟨files, fun _ => []⟩ := by
  exact WorkPool.exists_shuffle nthreads_pos hfin

/-- A shuffle of the tasks touches files of regions only. -/
lemma valid_of_shuffle_parentWork {n : ℕ} {trace : List (ℕ × ScratchAction)}
    (h : Shuffle n (cfg.parentWorkForChunk min_id max_id) trace) :
    ∀ a ∈ trace.map Prod.snd, ∀ g, a.file? = some g → cfg.Valid g := by
  intro a ha g hg
  obtain ⟨x, hx, rfl⟩ := List.mem_map.mp ha
  exact ((mem_parentWork (h.mem_tasks hx)).1 g hg).2

/-- **What the parent pass leaves in a file.** -/
theorem parentPass_files {files : String → Option (List UInt8)}
    {schedule : List (Fin cfg.nthreads)}
    (hfin : (cfg.parentPass min_id max_id files schedule).Finished) {f : ScratchFile}
    (hf : cfg.Valid f) (hci : f.ci < (cfg.nchunks min_id max_id).toNat) :
    (cfg.parentPass min_id max_id files schedule).shared.files (cfg.path f)
      = if cfg.NonemptyWindow min_id max_id f.ci ∧ cfg.opened f.content = true then
          some ((cfg.parentRows min_id max_id f.ci).flatMap
            (cfg.parentWrites f.content f.ri)).flatten
        else files (cfg.path f) := by
  obtain ⟨trace, htrace, hshared⟩ := exists_shuffle_parentPass hfin
  have hfilter : (trace.map Prod.snd).filter (·.onFile f)
      = (cfg.parentWorkForChunk min_id max_id f.ci).filter (·.onFile f) := by
    refine htrace.filter_eq hci fun j _ hj a ha => ?_
    by_contra hon
    have hfile : a.file? = some f := by
      simpa [ScratchAction.onFile] using hon
    exact hj ((mem_parentWork ha).1 f hfile).1.symm
  rw [hshared, files_foldl hf (valid_of_shuffle_parentWork htrace), hfilter]
  refine (congrArg _ (filter_parentWork f.content hf f.ci)).trans ?_
  split
  · exact writeTo_fopen_fwrite f _ _
  · rfl

/-- **What the parent pass leaves in a map.** -/
theorem parentPass_local_maps {files : String → Option (List UInt8)}
    {schedule : List (Fin cfg.nthreads)}
    (hfin : (cfg.parentPass min_id max_id files schedule).Finished) {ci : ℕ}
    (hci : ci < (cfg.nchunks min_id max_id).toNat) :
    (cfg.parentPass min_id max_id files schedule).shared.local_maps ci
      = if cfg.NonemptyWindow min_id max_id ci then
          ((cfg.parentRows min_id max_id ci).filter fun r => cfg.bitmask r ≠ 0#32).map
            fun r => (r.id, cfg.bitmask r)
        else [] := by
  obtain ⟨trace, htrace, hshared⟩ := exists_shuffle_parentPass hfin
  have hfilter : (trace.map Prod.snd).filter (·.onMap ci)
      = (cfg.parentWorkForChunk min_id max_id ci).filter (·.onMap ci) := by
    refine htrace.filter_eq hci fun j _ hj a ha => ?_
    rw [ScratchAction.onMap, (mem_parentWork ha).2 ci hj.symm]
    rfl
  have hmap : ∀ l : List ScratchAction,
      l.filterMap (·.entryOf ci) = (l.filter (·.onMap ci)).filterMap (·.entryOf ci) := by
    intro l
    rw [List.filterMap_filter]
    refine List.filterMap_congr fun a _ => ?_
    cases h : a.entryOf ci <;> simp [ScratchAction.onMap, h]
  rw [hshared, local_maps_foldl, List.nil_append, hmap, hfilter, ← hmap, filterMap_parentWork]

/-! ### The search in a map -/

lemma pairwise_mergeSort_entries {entries : List (ℤ × BitVec 32)}
    (hnd : (entries.map Prod.fst).Nodup) :
    (entries.mergeSort entryLE).Pairwise fun a b => a.1 < b.1 := by
  have htrans : ∀ a b c : ℤ × BitVec 32, entryLE a b = true → entryLE b c = true →
      entryLE a c = true := by
    intro a b c hab hbc
    simp only [entryLE, Bool.or_eq_true, decide_eq_true_eq, Bool.and_eq_true, beq_iff_eq] at *
    omega
  have htotal : ∀ a b : ℤ × BitVec 32, (entryLE a b || entryLE b a) = true := by
    intro a b
    simp only [entryLE, Bool.or_eq_true, decide_eq_true_eq, Bool.and_eq_true, beq_iff_eq]
    omega
  have hsorted := List.pairwise_mergeSort htrans htotal entries
  have hnodup : ((entries.mergeSort entryLE).map Prod.fst).Nodup :=
    ((List.mergeSort_perm entries entryLE).map _).nodup_iff.mpr hnd
  refine (hsorted.and (List.pairwise_map.mp hnodup)).imp ?_
  rintro a b ⟨hle, hne⟩
  simp only [entryLE, Bool.or_eq_true, decide_eq_true_eq, Bool.and_eq_true, beq_iff_eq] at hle
  omega

/-- **The search in a sorted map** finds the entry of an id, or nothing. -/
lemma lookupBitmask_mergeSort {entries : List (ℤ × BitVec 32)}
    (hnd : (entries.map Prod.fst).Nodup) (id : ℤ) :
    (∀ m, (id, m) ∈ entries → lookupBitmask (entries.mergeSort entryLE) id = m)
      ∧ ((∀ m, (id, m) ∉ entries) → lookupBitmask (entries.mergeSort entryLE) id = 0#32) := by
  have hsearch := fun a => searchBy_eq_some_iff (pairwise_mergeSort_entries hnd) (k := id) (a := a)
  constructor
  · intro m hm
    rw [lookupBitmask, (hsearch (id, m)).mpr ⟨List.mem_mergeSort.mpr hm, rfl⟩]
    rfl
  · intro hno
    rw [lookupBitmask]
    cases hs : searchBy Prod.fst (entries.mergeSort entryLE) id with
    | none => rfl
    | some a =>
        obtain ⟨hmem, rfl⟩ := (hsearch a).mp hs
        exact absurd (List.mem_mergeSort.mp hmem) (hno a.2)

/-- A row of the parent is in a chunk. -/
lemma mem_parentRows {ci : ℕ} {r : CopyRow} : r ∈ cfg.parentRows min_id max_id ci
    ↔ r ∈ cfg.parent.rows ∧ inWindow (cfg.windowFor min_id max_id ci) r.id := by
  rw [parentRows, (cfg.parent.between_perm _ _).mem_iff, List.mem_filter]
  simp [inWindow]

/-- The map of a chunk after the parent pass, sorted. -/
lemma lookupBitmask_parentPass {files : String → Option (List UInt8)}
    {schedule : List (Fin cfg.nthreads)}
    (hfin : (cfg.parentPass min_id max_id files schedule).Finished) {ci : ℕ}
    (hci : ci < (cfg.nchunks min_id max_id).toNat) {id : ℤ}
    (hid : inWindow (cfg.windowFor min_id max_id ci) id)
    (hregions : cfg.regions.length ≤ 32) {ri : ℕ} (hri : ri < cfg.regions.length) :
    (lookupBitmask ((sortMaps (cfg.parentPass min_id max_id files schedule).shared).local_maps ci)
        id).getLsbD ri = true
      ↔ ∃ r ∈ cfg.parent.rows, r.id = id ∧ cfg.rowMatches r ri = true := by
  have hwindow : cfg.NonemptyWindow min_id max_id ci := hid.1.trans hid.2
  rw [sortMaps]
  dsimp only
  rw [parentPass_local_maps hfin hci, if_pos hwindow]
  set entries := ((cfg.parentRows min_id max_id ci).filter fun r => cfg.bitmask r ≠ 0#32).map
    fun r => (r.id, cfg.bitmask r) with hentries
  have hids : ((cfg.parentRows min_id max_id ci).map CopyRow.id).Nodup :=
    ((cfg.parent.between_perm _ _).map _).nodup_iff.mpr
      (((List.filter_sublist).map CopyRow.id).nodup cfg.nodup_ids)
  have hnd : (entries.map Prod.fst).Nodup := by
    rw [hentries, List.map_map]
    exact ((List.filter_sublist).map CopyRow.id).nodup hids
  have hmem : ∀ m, (id, m) ∈ entries
      ↔ ∃ r ∈ cfg.parent.rows, r.id = id ∧ cfg.bitmask r = m ∧ m ≠ 0#32 := by
    intro m
    simp only [hentries, List.mem_map, List.mem_filter, mem_parentRows, Prod.mk.injEq]
    constructor
    · rintro ⟨r, ⟨⟨hr, -⟩, hm⟩, rfl, rfl⟩
      exact ⟨r, hr, rfl, rfl, by simpa using hm⟩
    · rintro ⟨r, hr, rfl, rfl, hm⟩
      exact ⟨r, ⟨⟨hr, hid⟩, by simpa using hm⟩, rfl, rfl⟩
  obtain ⟨hfound, hmissing⟩ := lookupBitmask_mergeSort hnd id
  constructor
  · intro hbit
    by_cases hex : ∃ m, (id, m) ∈ entries
    · obtain ⟨m, hm⟩ := hex
      rw [hfound m hm] at hbit
      obtain ⟨r, hr, hrid, rfl, -⟩ := (hmem m).mp hm
      rw [getLsbD_bitmask hregions r hri] at hbit
      exact ⟨r, hr, hrid, hbit⟩
    · rw [hmissing (not_exists.mp hex)] at hbit
      simp at hbit
  · rintro ⟨r, hr, hrid, hmatch⟩
    have hbit : (cfg.bitmask r).getLsbD ri = true := by
      rw [getLsbD_bitmask hregions r hri, hmatch]
    have hne : cfg.bitmask r ≠ 0#32 := by
      intro h0
      rw [h0] at hbit
      simp at hbit
    rw [hfound _ ((hmem _).mpr ⟨r, hr, hrid, rfl, hne⟩), hbit]

end PairExport

end Gpsxdb
