import Mathlib.Tactic
import Gpsxdb.Export.VertexSteps

/-!
The scratch files that pairs in flight share.

The scratch file of a region and a chunk has one name for every pair. What a pair
has put in it is safe until the pair has read it back as long as no other pair
opens the name or takes it away.

* `appended`, `Needs`: a scratch file a pair has opened and not yet read back;
* `Careful`: no step opens or takes away a scratch file another pair needs;
* `FileInv`: the content of the files that are needed; `fileInv_step`,
  `fileInv_of_reached`;
* `read_eq_records`: what a pair reads back is what it has put in.
-/

namespace Gpsxdb

/-- The scratch file has been read into `extra_vertices.bin`. -/
def PairState.appended : PairState → ℕ → ℕ → Bool
  | .merging r, ri, _ => decide (ri < r)
  | .appending r c stage, ri, ci =>
      decide (ri < r ∨ ri = r ∧ (ci < c ∨ ci = c ∧ stage = .unlink))
  | .done, _, _ => true
  | _, _, _ => false

namespace VertexExport

variable {V : Type} {cfg : VertexExport V} {σ σ' : VertexState V} {e : VertexEvent}
  {p q ri ci : ℕ}

section

variable (cfg σ)

/-- A scratch file with records in it that the pair has still to read back. -/
structure Needs (p ri ci : ℕ) : Prop where
  opened : σ.writer p ci ri ≠ .unopened
  unread : (σ.pair p).appended ri ci = false
  records : cfg.records p ci ri ≠ []

/-- No other pair needs the scratch file. -/
def Unshared (p ri ci : ℕ) : Prop := ∀ q, q ≠ p → ¬cfg.Needs σ q ri ci

/-- The steps that leave what other pairs need: a scratch file is opened, or
taken away, only while no other pair needs it. -/
def Careful : VertexEvent → Prop
  | .fopen p ci => ∀ ri emitted, σ.chunk p ci = .running ri emitted → cfg.Unshared σ p ri ci
  | .unlink p => ∀ ri ci, σ.pair p = .appending ri ci .unlink → cfg.Unshared σ p ri ci
  | _ => True

end

/-! ### What steps do to what is needed -/

variable [Inhabited V]

/-- A pair reads a file back once. -/
lemma appended_mono (hI : cfg.ControlInv σ) (hs : cfg.Step σ e σ')
    (h : (σ.pair q).appended ri ci = true) :
    (σ'.pair q).appended ri ci = true := by
  have key : ∀ {p s}, ((σ.pair p).appended ri ci = true → s.appended ri ci = true) →
      (Function.update σ.pair p s q).appended ri ci = true := by
    intro p s hps
    by_cases hq : q = p
    · subst hq
      rw [Function.update_self]
      exact hps h
    · rwa [Function.update_of_ne hq]
  cases hs with
  | takePair hp hfree => exact key (by simp [hI.untaken _ le_rfl, PairState.appended])
  | claim hp hci => exact key (by simp [hp, PairState.appended])
  | fopen hc hri => exact h
  | write hc hv hw => exact h
  | flush hw => exact h
  | fclose hc hw => exact h
  | finish hc hw => exact h
  | join hp hc => exact key (by simp [hp, PairState.appended])
  | lock hp hri hmutex =>
      refine key ?_
      simp only [hp, PairState.appended, decide_eq_true_eq]
      omega
  | fopenTemp hp hci => exact key (by simp [hp, PairState.appended])
  | append hp =>
      refine key ?_
      simp only [hp, PairState.appended, decide_eq_true_eq, reduceCtorEq, and_true]
      omega
  | unlink hp =>
      refine key ?_
      simp only [hp, PairState.appended, decide_eq_true_eq]
      omega
  | unlock hp hci =>
      refine key ?_
      simp only [hp, PairState.appended, decide_eq_true_eq, reduceCtorEq]
      omega
  | done hp hri => exact key (by simp [PairState.appended])

/-- A pair comes to need a file only by opening it. -/
lemma needs_of_step (hI : cfg.ControlInv σ) (hs : cfg.Step σ e σ') (h : cfg.Needs σ' q ri ci) :
    cfg.Needs σ q ri ci ∨ e = .fopen q ci ∧ ∃ emitted, σ.chunk q ci = .running ri emitted := by
  have hunread : (σ.pair q).appended ri ci = false := by
    by_contra hread
    rw [Bool.not_eq_false] at hread
    exact absurd (appended_mono hI hs hread) (by simp [h.unread])
  -- a writer that was open already
  have key : ∀ {p c r w}, σ.writer p c r ≠ .unopened →
      (σ.setWriter p c r w).writer q ci ri ≠ .unopened → cfg.Needs σ q ri ci := by
    intro p c r w hw hw'
    rw [VertexState.writer_setWriter] at hw'
    refine ⟨?_, hunread, h.records⟩
    split at hw'
    · rename_i heq
      obtain ⟨rfl, rfl, rfl⟩ := heq
      exact hw
    · exact hw'
  have same : σ'.writer = σ.writer → cfg.Needs σ q ri ci := fun heq =>
    ⟨heq ▸ h.opened, hunread, h.records⟩
  cases hs with
  | @fopen p c r emitted hc hri =>
      have hw := h.opened
      rw [VertexState.writer_setWriter] at hw
      split at hw
      · rename_i heq
        obtain ⟨rfl, rfl, rfl⟩ := heq
        exact Or.inr ⟨rfl, emitted, hc⟩
      · exact Or.inl ⟨hw, hunread, h.records⟩
  | write hc hv hw => exact Or.inl (key (by simp [hw]) h.opened)
  | flush hw => exact Or.inl (key (by simp [hw]) h.opened)
  | fclose hc hw => exact Or.inl (key (by simp [hw]) h.opened)
  | takePair hp hfree => exact Or.inl (same rfl)
  | claim hp hci => exact Or.inl (same rfl)
  | finish hc hw => exact Or.inl (same rfl)
  | join hp hc => exact Or.inl (same rfl)
  | lock hp hri hmutex => exact Or.inl (same rfl)
  | fopenTemp hp hci => exact Or.inl (same rfl)
  | append hp => exact Or.inl (same rfl)
  | unlink hp => exact Or.inl (same rfl)
  | unlock hp hci => exact Or.inl (same rfl)
  | done hp hri => exact Or.inl (same rfl)

/-! ### The content of what is needed -/

variable (cfg σ) in
/-- A needed file, at its inode: what has reached it and what its writer still
holds are the records emitted so far. -/
structure HoldsRecords (p ri ci i : ℕ) : Prop where
  dir : σ.files.dir (cfg.extraVertexTemp ri ci) = some i
  opened : ∀ j offset buffer, σ.writer p ci ri = .opened j offset buffer →
    j = i ∧ offset = (σ.files.data i).length ∧ ∀ opened emitted,
      σ.chunk p ci = .running opened emitted →
        σ.files.data i ++ buffer = cfg.recordsUpTo p ci ri emitted
  closed : σ.writer p ci ri = .closed → σ.files.data i = cfg.records p ci ri

variable (cfg σ) in
/-- **The files that are needed**: each is one pair's alone, and holds what that
pair has put in it. -/
structure FileInv : Prop where
  sound : σ.files.Sound
  owner : ∀ p q ri ci, cfg.Needs σ p ri ci → cfg.Needs σ q ri ci → p = q
  content : ∀ p ri ci, cfg.Needs σ p ri ci → ∃ i, cfg.HoldsRecords σ p ri ci i
  fread : ∀ p ri ci inode, σ.pair p = .appending ri ci (.fread inode) → cfg.Needs σ p ri ci →
    inode = σ.files.dir (cfg.extraVertexTemp ri ci)

omit [Inhabited V] in
lemma fileInv_start {files : FileSystem String V} (hfiles : files.Sound)
    (extra_vertices : ℕ → List V) : cfg.FileInv (start files extra_vertices) := by
  have hno : ∀ p ri ci, ¬cfg.Needs (start files extra_vertices) p ri ci := fun p ri ci h =>
    h.opened rfl
  exact ⟨hfiles, fun p _ ri ci h _ => absurd h (hno p ri ci),
    fun p ri ci h => absurd h (hno p ri ci), fun p ri ci _ _ h => absurd h (hno p ri ci)⟩

omit [Inhabited V] in
/-- A step that leaves the files. -/
lemma FileInv.of_files_eq (hF : cfg.FileInv σ) (hfiles : σ'.files = σ.files)
    (hneeds : ∀ q ri ci, cfg.Needs σ' q ri ci → cfg.Needs σ q ri ci)
    (hcontent : ∀ q ri ci i, cfg.Needs σ' q ri ci → cfg.HoldsRecords σ q ri ci i →
      cfg.HoldsRecords σ' q ri ci i)
    (hfread : ∀ q ri ci inode, σ'.pair q = .appending ri ci (.fread inode) →
      σ.pair q = .appending ri ci (.fread inode)
        ∨ inode = σ.files.dir (cfg.extraVertexTemp ri ci)) : cfg.FileInv σ' := by
  refine ⟨hfiles ▸ hF.sound, fun p q ri ci hp hq => hF.owner p q ri ci (hneeds _ _ _ hp)
    (hneeds _ _ _ hq), fun p ri ci h => ?_, fun p ri ci inode hp h => ?_⟩
  · obtain ⟨i, hi⟩ := hF.content p ri ci (hneeds _ _ _ h)
    exact ⟨i, hcontent p ri ci i h hi⟩
  · rw [hfiles]
    rcases hfread p ri ci inode hp with hp | rfl
    · exact hF.fread p ri ci inode hp (hneeds _ _ _ h)
    · rfl

omit [Inhabited V] in
/-- A step of a pair that leaves files, chunks and writers. -/
lemma FileInv.of_pair (hF : cfg.FileInv σ)
    (heq : σ'.files = σ.files ∧ σ'.chunk = σ.chunk ∧ σ'.writer = σ.writer)
    (hneeds : ∀ q ri ci, cfg.Needs σ' q ri ci → cfg.Needs σ q ri ci)
    (hfread : ∀ q ri ci inode, σ'.pair q = .appending ri ci (.fread inode) →
      σ.pair q = .appending ri ci (.fread inode)
        ∨ inode = σ.files.dir (cfg.extraVertexTemp ri ci)) : cfg.FileInv σ' := by
  refine hF.of_files_eq heq.1 hneeds (fun q ri ci i _ hi => ?_) hfread
  refine ⟨heq.1 ▸ hi.dir, fun j offset buffer hw => ?_, fun hw => ?_⟩
  · rw [heq.2.2] at hw
    rw [heq.1, heq.2.1]
    exact hi.opened j offset buffer hw
  · rw [heq.2.2] at hw
    rw [heq.1]
    exact hi.closed hw

/-! ### Steps that keep the files -/

omit [Inhabited V] in
lemma recordsUpTo_zero : cfg.recordsUpTo p ci ri 0 = [] := by simp [recordsUpTo]

omit [Inhabited V] in
lemma recordsUpTo_length :
    cfg.recordsUpTo p ci ri ((cfg.emits p ci).getD []).length = cfg.records p ci ri := by
  simp [recordsUpTo, records]

omit [Inhabited V] in
/-- One vertex more, for its region. -/
lemma recordsUpTo_succ {n : ℕ} {r : Fin cfg.regions.length} {v : V}
    (h : ((cfg.emits p ci).getD [])[n]? = some (r, v)) :
    cfg.recordsUpTo p ci ri (n + 1)
      = cfg.recordsUpTo p ci ri n ++ if r = ri then [v] else [] := by
  rw [recordsUpTo, List.take_add_one, h, List.filterMap_append, recordsUpTo]
  congr 1
  by_cases hr : (r : ℕ) = ri <;> simp [hr]

omit [Inhabited V] in
/-- A chunk at work has not been merged. -/
lemma appended_of_running (hI : cfg.ControlInv σ) {opened emitted : ℕ}
    (hc : σ.chunk p ci = .running opened emitted) : (σ.pair p).appended ri ci = false := by
  by_contra hread
  rw [Bool.not_eq_false] at hread
  have hfin := (hI.pair p).joined (fun hp => by simp [hp, PairState.appended] at hread)
    (fun next hp => by simp [hp, PairState.appended] at hread) ci
    ((hI.pair p).running ci opened emitted hc).lt
  simp [hc] at hfin

omit [Inhabited V] in
/-- A pair needs the file it has open, if it has records for it. -/
lemma needs_of_opened (hI : cfg.ControlInv σ) {i offset : ℕ} {buffer : List V}
    (hw : σ.writer p ci ri = .opened i offset buffer) (hrec : cfg.records p ci ri ≠ []) :
    cfg.Needs σ p ri ci := by
  obtain ⟨opened, emitted, hc⟩ := (hI.pair p).exists_running hw
  exact ⟨by simp [hw], appended_of_running hI hc, hrec⟩

omit [Inhabited V] in
/-- Records kept while their writer and file are left alone. -/
lemma HoldsRecords.of_eq {i : ℕ} (h : cfg.HoldsRecords σ q ri ci i)
    (hdir : σ'.files.dir (cfg.extraVertexTemp ri ci) = σ.files.dir (cfg.extraVertexTemp ri ci))
    (hdata : σ'.files.data i = σ.files.data i) (hw : σ'.writer q ci ri = σ.writer q ci ri)
    (hc : ∀ opened emitted, σ'.chunk q ci = .running opened emitted →
      ∃ opened', σ.chunk q ci = .running opened' emitted) : cfg.HoldsRecords σ' q ri ci i := by
  refine ⟨hdir.trans h.dir, fun j offset buffer hj => ?_, fun hj => ?_⟩
  · rw [hw] at hj
    obtain ⟨hji, hoff, hrec⟩ := h.opened j offset buffer hj
    refine ⟨hji, by rw [hdata, hoff], fun opened emitted hrun => ?_⟩
    obtain ⟨opened', hrun⟩ := hc opened emitted hrun
    rw [hdata, hrec opened' emitted hrun]
  · rw [hw] at hj
    rw [hdata, h.closed hj]

/-- **Opening a scratch file nobody else needs.** -/
lemma fileInv_fopen (hI : cfg.ControlInv σ) (hF : cfg.FileInv σ) {emitted : ℕ}
    (hs : cfg.Step σ (.fopen p ci) σ') (hc : σ.chunk p ci = .running ri emitted)
    (hri : ri < cfg.regions.length) (hfree : cfg.Unshared σ p ri ci)
    (hfiles : σ'.files = σ.files.openTrunc (cfg.extraVertexTemp ri ci)) (hpair : σ'.pair = σ.pair)
    (hchunk : ∀ q c, σ'.chunk q c
      = if q = p ∧ c = ci then .running (ri + 1) emitted else σ.chunk q c)
    (hwriter : ∀ q c r, σ'.writer q c r = if q = p ∧ c = ci ∧ r = ri then
      .opened (σ.files.openInode (cfg.extraVertexTemp ri ci)) 0 [] else σ.writer q c r) :
    cfg.FileInv σ' := by
  -- who needs the name that is opened is the pair that opens it
  have hmine : ∀ q, cfg.Needs σ' q ri ci → q = p := by
    intro q hq
    rcases needs_of_step hI hs hq with hq | ⟨heq, -⟩
    · by_contra hne
      exact hfree q hne hq
    · exact (VertexEvent.fopen.inj heq).1.symm
  have hother : ∀ {q r c}, cfg.Needs σ' q r c → ¬(r = ri ∧ c = ci) → cfg.Needs σ q r c := by
    intro q r c hq hne
    rcases needs_of_step hI hs hq with hq | ⟨heq, e', he'⟩
    · exact hq
    · obtain ⟨rfl, rfl⟩ := VertexEvent.fopen.inj heq
      rw [hc] at he'
      exact absurd ⟨(ChunkState.running.inj he').1.symm, rfl⟩ hne
  have hpath : ∀ {r c}, r < cfg.regions.length → ¬(r = ri ∧ c = ci) →
      cfg.extraVertexTemp r c ≠ cfg.extraVertexTemp ri ci := fun hr hne heq =>
    hne (cfg.extraVertexTemp_inj hr hri heq)
  refine ⟨hfiles ▸ hF.sound.openTrunc _, fun q q' r c hq hq' => ?_, fun q r c hq => ?_,
    fun q r c inode hp hq => ?_⟩
  · by_cases heq : r = ri ∧ c = ci
    · obtain ⟨rfl, rfl⟩ := heq
      rw [hmine q hq, hmine q' hq']
    · exact hF.owner q q' r c (hother hq heq) (hother hq' heq)
  · by_cases heq : r = ri ∧ c = ci
    · -- the file just opened: empty, and so are the records so far
      obtain ⟨rfl, rfl⟩ := heq
      obtain rfl := hmine q hq
      refine ⟨σ.files.openInode (cfg.extraVertexTemp r c), by rw [hfiles]; simp,
        fun j offset buffer hw => ?_, fun hw => ?_⟩
      · rw [hwriter, if_pos ⟨rfl, rfl, rfl⟩] at hw
        obtain ⟨rfl, rfl, rfl⟩ := ExtraVertexWriter.opened.inj hw
        refine ⟨rfl, by rw [hfiles]; simp, fun o em hrun => ?_⟩
        rw [hchunk, if_pos ⟨rfl, rfl⟩] at hrun
        obtain ⟨-, rfl⟩ := ChunkState.running.inj hrun
        rw [hfiles, ((hI.pair q).running c r emitted hc).emitted_eq hri, recordsUpTo_zero]
        simp
      · rw [hwriter, if_pos ⟨rfl, rfl, rfl⟩] at hw
        simp at hw
    · obtain ⟨i, hi⟩ := hF.content q r c (hother hq heq)
      have hne := hpath (lt_of_records_ne_nil hq.records) heq
      refine ⟨i, hi.of_eq (by rw [hfiles, FileSystem.dir_openTrunc_of_ne hne]) ?_ ?_ ?_⟩
      · rw [hfiles, FileSystem.data_openTrunc_of_ne (hF.sound.ne_openInode hne hi.dir)]
      · rw [hwriter, if_neg fun h => heq ⟨h.2.2, h.2.1⟩]
      · intro o em hrun
        rw [hchunk] at hrun
        split at hrun
        · rename_i hqc
          obtain ⟨rfl, rfl⟩ := hqc
          obtain ⟨-, rfl⟩ := ChunkState.running.inj hrun
          exact ⟨ri, hc⟩
        · exact ⟨o, hrun⟩
  · rw [hpair] at hp
    by_cases heq : r = ri ∧ c = ci
    · -- a pair that merges has no chunk at work
      obtain ⟨rfl, rfl⟩ := heq
      obtain rfl := hmine q hq
      have hfin := (hI.pair q).joined (by simp [hp]) (by simp [hp]) c
        ((hI.pair q).running c r emitted hc).lt
      simp [hc] at hfin
    · have hne := hpath (lt_of_records_ne_nil hq.records) heq
      rw [hfiles, FileSystem.dir_openTrunc_of_ne hne]
      exact hF.fread q r c inode hp (hother hq heq)

/-- **Writing through a writer of one's own.** -/
lemma fileInv_writeAt (hI : cfg.ControlInv σ) (hF : cfg.FileInv σ) {i offset : ℕ}
    (xs rest : List V) {w : ExtraVertexWriter V}
    (hneeds : ∀ {q r c}, cfg.Needs σ' q r c → cfg.Needs σ q r c)
    (hopen : σ.writer p ci ri = .opened i offset (xs ++ rest))
    (hw : w = .opened i (offset + xs.length) rest
      ∨ w = .closed ∧ rest = [] ∧ ∃ opened,
        σ.chunk p ci = .running opened ((cfg.emits p ci).getD []).length)
    (hfiles : σ'.files = σ.files.writeAt i offset xs) (hpair : σ'.pair = σ.pair)
    (hchunk : σ'.chunk = σ.chunk)
    (hwriter : ∀ q c r, σ'.writer q c r
      = if q = p ∧ c = ci ∧ r = ri then w else σ.writer q c r) : cfg.FileInv σ' := by
  have hsame : ∀ {q c o em}, σ'.chunk q c = .running o em →
      ∃ o', σ.chunk q c = .running o' em := fun {q c o em} h => ⟨o, hchunk ▸ h⟩
  by_cases hneed : cfg.Needs σ p ri ci
  · have hdir : σ'.files.dir = σ.files.dir := by rw [hfiles]; rfl
    refine ⟨hfiles ▸ hF.sound.writeAt .., fun q q' r c hq hq' => hF.owner q q' r c (hneeds hq)
      (hneeds hq'), fun q r c hq => ?_, fun q r c inode hp hq => ?_⟩
    · obtain ⟨j, hj⟩ := hF.content q r c (hneeds hq)
      obtain ⟨i', hi⟩ := hF.content p ri ci hneed
      obtain ⟨rfl, rfl, hrec⟩ := hi.opened i offset _ hopen
      refine ⟨j, ?_⟩
      by_cases heq : r = ri ∧ c = ci
      · -- the file written to
        obtain ⟨rfl, rfl⟩ := heq
        obtain rfl := hF.owner q p r c (hneeds hq) hneed
        obtain rfl := Option.some.inj (hj.dir.symm.trans hi.dir)
        have hdata : σ'.files.data j = σ.files.data j ++ xs := by
          rw [hfiles, FileSystem.data_writeAt]
        have hself : σ'.writer q c r = w := by rw [hwriter, if_pos ⟨rfl, rfl, rfl⟩]
        refine ⟨by rw [hdir, hj.dir], fun j' offset' buffer hw' => ?_, fun hw' => ?_⟩
        · rcases hw with rfl | ⟨rfl, -⟩
          · obtain ⟨rfl, rfl, rfl⟩ := ExtraVertexWriter.opened.inj (hself.symm.trans hw')
            refine ⟨rfl, by rw [hdata, List.length_append], fun o em hrun => ?_⟩
            rw [hdata, List.append_assoc]
            exact hrec o em (hchunk ▸ hrun)
          · simp [hself] at hw'
        · rcases hw with rfl | ⟨rfl, rfl, o, hrun⟩
          · simp [hself] at hw'
          · rw [hdata, ← recordsUpTo_length, ← hrec o _ hrun, List.append_nil]
      · have hne : j ≠ i := by
          rintro rfl
          obtain ⟨rfl, rfl⟩ := cfg.extraVertexTemp_inj (lt_of_records_ne_nil hq.records)
            (lt_of_records_ne_nil hneed.records) (hF.sound.dir_inj hj.dir hi.dir)
          exact heq ⟨rfl, rfl⟩
        refine hj.of_eq (by rw [hdir]) (by rw [hfiles, FileSystem.data_writeAt_of_ne hne]) ?_
          fun _ _ => hsame
        rw [hwriter, if_neg fun h => heq ⟨h.2.2, h.2.1⟩]
    · rw [hpair] at hp
      rw [hdir]
      exact hF.fread q r c inode hp (hneeds hq)
  · -- nothing is written: there are no records for this region
    have hrec : cfg.records p ci ri = [] := by
      by_contra h
      exact hneed (needs_of_opened hI hopen h)
    obtain ⟨opened, emitted, hc⟩ := (hI.pair p).exists_running hopen
    have hnil : ∀ v ∈ xs ++ rest, v ∈ ([] : List V) := fun v hv =>
      hrec ▸ ((hI.pair p).running ci opened emitted hc).buffer ri i offset _ hopen v hv
    obtain ⟨rfl, rfl⟩ := List.append_eq_nil_iff.mp (List.eq_nil_iff_forall_not_mem.mpr
      fun v hv => List.not_mem_nil (hnil v hv))
    rw [FileSystem.writeAt_nil] at hfiles
    refine hF.of_files_eq hfiles (fun q r c hq => hneeds hq) (fun q r c j hq hj => ?_)
      (fun q r c inode hp => Or.inl (hpair ▸ hp))
    refine hj.of_eq (by rw [hfiles]) (by rw [hfiles]) ?_ fun _ _ => hsame
    rw [hwriter, if_neg]
    rintro ⟨rfl, rfl, rfl⟩
    exact hneed (hneeds hq)

omit [Inhabited V] in
/-- Handing a vertex to its writer. -/
lemma fileInv_write (hF : cfg.FileInv σ) {i offset n : ℕ} {r : Fin cfg.regions.length} {v : V}
    {buffer : List V} (hneeds : ∀ {q r c}, cfg.Needs σ' q r c → cfg.Needs σ q r c)
    (hc : σ.chunk p ci = .running cfg.regions.length n)
    (hv : ((cfg.emits p ci).getD [])[n]? = some (r, v))
    (hopen : σ.writer p ci r = .opened i offset buffer)
    (hfiles : σ'.files = σ.files) (hpair : σ'.pair = σ.pair)
    (hchunk : ∀ q c, σ'.chunk q c
      = if q = p ∧ c = ci then .running cfg.regions.length (n + 1) else σ.chunk q c)
    (hwriter : ∀ q c r', σ'.writer q c r' = if q = p ∧ c = ci ∧ r' = r then
      .opened i offset (buffer ++ [v]) else σ.writer q c r') : cfg.FileInv σ' := by
  refine hF.of_files_eq hfiles (fun q r c hq => hneeds hq) (fun q r' c j hq hj => ?_)
    (fun q r c inode hp => Or.inl (hpair ▸ hp))
  by_cases hqc : q = p ∧ c = ci
  · obtain ⟨rfl, rfl⟩ := hqc
    have hrun : ∀ {o em}, σ'.chunk q c = .running o em → n + 1 = em := by
      intro o em h
      rw [hchunk, if_pos ⟨rfl, rfl⟩] at h
      exact (ChunkState.running.inj h).2
    by_cases hr : r' = r
    · -- the writer of the vertex's region
      subst hr
      obtain ⟨rfl, hoff, hrec⟩ := hj.opened i offset buffer hopen
      have hself : σ'.writer q c r = .opened i offset (buffer ++ [v]) := by
        rw [hwriter, if_pos ⟨rfl, rfl, rfl⟩]
      refine ⟨hfiles ▸ hj.dir, fun j' offset' buffer' hw => ?_, fun hw => ?_⟩
      · obtain ⟨rfl, rfl, rfl⟩ := ExtraVertexWriter.opened.inj (hself.symm.trans hw)
        refine ⟨rfl, by rw [hfiles, hoff], fun o em h => ?_⟩
        obtain rfl := hrun h
        rw [hfiles, recordsUpTo_succ hv, if_pos rfl, ← hrec _ n hc, List.append_assoc]
      · simp [hself] at hw
    · have hself : σ'.writer q c r' = σ.writer q c r' := by
        rw [hwriter, if_neg fun h => hr h.2.2]
      refine ⟨hfiles ▸ hj.dir, fun j' offset' buffer' hw => ?_, fun hw => ?_⟩
      · obtain ⟨rfl, hoff, hrec⟩ := hj.opened j' offset' buffer' (hself ▸ hw)
        refine ⟨rfl, by rw [hfiles, hoff], fun o em h => ?_⟩
        obtain rfl := hrun h
        rw [hfiles, recordsUpTo_succ hv, if_neg fun h => hr h.symm, List.append_nil,
          hrec _ n hc]
      · rw [hfiles]
        exact hj.closed (hself ▸ hw)
  · refine hj.of_eq (by rw [hfiles]) (by rw [hfiles]) ?_ fun o em h => ⟨o, ?_⟩
    · rw [hwriter, if_neg fun h => hqc ⟨h.1, h.2.1⟩]
    · rwa [hchunk, if_neg hqc] at h

omit [Inhabited V] in
/-- **Taking away a scratch file nobody else needs.** -/
lemma fileInv_unlink (hF : cfg.FileInv σ)
    (hneeds : ∀ {q r c}, cfg.Needs σ' q r c → cfg.Needs σ q r c)
    (hfree : cfg.Unshared σ p ri ci)
    (hfiles : σ'.files = σ.files.unlink (cfg.extraVertexTemp ri ci))
    (hpair : σ'.pair = Function.update σ.pair p (.appending ri (ci + 1) .fopen))
    (hchunk : σ'.chunk = σ.chunk) (hwriter : σ'.writer = σ.writer)
    (hri : ri < cfg.regions.length) : cfg.FileInv σ' := by
  have hpath : ∀ {q r c}, cfg.Needs σ' q r c →
      cfg.extraVertexTemp r c ≠ cfg.extraVertexTemp ri ci := by
    intro q r c hq heq
    obtain ⟨rfl, rfl⟩ := cfg.extraVertexTemp_inj (lt_of_records_ne_nil hq.records) hri heq
    by_cases hqp : q = p
    · subst hqp
      have hunread := hq.unread
      rw [hpair, Function.update_self] at hunread
      simp [PairState.appended] at hunread
    · exact hfree q hqp (hneeds hq)
  refine ⟨hfiles ▸ hF.sound.unlink _, fun q q' r c hq hq' => hF.owner q q' r c (hneeds hq)
    (hneeds hq'), fun q r c hq => ?_, fun q r c inode hp hq => ?_⟩
  · obtain ⟨j, hj⟩ := hF.content q r c (hneeds hq)
    refine ⟨j, hj.of_eq (by rw [hfiles, FileSystem.dir_unlink_of_ne (hpath hq)])
      (by rw [hfiles]; rfl) (by rw [hwriter]) fun o em h => ⟨o, hchunk ▸ h⟩⟩
  · rw [hfiles, FileSystem.dir_unlink_of_ne (hpath hq)]
    rw [hpair] at hp
    by_cases hqp : q = p
    · simp [hqp] at hp
    · rw [Function.update_of_ne hqp] at hp
      exact hF.fread q r c inode hp (hneeds hq)

/-- **A careful step keeps the files.** -/
theorem fileInv_step (hI : cfg.ControlInv σ) (hF : cfg.FileInv σ) (hcareful : cfg.Careful σ e)
    (hs : cfg.Step σ e σ') : cfg.FileInv σ' := by
  have hneeds := fun (he : ∀ p ci, e ≠ .fopen p ci) q r c (h : cfg.Needs σ' q r c) =>
    (needs_of_step hI hs h).resolve_right fun h => he q c h.1
  -- a pair moves on without reading a scratch file
  have hmove : ∀ {p s}, (∀ r c i, s ≠ .appending r c (.fread i)) →
      ∀ q r c i, Function.update σ.pair p s q = .appending r c (.fread i) →
        σ.pair q = .appending r c (.fread i) ∨ i = σ.files.dir (cfg.extraVertexTemp r c) := by
    intro p s hs q r c i hq
    by_cases hqp : q = p
    · subst hqp
      rw [Function.update_self] at hq
      exact absurd hq (hs r c i)
    · rw [Function.update_of_ne hqp] at hq
      exact Or.inl hq
  cases hs with
  | takePair hp hfree =>
      exact hF.of_pair ⟨rfl, rfl, rfl⟩ (hneeds (by simp)) (hmove (by simp))
  | @claim p ci hp hci =>
      refine hF.of_files_eq rfl (hneeds (by simp)) (fun q r c i hq hi => ?_) (hmove (by simp))
      refine hi.of_eq rfl rfl rfl fun o em h => ⟨o, ?_⟩
      have h' := (VertexState.chunk_setChunk ..).symm.trans h
      split at h'
      · rename_i hqc
        obtain ⟨rfl, rfl⟩ := hqc
        exact absurd ((hI.pair q).unclaimed c ((hI.pair q).scanning c hp c le_rfl) r) hq.opened
      · exact h'
  | @fopen p ci ri emitted hc hri =>
      exact fileInv_fopen hI hF (.fopen hc hri) hc hri (hcareful ri emitted hc) rfl rfl
        (fun q c => VertexState.chunk_setChunk ..) fun q c r => VertexState.writer_setWriter ..
  | @write p ci n i offset r v buffer hc hv hw =>
      exact fileInv_write hF (hneeds (by simp) _ _ _) hc hv hw rfl rfl
        (fun q c => VertexState.chunk_setChunk ..) fun q c r' => VertexState.writer_setWriter ..
  | @flush p ci ri n i offset buffer hw =>
      exact fileInv_writeAt hI hF (buffer.take n) (buffer.drop n) (hneeds (by simp) _ _ _)
        (hw.trans (by rw [List.take_append_drop])) (Or.inl rfl) rfl rfl rfl
        fun q c r => VertexState.writer_setWriter ..
  | @fclose p ci ri i offset buffer hc hw =>
      exact fileInv_writeAt hI hF buffer [] (hneeds (by simp) _ _ _)
        (hw.trans (by rw [List.append_nil])) (Or.inr ⟨rfl, rfl, _, hc⟩) rfl rfl rfl
        fun q c r => VertexState.writer_setWriter ..
  | @finish p ci opened emitted hc hw =>
      refine hF.of_files_eq rfl (hneeds (by simp)) (fun q r c i hq hi => ?_)
        fun q r c i h => Or.inl h
      refine hi.of_eq rfl rfl rfl fun o em h => ⟨o, ?_⟩
      have h' := (VertexState.chunk_setChunk ..).symm.trans h
      split at h'
      · simp at h'
      · exact h'
  | join hp hc =>
      exact hF.of_pair ⟨rfl, rfl, rfl⟩ (hneeds (by simp)) (hmove (by simp))
  | lock hp hri hmutex =>
      exact hF.of_pair ⟨rfl, rfl, rfl⟩ (hneeds (by simp)) (hmove (by simp))
  | @fopenTemp p ri ci hp hci =>
      refine hF.of_pair ⟨rfl, rfl, rfl⟩ (hneeds (by simp)) fun q r c i h => ?_
      have h' := (VertexState.pair_setPair ..).symm.trans h
      split at h'
      · obtain ⟨rfl, rfl, hi⟩ := PairState.appending.inj h'
        exact Or.inr (AppendStage.fread.inj hi).symm
      · exact Or.inl h'
  | append hp =>
      exact hF.of_pair ⟨rfl, rfl, rfl⟩ (hneeds (by simp)) (hmove (by simp))
  | @unlink p ri ci hp =>
      exact fileInv_unlink hF (hneeds (by simp) _ _ _) (hcareful ri ci hp) rfl rfl rfl rfl
        (hI.mutex p ri ci _ hp).2
  | unlock hp hci =>
      exact hF.of_pair ⟨rfl, rfl, rfl⟩ (hneeds (by simp)) (hmove (by simp))
  | done hp hri =>
      exact hF.of_pair ⟨rfl, rfl, rfl⟩ (hneeds (by simp)) (hmove (by simp))

/-- **Careful runs keep the files that are needed.** -/
theorem fileInv_of_reached (h : cfg.Reached cfg.Careful σ) : cfg.FileInv σ := by
  induction h with
  | start hfiles extra_vertices => exact fileInv_start hfiles extra_vertices
  | step h hcareful hs ih =>
      exact fileInv_step (controlInv_of_reached h) ih hcareful (step_of_eq_some hs)

omit [Inhabited V] in
/-- What is read back of a needed file are its records. -/
lemma read_eq_records (hI : cfg.ControlInv σ) (hF : cfg.FileInv σ) {inode : Option ℕ}
    (hp : σ.pair p = .appending ri ci (.fread inode)) (hci : ci < cfg.nchunks p)
    (hrec : cfg.records p ci ri ≠ []) :
    (inode.map σ.files.data).getD [] = cfg.records p ci ri := by
  have hfin := (hI.pair p).joined (by simp [hp]) (by simp [hp]) ci hci
  have hclosed := ((hI.pair p).finished ci hfin ri).2 hrec
  have hneed : cfg.Needs σ p ri ci :=
    ⟨by simp [hclosed], by simp [hp, PairState.appended], hrec⟩
  obtain ⟨i, hi⟩ := hF.content p ri ci hneed
  rw [hF.fread p ri ci inode hp hneed, hi.dir]
  exact hi.closed hclosed

end VertexExport

end Gpsxdb
