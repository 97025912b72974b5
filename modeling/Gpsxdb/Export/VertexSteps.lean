import Mathlib.Tactic
import Gpsxdb.Export.VertexFiles

/-!
What a step of the big-table phase does, and what it keeps of a pair's own state.

* `Step`, `step_of_eq_some`: the steps, with what each one needs and does;
* `PairInv`: the order a pair opens, fills and closes its writers in;
  `pairInv_of_reached`;
* `appending_unique`: no two pairs are in `appendExtraVertices` at once.
-/

namespace Gpsxdb

namespace VertexExport

variable {V : Type} [Inhabited V] {cfg : VertexExport V} {σ σ' : VertexState V} {e : VertexEvent}

/-! ### The steps -/

variable (cfg σ) in
/-- **The steps**, with what each one needs and does. -/
inductive Step : VertexEvent → VertexState V → Prop
  | takePair (hp : σ.next_pair < cfg.pairs)
      (hfree : ((Finset.range cfg.pairs).filter fun p => (σ.pair p).inFlight).card
        < max 1 cfg.parallel_table_pairs) :
      Step .takePair { σ.setPair σ.next_pair (.scanning 0) with next_pair := σ.next_pair + 1 }
  | claim {p ci : ℕ} (hp : σ.pair p = .scanning ci) (hci : ci < cfg.nchunks p) :
      Step (.claim p) ((σ.setPair p (.scanning (ci + 1))).setChunk p ci
        (if (cfg.emits p ci).isSome then .running 0 0 else .finished))
  | fopen {p ci ri emitted : ℕ} (hc : σ.chunk p ci = .running ri emitted)
      (hri : ri < cfg.regions.length) :
      Step (.fopen p ci) { (σ.setChunk p ci (.running (ri + 1) emitted)).setWriter p ci ri
        (.opened (σ.files.openInode (cfg.extraVertexTemp ri ci)) 0 []) with
          files := σ.files.openTrunc (cfg.extraVertexTemp ri ci) }
  | write {p ci emitted i offset : ℕ} {ri : Fin cfg.regions.length} {v : V} {buffer : List V}
      (hc : σ.chunk p ci = .running cfg.regions.length emitted)
      (hv : ((cfg.emits p ci).getD [])[emitted]? = some (ri, v))
      (hw : σ.writer p ci ri = .opened i offset buffer) :
      Step (.write p ci) ((σ.setChunk p ci (.running cfg.regions.length (emitted + 1))).setWriter
        p ci ri (.opened i offset (buffer ++ [v])))
  | flush {p ci ri n i offset : ℕ} {buffer : List V}
      (hw : σ.writer p ci ri = .opened i offset buffer) :
      Step (.flush p ci ri n) { σ.setWriter p ci ri
        (.opened i (offset + (buffer.take n).length) (buffer.drop n)) with
          files := σ.files.writeAt i offset (buffer.take n) }
  | fclose {p ci ri i offset : ℕ} {buffer : List V}
      (hc : σ.chunk p ci
        = .running cfg.regions.length ((cfg.emits p ci).getD []).length)
      (hw : σ.writer p ci ri = .opened i offset buffer) :
      Step (.fclose p ci ri) { σ.setWriter p ci ri .closed with
        files := σ.files.writeAt i offset buffer }
  | finish {p ci opened emitted : ℕ} (hc : σ.chunk p ci = .running opened emitted)
      (hw : ∀ ri < cfg.regions.length, σ.writer p ci ri = .closed) :
      Step (.finish p ci) (σ.setChunk p ci .finished)
  | join {p ci : ℕ} (hp : σ.pair p = .scanning ci)
      (hc : ∀ c < cfg.nchunks p, σ.chunk p c = .finished) :
      Step (.join p) (σ.setPair p (.merging 0))
  | lock {p ri : ℕ} (hp : σ.pair p = .merging ri) (hri : ri < cfg.regions.length)
      (hmutex : σ.extra_vertices_mutex = none) :
      Step (.lock p) { σ.setPair p (.appending ri 0 .fopen) with extra_vertices_mutex := some p }
  | fopenTemp {p ri ci : ℕ} (hp : σ.pair p = .appending ri ci .fopen) (hci : ci < cfg.nchunks p) :
      Step (.fopenTemp p)
        (σ.setPair p (.appending ri ci (.fread (σ.files.dir (cfg.extraVertexTemp ri ci)))))
  | append {p ri ci : ℕ} {inode : Option ℕ} (hp : σ.pair p = .appending ri ci (.fread inode)) :
      Step (.append p) { σ.setPair p (.appending ri ci .unlink) with
        extra_vertices := Function.update σ.extra_vertices ri
          (σ.extra_vertices ri ++ (inode.map σ.files.data).getD []) }
  | unlink {p ri ci : ℕ} (hp : σ.pair p = .appending ri ci .unlink) :
      Step (.unlink p) { σ.setPair p (.appending ri (ci + 1) .fopen) with
        files := σ.files.unlink (cfg.extraVertexTemp ri ci) }
  | unlock {p ri ci : ℕ} (hp : σ.pair p = .appending ri ci .fopen) (hci : cfg.nchunks p ≤ ci) :
      Step (.unlock p) { σ.setPair p (.merging (ri + 1)) with extra_vertices_mutex := none }
  | done {p ri : ℕ} (hp : σ.pair p = .merging ri) (hri : cfg.regions.length ≤ ri) :
      Step (.done p) (σ.setPair p .done)

omit [Inhabited V] in
lemma eq_closed_of_matches {w : ExtraVertexWriter V} (h : (w matches .closed) = true) :
    w = .closed := by
  cases w <;> simp_all

lemma eq_finished_of_matches {c : ChunkState} (h : (c matches .finished) = true) :
    c = .finished := by
  cases c <;> simp_all

/-- **Every step is one of them.** -/
theorem step_of_eq_some (h : cfg.step σ e = some σ') : cfg.Step σ e σ' := by
  cases e with
  | takePair =>
      simp only [step, Option.ite_none_right_eq_some, Option.some.injEq] at h
      obtain ⟨⟨hp, hfree⟩, rfl⟩ := h
      exact .takePair hp hfree
  | claim p =>
      simp only [step] at h
      split at h <;> simp only [Option.ite_none_right_eq_some, Option.some.injEq,
        reduceCtorEq] at h
      obtain ⟨⟨hci, -⟩, rfl⟩ := h
      exact .claim ‹_› hci
  | fopen p ci =>
      simp only [step] at h
      split at h <;> simp only [Option.ite_none_right_eq_some, Option.some.injEq,
        reduceCtorEq] at h
      obtain ⟨hri, rfl⟩ := h
      exact .fopen ‹_› hri
  | write p ci =>
      simp only [step] at h
      split at h <;> simp only [Option.ite_none_right_eq_some, reduceCtorEq] at h
      obtain ⟨rfl, h⟩ := h
      split at h <;> try simp only [reduceCtorEq] at h
      split at h <;> simp only [Option.some.injEq, reduceCtorEq] at h
      subst h
      exact .write ‹_› ‹_› ‹_›
  | flush p ci ri n =>
      simp only [step] at h
      split at h <;> simp only [Option.some.injEq, reduceCtorEq] at h
      subst h
      exact .flush ‹_›
  | fclose p ci ri =>
      simp only [step] at h
      split at h <;> simp only [Option.ite_none_right_eq_some, reduceCtorEq] at h
      obtain ⟨⟨rfl, rfl⟩, h⟩ := h
      split at h <;> simp only [Option.some.injEq, reduceCtorEq] at h
      subst h
      exact .fclose ‹_› ‹_›
  | finish p ci =>
      simp only [step] at h
      split at h <;> simp only [Option.ite_none_right_eq_some, Option.some.injEq,
        reduceCtorEq] at h
      obtain ⟨hw, rfl⟩ := h
      exact .finish ‹_› fun ri hri => eq_closed_of_matches (hw ri hri)
  | join p =>
      simp only [step] at h
      split at h <;> simp only [Option.ite_none_right_eq_some, Option.some.injEq,
        reduceCtorEq] at h
      obtain ⟨⟨-, hc⟩, rfl⟩ := h
      exact .join ‹_› fun c hlt => eq_finished_of_matches (hc c hlt)
  | lock p =>
      simp only [step] at h
      split at h <;> simp only [Option.ite_none_right_eq_some, Option.some.injEq,
        reduceCtorEq] at h
      obtain ⟨⟨hri, hmutex⟩, rfl⟩ := h
      exact .lock ‹_› hri hmutex
  | fopenTemp p =>
      simp only [step] at h
      split at h <;> simp only [Option.ite_none_right_eq_some, Option.some.injEq,
        reduceCtorEq] at h
      obtain ⟨hci, rfl⟩ := h
      exact .fopenTemp ‹_› hci
  | append p =>
      simp only [step] at h
      split at h <;> simp only [Option.some.injEq, reduceCtorEq] at h
      subst h
      exact .append ‹_›
  | unlink p =>
      simp only [step] at h
      split at h <;> simp only [Option.some.injEq, reduceCtorEq] at h
      subst h
      exact .unlink ‹_›
  | unlock p =>
      simp only [step] at h
      split at h <;> simp only [Option.ite_none_left_eq_some, Option.some.injEq,
        reduceCtorEq] at h
      obtain ⟨hci, rfl⟩ := h
      exact .unlock ‹_› (not_lt.mp hci)
  | done p =>
      simp only [step] at h
      split at h <;> simp only [Option.ite_none_left_eq_some, Option.some.injEq,
        reduceCtorEq] at h
      obtain ⟨hri, rfl⟩ := h
      exact .done ‹_› (not_lt.mp hri)

/-! ### The order within a pair -/

omit [Inhabited V] in
lemma lt_of_records_ne_nil {p ci ri : ℕ} (h : cfg.records p ci ri ≠ []) :
    ri < cfg.regions.length := by
  obtain ⟨v, hv⟩ := List.exists_mem_of_ne_nil _ h
  rw [records, List.mem_filterMap] at hv
  obtain ⟨⟨r, _⟩, -, hr⟩ := hv
  rw [Option.ite_none_right_eq_some] at hr
  exact hr.1 ▸ r.isLt

variable (cfg) in
/-- A chunk at work: writers are opened in order before the first vertex, and
closed after the last. -/
structure RunningInv (p ci opened emitted : ℕ) (w : ℕ → ExtraVertexWriter V) : Prop where
  lt : ci < cfg.nchunks p
  opened_le : opened ≤ cfg.regions.length
  emitted_eq : opened < cfg.regions.length → emitted = 0
  unopened : ∀ ri, w ri = .unopened ↔ opened ≤ ri
  buffer : ∀ ri i offset buffer, w ri = .opened i offset buffer →
    ∀ v ∈ buffer, v ∈ cfg.records p ci ri
  closed : ∀ ri, w ri = .closed → ((cfg.emits p ci).getD []).length ≤ emitted

variable (cfg) in
/-- **The order a pair works in**: chunks are claimed in order, and the scratch
files are merged when every chunk is finished. -/
structure PairInv (p : ℕ) (s : PairState) (chunk : ℕ → ChunkState)
    (w : ℕ → ℕ → ExtraVertexWriter V) : Prop where
  waiting : s = .waiting → ∀ ci, chunk ci = .unclaimed
  scanning : ∀ next, s = .scanning next → ∀ ci, next ≤ ci → chunk ci = .unclaimed
  joined : s ≠ .waiting → (∀ next, s ≠ .scanning next) →
    ∀ ci < cfg.nchunks p, chunk ci = .finished
  unclaimed : ∀ ci, chunk ci = .unclaimed → ∀ ri, w ci ri = .unopened
  running : ∀ ci opened emitted, chunk ci = .running opened emitted →
    cfg.RunningInv p ci opened emitted (w ci)
  finished : ∀ ci, chunk ci = .finished → ∀ ri, (w ci ri = .unopened ∨ w ci ri = .closed)
    ∧ (cfg.records p ci ri ≠ [] → w ci ri = .closed)

variable (cfg σ) in
/-- The invariant of each pair's own state, and of the mutex. -/
structure ControlInv : Prop where
  pair : ∀ p, cfg.PairInv p (σ.pair p) (σ.chunk p) (σ.writer p)
  untaken : ∀ p, σ.next_pair ≤ p → σ.pair p = .waiting
  mutex : ∀ p ri ci s, σ.pair p = .appending ri ci s →
    σ.extra_vertices_mutex = some p ∧ ri < cfg.regions.length

omit [Inhabited V] in
lemma controlInv_start (files : FileSystem String V) (extra_vertices : ℕ → List V) :
    cfg.ControlInv (start files extra_vertices) := by
  refine ⟨fun p => ⟨fun _ ci => rfl, fun next h => ?_, fun h => ?_, fun ci _ ri => rfl,
    fun ci opened emitted h => ?_, fun ci h => ?_⟩, fun p _ => rfl, fun p ri ci s h => ?_⟩
  · simp [start] at h
  · simp [start] at h
  · simp [start] at h
  · simp [start] at h
  · simp [start] at h

omit [Inhabited V] in
/-- An open writer's chunk is at work. -/
lemma PairInv.exists_running {p : ℕ} {s : PairState} {chunk : ℕ → ChunkState}
    {w : ℕ → ℕ → ExtraVertexWriter V} (h : cfg.PairInv p s chunk w) {ci ri i offset : ℕ}
    {buffer : List V} (hw : w ci ri = .opened i offset buffer) :
    ∃ opened emitted, chunk ci = .running opened emitted := by
  rcases hc : chunk ci with _ | ⟨opened, emitted⟩ | _
  · rw [h.unclaimed ci hc ri] at hw
    simp at hw
  · exact ⟨opened, emitted, rfl⟩
  · rcases (h.finished ci hc ri).1 with h' | h' <;> simp [h'] at hw

omit [Inhabited V] in
/-- A pair's state moves, its chunks and writers stay. -/
lemma PairInv.of_pair {p : ℕ} {s t : PairState} {chunk : ℕ → ChunkState}
    {w : ℕ → ℕ → ExtraVertexWriter V} (h : cfg.PairInv p s chunk w)
    (hwaiting : t = .waiting → s = .waiting)
    (hscanning : ∀ next, t = .scanning next →
      s = .waiting ∨ ∃ next', s = .scanning next' ∧ next' ≤ next)
    (hjoined : t ≠ .waiting → (∀ next, t ≠ .scanning next) →
      ∀ ci < cfg.nchunks p, chunk ci = .finished) : cfg.PairInv p t chunk w := by
  refine ⟨fun hs => h.waiting (hwaiting hs), fun next hs ci hci => ?_, hjoined, h.unclaimed,
    h.running, h.finished⟩
  rcases hscanning next hs with hs | ⟨next', hs, hle⟩
  · exact h.waiting hs ci
  · exact h.scanning next' hs ci (hle.trans hci)

omit [Inhabited V] in
/-- One chunk at work and its writers move. -/
lemma PairInv.of_chunk {p ci opened emitted : ℕ} {s : PairState} {chunk : ℕ → ChunkState}
    {w : ℕ → ℕ → ExtraVertexWriter V} (h : cfg.PairInv p s chunk w)
    (hc : chunk ci = .running opened emitted) {c' : ChunkState} {row : ℕ → ExtraVertexWriter V}
    (hunclaimed : c' ≠ .unclaimed)
    (hrunning : ∀ opened emitted, c' = .running opened emitted →
      cfg.RunningInv p ci opened emitted row)
    (hfinished : c' = .finished → ∀ ri, (row ri = .unopened ∨ row ri = .closed)
      ∧ (cfg.records p ci ri ≠ [] → row ri = .closed)) :
    cfg.PairInv p s (Function.update chunk ci c') (Function.update w ci row) := by
  have hne : ∀ {c}, chunk c = .unclaimed → c ≠ ci := by
    rintro c hun rfl
    simp [hc] at hun
  refine ⟨fun hs c => ?_, fun next hs c hle => ?_, fun hs hs' c hlt => ?_, fun c hun ri => ?_,
    fun c o e hrun => ?_, fun c hfin ri => ?_⟩
  · have hun := h.waiting hs c
    rwa [Function.update_of_ne (hne hun)]
  · have hun := h.scanning next hs c hle
    rwa [Function.update_of_ne (hne hun)]
  · have hfin := h.joined hs hs' c hlt
    have hci : c ≠ ci := by
      rintro rfl
      simp [hc] at hfin
    rwa [Function.update_of_ne hci]
  · by_cases hci : c = ci
    · subst hci
      rw [Function.update_self] at hun
      exact absurd hun hunclaimed
    · rw [Function.update_of_ne hci] at hun ⊢
      exact h.unclaimed c hun ri
  · by_cases hci : c = ci
    · subst hci
      rw [Function.update_self] at hrun ⊢
      exact hrunning o e hrun
    · rw [Function.update_of_ne hci] at hrun ⊢
      exact h.running c o e hrun
  · by_cases hci : c = ci
    · subst hci
      rw [Function.update_self] at hfin ⊢
      exact hfinished hfin ri
    · rw [Function.update_of_ne hci] at hfin ⊢
      exact h.finished c hfin ri

/-! ### Every step keeps the order -/

omit [Inhabited V] in
/-- A step of one pair leaves the others. -/
lemma ControlInv.pair_of_ne {p : ℕ} (hI : cfg.ControlInv σ)
    (hp : cfg.PairInv p (σ'.pair p) (σ'.chunk p) (σ'.writer p))
    (hne : ∀ q, q ≠ p →
      σ'.pair q = σ.pair q ∧ σ'.chunk q = σ.chunk q ∧ σ'.writer q = σ.writer q) :
    ∀ q, cfg.PairInv q (σ'.pair q) (σ'.chunk q) (σ'.writer q) := by
  intro q
  by_cases hq : q = p
  · rw [hq]
    exact hp
  · obtain ⟨h1, h2, h3⟩ := hne q hq
    rw [h1, h2, h3]
    exact hI.pair q

omit [Inhabited V] in
/-- A writer that is open is written to, flushed or closed. -/
lemma RunningInv.update {p ci ri opened emitted emitted' : ℕ} {w : ℕ → ExtraVertexWriter V}
    {w' : ExtraVertexWriter V} (h : cfg.RunningInv p ci opened emitted w) (hw : w ri ≠ .unopened)
    (hw' : w' ≠ .unopened) (hle : emitted ≤ emitted')
    (hemitted : opened < cfg.regions.length → emitted' = 0)
    (hbuffer : ∀ i offset buffer, w' = .opened i offset buffer →
      ∀ v ∈ buffer, v ∈ cfg.records p ci ri)
    (hclosed : w' = .closed → ((cfg.emits p ci).getD []).length ≤ emitted') :
    cfg.RunningInv p ci opened emitted' (Function.update w ri w') := by
  refine ⟨h.lt, h.opened_le, hemitted, fun r => ?_, fun r i offset buffer hr => ?_, fun r hr => ?_⟩
  · by_cases heq : r = ri
    · subst heq
      rw [Function.update_self, ← h.unopened]
      exact iff_of_false hw' hw
    · rw [Function.update_of_ne heq, h.unopened]
  · by_cases heq : r = ri
    · subst heq
      rw [Function.update_self] at hr
      exact hbuffer i offset buffer hr
    · rw [Function.update_of_ne heq] at hr
      exact h.buffer r i offset buffer hr
  · by_cases heq : r = ri
    · subst heq
      rw [Function.update_self] at hr
      exact hclosed hr
    · rw [Function.update_of_ne heq] at hr
      exact (h.closed r hr).trans hle

omit [Inhabited V] in
/-- A pair in its merge moves on in it. -/
lemma ControlInv.pair_of_merge {p : ℕ} {s : PairState} (hI : cfg.ControlInv σ)
    (hp : σ.pair p ≠ .waiting ∧ ∀ next, σ.pair p ≠ .scanning next)
    (hs : s ≠ .waiting ∧ ∀ next, s ≠ .scanning next)
    (heq : σ'.pair = Function.update σ.pair p s ∧ σ'.chunk = σ.chunk ∧ σ'.writer = σ.writer) :
    ∀ q, cfg.PairInv q (σ'.pair q) (σ'.chunk q) (σ'.writer q) := by
  obtain ⟨hpair, hchunk, hwriter⟩ := heq
  rw [hpair, hchunk, hwriter]
  intro q
  by_cases hq : q = p
  · subst hq
    rw [Function.update_self]
    exact (hI.pair q).of_pair (fun h => absurd h hs.1) (fun next h => absurd h (hs.2 next))
      fun _ _ => (hI.pair q).joined hp.1 hp.2
  · rw [Function.update_of_ne hq]
    exact hI.pair q

lemma pairInv_step (hI : cfg.ControlInv σ) (hs : cfg.Step σ e σ') :
    ∀ q, cfg.PairInv q (σ'.pair q) (σ'.chunk q) (σ'.writer q) := by
  cases hs with
  | takePair hp hfree =>
      refine hI.pair_of_ne (p := σ.next_pair) ?_ fun q hq =>
        ⟨Function.update_of_ne hq .., rfl, rfl⟩
      have h := hI.pair σ.next_pair
      have hwait := hI.untaken σ.next_pair le_rfl
      rw [hwait] at h
      simpa [VertexState.setPair] using h.of_pair (t := .scanning 0) (by simp) (by simp) (by simp)
  | @claim p ci hp hci =>
      refine hI.pair_of_ne (p := p) ?_ fun q hq =>
        ⟨Function.update_of_ne hq .., Function.update_of_ne hq .., rfl⟩
      have h := hI.pair p
      rw [hp] at h
      have hun := h.scanning ci rfl ci le_rfl
      have hrow := h.unclaimed ci hun
      simp only [VertexState.setPair, VertexState.setChunk, Function.update_self]
      refine ⟨by simp, fun next hs c hle => ?_, by simp, fun c hc ri => ?_,
        fun c o em hc => ?_, fun c hc ri => ?_⟩
      · obtain rfl : ci + 1 = next := PairState.scanning.inj hs
        rw [Function.update_of_ne (by omega)]
        exact h.scanning ci rfl c (by omega)
      · by_cases hcc : c = ci
        · rw [hcc]
          exact hrow ri
        · rw [Function.update_of_ne hcc] at hc
          exact h.unclaimed c hc ri
      · by_cases hcc : c = ci
        · subst hcc
          rw [Function.update_self] at hc
          split at hc
          · obtain ⟨rfl, rfl⟩ := ChunkState.running.inj hc
            exact ⟨hci, Nat.zero_le _, fun _ => rfl, by simp [hrow], by simp [hrow], by simp [hrow]⟩
          · simp at hc
        · rw [Function.update_of_ne hcc] at hc
          exact h.running c o em hc
      · by_cases hcc : c = ci
        · subst hcc
          rw [Function.update_self] at hc
          split at hc
          · simp at hc
          · rename_i hnone
            rw [Bool.not_eq_true, Option.isSome_eq_false_iff, Option.isNone_iff_eq_none] at hnone
            exact ⟨Or.inl (hrow ri), fun hrec => absurd (by simp [records, hnone]) hrec⟩
        · rw [Function.update_of_ne hcc] at hc
          exact h.finished c hc ri
  | @fopen p ci ri emitted hc hri =>
      refine hI.pair_of_ne (p := p) ?_ fun q hq =>
        ⟨rfl, Function.update_of_ne hq .., Function.update_of_ne hq ..⟩
      have h := hI.pair p
      have hrun := h.running ci ri emitted hc
      simp only [VertexState.setWriter, VertexState.setChunk, Function.update_self]
      refine h.of_chunk hc (by simp) (fun o em heq => ?_) (by simp)
      obtain ⟨rfl, rfl⟩ := ChunkState.running.inj heq
      refine ⟨hrun.lt, hri, fun _ => hrun.emitted_eq hri, fun r => ?_,
        fun r i offset buffer hw v hv => ?_, fun r hw => ?_⟩
      · by_cases hr : r = ri
        · simp [hr]
        · rw [Function.update_of_ne hr, hrun.unopened]
          omega
      · by_cases hr : r = ri
        · subst hr
          rw [Function.update_self, ExtraVertexWriter.opened.injEq] at hw
          obtain ⟨-, -, rfl⟩ := hw
          simp at hv
        · rw [Function.update_of_ne hr] at hw
          exact hrun.buffer r i offset buffer hw v hv
      · by_cases hr : r = ri
        · simp [hr] at hw
        · rw [Function.update_of_ne hr] at hw
          exact hrun.closed r hw
  | @write p ci emitted i offset ri v buffer hc hv hw =>
      refine hI.pair_of_ne (p := p) ?_ fun q hq =>
        ⟨rfl, Function.update_of_ne hq .., Function.update_of_ne hq ..⟩
      have h := hI.pair p
      have hrun := h.running ci _ emitted hc
      have hmem : v ∈ cfg.records p ci ri :=
        List.mem_filterMap.mpr ⟨(ri, v), List.mem_of_getElem? hv, by simp⟩
      simp only [VertexState.setWriter, VertexState.setChunk, Function.update_self]
      refine h.of_chunk hc (by simp) (fun o em heq => ?_) (by simp)
      obtain ⟨rfl, rfl⟩ := ChunkState.running.inj heq
      refine hrun.update (by simp [hw]) (by simp) (Nat.le_succ _) (by simp)
        (fun j offset' buffer' heq u hu => ?_) (by simp)
      obtain ⟨-, -, rfl⟩ := ExtraVertexWriter.opened.inj heq
      rcases List.mem_append.mp hu with hu | hu
      · exact hrun.buffer ri i offset buffer hw u hu
      · rw [List.mem_singleton.mp hu]
        exact hmem
  | @flush p ci ri n i offset buffer hw =>
      refine hI.pair_of_ne (p := p) ?_ fun q hq => ⟨rfl, rfl, Function.update_of_ne hq ..⟩
      have h := hI.pair p
      obtain ⟨opened, emitted, hc⟩ := h.exists_running hw
      have hrun := h.running ci opened emitted hc
      simp only [VertexState.setWriter, Function.update_self]
      rw [← Function.update_eq_self ci (σ.chunk p), hc]
      refine h.of_chunk hc (by simp) (fun o em heq => ?_) (by simp)
      obtain ⟨rfl, rfl⟩ := ChunkState.running.inj heq
      refine hrun.update (by simp [hw]) (by simp) le_rfl hrun.emitted_eq
        (fun j offset' buffer' heq u hu => ?_) (by simp)
      obtain ⟨-, -, rfl⟩ := ExtraVertexWriter.opened.inj heq
      exact hrun.buffer ri i offset buffer hw u (List.mem_of_mem_drop hu)
  | @fclose p ci ri i offset buffer hc hw =>
      refine hI.pair_of_ne (p := p) ?_ fun q hq => ⟨rfl, rfl, Function.update_of_ne hq ..⟩
      have h := hI.pair p
      have hrun := h.running ci _ _ hc
      simp only [VertexState.setWriter, Function.update_self]
      rw [← Function.update_eq_self ci (σ.chunk p), hc]
      refine h.of_chunk hc (by simp) (fun o em heq => ?_) (by simp)
      obtain ⟨rfl, rfl⟩ := ChunkState.running.inj heq
      exact hrun.update (by simp [hw]) (by simp) le_rfl hrun.emitted_eq (by simp)
        fun _ => le_rfl
  | @finish p ci opened emitted hc hw =>
      refine hI.pair_of_ne (p := p) ?_ fun q hq => ⟨rfl, Function.update_of_ne hq .., rfl⟩
      have h := hI.pair p
      have hrun := h.running ci opened emitted hc
      simp only [VertexState.setChunk, Function.update_self]
      rw [← Function.update_eq_self ci (σ.writer p)]
      refine h.of_chunk hc (by simp) (by simp) fun _ ri => ⟨?_, fun hrec => ?_⟩
      · by_cases hri : ri < cfg.regions.length
        · exact Or.inr (hw ri hri)
        · exact Or.inl ((hrun.unopened ri).mpr (hrun.opened_le.trans (not_lt.mp hri)))
      · exact hw ri (lt_of_records_ne_nil hrec)
  | @join p ci hp hc =>
      refine hI.pair_of_ne (p := p) ?_ fun q hq => ⟨Function.update_of_ne hq .., rfl, rfl⟩
      simpa [VertexState.setPair] using
        (hI.pair p).of_pair (t := .merging 0) (by simp) (by simp) fun _ _ => hc
  | lock hp hri hmutex =>
      exact hI.pair_of_merge (by simp [hp]) (by simp) ⟨rfl, rfl, rfl⟩
  | fopenTemp hp hci =>
      exact hI.pair_of_merge (by simp [hp]) (by simp) ⟨rfl, rfl, rfl⟩
  | append hp =>
      exact hI.pair_of_merge (by simp [hp]) (by simp) ⟨rfl, rfl, rfl⟩
  | unlink hp =>
      exact hI.pair_of_merge (by simp [hp]) (by simp) ⟨rfl, rfl, rfl⟩
  | unlock hp hci =>
      exact hI.pair_of_merge (by simp [hp]) (by simp) ⟨rfl, rfl, rfl⟩
  | done hp hri =>
      exact hI.pair_of_merge (by simp [hp]) (by simp) ⟨rfl, rfl, rfl⟩

omit [Inhabited V] in
/-- A pair that has been taken moves on: the others still wait, and the mutex is
its own where it is in `appendExtraVertices`. -/
lemma ControlInv.of_setPair {p : ℕ} {s : PairState} (hI : cfg.ControlInv σ)
    (hp : σ.pair p ≠ .waiting)
    (hpair : ∀ q, cfg.PairInv q (σ'.pair q) (σ'.chunk q) (σ'.writer q))
    (heq : σ'.pair = Function.update σ.pair p s ∧ σ'.next_pair = σ.next_pair)
    (hmutex : ∀ ri ci stage, s = .appending ri ci stage →
      σ'.extra_vertices_mutex = some p ∧ ri < cfg.regions.length)
    (hothers : ∀ q ri ci stage, q ≠ p → σ.pair q = .appending ri ci stage →
      σ'.extra_vertices_mutex = some q) : cfg.ControlInv σ' := by
  refine ⟨hpair, fun q hq => ?_, fun q ri ci stage hq => ?_⟩
  · rw [heq.2] at hq
    have hne : q ≠ p := by
      rintro rfl
      exact hp (hI.untaken q hq)
    rw [heq.1, Function.update_of_ne hne]
    exact hI.untaken q hq
  · rw [heq.1] at hq
    by_cases hne : q = p
    · subst hne
      rw [Function.update_self] at hq
      exact hmutex ri ci stage hq
    · rw [Function.update_of_ne hne] at hq
      exact ⟨hothers q ri ci stage hne hq, (hI.mutex q ri ci stage hq).2⟩

omit [Inhabited V] in
/-- A step inside the chunks of a pair. -/
lemma ControlInv.of_pair_eq (hI : cfg.ControlInv σ)
    (hpair : ∀ q, cfg.PairInv q (σ'.pair q) (σ'.chunk q) (σ'.writer q))
    (heq : σ'.pair = σ.pair ∧ σ'.next_pair = σ.next_pair
      ∧ σ'.extra_vertices_mutex = σ.extra_vertices_mutex) : cfg.ControlInv σ' := by
  obtain ⟨h1, h2, h3⟩ := heq
  exact ⟨hpair, by rw [h1, h2]; exact hI.untaken, by rw [h1, h3]; exact hI.mutex⟩

theorem controlInv_step (hI : cfg.ControlInv σ) (hs : cfg.Step σ e σ') : cfg.ControlInv σ' := by
  have hpair := pairInv_step hI hs
  cases hs with
  | takePair hp hfree =>
      refine ⟨hpair, fun q hq => ?_, fun q ri ci stage hq => ?_⟩
      · have hlt : σ.next_pair < q := hq
        exact (Function.update_of_ne hlt.ne' ..).trans (hI.untaken q hlt.le)
      · have hq' : Function.update σ.pair σ.next_pair (.scanning 0) q
          = .appending ri ci stage := hq
        by_cases hne : q = σ.next_pair
        · simp [hne] at hq'
        · rw [Function.update_of_ne hne] at hq'
          exact hI.mutex q ri ci stage hq'
  | @claim p ci hp hci =>
      exact hI.of_setPair (p := p) (by simp [hp]) hpair ⟨rfl, rfl⟩ (by simp)
        fun q ri ci stage _ hq => (hI.mutex q ri ci stage hq).1
  | fopen hc hri => exact hI.of_pair_eq hpair ⟨rfl, rfl, rfl⟩
  | write hc hv hw => exact hI.of_pair_eq hpair ⟨rfl, rfl, rfl⟩
  | flush hw => exact hI.of_pair_eq hpair ⟨rfl, rfl, rfl⟩
  | fclose hc hw => exact hI.of_pair_eq hpair ⟨rfl, rfl, rfl⟩
  | finish hc hw => exact hI.of_pair_eq hpair ⟨rfl, rfl, rfl⟩
  | @join p ci hp hc =>
      exact hI.of_setPair (p := p) (by simp [hp]) hpair ⟨rfl, rfl⟩ (by simp)
        fun q ri ci stage _ hq => (hI.mutex q ri ci stage hq).1
  | @lock p ri hp hri hmutex =>
      refine hI.of_setPair (p := p) (by simp [hp]) hpair ⟨rfl, rfl⟩
        (fun _ _ _ heq => ⟨rfl, (PairState.appending.inj heq).1 ▸ hri⟩)
        fun q ri ci stage _ hq => ?_
      have hq' := (hI.mutex q ri ci stage hq).1
      rw [hmutex] at hq'
      simp at hq'
  | @fopenTemp p ri ci hp hci =>
      exact hI.of_setPair (p := p) (by simp [hp]) hpair ⟨rfl, rfl⟩
        (fun _ _ _ heq => (PairState.appending.inj heq).1 ▸ hI.mutex p ri ci _ hp)
        fun q ri ci stage _ hq => (hI.mutex q ri ci stage hq).1
  | @append p ri ci inode hp =>
      exact hI.of_setPair (p := p) (by simp [hp]) hpair ⟨rfl, rfl⟩
        (fun _ _ _ heq => (PairState.appending.inj heq).1 ▸ hI.mutex p ri ci _ hp)
        fun q ri ci stage _ hq => (hI.mutex q ri ci stage hq).1
  | @unlink p ri ci hp =>
      exact hI.of_setPair (p := p) (by simp [hp]) hpair ⟨rfl, rfl⟩
        (fun _ _ _ heq => (PairState.appending.inj heq).1 ▸ hI.mutex p ri ci _ hp)
        fun q ri ci stage _ hq => (hI.mutex q ri ci stage hq).1
  | @unlock p ri ci hp hci =>
      refine hI.of_setPair (p := p) (by simp [hp]) hpair ⟨rfl, rfl⟩ (by simp)
        fun q ri' ci' stage hne hq => ?_
      have hmine := (hI.mutex p ri ci _ hp).1
      rw [(hI.mutex q ri' ci' stage hq).1] at hmine
      exact absurd (Option.some.inj hmine) hne
  | @done p ri hp hri =>
      exact hI.of_setPair (p := p) (by simp [hp]) hpair ⟨rfl, rfl⟩ (by simp)
        fun q ri ci stage _ hq => (hI.mutex q ri ci stage hq).1

/-- **The order holds in every run.** -/
theorem controlInv_of_reached {allowed : VertexState V → VertexEvent → Prop}
    (h : cfg.Reached allowed σ) : cfg.ControlInv σ := by
  induction h with
  | start hfiles extra_vertices => exact controlInv_start _ extra_vertices
  | step _ _ hs ih => exact controlInv_step ih (step_of_eq_some hs)

/-- **`extra_vertices_mutex` excludes**: no two pairs are in `appendExtraVertices`
at once. -/
theorem appending_unique {allowed : VertexState V → VertexEvent → Prop}
    (h : cfg.Reached allowed σ) {p q ri ri' ci ci' : ℕ} {stage stage' : AppendStage}
    (hp : σ.pair p = .appending ri ci stage) (hq : σ.pair q = .appending ri' ci' stage') :
    p = q := by
  have hI := controlInv_of_reached h
  have hp' := (hI.mutex p ri ci stage hp).1
  rw [(hI.mutex q ri' ci' stage' hq).1] at hp'
  exact (Option.some.inj hp').symm

end VertexExport

end Gpsxdb
