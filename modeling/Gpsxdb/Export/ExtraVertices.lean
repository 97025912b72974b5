import Mathlib.Tactic
import Gpsxdb.Export.ScratchFiles
import Gpsxdb.Library.Runs
import Gpsxdb.NodeStore.OSMMMap

/-!
When the vertices that the workers emit all reach `extra_vertices.bin`.

* `emitted`, `appendedRecords`: the records of a region, and those read back;
  `appendedRecords_le`: what has been read back stands in `extra_vertices.bin`;
* `reached_careful_of_single`: with one pair at a time every step is careful;
* `emitted_le_extra_vertices`; `vertices_lost`.
-/

namespace Gpsxdb

namespace VertexExport

variable {V : Type} {cfg : VertexExport V} {σ σ' : VertexState V} {e : VertexEvent}
  {p q ri ci : ℕ}

variable (cfg σ) in
/-- What has been read back of a region's records, over all pairs and chunks. -/
def appendedRecords (ri : ℕ) : Multiset V :=
  ∑ p ∈ Finset.range cfg.pairs, ∑ ci ∈ Finset.range (cfg.nchunks p),
    if (σ.pair p).appended ri ci then (cfg.records p ci ri : Multiset V) else 0

variable (cfg) in
/-- Every vertex record the workers emit for a region. -/
def emitted (ri : ℕ) : Multiset V :=
  ∑ p ∈ Finset.range cfg.pairs, ∑ ci ∈ Finset.range (cfg.nchunks p),
    (cfg.records p ci ri : Multiset V)

variable [Inhabited V]

/-! ### What has been appended -/

/-- A pair reads a file back only in `appendExtraVertices`. -/
lemma appended_of_step (hs : cfg.Step σ e σ') (he : ∀ p, e ≠ .append p)
    (hri : ri < cfg.regions.length) (hci : ci < cfg.nchunks q)
    (h : (σ'.pair q).appended ri ci = true) : (σ.pair q).appended ri ci = true := by
  have key : ∀ {p s}, (q = p → s.appended ri ci = true → (σ.pair p).appended ri ci = true) →
      (Function.update σ.pair p s q).appended ri ci = true →
      (σ.pair q).appended ri ci = true := by
    intro p s hps hq
    by_cases hqp : q = p
    · subst hqp
      rw [Function.update_self] at hq
      exact hps rfl hq
    · rwa [Function.update_of_ne hqp] at hq
  cases hs with
  | takePair hp hfree => exact key (by simp [PairState.appended]) h
  | claim hp hc => exact key (by simp [PairState.appended]) h
  | fopen hc hr => exact h
  | write hc hv hw => exact h
  | flush hw => exact h
  | fclose hc hw => exact h
  | finish hc hw => exact h
  | join hp hc => exact key (by simp [PairState.appended]) h
  | lock hp hr hmutex =>
      refine key (fun _ => ?_) h
      simp only [hp, PairState.appended, decide_eq_true_eq, reduceCtorEq, and_false, or_false]
      omega
  | fopenTemp hp hc =>
      refine key (fun _ => ?_) h
      simp [hp, PairState.appended]
  | append hp => exact absurd rfl (he _)
  | unlink hp =>
      refine key (fun _ => ?_) h
      simp only [hp, PairState.appended, decide_eq_true_eq, reduceCtorEq, and_true, and_false,
        or_false]
      omega
  | @unlock p r c hp hc =>
      refine key (fun hq => ?_) h
      rw [hq] at hci
      simp only [hp, PairState.appended, decide_eq_true_eq, reduceCtorEq, and_false, or_false]
      omega
  | done hp hr =>
      refine key (fun _ _ => ?_) h
      simp only [hp, PairState.appended, decide_eq_true_eq]
      omega

/-- A sum in which only one term may not be zero. -/
lemma sum_sum_ite_le {M : Type*} [AddCommMonoid M] [PartialOrder M] [CanonicallyOrderedAdd M]
    (s : Finset ℕ) (t : ℕ → Finset ℕ) (a b : ℕ) (m : M) :
    (∑ q ∈ s, ∑ c ∈ t q, if q = a ∧ c = b then m else 0) ≤ m := by
  have hinner : ∀ q, (∑ c ∈ t q, if q = a ∧ c = b then m else 0)
      = if q = a then (if b ∈ t a then m else 0) else 0 := by
    intro q
    by_cases hq : q = a
    · subst hq
      simp [Finset.sum_ite_eq']
    · simp [hq]
  simp only [hinner, Finset.sum_ite_eq']
  split_ifs <;> simp

omit [Inhabited V] in
/-- Reading one file back adds no more than its content. -/
lemma appendedRecords_append_le (hI : cfg.ControlInv σ) (hF : cfg.FileInv σ) {inode : Option ℕ}
    {r : ℕ} (hp : σ.pair p = .appending r ci (.fread inode))
    (hpair : σ'.pair = Function.update σ.pair p (.appending r ci .unlink)) :
    cfg.appendedRecords σ' ri ≤ cfg.appendedRecords σ ri
      + if ri = r then ((inode.map σ.files.data).getD [] : Multiset V) else 0 := by
  set read : Multiset V := if ri = r then ((inode.map σ.files.data).getD [] : Multiset V) else 0
    with hread
  have hterm : ∀ q, ∀ c < cfg.nchunks q,
      (if (σ'.pair q).appended ri c then (cfg.records q c ri : Multiset V) else 0)
        ≤ (if (σ.pair q).appended ri c then (cfg.records q c ri : Multiset V) else 0)
          + if q = p ∧ c = ci then read else 0 := by
    intro q c hc
    by_cases happ : (σ.pair q).appended ri c = true
    · rw [if_pos happ]
      exact le_trans (by split_ifs <;> simp) (Multiset.le_add_right _ _)
    · by_cases hqc : (q = p ∧ c = ci) ∧ ri = r
      · -- the file that is read
        obtain ⟨⟨rfl, rfl⟩, rfl⟩ := hqc
        rw [if_neg happ, hread]
        simp only [and_self, if_true, zero_add]
        by_cases hrec : cfg.records q c ri = []
        · simp [hrec]
        · rw [read_eq_records hI hF hp hc hrec]
          split_ifs
          · exact le_rfl
          · exact Multiset.zero_le _
      · have hsame : (σ'.pair q).appended ri c = false := by
          rw [hpair]
          by_cases hq : q = p
          · subst hq
            rw [hp] at happ
            simp only [PairState.appended, decide_eq_true_eq, reduceCtorEq, and_false,
              or_false] at happ
            simp only [Function.update_self, PairState.appended, decide_eq_false_iff_not, and_true]
            omega
          · rw [Function.update_of_ne hq]
            simpa using happ
        rw [if_neg (by simp [hsame])]
        exact Multiset.zero_le _
  calc cfg.appendedRecords σ' ri
      ≤ ∑ q ∈ Finset.range cfg.pairs, ∑ c ∈ Finset.range (cfg.nchunks q),
          ((if (σ.pair q).appended ri c then (cfg.records q c ri : Multiset V) else 0)
            + if q = p ∧ c = ci then read else 0) :=
        Finset.sum_le_sum fun q _ => Finset.sum_le_sum fun c hc =>
          hterm q c (Finset.mem_range.mp hc)
    _ = cfg.appendedRecords σ ri + ∑ q ∈ Finset.range cfg.pairs,
          ∑ c ∈ Finset.range (cfg.nchunks q), if q = p ∧ c = ci then read else 0 := by
        simp only [Finset.sum_add_distrib, appendedRecords]
    _ ≤ cfg.appendedRecords σ ri + read :=
        add_le_add_right (sum_sum_ite_le _ (fun q => Finset.range (cfg.nchunks q)) p ci read) _

/-- **What has been read back stands in `extra_vertices.bin`.** -/
theorem appendedRecords_le_step (hI : cfg.ControlInv σ) (hF : cfg.FileInv σ)
    (hs : cfg.Step σ e σ') (hri : ri < cfg.regions.length)
    (hle : cfg.appendedRecords σ ri ≤ σ.extra_vertices ri) :
    cfg.appendedRecords σ' ri ≤ σ'.extra_vertices ri := by
  by_cases he : ∃ p, e = .append p
  · obtain ⟨p, rfl⟩ := he
    cases hs with
    | @append _ r c inode hp =>
        refine (appendedRecords_append_le hI hF hp rfl).trans ?_
        by_cases hr : ri = r
        · subst hr
          simp only [if_true, Function.update_self, ← Multiset.coe_add]
          exact add_le_add_left hle _
        · simpa [hr] using hle
  · rw [not_exists] at he
    have hextra : σ'.extra_vertices = σ.extra_vertices := by
      cases hs <;> first | rfl | exact absurd rfl (he _)
    rw [hextra]
    refine le_trans (Finset.sum_le_sum fun q hq => Finset.sum_le_sum fun c hc => ?_) hle
    by_cases happ : (σ'.pair q).appended ri c = true
    · rw [if_pos happ, if_pos (appended_of_step hs he hri (Finset.mem_range.mp hc) happ)]
    · rw [if_neg happ]
      exact Multiset.zero_le _

theorem appendedRecords_le (h : cfg.Reached cfg.Careful σ) (hri : ri < cfg.regions.length) :
    cfg.appendedRecords σ ri ≤ σ.extra_vertices ri := by
  induction h with
  | start hfiles extra_vertices => simp [appendedRecords, start, PairState.appended]
  | step h hcareful hs ih =>
      exact appendedRecords_le_step (controlInv_of_reached h) (fileInv_of_reached h)
        (step_of_eq_some hs) hri ih

/-! ### One pair at a time -/

variable (cfg σ) in
/-- At most one pair is in flight. -/
structure SingleInv : Prop where
  lt : ∀ p, (σ.pair p).inFlight = true → p < cfg.pairs
  eq : ∀ p q, (σ.pair p).inFlight = true → (σ.pair q).inFlight = true → p = q

omit [Inhabited V] in
/-- A pair that is in flight moves on. -/
lemma SingleInv.of_inFlight (h : cfg.SingleInv σ)
    (hle : ∀ q, (σ'.pair q).inFlight = true → (σ.pair q).inFlight = true) : cfg.SingleInv σ' :=
  ⟨fun p hp => h.lt p (hle p hp), fun p q hp hq => h.eq p q (hle p hp) (hle q hq)⟩

lemma singleInv_step (hN : cfg.parallel_table_pairs ≤ 1) (h : cfg.SingleInv σ)
    (hs : cfg.Step σ e σ') : cfg.SingleInv σ' := by
  have hmove : ∀ {p s}, (σ.pair p).inFlight = true →
      ∀ q, (Function.update σ.pair p s q).inFlight = true → (σ.pair q).inFlight = true := by
    intro p s hp q hq
    by_cases hqp : q = p
    · rwa [hqp]
    · rwa [Function.update_of_ne hqp] at hq
  cases hs with
  | takePair hp hfree =>
      -- the only driver is free: no pair is in flight
      have hnone : ∀ q, (σ.pair q).inFlight = false := by
        intro q
        by_contra hq
        rw [Bool.not_eq_false] at hq
        have hcard : 0 < ((Finset.range cfg.pairs).filter fun p => (σ.pair p).inFlight).card :=
          Finset.card_pos.mpr ⟨q, Finset.mem_filter.mpr ⟨Finset.mem_range.mpr (h.lt q hq), hq⟩⟩
        omega
      have hnew : ∀ q, (Function.update σ.pair σ.next_pair (.scanning 0) q).inFlight = true →
          q = σ.next_pair := by
        intro q hq
        by_contra hne
        rw [Function.update_of_ne hne, hnone] at hq
        simp at hq
      exact ⟨fun q hq => (hnew q hq) ▸ hp, fun q q' hq hq' => (hnew q hq).trans (hnew q' hq').symm⟩
  | claim hp hci => exact h.of_inFlight (hmove (by simp [hp, PairState.inFlight]))
  | fopen hc hri => exact h.of_inFlight fun q hq => hq
  | write hc hv hw => exact h.of_inFlight fun q hq => hq
  | flush hw => exact h.of_inFlight fun q hq => hq
  | fclose hc hw => exact h.of_inFlight fun q hq => hq
  | finish hc hw => exact h.of_inFlight fun q hq => hq
  | join hp hc => exact h.of_inFlight (hmove (by simp [hp, PairState.inFlight]))
  | lock hp hri hmutex => exact h.of_inFlight (hmove (by simp [hp, PairState.inFlight]))
  | fopenTemp hp hci => exact h.of_inFlight (hmove (by simp [hp, PairState.inFlight]))
  | append hp => exact h.of_inFlight (hmove (by simp [hp, PairState.inFlight]))
  | unlink hp => exact h.of_inFlight (hmove (by simp [hp, PairState.inFlight]))
  | unlock hp hci => exact h.of_inFlight (hmove (by simp [hp, PairState.inFlight]))
  | done hp hri => exact h.of_inFlight (hmove (by simp [hp, PairState.inFlight]))

omit [Inhabited V] in
/-- What a pair in flight opens or takes away is needed by no other. -/
lemma unshared_of_single (hI : cfg.ControlInv σ) (h : cfg.SingleInv σ)
    (hp : (σ.pair p).inFlight = true) : cfg.Unshared σ p ri ci := by
  intro q hqp hq
  rcases hs : σ.pair q with _ | next | r | ⟨r, c, stage⟩ | _
  · exact hq.opened ((hI.pair q).unclaimed ci ((hI.pair q).waiting hs ci) ri)
  · exact hqp (h.eq q p (by simp [hs, PairState.inFlight]) hp)
  · exact hqp (h.eq q p (by simp [hs, PairState.inFlight]) hp)
  · exact hqp (h.eq q p (by simp [hs, PairState.inFlight]) hp)
  · have hunread := hq.unread
    simp [hs, PairState.appended] at hunread

omit [Inhabited V] in
/-- **With one pair in flight every step is careful.** -/
lemma careful_of_single (hI : cfg.ControlInv σ) (h : cfg.SingleInv σ) : cfg.Careful σ e := by
  cases e with
  | fopen p ci =>
      intro ri emitted hc
      refine unshared_of_single hI h ?_
      rcases hs : σ.pair p with _ | next | r | ⟨r, c, stage⟩ | _
      · simp [(hI.pair p).waiting hs ci] at hc
      · rfl
      · rfl
      · rfl
      · have hfin := (hI.pair p).joined (by simp [hs]) (by simp [hs]) ci
          ((hI.pair p).running ci ri emitted hc).lt
        simp [hc] at hfin
  | unlink p =>
      intro ri ci hp
      exact unshared_of_single hI h (by simp [hp, PairState.inFlight])
  | _ => trivial

theorem reached_careful_of_single (hN : cfg.parallel_table_pairs ≤ 1)
    (h : cfg.Reached (fun _ _ => True) σ) : cfg.Reached cfg.Careful σ := by
  have key : cfg.Reached cfg.Careful σ ∧ cfg.SingleInv σ := by
    induction h with
    | start hfiles extra_vertices =>
        exact ⟨.start hfiles extra_vertices,
          by simp [start, PairState.inFlight], by simp [start, PairState.inFlight]⟩
    | step _ _ hs ih =>
        exact ⟨ih.1.step (careful_of_single (controlInv_of_reached ih.1) ih.2) hs,
          singleInv_step hN ih.2 (step_of_eq_some hs)⟩
  exact key.1

/-! ### The vertices a region ends with -/

omit [Inhabited V] in
/-- When the phase has ended everything has been read back. -/
lemma appendedRecords_of_finished (h : σ.Finished cfg) :
    cfg.appendedRecords σ ri = cfg.emitted ri := by
  refine Finset.sum_congr rfl fun p hp => Finset.sum_congr rfl fun ci _ => ?_
  rw [h p (Finset.mem_range.mp hp)]
  rfl

/-- **No vertex is lost** in a run that opens and takes away scratch files only
while no other pair needs them, as every run with one pair at a time does. -/
theorem emitted_le_extra_vertices
    (h : cfg.Reached cfg.Careful σ
      ∨ cfg.parallel_table_pairs ≤ 1 ∧ cfg.Reached (fun _ _ => True) σ)
    (hfin : σ.Finished cfg) (hri : ri < cfg.regions.length) :
    cfg.emitted ri ≤ σ.extra_vertices ri := by
  rw [← appendedRecords_of_finished hfin]
  rcases h with h | ⟨hN, h⟩
  · exact appendedRecords_le h hri
  · exact appendedRecords_le (reached_careful_of_single hN h) hri

/-! ### Two pairs and one scratch file -/

omit [Inhabited V] in
lemma sound_noFiles : (⟨fun _ => none, fun _ => [], 0⟩ : FileSystem String V).Sound :=
  ⟨fun h => absurd h (by simp), fun h => absurd h (by simp)⟩

/-- The state after a run that starts without files. -/
def after (cfg : VertexExport V) (events : List VertexEvent) : VertexState V :=
  let fresh := start ⟨fun _ => none, fun _ => [], 0⟩ fun _ => []
  (events.foldlM cfg.step fresh).getD fresh

lemma reached_after {events : List VertexEvent}
    (h : (events.foldlM cfg.step
      (start ⟨fun _ => none, fun _ => [], 0⟩ fun _ => [])).isSome = true) :
    cfg.Reached (fun _ _ => True) (cfg.after events) := by
  obtain ⟨σ, hσ⟩ := Option.isSome_iff_exists.mp h
  rw [after, hσ, Option.getD_some]
  exact foldlM_invariant (fun _ _ _ hτ hs => hτ.step trivial hs) (.start sound_noFiles _) hσ

instance : Inhabited Coord := ⟨⟨0, 0⟩⟩

/-- Two pairs with a vertex each, of one region and one chunk. -/
def twoPairs (parallel_table_pairs : ℕ) : VertexExport Coord where
  out_dir := "."
  regions := ["europe"]
  nodup := by decide
  parallel_table_pairs := parallel_table_pairs
  threads := 1
  pairs := 2
  nchunks := fun _ => 1
  emits := fun p _ => some [(0, ⟨p.toUInt64, 1⟩)]

/-- One pair's steps from being taken to its chunk's end. -/
def scanEvents (p : ℕ) : List VertexEvent :=
  [.takePair, .claim p, .fopen p 0, .write p 0, .fclose p 0 0, .finish p 0, .join p]

/-- The merge of one pair. -/
def mergeEvents (p : ℕ) : List VertexEvent :=
  [.lock p, .fopenTemp p, .append p, .unlink p, .unlock p, .done p]

/-- Steps that open nothing and take nothing away. -/
lemma reached_of_plain (events : List VertexEvent) (h : cfg.Reached cfg.Careful σ)
    (hplain : ∀ e ∈ events, ∀ τ, cfg.Careful τ e) (hrun : events.foldlM cfg.step σ = some σ') :
    cfg.Reached cfg.Careful σ' := by
  induction events generalizing σ with
  | nil => exact Option.some.inj hrun ▸ h
  | cons e events ih =>
      obtain ⟨he, hevents⟩ := List.forall_mem_cons.mp hplain
      obtain ⟨τ, hstep, hrest⟩ := foldlM_cons_eq_some.mp hrun
      exact ih (h.step (he σ) hstep) hevents hrest

/-- Both pairs are taken before a file is opened; the second opens its own when the first has
been read back. -/
def bothInFlight : List VertexEvent :=
  [.takePair, .takePair] ++ (scanEvents 0).tail ++ mergeEvents 0 ++ (scanEvents 1).tail
    ++ mergeEvents 1

/-- The state after the first of these steps. -/
def bothAfter (k : ℕ) : VertexState Coord := (twoPairs 2).after (bothInFlight.take k)

lemma reached_bothInFlight : (twoPairs 2).Reached (twoPairs 2).Careful (bothAfter 26) := by
  have h₀ : (twoPairs 2).Reached (twoPairs 2).Careful (bothAfter 0) := .start sound_noFiles _
  have h₃ : (twoPairs 2).Reached (twoPairs 2).Careful (bothAfter 3) :=
    reached_of_plain [.takePair, .takePair, .claim 0] h₀
      (by simp [Careful]) rfl
  -- the second pair has opened nothing
  have h₄ : (twoPairs 2).Reached (twoPairs 2).Careful (bothAfter 4) := by
    refine h₃.step (e := .fopen 0 0) (fun ri emitted _ q hq hneeds => hneeds.opened ?_) rfl
    rfl
  have h₁₁ : (twoPairs 2).Reached (twoPairs 2).Careful (bothAfter 11) :=
    reached_of_plain [.write 0 0, .fclose 0 0 0, .finish 0 0, .join 0, .lock 0,
      .fopenTemp 0, .append 0] h₄ (by simp [Careful]) rfl
  have h₁₂ : (twoPairs 2).Reached (twoPairs 2).Careful (bothAfter 12) := by
    refine h₁₁.step (e := .unlink 0) (fun ri ci _ q hq hneeds => hneeds.opened ?_) rfl
    rcases q with _ | q
    · exact absurd rfl hq
    · rfl
  have h₁₅ : (twoPairs 2).Reached (twoPairs 2).Careful (bothAfter 15) :=
    reached_of_plain [.unlock 0, .done 0, .claim 1] h₁₂
      (by simp [Careful]) rfl
  -- the first pair has been read back
  have hothers : ∀ k, (k = 15 ∨ k = 23) → ∀ ri ci,
      (twoPairs 2).Unshared (bothAfter k) 1 ri ci := by
    rintro k hk ri ci q hq hneeds
    rcases q with _ | _ | q
    · have hunread := hneeds.unread
      rcases hk with rfl | rfl <;> exact absurd (show true = false from hunread) (by decide)
    · exact hq rfl
    · rcases hk with rfl | rfl <;> exact hneeds.opened rfl
  have h₁₆ : (twoPairs 2).Reached (twoPairs 2).Careful (bothAfter 16) :=
    h₁₅.step (e := .fopen 1 0) (fun ri emitted _ => hothers 15 (Or.inl rfl) ri 0) rfl
  have h₂₃ : (twoPairs 2).Reached (twoPairs 2).Careful (bothAfter 23) :=
    reached_of_plain [.write 1 0, .fclose 1 0 0, .finish 1 0, .join 1, .lock 1,
      .fopenTemp 1, .append 1] h₁₆ (by simp [Careful]) rfl
  have h₂₄ : (twoPairs 2).Reached (twoPairs 2).Careful (bothAfter 24) :=
    h₂₃.step (e := .unlink 1) (fun ri ci _ => hothers 23 (Or.inr rfl) ri ci) rfl
  exact reached_of_plain [.unlock 1, .done 1] h₂₄ (by simp [Careful]) rfl

/-- One pair at a time, and two pairs in flight. -/
theorem emitted_le_extra_vertices_in_turn :
    (twoPairs 1).emitted 0 ≤ ((twoPairs 1).after
        (scanEvents 0 ++ mergeEvents 0 ++ scanEvents 1 ++ mergeEvents 1)).extra_vertices 0
      ∧ (twoPairs 2).emitted 0 ≤ (bothAfter 26).extra_vertices 0 :=
  ⟨emitted_le_extra_vertices (Or.inr ⟨by decide, reached_after (by rfl)⟩)
      (fun p (hp : p < 2) => by interval_cases p <;> rfl) (by decide),
    emitted_le_extra_vertices (Or.inl reached_bothInFlight)
      (fun p (hp : p < 2) => by interval_cases p <;> rfl) (by decide)⟩

/-- **A vertex can be lost**: the second pair opens the scratch file after the first
has closed it, and goes on writing to it when the first has taken it away. -/
theorem vertices_lost : ¬∀ σ, (twoPairs 2).Reached (fun _ _ => True) σ →
    σ.Finished (twoPairs 2) → ∀ ri < (twoPairs 2).regions.length,
      (twoPairs 2).emitted ri ≤ σ.extra_vertices ri := by
  intro h
  have hlost := h ((twoPairs 2).after (scanEvents 0
      ++ ([.takePair, .claim 1, .fopen 1 0, .write 1 0] : List VertexEvent) ++ mergeEvents 0
      ++ ([.fclose 1 0 0, .finish 1 0, .join 1] : List VertexEvent) ++ mergeEvents 1))
    (reached_after (by rfl)) (fun p (hp : p < 2) => by interval_cases p <;> rfl) 0 (by decide)
  revert hlost
  decide +kernel

end VertexExport

end Gpsxdb
