import Mathlib.Tactic
import Gpsxdb.Replication.Target

/-!
When storing a sequence at an install leaves no replication gap.

* `PassedBy`: the diffs that step 7 takes to be in the data of every region, by the export
  time and the tip; `le_seeded_iff`;
* `Lacks`, `NonePassedBy`, `PollsFit`: what the end of an install needs: no installed region
  lacks one of them;
* `noGap_iff`: no gap means that the stored sequence is one every installed region has been
  brought up to;
* `Tracked`: the invariant: the stored sequence, and the position of every running poll
  loop, are ones every installed region has been brought up to;
* `tracked_step`, `noGap_of_reached`.
-/

namespace Gpsxdb

namespace Target

variable {R : Type} {σ σ' : Target R}

/-- No gap, as one inequality for each region. -/
lemma noGap_iff : σ.NoGap ↔ ∀ r, σ.Installed r → σ.stored ≤ (σ.data r).upTo :=
  forall_congr' fun _ => imp_congr_right fun _ => le_coveredTo_iff.symm

/-! ### What step 7 passes by -/

/-- When a sequence was published, counted back from the tip. -/
def publishedAt (tip : ℤ × ℤ) (s : ℤ) : ℤ := tip.2 - kSecondsPerSequence * (tip.1 - s)

/-- The diffs that step 7 takes to be in the data of every region.  With an export time and
the tip these are the ones up to the tip whose predecessor was published more than three days
before the export; without one of them, those up to the stored sequence. -/
def PassedBy (stored : ℤ) (exported_at : Option ℤ) (state : Option (ℤ × ℤ)) (s : ℤ) : Prop :=
  match exported_at, state with
  | some exported_at, some tip =>
      s ≤ 0 ∨ s ≤ tip.1 ∧ publishedAt tip (s - 1) < exported_at - kSafetyMarginSeconds
  | _, _ => s ≤ stored

/-- **The seed against the publication times.** -/
lemma le_seeded_iff {exported_at : Option ℤ} {state : Option (ℤ × ℤ)} {s : ℤ} :
    s ≤ σ.seeded (estimateBundleReplicationSequence exported_at state)
      ↔ PassedBy σ.stored exported_at state s := by
  have hminute : kSecondsPerSequence = 60 := rfl
  rcases exported_at with _ | e
  · exact Iff.rfl
  rcases state with _ | ⟨tip_seq, tip_time⟩
  · exact Iff.rfl
  simp only [estimateBundleReplicationSequence, seeded, PassedBy, publishedAt, hminute]
  -- the division rounds down: a whole minute less is what counts
  generalize hback : (if tip_time - e + kSafetyMarginSeconds < 0 then 0
    else tip_time - e + kSafetyMarginSeconds) = seconds_back
  have hseconds : seconds_back = max 0 (tip_time - e + kSafetyMarginSeconds) := by
    rw [← hback]
    split <;> omega
  have hseed : (if 0 < tip_seq - seconds_back / 60 then tip_seq - seconds_back / 60 else 0)
      = max 0 (tip_seq - seconds_back / 60) := by
    split <;> omega
  rw [hseed, if_pos (le_max_left ..)]
  omega

/-! ### The end of an install -/

/-- Neither the bundle of a region nor what was applied to it has the diff. -/
def Lacks (σ : Target R) (r : R) (s : ℤ) : Prop :=
  (σ.data r).contained < s ∧ s ∉ (σ.data r).applied

lemma le_upTo_iff {r : R} {x : ℤ} : x ≤ (σ.data r).upTo ↔ ∀ s, σ.Lacks r s → x < s := by
  rw [RegionData.upTo, le_coveredTo_iff]
  constructor
  · intro h s ⟨hs, hlacks⟩
    by_contra hle
    exact hlacks (h s hs (not_lt.mp hle))
  · intro h s hs hle
    by_contra hlacks
    exact absurd (h s ⟨hs, hlacks⟩) (not_lt.mpr hle)

variable [DecidableEq R]

/-- **No region lacks what an install passes by**: neither a region installed before, nor the
new one; of this one, with an export time and a tip, it is what the estimate promises. -/
def NonePassedBy (σ : Target R) (b : Bundle R) (state : Option (ℤ × ℤ)) : Prop :=
  ∀ r, σ.Installed r ∨ r ∈ σ.installed ∧ r = b.region →
    ∀ s, σ.Lacks r s → ¬PassedBy σ.stored b.exported_at state s

/-- The running poll processes have loaded the new region, and none is past a diff that it
lacks. -/
structure PollsFit (σ : Target R) (b : Bundle R) : Prop where
  reaches : b.region ∈ σ.installed → ∀ p regions, (σ.polls p).regions = some regions →
    reaches regions b.region
  position : b.region ∈ σ.installed → ∀ p regions seq remote,
    σ.polls p = .applying regions seq remote → ∀ s, σ.Lacks b.region s → seq ≤ s

/-- An install may end here without a gap. -/
def Fits (σ : Target R) : Event R → Prop
  | .finish b state => σ.NonePassedBy b state ∧ σ.PollsFit b
  | _ => True

/-- The states of runs whose installs all end in fitting states. -/
inductive Reached : Target R → Prop
  | fresh : Reached fresh
  | step {σ σ' : Target R} {e : Event R} : Reached σ → σ.Fits e → σ.step e = some σ' → Reached σ'

/-! ### The invariant -/

/-- **The invariant**: the stored sequence and every running poll loop keep to
what each installed region has been brought up to, and every running process
reaches each installed region. -/
structure Tracked (σ : Target R) : Prop where
  stored : ∀ r, σ.Installed r → σ.stored ≤ (σ.data r).upTo
  position : ∀ p regions seq remote, σ.polls p = .applying regions seq remote →
    ∀ r, σ.Installed r → seq - 1 ≤ (σ.data r).upTo
  reaches : ∀ p regions, (σ.polls p).regions = some regions →
    ∀ r, σ.Installed r → Gpsxdb.reaches regions r

lemma tracked_fresh : Tracked (fresh : Target R) := by
  refine ⟨fun r hr => ?_, fun p regions seq remote hp => ?_, fun p regions hp => ?_⟩
  · simp [Installed, fresh] at hr
  · simp [fresh] at hp
  · simp [fresh, PollProcess.regions] at hp

/-- Registering a region takes it out of the installed ones, and no other in. -/
lemma installed_register {b : Bundle R} {found : Bool} (h : σ.step (.register b found) = some σ')
    {r : R} (hr : σ'.Installed r) : r ≠ b.region ∧ σ.Installed r ∧ σ'.data r = σ.data r := by
  obtain rfl := Option.some.inj h
  obtain ⟨hmem, hcomplete⟩ := hr
  have hne : r ≠ b.region := by
    rintro rfl
    simp at hcomplete
  simp only [Function.update_of_ne hne] at hcomplete
  refine ⟨hne, ⟨?_, hcomplete⟩, Function.update_of_ne hne ..⟩
  dsimp only at hmem
  split at hmem
  · rcases List.mem_append.mp hmem with hmem | hmem
    · exact hmem
    · exact absurd (List.mem_singleton.mp hmem) hne
  · exact hmem

lemma tracked_register {b : Bundle R} {found : Bool} (hI : Tracked σ)
    (h : σ.step (.register b found) = some σ') : Tracked σ' := by
  have hpolls : σ'.polls = σ.polls ∧ σ'.stored = σ.stored := by
    obtain rfl := Option.some.inj h
    exact ⟨rfl, rfl⟩
  refine ⟨fun r hr => ?_, fun p regions seq remote hp r hr => ?_, fun p regions hp r hr => ?_⟩
  · obtain ⟨-, hr, hdata⟩ := installed_register h hr
    rw [hdata, hpolls.2]
    exact hI.stored r hr
  · obtain ⟨-, hr, hdata⟩ := installed_register h hr
    rw [hdata]
    exact hI.position p regions seq remote (by rw [← hpolls.1, hp]) r hr
  · obtain ⟨-, hr, -⟩ := installed_register h hr
    exact hI.reaches p regions (by rw [← hpolls.1, hp]) r hr

/-- The regions installed once an install has ended. -/
lemma installed_finish {b : Bundle R} {state : Option (ℤ × ℤ)}
    (h : σ.step (.finish b state) = some σ') (r : R) :
    (σ'.Installed r ↔ r ∈ σ.installed ∧ ((σ.data r).complete = true ∨ r = b.region))
      ∧ (σ'.data r).upTo = (σ.data r).upTo := by
  obtain rfl := Option.some.inj h
  by_cases hr : r = b.region
  · subst hr
    simp [Installed, RegionData.upTo]
  · simp [Installed, hr]

/-- **The end of an install leaves no gap exactly when no region lacks a diff that was
published long enough before the export.** -/
lemma noGap_finish_iff {b : Bundle R} {state : Option (ℤ × ℤ)}
    (h : σ.step (.finish b state) = some σ') : σ'.NoGap ↔ σ.NonePassedBy b state := by
  have hstored : σ'.stored
      = σ.seeded (estimateBundleReplicationSequence b.exported_at state) := by
    obtain rfl := Option.some.inj h
    rfl
  rw [noGap_iff, hstored]
  refine forall_congr' fun r => ?_
  obtain ⟨hinst, hupto⟩ := installed_finish h r
  have hregion : σ'.Installed r ↔ σ.Installed r ∨ r ∈ σ.installed ∧ r = b.region := by
    rw [hinst, Installed, and_or_left]
  rw [hregion, hupto, le_upTo_iff]
  refine imp_congr_right fun _ => forall₂_congr fun s _ => ?_
  rw [← le_seeded_iff, not_le]

lemma tracked_finish {b : Bundle R} {state : Option (ℤ × ℤ)} (hI : Tracked σ)
    (hseed : σ.NonePassedBy b state) (hpolls : σ.PollsFit b)
    (h : σ.step (.finish b state) = some σ') : Tracked σ' := by
  have hsame : σ'.polls = σ.polls := by
    obtain rfl := Option.some.inj h
    rfl
  refine ⟨noGap_iff.mp ((noGap_finish_iff h).mpr hseed), fun p regions seq remote hp r hr => ?_,
    fun p regions hp r hr => ?_⟩
  · obtain ⟨hinst, hupto⟩ := installed_finish h r
    rw [hsame] at hp
    rw [hupto]
    obtain ⟨hmem, hcomplete | rfl⟩ := hinst.mp hr
    · exact hI.position p regions seq remote hp r ⟨hmem, hcomplete⟩
    · refine le_upTo_iff.mpr fun s hs => ?_
      have hpast := hpolls.position hmem p regions seq remote hp s hs
      omega
  · obtain ⟨hinst, -⟩ := installed_finish h r
    rw [hsame] at hp
    obtain ⟨hmem, hcomplete | rfl⟩ := hinst.mp hr
    · exact hI.reaches p regions hp r ⟨hmem, hcomplete⟩
    · exact hpolls.reaches hmem p regions hp

/-! ### The steps of a poll process -/

/-- A step that only moves one poll process, to a state that keeps to the
installed regions. -/
lemma tracked_setPoll {p : ℕ} {next : PollProcess R} (hI : Tracked σ)
    (hposition : ∀ regions seq remote, next = .applying regions seq remote →
      ∀ r, σ.Installed r → seq - 1 ≤ (σ.data r).upTo)
    (hreaches : ∀ regions, next.regions = some regions →
      ∀ r, σ.Installed r → Gpsxdb.reaches regions r) : Tracked (σ.setPoll p next) := by
  refine ⟨hI.stored, fun q regions seq remote hq r hr => ?_, fun q regions hq r hr => ?_⟩
  · rw [polls_setPoll] at hq
    split at hq
    · exact hposition regions seq remote hq r hr
    · exact hI.position q regions seq remote hq r hr
  · rw [polls_setPoll] at hq
    split at hq
    · exact hreaches regions hq r hr
    · exact hI.reaches q regions hq r hr

lemma upTo_applyDiff (σ : Target R) (regions : List R) (seq : ℤ) (r : R) :
    (σ.data r).upTo ≤ (σ.applyDiff regions seq r).upTo := by
  rw [applyDiff]
  split
  · exact coveredTo_mono (Finset.subset_insert ..)
  · exact le_rfl

/-- Applying the diff after what a region has been brought up to brings it up to
that diff. -/
lemma le_upTo_applyDiff {regions : List R} {seq : ℤ} {r : R} (hmem : r ∈ σ.installed)
    (hreaches : Gpsxdb.reaches regions r) (h : seq - 1 ≤ (σ.data r).upTo) :
    seq ≤ (σ.applyDiff regions seq r).upTo := by
  rw [applyDiff, if_pos ⟨hmem, hreaches⟩]
  exact le_coveredTo_insert h

/-- A diff applied, before the process moves on. -/
lemma tracked_applyDiff {p : ℕ} {regions : List R} {seq remote : ℤ} (hI : Tracked σ)
    (hp : σ.polls p = .applying regions seq remote) :
    Tracked { σ with stored := seq, data := σ.applyDiff regions seq }
      ∧ ∀ r, σ.Installed r → seq ≤ (σ.applyDiff regions seq r).upTo := by
  have hcomplete : ∀ r, (σ.applyDiff regions seq r).complete = (σ.data r).complete := by
    intro r
    rw [applyDiff]
    split <;> rfl
  have hupto : ∀ r, σ.Installed r → seq ≤ (σ.applyDiff regions seq r).upTo := fun r hr =>
    le_upTo_applyDiff hr.1 (hI.reaches p regions (by rw [hp]; rfl) r hr)
      (hI.position p regions seq remote hp r hr)
  have hinst : ∀ r, r ∈ σ.installed ∧ (σ.applyDiff regions seq r).complete = true →
      σ.Installed r := fun r hr => ⟨hr.1, by rw [← hcomplete r]; exact hr.2⟩
  refine ⟨⟨fun r hr => hupto r (hinst r hr), fun q rs seq' remote' hq r hr => ?_,
    fun q rs hq r hr => hI.reaches q rs hq r (hinst r hr)⟩, hupto⟩
  exact (hI.position q rs seq' remote' hq r (hinst r hr)).trans (upTo_applyDiff σ regions seq r)

/-- **A fitting step keeps the invariant.** -/
lemma tracked_step {e : Event R} (hI : Tracked σ) (hfit : σ.Fits e) (h : σ.step e = some σ') :
    Tracked σ' := by
  cases e with
  | register b found => exact tracked_register hI h
  | finish b state => exact tracked_finish hI hfit.1 hfit.2 h
  | start p =>
      rw [step] at h
      split at h
      · obtain rfl := Option.some.inj h
        refine tracked_setPoll hI (fun _ _ _ hnext => by simp at hnext) fun regions hnext r hr => ?_
        obtain rfl := Option.some.inj hnext
        simp [reaches, hr.1]
      · simp at h
  | read p remote =>
      rw [step] at h
      split at h
      · rename_i regions hp
        obtain rfl := Option.some.inj h
        have hreaches := hI.reaches p regions (by rw [hp]; rfl)
        refine tracked_setPoll hI (fun rs seq rem hnext r hr => ?_) fun rs hnext r hr => ?_
        · -- the loop starts right after the stored sequence
          split at hnext
          · simp at hnext
          · split at hnext
            · simp at hnext
            · obtain ⟨-, rfl, -⟩ := PollProcess.applying.inj hnext
              simpa using hI.stored r hr
        · split at hnext
          · simp [PollProcess.regions] at hnext
          · split at hnext <;>
            · obtain rfl := Option.some.inj hnext
              exact hreaches r hr
      · simp at h
  | apply p =>
      rw [step] at h
      split at h
      · rename_i regions seq remote hp
        obtain rfl := Option.some.inj h
        obtain ⟨hI', hupto⟩ := tracked_applyDiff hI hp
        have hreaches := hI'.reaches p regions (by dsimp only; rw [hp]; rfl)
        refine tracked_setPoll hI' (fun rs s rem hnext r hr => ?_) fun rs hnext r hr => ?_
        · split at hnext
          · obtain ⟨-, rfl, -⟩ := PollProcess.applying.inj hnext
            simpa using hI'.stored r hr
          · simp at hnext
        · split at hnext <;>
          · obtain rfl := Option.some.inj hnext
            exact hreaches r hr
      · simp at h
  | stop p =>
      obtain rfl := Option.some.inj h
      exact tracked_setPoll hI (fun _ _ _ hnext => by simp at hnext)
        fun _ hnext => by simp [PollProcess.regions] at hnext

lemma tracked_of_reached (h : Reached σ) : Tracked σ := by
  induction h with
  | fresh => exact tracked_fresh
  | step _ hfit hstep ih => exact tracked_step ih hfit hstep

/-- **No replication gap.**  In every run no state has a gap, if at the end of each install
no region lacks a diff that was published long enough before the export; and from any of
these states the end of a further install leaves none exactly if none lacks one. -/
theorem noGap_of_reached (h : Reached σ) :
    σ.NoGap ∧ ∀ b state σ', σ.step (.finish b state) = some σ' →
      (σ'.NoGap ↔ σ.NonePassedBy b state) :=
  ⟨noGap_iff.mpr (tracked_of_reached h).stored, fun _ _ _ hstep => noGap_finish_iff hstep⟩

/-! ### Two bundles -/

/-- A bundle exported at minute `10000`, with all diffs up to then. -/
def earlier : Bundle ℕ := ⟨0, 10000, some 600000⟩

/-- A bundle of another region, exported three days later. -/
def threeDaysLater : Bundle ℕ := ⟨1, 14320, some 859200⟩

/-- A bundle of that region, exported at minute `20000`. -/
def later : Bundle ℕ := ⟨1, 20000, some 1200000⟩

/-- The replication state at minute `25000`. -/
def tip : Option (ℤ × ℤ) := some (25000, 1500000)

/-- The first bundle is installed, and a process applies the first diff of the poll. -/
def polledOnce : List (Event ℕ) :=
  [.register earlier true, .finish earlier tip, .start 0, .read 0 25000, .apply 0, .stop 0]

omit [DecidableEq R] in
/-- Nothing is passed by where every bundle has the diffs up to three days before the
export. -/
lemma nonePassedBy_of_contained {b : Bundle R} {e m : ℤ} {tip : ℤ × ℤ}
    (hexported : b.exported_at = some e)
    (hcontained : ∀ r ∈ σ.installed, m ≤ (σ.data r).contained) (hm : 0 ≤ m)
    (hold : e - kSafetyMarginSeconds ≤ publishedAt tip m) : σ.NonePassedBy b (some tip) := by
  rintro r hr s ⟨hs, -⟩ hpassed
  have hle := hcontained r (hr.elim And.left And.left)
  have hminute : kSecondsPerSequence = 60 := rfl
  rw [hexported] at hpassed
  simp only [PassedBy, publishedAt, hminute] at hold hpassed
  omega

lemma pollsFit_of_stopped {b : Bundle R} (h : ∀ p, σ.polls p = .stopped) : σ.PollsFit b :=
  ⟨fun _ p regions hp => by simp [h p, PollProcess.regions] at hp,
    fun _ p regions seq remote hp => by simp [h p] at hp⟩

/-- **Two bundles without a gap**: the second was exported three days after the last diff of
the first. -/
theorem noGap_of_reached_two : ∃ σ : Target ℕ,
    fresh.run (polledOnce ++ [.register threeDaysLater true, .finish threeDaysLater tip])
      = some σ ∧ σ.stored = 10000 ∧ σ.Installed 0 ∧ σ.Installed 1 ∧ σ.NoGap := by
  refine ⟨_, rfl, rfl, by decide, by decide, (noGap_of_reached ?_).1⟩
  refine .step (e := .finish threeDaysLater tip) (.step (e := .register threeDaysLater true)
    (.step (e := .stop 0) (.step (e := .apply 0) (.step (e := .read 0 25000)
      (.step (e := .start 0) (.step (e := .finish earlier tip)
        (.step (e := .register earlier true) .fresh trivial rfl) ⟨?_, ?_⟩ rfl) trivial rfl)
        trivial rfl) trivial rfl) trivial rfl) trivial rfl) ⟨?_, ?_⟩ rfl
  · exact nonePassedBy_of_contained (m := 10000) rfl (by decide) (by decide) (by decide)
  · exact pollsFit_of_stopped fun p => rfl
  · exact nonePassedBy_of_contained (m := 10000) rfl (by decide) (by decide) (by decide)
  · exact pollsFit_of_stopped fun p => by simp [setPoll, fresh]

/-- **A later bundle leaves a gap** in a region installed before: diffs `10001` to
`15680` are never applied to it. -/
theorem gap_after_later_bundle : ∃ σ : Target ℕ,
    fresh.run [.register earlier true, .finish earlier tip, .register later true,
        .finish later tip] = some σ
      ∧ estimateBundleReplicationSequence earlier.exported_at tip ≤ earlier.contained
      ∧ estimateBundleReplicationSequence later.exported_at tip ≤ later.contained
      ∧ σ.stored = 15680 ∧ ¬ σ.NoGap := by
  refine ⟨_, rfl, by decide, by decide, rfl, fun h => ?_⟩
  exact absurd (h 0 (by decide) 10001 (by decide) (by decide)) (by decide)

end Target

end Gpsxdb
