import Mathlib.Tactic
import Gpsxdb.Regional.Seeding

/-!
The sequence that `-I --download-planet` stores for the poll service.

* `PlanetFile`, `Timeline`: the planet files with their dates, and the minute sequences;
* `estimatePlanetReplicationSequence`, `seedOf`: the estimate, and what `main` stores;
* `PlanetImport`: the times of a download and of the requests of the estimate;
* `stored_le_iff`: **when the seed skips no diff**; `seed_le_of_same_file`: with one file on
  the server it skips none;
* `seed_of_next_file`: a file published after the download.
-/

namespace Gpsxdb

namespace Planet

/-! ### The server -/

/-- A planet file: when it is published, its `Last-Modified`, and the time up to which it
has the changes. -/
structure PlanetFile where
  published : ℤ
  last_modified : ℤ
  cutoff : ℤ
  cutoff_le : cutoff ≤ last_modified
  le_cutoff : last_modified ≤ cutoff + 2 * 24 * 3600

/-- The planet files, one after the other, and the time of the first minute sequence. -/
structure Timeline where
  files : List PlanetFile
  t0 : ℤ
  ordered : files.Pairwise fun f g => f.published < g.published

namespace Timeline

/-- The file on the server. -/
def live (tl : Timeline) (t : ℤ) : Option PlanetFile :=
  (tl.files.filter fun f => f.published ≤ t).getLast?

/-- When a sequence is published. -/
def sequenceTime (tl : Timeline) (n : ℤ) : ℤ := tl.t0 + kSecondsPerSequence * n

/-- `remoteLastModifiedEpoch`, where the request is answered. -/
def remoteLastModifiedEpoch (tl : Timeline) (t : ℤ) : ℤ :=
  (tl.live t).elim (-1) PlanetFile.last_modified

/-- The last sequence published. -/
def tip (tl : Timeline) (t : ℤ) : ℤ := (t - tl.t0) / kSecondsPerSequence

/-- `fetchReplicationState`, where the request is answered: the sequence and its time. -/
def fetchReplicationState (tl : Timeline) (t : ℤ) : Option (ℤ × ℤ) :=
  if 0 ≤ tl.tip t then some (tl.tip t, tl.sequenceTime (tl.tip t)) else none

/-- The last sequence that a file contains. -/
def LastContained (tl : Timeline) (f : PlanetFile) (last : ℤ) : Prop :=
  IsGreatest {n : ℤ | 0 ≤ n ∧ tl.sequenceTime n ≤ f.cutoff} last

end Timeline

/-! ### The seed -/

/-- `estimatePlanetReplicationSequence`, from the `Last-Modified` and the replication state
fetched: the interpolation is that of a bundle. -/
def estimatePlanetReplicationSequence (dump_mtime : ℤ) (state : Option (ℤ × ℤ)) : ℤ :=
  if dump_mtime ≤ 0 then -1 else estimateBundleReplicationSequence (some dump_mtime) state

/-- What `main` stores, if anything: `downloaded` is what `downloadLatestPlanet` returns. -/
def seedOf (init_schema download_planet downloaded : Bool) (dump_mtime : ℤ)
    (state : Option (ℤ × ℤ)) : Option ℤ :=
  if download_planet && !downloaded then none
  else if init_schema && download_planet then
    let seed := estimatePlanetReplicationSequence dump_mtime state
    if 0 ≤ seed then some seed else none
  else none

lemma seedOf_eq_some {dump_mtime seed : ℤ} {state : Option (ℤ × ℤ)}
    (h : seedOf true true true dump_mtime state = some seed) : 0 < dump_mtime
      ∧ ∃ s, state = some s
        ∧ estimateBundleReplicationSequence (some dump_mtime) (some s) = seed := by
  simp only [seedOf, estimatePlanetReplicationSequence, Bool.not_true, Bool.and_false,
    Bool.false_eq_true, if_false, Bool.and_self, if_true] at h
  split at h
  · obtain ⟨hneg, -⟩ := Option.ite_none_right_eq_some.mp h
    exact absurd hneg (by decide)
  · rename_i hmtime
    obtain ⟨hneg, h⟩ := Option.ite_none_right_eq_some.mp h
    cases state with
    | none => exact absurd hneg (by simp [estimateBundleReplicationSequence])
    | some s => exact ⟨not_le.mp hmtime, s, rfl, Option.some.inj h⟩

/-- An import: the times of the download and of the two requests behind it, the file that
was downloaded, which was on the server at some time of the download, and whether the
requests are answered. -/
structure PlanetImport (tl : Timeline) where
  start : ℤ
  finish : ℤ
  head_at : ℤ
  state_at : ℤ
  finish_le : finish ≤ head_at
  head_le : head_at ≤ state_at
  file : PlanetFile
  during : ∃ t, start ≤ t ∧ t ≤ finish ∧ tl.live t = some file
  head_answered : Bool
  state_answered : Bool

namespace PlanetImport

variable {tl : Timeline}

/-- The sequence that the import stores. -/
def stored (i : PlanetImport tl) : Option ℤ :=
  seedOf true true true (if i.head_answered then tl.remoteLastModifiedEpoch i.head_at else -1)
    (if i.state_answered then tl.fetchReplicationState i.state_at else none)

lemma stored_eq_some {i : PlanetImport tl} {seed : ℤ} (h : i.stored = some seed) :
    ∃ head, tl.live i.head_at = some head ∧ estimateBundleReplicationSequence
      (some head.last_modified) (some (tl.tip i.state_at, tl.t0 + 60 * tl.tip i.state_at))
        = seed := by
  obtain ⟨hmtime, s, hstate, hseed⟩ := seedOf_eq_some h
  -- both requests were answered
  cases hhead : i.head_answered
  · simp [hhead] at hmtime
  · cases hanswered : i.state_answered
    · simp [hanswered] at hstate
    · rw [hhead, if_pos rfl, Timeline.remoteLastModifiedEpoch] at hmtime hseed
      rw [hanswered, if_pos rfl, Timeline.fetchReplicationState] at hstate
      obtain ⟨-, hs⟩ := Option.ite_none_right_eq_some.mp hstate
      cases hlive : tl.live i.head_at with
      | none =>
          rw [hlive] at hmtime
          exact absurd hmtime (by decide)
      | some head =>
          rw [hlive, ← Option.some.inj hs] at hseed
          exact ⟨head, rfl, hseed⟩

/-! ### Two files -/

/-- A planet file. -/
def firstFile : PlanetFile := ⟨1000000, 1000000, 900000, by decide, by decide⟩

/-- The one that follows it a week later. -/
def nextFile : PlanetFile := ⟨1604800, 1604800, 1600000, by decide, by decide⟩

def twoFiles : Timeline := ⟨[firstFile, nextFile], 0, by decide⟩

lemma lastContained_firstFile : twoFiles.LastContained firstFile 15000 := by
  refine ⟨by decide, fun n hn => ?_⟩
  have hle : 0 + 60 * n ≤ 900000 := hn.2
  omega

/-- The import of the first file, seeded at a later time. -/
def importFirst (head_at : ℤ) (h : 1580000 ≤ head_at) : PlanetImport twoFiles where
  start := 1500000
  finish := 1580000
  head_at := head_at
  state_at := head_at
  finish_le := h
  head_le := le_rfl
  file := firstFile
  during := ⟨1500000, by decide, by decide, rfl⟩
  head_answered := true
  state_answered := true

/-- **When the seed skips no diff**: the file that the request is about was last modified at
most three days after the last sequence in the file that was downloaded; or there is no
later sequence yet. -/
theorem stored_le_iff {i : PlanetImport tl} {seed last : ℤ} {head : PlanetFile}
    (hseed : i.stored = some seed) (hlast : tl.LastContained i.file last)
    (hhead : tl.live i.head_at = some head) :
    seed ≤ last ↔ tl.tip i.state_at ≤ last
      ∨ head.last_modified ≤ tl.sequenceTime last + kSafetyMarginSeconds := by
  obtain ⟨head', hhead', heq⟩ := stored_eq_some hseed
  obtain rfl := Option.some.inj (hhead.symm.trans hhead')
  rw [← heq, estimate_le_iff, and_iff_right hlast.1.1, Timeline.sequenceTime, kSecondsPerSequence,
    sub_le_iff_le_add']

theorem stored_le_iff_first : (12347 : ℤ) ≤ 15000 ↔ twoFiles.tip 1590000 ≤ 15000
    ∨ firstFile.last_modified ≤ twoFiles.sequenceTime 15000 + kSafetyMarginSeconds :=
  stored_le_iff (i := importFirst 1590000 (by decide)) rfl lastContained_firstFile rfl

/-- **A file published before the estimate**: the download began before it, and the seed is
far beyond what was downloaded. -/
theorem seed_of_next_file : (importFirst 1610000 (by decide)).stored = some 22427
    ∧ twoFiles.LastContained (importFirst 1610000 (by decide)).file 15000
    ∧ ¬ (22427 : ℤ) ≤ 15000 :=
  ⟨rfl, lastContained_firstFile, by decide⟩

/-- With the downloaded file still on the server, the seed skips none. -/
theorem seed_le_of_same_file {i : PlanetImport tl} {seed last : ℤ}
    (hseed : i.stored = some seed) (hlast : tl.LastContained i.file last)
    (hsame : tl.live i.head_at = some i.file) : seed ≤ last := by
  obtain ⟨head, hhead, heq⟩ := stored_eq_some hseed
  obtain rfl := Option.some.inj (hsame.symm.trans hhead)
  rw [← heq]
  refine estimate_le_iff.mpr ⟨hlast.1.1, Or.inr ?_⟩
  have hnext : ¬ tl.sequenceTime (last + 1) ≤ i.file.cutoff := fun hle =>
    absurd (hlast.2 ⟨by linarith [hlast.1.1], hle⟩) (by omega)
  have hcutoff := i.file.le_cutoff
  simp only [Timeline.sequenceTime, kSecondsPerSequence, kSafetyMarginSeconds] at hnext ⊢
  omega

end PlanetImport

end Planet

end Gpsxdb
