import Mathlib.Tactic
import Gpsxdb.Regional.BuildBundles
import Gpsxdb.Replication.Target

/-!
When the sequence seeded from a bundle skips no diff.

* `estimate_le_iff`: the seed against one sequence of the master;
* `exported_at_of_build`: which clock a bundle's manifest shows, over all runs of
  the script;
* `seed_le_iff`: the seed is at most the master's sequence at every read of the
  bundle exactly when each of these sequences was published no more than three
  days before the stamp.
-/

namespace Gpsxdb

/-- The seed against a sequence `m`, where sequence `n` is published at
`t₀ + 60 n` and `n` is the tip. -/
lemma estimate_le_iff {e t₀ n m : ℤ} :
    estimateBundleReplicationSequence (some e) (some (n, t₀ + 60 * n)) ≤ m
      ↔ 0 ≤ m ∧ (n ≤ m ∨ e - (t₀ + 60 * m) ≤ kSafetyMarginSeconds) := by
  have hmargin : kSafetyMarginSeconds = 259200 := rfl
  have hminute : kSecondsPerSequence = 60 := rfl
  simp only [estimateBundleReplicationSequence, hminute]
  by_cases hback : t₀ + 60 * n - e + kSafetyMarginSeconds < 0
  · rw [if_pos hback]
    split <;> omega
  · rw [if_neg hback]
    split <;> omega

variable {D R : Type} [DecidableEq D] [DecidableEq R]

/-! ### Stamps -/

/-- An exporter run stamps the directories it is given that have no stamp yet. -/
lemma exported_at_dbExport (s : Staging D R) (big : Bool) (out_dir d : D) (regions : List R)
    (p : ExportPass R) (r : R) :
    ((s.dbExport big out_dir regions p).dirs d r).exported_at
      = if d = out_dir ∧ r ∈ regions then (s.dirs d r).exported_at.or (some (p.stamp r))
        else (s.dirs d r).exported_at := by
  rw [Staging.dbExport]
  dsimp only
  split
  · rw [RegionDir.export]
    cases (s.dirs d r).exported_at <;> rfl
  · rfl

namespace BuildOptions

variable {o : BuildOptions D R} {t : BuildTimes R}

/-- Of several runs the first one for a region stamps it. -/
lemma exported_at_foldl (batches : List (List R × ℕ)) (s : Staging D R) (d : D) (r : R) :
    ((batches.foldl (fun s (batch, i) => s.dbExport true o.staging_dir batch (t.big i)) s).dirs
        d r).exported_at
      = if d = o.staging_dir then (s.dirs d r).exported_at.or
          ((batches.find? fun (batch, _) => batch.contains r).map fun (_, i) => (t.big i).stamp r)
        else (s.dirs d r).exported_at := by
  induction batches generalizing s with
  | nil => simp
  | cons b batches ih =>
      obtain ⟨batch, i⟩ := b
      rw [List.foldl_cons, ih, exported_at_dbExport]
      by_cases hd : d = o.staging_dir
      · by_cases hr : r ∈ batch
        · simp [hd, hr]
        · simp [hd, hr]
      · simp [hd]

/-- The stamps before the last loop. -/
lemma exported_at_phases (s : Staging D R) (r : R) :
    ((o.nodePhase t (o.bigPhase t s)).dirs o.small_staging_dir r).exported_at
      = (s.dirs o.small_staging_dir r).exported_at.or (o.bigStamp t r) := by
  have hnode : (o.nodePhase t (o.bigPhase t s)).dirs = (o.bigPhase t s).dirs := by
    rw [nodePhase]
    split <;> rfl
  rw [hnode, bigPhase, bigStamp]
  by_cases hskip : o.skip_big_tables = true
  · simp [hskip]
  · rw [if_neg hskip, exported_at_foldl]
    by_cases hdir : o.small_staging_dir = o.staging_dir
    · simp [hskip, hdir]
    · simp [hskip, hdir]

/-- The stamps of the last loop: a directory it has bundled before is gone. -/
lemma exported_at_bundleLoop {k : ℕ} {s : Staging D R} {rs : List R} {i : ℕ} {r : R}
    {b : RegionDir} (hr : rs[i]? = some r) (hb : (o.bundleLoop t k s rs)[i]? = some b) :
    b.exported_at = some (if r ∈ rs.take i then (t.small (k + i)).stamp r
      else (s.dirs o.small_staging_dir r).exported_at.getD ((t.small (k + i)).stamp r)) := by
  induction rs generalizing i k s with
  | nil => simp at hr
  | cons q rs ih =>
      rw [bundleLoop] at hb
      dsimp only at hb
      rcases i with _ | i
      · obtain rfl := Option.some.inj hr
        obtain rfl := Option.some.inj hb
        simp only [bundleRegion, bundleDir, exported_at_dbExport, List.mem_singleton, and_self,
          if_true, List.take_zero, List.not_mem_nil, if_false, Nat.add_zero]
        cases (s.dirs o.small_staging_dir q).exported_at <;> rfl
      · rw [List.getElem?_cons_succ] at hr hb
        rw [ih hr hb, List.take_succ_cons, Nat.add_right_comm k 1 i, Nat.add_assoc]
        by_cases hrq : r = q
        · subst hrq
          have hgone : ((o.bundleRegion (t.small k) s r).2.dirs o.small_staging_dir r).exported_at
              = none := by
            simp [bundleRegion, RegionDir.empty]
          simp [hgone]
        · have hkeep : ((o.bundleRegion (t.small k) s q).2.dirs o.small_staging_dir r).exported_at
              = (s.dirs o.small_staging_dir r).exported_at := by
            simp [bundleRegion, hrq, exported_at_dbExport]
          simp [hkeep, hrq]

/-- **The stamp of a bundle.** -/
lemma exported_at_of_build {s : Staging D R} {i : ℕ} {r : R} {b : RegionDir}
    (hr : o.regions[i]? = some r) (hb : (o.build t s)[i]? = some b) :
    b.exported_at = some (o.stampOf t s i r) := by
  rw [exported_at_bundleLoop hr hb, Nat.zero_add, exported_at_phases, stampOf]

/-- **When the seed of a bundle skips no diff.**  The master is any function from
times to its stored sequence. -/
theorem seed_le_iff {s : Staging D R} {i : ℕ} {r : R} {b : RegionDir}
    (hr : o.regions[i]? = some r) (hb : (o.build t s)[i]? = some b) (master : ℤ → ℤ) (t₀ n : ℤ) :
    (∀ τ, b.ReadAt τ →
        estimateBundleReplicationSequence b.exported_at (some (n, t₀ + 60 * n)) ≤ master τ)
      ↔ ∀ τ, b.ReadAt τ → 0 ≤ master τ ∧ (n ≤ master τ
        ∨ o.stampOf t s i r - (t₀ + 60 * master τ) ≤ kSafetyMarginSeconds) := by
  rw [exported_at_of_build hr hb]
  exact forall_congr' fun τ => imp_congr_right fun _ => estimate_le_iff

/-! ### A long build -/

/-- No staging left behind. -/
def noStaging : Staging ℕ ℕ := ⟨fun _ _ => .empty, fun _ _ => none⟩

/-- The clocks of a build of one region: the big tables are read on day 10, the
nodes ten hours later, and the small tables are exported on day 14. -/
def longBuild : BuildTimes ℕ where
  big _ := ⟨fun _ => 864000, fun _ _ => some [864000]⟩
  nodes _ := [900000]
  small _ := ⟨fun _ => 1209600, fun _ _ => none⟩

/-- The options of the build, with the small tables staged in the given
directory. -/
def oneRegion (small_staging_dir : ℕ) : BuildOptions ℕ ℕ :=
  ⟨0, small_staging_dir, [0], none, false, false⟩

/-- With one staging directory, and a master that is up to date, no diff is
skipped. -/
theorem seed_le_iff_one_dir : ∃ b, ((oneRegion 0).build longBuild noStaging)[0]? = some b
    ∧ ∀ τ, b.ReadAt τ →
      estimateBundleReplicationSequence b.exported_at (some (28800, 0 + 60 * 28800)) ≤ τ / 60 := by
  refine ⟨_, rfl, ?_⟩
  have hr : (oneRegion 0).regions[0]? = some 0 := rfl
  refine (seed_le_iff hr rfl (fun τ => τ / 60) 0 28800).mpr fun τ hτ => ?_
  have hread : 864000 ≤ τ := by
    rcases hτ with ⟨f, reads, hf, hτ⟩ | ⟨reads, hn, hτ⟩
    · have hfile : (if (bigTableFiles ++ ["extra_vertices.bin"]).contains f = false
          then (none : Option (List ℤ)).or
            (if (bigTableFiles ++ ["extra_vertices.bin"]).contains f = true
              then some [864000] else none)
          else if (bigTableFiles ++ ["extra_vertices.bin"]).contains f = true
            then some [864000] else none) = some reads := hf
      cases hbig : (bigTableFiles ++ ["extra_vertices.bin"]).contains f
      · rw [hbig] at hfile
        simp at hfile
      · rw [hbig] at hfile
        obtain rfl := Option.some.inj hfile
        rw [List.mem_singleton] at hτ
        exact hτ.ge
    · have hslice : reads = [900000] := (Option.some.inj hn).symm
      rw [hslice, List.mem_singleton] at hτ
      omega
  have hstamp : (oneRegion 0).stampOf longBuild noStaging 0 0 = 864000 := rfl
  have hmargin : kSafetyMarginSeconds = 259200 := rfl
  rw [hstamp, hmargin]
  omega

/-- **Staged elsewhere, the small tables stamp the bundle**, four days after the
big tables were read: the seed is past them. -/
theorem seed_past_big_tables : ∃ b, ((oneRegion 1).build longBuild noStaging)[0]? = some b
    ∧ b.ReadAt 864000 ∧ b.exported_at = some 1209600
    ∧ estimateBundleReplicationSequence b.exported_at (some (28800, 0 + 60 * 28800)) = 15840
    ∧ ¬ estimateBundleReplicationSequence b.exported_at (some (28800, 0 + 60 * 28800))
      ≤ 864000 / 60 := by
  refine ⟨_, rfl, Or.inl ⟨"ways.bin", [864000], by decide, List.mem_singleton_self _⟩, rfl, rfl, ?_⟩
  have hseed : estimateBundleReplicationSequence (some 1209600) (some (28800, 0 + 60 * 28800))
      = 15840 := rfl
  exact fun h => absurd (hseed.symm.trans_le h) (by decide)

end BuildOptions

end Gpsxdb
