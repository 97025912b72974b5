import Mathlib.Tactic
import Gpsxdb.Library.Coverage

/-!
The replication state of one target database: the `osm` sequence stored in
`external_data_state`, moved by the last two steps of `regional_install` and by
`Replicator::poll`.

* `estimateBundleReplicationSequence`: the sequence an install stores;
* `PollProcess`: a poll process between two of its steps; it loads the installed
  regions once, at its start;
* `Target`, `Event`, `step`, `run`: any interleaving of any number of installs
  and poll processes;
* `RegionData`: which diffs have been applied to a region, which nothing in the
  program records.
-/

namespace Gpsxdb

/-! ### The sequence of a bundle -/

/-- `kSecondsPerSequence`: minute granularity. -/
def kSecondsPerSequence : ℤ := 60

/-- `kSafetyMarginSeconds`: three days, err early not late. -/
def kSafetyMarginSeconds : ℤ := 3 * 24 * 3600

/-- `estimateBundleReplicationSequence`, from the manifest's `exported_at` and
the replication state fetched (sequence and time), either of which may be
missing. -/
def estimateBundleReplicationSequence (exported_at : Option ℤ) (state : Option (ℤ × ℤ)) : ℤ :=
  match exported_at, state with
  | some exported_at, some (tip_seq, tip_time) =>
      let seconds_back := tip_time - exported_at + kSafetyMarginSeconds
      let seconds_back := if seconds_back < 0 then 0 else seconds_back
      let estimated := tip_seq - seconds_back / kSecondsPerSequence
      if 0 < estimated then estimated else 0
  | _, _ => -1

/-- A bundle: its region, the last sequence its data contain, and the
`exported_at` of its manifest. -/
structure Bundle (R : Type) where
  region : R
  contained : ℤ
  exported_at : Option ℤ

/-! ### States -/

/-- A poll process: not running, at the top of its loop, or applying pending
sequences up to `remote`. -/
inductive PollProcess (R : Type) where
  | stopped
  | waiting (regions : List R)
  | applying (regions : List R) (seq remote : ℤ)

/-- A process that found no installed region applies every change. -/
def reaches {R : Type} [DecidableEq R] (regions : List R) (r : R) : Bool :=
  regions.isEmpty || regions.contains r

/-- The regions a running process has loaded. -/
def PollProcess.regions {R : Type} : PollProcess R → Option (List R)
  | .stopped => none
  | .waiting regions => some regions
  | .applying regions _ _ => some regions

/-- What has become of a region: the last sequence its bundle contains, the diffs
applied to it while it was installed, and whether its last install has ended. -/
structure RegionData where
  contained : ℤ
  applied : Finset ℤ
  complete : Bool

/-- The sequence a region has been brought up to without a gap. -/
def RegionData.upTo (d : RegionData) : ℤ := coveredTo d.contained d.applied

/-- A target database with its poll processes. -/
structure Target (R : Type) where
  /-- the `osm` entry of `external_data_state`, `-1` without one -/
  stored : ℤ
  /-- the names in `installed_regions` -/
  installed : List R
  data : R → RegionData
  polls : ℕ → PollProcess R

/-- The steps of installs and poll processes. -/
inductive Event (R : Type) where
  /-- step 6 of an install, which registers the region if it finds its polygon -/
  | register (b : Bundle R) (found : Bool)
  /-- step 7 of an install, with the replication state it fetches -/
  | finish (b : Bundle R) (state : Option (ℤ × ℤ))
  /-- a poll process starts -/
  | start (p : ℕ)
  /-- it reads the stored and the remote sequence -/
  | read (p : ℕ) (remote : ℤ)
  /-- it applies the next sequence -/
  | apply (p : ℕ)
  /-- it stops, on an error, a signal or a crash -/
  | stop (p : ℕ)

namespace Target

section

variable {R : Type}

/-- A target nothing is installed on. -/
def fresh : Target R := ⟨-1, [], fun _ => ⟨0, ∅, false⟩, fun _ => .stopped⟩

/-- The sequence stored after step 7. -/
def seeded (σ : Target R) (seed : ℤ) : ℤ := if 0 ≤ seed then seed else σ.stored

/-- The state with one process replaced. -/
def setPoll (σ : Target R) (p : ℕ) (next : PollProcess R) : Target R :=
  { σ with polls := Function.update σ.polls p next }

lemma polls_setPoll (σ : Target R) (p q : ℕ) (next : PollProcess R) :
    (σ.setPoll p next).polls q = if q = p then next else σ.polls q :=
  Function.update_apply ..

/-- The region is installed: registered, and its last install has ended. -/
def Installed (σ : Target R) (r : R) : Prop := r ∈ σ.installed ∧ (σ.data r).complete = true

/-- **No replication gap**: what is stored skips no diff an installed region
needs. -/
def NoGap (σ : Target R) : Prop :=
  ∀ r, σ.Installed r → ∀ s, (σ.data r).contained < s → s ≤ σ.stored → s ∈ (σ.data r).applied

end

variable {R : Type} [DecidableEq R]

instance (σ : Target R) (r : R) : Decidable (σ.Installed r) := inferInstanceAs (Decidable (_ ∧ _))

/-- The data after a diff is applied by a process with the given regions. -/
def applyDiff (σ : Target R) (regions : List R) (seq : ℤ) (r : R) : RegionData :=
  if r ∈ σ.installed ∧ reaches regions r then
    { σ.data r with applied := insert seq (σ.data r).applied }
  else σ.data r

/-- One step, if it can be taken. -/
def step (σ : Target R) : Event R → Option (Target R)
  | .register b found => some { σ with
      installed := if found && !σ.installed.contains b.region then σ.installed ++ [b.region]
        else σ.installed
      data := Function.update σ.data b.region
        ⟨b.contained, (σ.data b.region).applied, false⟩ }
  | .finish b state => some { σ with
      stored := σ.seeded (estimateBundleReplicationSequence b.exported_at state)
      data := Function.update σ.data b.region { σ.data b.region with complete := true } }
  | .start p =>
      match σ.polls p with
      | .stopped => some (σ.setPoll p (.waiting σ.installed))
      | _ => none
  | .read p remote =>
      match σ.polls p with
      | .waiting regions =>
          some (σ.setPoll p (if σ.stored < 0 then .stopped
            else if remote ≤ σ.stored then .waiting regions
            else .applying regions (σ.stored + 1) remote))
      | _ => none
  | .apply p =>
      match σ.polls p with
      | .applying regions seq remote =>
          some ({ σ with stored := seq, data := σ.applyDiff regions seq }.setPoll p
            (if seq + 1 ≤ remote then .applying regions (seq + 1) remote else .waiting regions))
      | _ => none
  | .stop p => some (σ.setPoll p .stopped)

/-- A run. -/
def run (σ : Target R) (events : List (Event R)) : Option (Target R) := events.foldlM step σ

end Target

end Gpsxdb
