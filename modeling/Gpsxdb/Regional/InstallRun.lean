import Mathlib.Tactic
import Gpsxdb.Library.Runs
import Gpsxdb.Regional.InstallUnion
import Gpsxdb.Regional.NodeFileMerge
import Gpsxdb.Replication.Target

/-!
`regional_install` as a process that may be killed anywhere (`main` of
`regional_install.cpp`, `createGistIndexes` and `registerInstalledRegion` of `NavDB`).

* `InstallBundle`, `InstallHost`: what is installed, and what it is installed on;
* `InstallStage`, `InstallEvent`, `InstallRun.step`, `InstallRun.run`: the steps of one
  process after another, and the kills;
* `Took`, `took_of_step`: **what one step does**, guards included.

A step that fails without an effect, as a lost connection does, is a kill.  Temporary files
and the query functions are left out.
-/

namespace Gpsxdb

variable {C : Type}

/-! ### Bundles and targets -/

/-- A row of `installed_regions`, its name aside. -/
structure InstalledRegion where
  wkt : Text
  min_lon : Double
  min_lat : Double
  max_lon : Double
  max_lat : Double
deriving DecidableEq

/-- An extracted bundle: the `region` and `exported_at` of its manifest, its tables, its
node file, and its row of `installed_regions`, where a `.wkt` and a `bbox` are found. -/
structure InstallBundle (C : Type) where
  region : Text
  tables : TableBundle C
  nodes : Option (List UInt8)
  registration : Option InstalledRegion
  exported_at : Option ℤ

/-- The database, the node file, and what is left under its `.merging` name. -/
structure InstallHost (C : Type) where
  tables : RegionTables C
  gist : OsmTable → Bool
  nodes_file : Option (List UInt8)
  merging : Option (List UInt8)
  installed_regions : Text → Option InstalledRegion
  osm_sequence : Option ℤ

/-- A fresh schema, and no node file. -/
def InstallHost.fresh : InstallHost C where
  tables := .empty
  gist _ := false
  nodes_file := none
  merging := none
  installed_regions _ := none
  osm_sequence := none

/-- `kGistIndexes`, by their tables. -/
def kGistIndexes : List OsmTable := [.nodes, .ways, .areas, .roads, .relations]

/-! ### The process -/

/-- How far a process has come. -/
inductive InstallStage (C : Type) where
  | stopped
  | extracted (b : InstallBundle C)
  | prepared (b : InstallBundle C)
  /-- the workers of `createGistIndexes` that are under way, and whether one has failed -/
  | indexing (b : InstallBundle C) (left : List OsmTable) (failed : Bool)
  | indexed (b : InstallBundle C)
  | copying (b : InstallBundle C) (region_nodes : List UInt8)
  | merging (b : InstallBundle C) (nodes region_nodes : List UInt8)
  | merged (b : InstallBundle C) (nodes region_nodes : List UInt8)
  | placed (b : InstallBundle C)
  | registered (b : InstallBundle C)
  | done (b : InstallBundle C)

/-- No process is running. -/
def InstallStage.idle : InstallStage C → Bool
  | stopped => true
  | done _ => true
  | _ => false

/-- What can happen. -/
inductive InstallEvent (C : Type) where
  | start (b : InstallBundle C)
  | dropGistIndexes
  | script
  | createIndex (t : OsmTable) (goes : Bool)
  | join
  | openNodes
  | copied
  | merged (created_at : UInt32)
  | rename
  | register
  | seed (state : Option (ℤ × ℤ))
  /-- with what there is of the file the process was writing, if it is there -/
  | kill (written : Option (List UInt8))

/-- The target, the process, and what the processes have announced: bundles whose tables are
installed, whose nodes are in place, and that are done. -/
structure InstallRun (C : Type) where
  host : InstallHost C
  stage : InstallStage C
  loaded : List (InstallBundle C)
  placed : List (InstallBundle C)
  finished : List (InstallBundle C)

namespace InstallRun

/-- Nothing has been installed. -/
def start : InstallRun C := ⟨.fresh, .stopped, [], [], []⟩

variable (columns : AirportColumns C) (σ : InstallRun C)

/-- The process ends early. -/
def stop : InstallRun C := { σ with stage := .stopped }

/-- The script, in one transaction. -/
def script (b : InstallBundle C) : InstallRun C :=
  match InstallScript.run columns b.tables σ.host.tables with
  | none => σ.stop
  | some d => { σ with
      host := { σ.host with tables := d }
      stage := .indexing b kGistIndexes false
      loaded := σ.loaded ++ [b] }

/-- One worker of `createGistIndexes`. -/
def createIndex (b : InstallBundle C) (left : List OsmTable) (failed : Bool) (t : OsmTable)
    (goes : Bool) : InstallRun C :=
  { σ with
      host := { σ.host with
        gist := if goes then Function.update σ.host.gist t true else σ.host.gist }
      stage := .indexing b (left.erase t) (failed || !goes) }

/-- Step 5, up to the writing: `copy_file` creates the file first, and `merge` opens both
files first. -/
def openNodes (b : InstallBundle C) : InstallRun C :=
  match b.nodes, σ.host.nodes_file with
  | none, _ => { σ with stage := .placed b, placed := σ.placed ++ [b] }
  | some region_nodes, none =>
      { σ with host := { σ.host with nodes_file := some [] }, stage := .copying b region_nodes }
  | some region_nodes, some nodes => { σ with stage := .merging b nodes region_nodes }

/-- The region's nodes are copied. -/
def copied (b : InstallBundle C) (region_nodes : List UInt8) : InstallRun C :=
  { σ with
      host := { σ.host with nodes_file := some region_nodes }
      stage := .placed b
      placed := σ.placed ++ [b] }

/-- `RegionalNodeMap::merge`. -/
def merge (b : InstallBundle C) (nodes region_nodes : List UInt8) (created_at : UInt32) :
    InstallRun C :=
  match mergeFiles nodes region_nodes created_at with
  | .error _ => σ.stop
  | .ok out => { σ with
      host := { σ.host with merging := some out }, stage := .merged b nodes region_nodes }

/-- `fs::rename`, of what lies under the `.merging` name. -/
def rename (b : InstallBundle C) : InstallRun C :=
  { σ with
      host := { σ.host with nodes_file := σ.host.merging, merging := none }
      stage := .placed b
      placed := σ.placed ++ [b] }

/-- `registerInstalledRegion`. -/
def register (b : InstallBundle C) : InstallRun C :=
  { σ with
      host := { σ.host with
        installed_regions := match b.registration with
          | some r => Function.update σ.host.installed_regions b.region (some r)
          | none => σ.host.installed_regions }
      stage := .registered b }

/-- `estimateBundleReplicationSequence` and `setReplicationSequence`. -/
def seed (b : InstallBundle C) (state : Option (ℤ × ℤ)) : InstallRun C :=
  let seed := estimateBundleReplicationSequence b.exported_at state
  { σ with
      host := { σ.host with osm_sequence := if 0 ≤ seed then some seed else σ.host.osm_sequence }
      stage := .done b
      finished := σ.finished ++ [b] }

/-- The process is killed: a copy and a merge leave what they have written. -/
def kill (written : Option (List UInt8)) : Option (InstallRun C) :=
  match σ.stage with
  | .stopped => none
  | .done _ => none
  | .copying _ region_nodes =>
      if (written.getD []).isPrefixOf region_nodes then
        some { σ.stop with host := { σ.host with nodes_file := some (written.getD []) } }
      else none
  | .merging .. =>
      some { σ.stop with host := { σ.host with merging := written.or σ.host.merging } }
  | _ => some σ.stop

/-- One event, where it can happen. -/
def step (e : InstallEvent C) : Option (InstallRun C) :=
  match e, σ.stage with
  | .start b, stage => if stage.idle then some { σ with stage := .extracted b } else none
  | .dropGistIndexes, .extracted b =>
      some { σ with host := { σ.host with gist := fun _ => false }, stage := .prepared b }
  | .script, .prepared b => some (σ.script columns b)
  | .createIndex t goes, .indexing b left failed =>
      if t ∈ left then some (σ.createIndex b left failed t goes) else none
  | .join, .indexing b [] failed => some (if failed then σ.stop else { σ with stage := .indexed b })
  | .openNodes, .indexed b => some (σ.openNodes b)
  | .copied, .copying b region_nodes => some (σ.copied b region_nodes)
  | .merged created_at, .merging b nodes region_nodes =>
      some (σ.merge b nodes region_nodes created_at)
  | .rename, .merged b _ _ => some (σ.rename b)
  | .register, .placed b => some (σ.register b)
  | .seed state, .registered b => some (σ.seed b state)
  | .kill written, _ => σ.kill written
  | _, _ => none

/-- Events in turn. -/
def run (evs : List (InstallEvent C)) : Option (InstallRun C) := evs.foldlM (step columns) σ

/-! ### One step -/

/-- **What a step does.** -/
inductive Took : InstallEvent C → InstallRun C → Prop
  | start {b : InstallBundle C} (h : σ.stage.idle = true) :
      Took (.start b) { σ with stage := .extracted b }
  | dropGistIndexes {b : InstallBundle C} (h : σ.stage = .extracted b) :
      Took .dropGistIndexes
        { σ with host := { σ.host with gist := fun _ => false }, stage := .prepared b }
  | script {b : InstallBundle C} (h : σ.stage = .prepared b) : Took .script (σ.script columns b)
  | createIndex {b : InstallBundle C} {left : List OsmTable} {failed : Bool} {t : OsmTable}
      {goes : Bool} (h : σ.stage = .indexing b left failed) (ht : t ∈ left) :
      Took (.createIndex t goes) (σ.createIndex b left failed t goes)
  | join {b : InstallBundle C} {failed : Bool} (h : σ.stage = .indexing b [] failed) :
      Took .join (if failed then σ.stop else { σ with stage := .indexed b })
  | openNodes {b : InstallBundle C} (h : σ.stage = .indexed b) : Took .openNodes (σ.openNodes b)
  | copied {b : InstallBundle C} {region_nodes : List UInt8}
      (h : σ.stage = .copying b region_nodes) : Took .copied (σ.copied b region_nodes)
  | merged {b : InstallBundle C} {nodes region_nodes : List UInt8} {created_at : UInt32}
      (h : σ.stage = .merging b nodes region_nodes) :
      Took (.merged created_at) (σ.merge b nodes region_nodes created_at)
  | rename {b : InstallBundle C} {nodes region_nodes : List UInt8}
      (h : σ.stage = .merged b nodes region_nodes) : Took .rename (σ.rename b)
  | register {b : InstallBundle C} (h : σ.stage = .placed b) : Took .register (σ.register b)
  | seed {b : InstallBundle C} {state : Option (ℤ × ℤ)} (h : σ.stage = .registered b) :
      Took (.seed state) (σ.seed b state)
  | killCopy {b : InstallBundle C} {region_nodes : List UInt8} {written : Option (List UInt8)}
      (h : σ.stage = .copying b region_nodes) (hw : written.getD [] <+: region_nodes) :
      Took (.kill written)
        { σ.stop with host := { σ.host with nodes_file := some (written.getD []) } }
  | killMerge {b : InstallBundle C} {nodes region_nodes : List UInt8}
      {written : Option (List UInt8)} (h : σ.stage = .merging b nodes region_nodes) :
      Took (.kill written)
        { σ.stop with host := { σ.host with merging := written.or σ.host.merging } }
  | kill {written : Option (List UInt8)} (h : σ.stage.idle = false)
      (hcopy : ∀ b region_nodes, σ.stage ≠ .copying b region_nodes) :
      Took (.kill written) σ.stop

variable {columns σ} {σ' : InstallRun C} {e : InstallEvent C}

lemma took_of_step (h : σ.step columns e = some σ') : Took columns σ e σ' := by
  obtain ⟨host, stage, loaded, placed, finished⟩ := σ
  cases e with
  | start b =>
      simp only [step, Option.ite_none_right_eq_some] at h
      obtain ⟨hidle, h⟩ := h
      exact Option.some.inj h ▸ .start hidle
  | kill written =>
      cases stage with
      | stopped => exact absurd h (by simp [step, kill])
      | done b => exact absurd h (by simp [step, kill])
      | copying b region_nodes =>
          simp only [step, kill, Option.ite_none_right_eq_some, List.isPrefixOf_iff_prefix] at h
          obtain ⟨hw, h⟩ := h
          exact Option.some.inj h ▸ .killCopy rfl hw
      | merging b nodes region_nodes => exact Option.some.inj h ▸ .killMerge rfl
      | _ => exact Option.some.inj h ▸ .kill rfl (by simp)
  | createIndex t goes =>
      cases stage with
      | indexing b left failed =>
          simp only [step, Option.ite_none_right_eq_some] at h
          obtain ⟨ht, h⟩ := h
          exact Option.some.inj h ▸ .createIndex rfl ht
      | _ => exact absurd h (by simp [step])
  | join =>
      cases stage with
      | indexing b left failed =>
          cases left with
          | nil => exact Option.some.inj h ▸ .join rfl
          | cons t left => exact absurd h (by simp [step])
      | _ => exact absurd h (by simp [step])
  | dropGistIndexes =>
      cases stage with
      | extracted b => exact Option.some.inj h ▸ .dropGistIndexes rfl
      | _ => exact absurd h (by simp [step])
  | script =>
      cases stage with
      | prepared b => exact Option.some.inj h ▸ .script rfl
      | _ => exact absurd h (by simp [step])
  | openNodes =>
      cases stage with
      | indexed b => exact Option.some.inj h ▸ .openNodes rfl
      | _ => exact absurd h (by simp [step])
  | copied =>
      cases stage with
      | copying b region_nodes => exact Option.some.inj h ▸ .copied rfl
      | _ => exact absurd h (by simp [step])
  | merged created_at =>
      cases stage with
      | merging b nodes region_nodes => exact Option.some.inj h ▸ .merged rfl
      | _ => exact absurd h (by simp [step])
  | rename =>
      cases stage with
      | merged b nodes region_nodes => exact Option.some.inj h ▸ .rename rfl
      | _ => exact absurd h (by simp [step])
  | register =>
      cases stage with
      | placed b => exact Option.some.inj h ▸ .register rfl
      | _ => exact absurd h (by simp [step])
  | seed state =>
      cases stage with
      | registered b => exact Option.some.inj h ▸ .seed rfl
      | _ => exact absurd h (by simp [step])

end InstallRun

end Gpsxdb
