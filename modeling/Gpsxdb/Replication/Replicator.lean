import Mathlib.Tactic

/-!
`Replicator::poll`, step by step: one process at a time, which may be stopped by a
signal, end on an error or be killed at any moment, and be started again.

* `OSCFile`: a downloaded diff, as the parser passes it on;
* `PollStage`: where a process is in `poll`, `downloadAndApply` and `applyFile`;
* `Effect`: what is done to the target, diff by diff;
* `ReplicatorState`, `PollEvent`, `step`, `run`: the process, with the stored
  sequence and the effects so far;
* `FullyApplied`: the effects of a diff applied completely and flushed.

Airport, obstacle, magnetic and airspace data are refreshed beside the diffs; of
that only the exceptions matter here.
-/

namespace Gpsxdb

/-! ### Files and effects -/

/-- A downloaded diff: the changes the parser calls back with, and whether it
then reaches the end without an error. -/
structure OSCFile (C : Type) where
  changes : List C
  well_formed : Bool

/-- What happens to the target, with the sequence it happens for. -/
inductive Effect (C : Type) where
  /-- `applyFile` begins on a file -/
  | begin (seq : ℤ) (file : OSCFile C)
  /-- `apply` returns -/
  | change (seq : ℤ) (c : C)
  /-- `apply` is left before its end -/
  | partly (seq : ℤ) (c : C)
  /-- `flush` returns -/
  | flush (seq : ℤ)
  /-- the sequence is committed -/
  | store (seq : ℤ)

/-- The sequence of an effect. -/
def Effect.seq {C : Type} : Effect C → ℤ
  | begin seq _ => seq
  | change seq _ => seq
  | partly seq _ => seq
  | flush seq => seq
  | store seq => seq

/-- A diff applied completely and flushed. -/
def FullyApplied {C : Type} (seq : ℤ) (es : List (Effect C)) : Prop :=
  ∃ file : OSCFile C, file.well_formed = true
    ∧ es = .begin seq file :: file.changes.map (.change seq) ++ [.flush seq]

/-! ### The process -/

/-- Where a process is. -/
inductive PollStage (C : Type) where
  /-- not running -/
  | stopped
  /-- at `while (!g_stop.load())` -/
  | loop
  /-- before `getSequence` and `remoteSequence` -/
  | body
  /-- at the condition of the `for` loop -/
  | pending (seq remote : ℤ)
  /-- before `downloadFile` -/
  | fetching (seq remote : ℤ)
  /-- in `OSCReader::parse`, with the changes still to come -/
  | parsing (seq remote : ℤ) (file : OSCFile C) (rest : List C)
  /-- before `applier_.flush` -/
  | parsed (seq remote : ℤ)
  /-- before `setSequence` -/
  | flushed (seq remote : ℤ)
  /-- before `maybeCheckExternalData` -/
  | done (seq remote : ℤ)

/-- The stored sequence, the process and the log of its effects. -/
structure ReplicatorState (C : Type) where
  /-- the `osm` entry of `external_data_state`, `-1` without one -/
  stored : ℤ
  g_stop : Bool
  stage : PollStage C
  log : List (Effect C)

/-- How a call ends. -/
inductive CallEnd where
  | returned
  | threw
  | killed

/-- The steps of a process. -/
inductive PollEvent (C : Type) where
  | start
  | signal
  | kill
  /-- the condition of a loop is tested -/
  | test
  /-- the sequences are read; `getSequence` gives `-1` where the database does not
  answer, `remoteSequence` throws where there is no state to read -/
  | read (answered : Bool) (remote : Option ℤ)
  | download (file : Option (OSCFile C))
  /-- `apply` of the next change -/
  | change (callEnd : CallEnd)
  /-- the parser is at its end -/
  | endOfFile
  | flush (callEnd : CallEnd)
  /-- `setSequence`; an exception leaves open whether it was committed -/
  | setSequence (committed : Bool) (callEnd : CallEnd)
  /-- `maybeCheckExternalData` -/
  | external (threw : Bool)

namespace ReplicatorState

variable {C : Type}

/-- The state before the first process, with the sequence an import or an install
has stored. -/
def initial (n₀ : ℤ) : ReplicatorState C := ⟨n₀, false, .stopped, []⟩

/-- `downloadAndApply` returns false: `poll` stops. -/
def fail (σ : ReplicatorState C) : ReplicatorState C := { σ with g_stop := true, stage := .loop }

/-- An effect logged. -/
def write (σ : ReplicatorState C) (e : Effect C) : ReplicatorState C :=
  { σ with log := σ.log ++ [e] }

/-- How a call inside `downloadAndApply` goes on. -/
def after (σ : ReplicatorState C) (next : PollStage C) : CallEnd → ReplicatorState C
  | .returned => { σ with stage := next }
  | .threw => σ.fail
  | .killed => { σ with stage := .stopped }

/-- One step, where the event fits the stage. -/
def step (σ : ReplicatorState C) : PollEvent C → Option (ReplicatorState C)
  | .start =>
      match σ.stage with
      | .stopped => some { σ with g_stop := false, stage := .loop }
      | _ => none
  | .signal => some { σ with g_stop := true }
  | .kill => some { σ with stage := .stopped }
  | .test =>
      match σ.stage with
      | .loop => some { σ with stage := if σ.g_stop then .stopped else .body }
      | .pending seq remote =>
          some { σ with stage :=
            if seq ≤ remote ∧ σ.g_stop = false then .fetching seq remote else .loop }
      | _ => none
  | .read answered remote =>
      match σ.stage, remote with
      | .body, none => some { σ with stage := .loop }
      | .body, some remote =>
          let local_seq := if answered then σ.stored else -1
          some { σ with stage :=
            if local_seq < 0 then .stopped
            else if remote ≤ local_seq then .loop
            else .pending (local_seq + 1) remote }
      | _, _ => none
  | .download file =>
      match σ.stage, file with
      | .fetching _ _, none => some σ.fail
      | .fetching seq remote, some file =>
          some { σ.write (.begin seq file) with stage := .parsing seq remote file file.changes }
      | _, _ => none
  | .change callEnd =>
      match σ.stage with
      | .parsing seq remote file (c :: rest) =>
          let effect := match callEnd with
            | .returned => .change seq c
            | _ => .partly seq c
          some ((σ.write effect).after (.parsing seq remote file rest) callEnd)
      | _ => none
  | .endOfFile =>
      match σ.stage with
      | .parsing seq remote file [] =>
          some (if file.well_formed then { σ with stage := .parsed seq remote } else σ.fail)
      | _ => none
  | .flush callEnd =>
      match σ.stage, callEnd with
      | .parsed seq remote, .returned =>
          some { σ.write (.flush seq) with stage := .flushed seq remote }
      | .parsed seq remote, callEnd => some (σ.after (.flushed seq remote) callEnd)
      | _, _ => none
  | .setSequence committed callEnd =>
      match σ.stage, committed, callEnd with
      | .flushed _ _, false, .returned => none
      | .flushed seq remote, true, callEnd =>
          some ({ σ.write (.store seq) with stored := seq }.after (.done seq remote) callEnd)
      | .flushed seq remote, false, callEnd => some (σ.after (.done seq remote) callEnd)
      | _, _, _ => none
  | .external threw =>
      match σ.stage with
      | .done seq remote =>
          some { σ with stage := if threw then .loop else .pending (seq + 1) remote }
      | _ => none

/-- A run of steps. -/
def run (σ : ReplicatorState C) (evs : List (PollEvent C)) : Option (ReplicatorState C) :=
  evs.foldlM step σ

end ReplicatorState

end Gpsxdb
