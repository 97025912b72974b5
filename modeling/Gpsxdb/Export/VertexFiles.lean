import Mathlib.Tactic
import Gpsxdb.Export.TempPaths
import Gpsxdb.Library.FileSystem

/-!
The vertex files of `regional_db_export`'s big-table phase, under any
interleaving of the pairs in flight.

* `VertexExport`: what the phase is run on, as far as vertices go;
* `VertexState`, `VertexEvent`, `step`: the drivers taking pairs, the workers of a
  pair taking chunks and writing scratch files, and the merge at its end;
* `records`: what a chunk emits for a region;
* `Reached`: the states of the runs whose steps are all of an allowed kind.

Scratch files are files of a shared file system; `extra_vertices.bin` is only
opened under `extra_vertices_mutex` and appended to. Calls of the file system
succeed. What a pair reads from the database and writes elsewhere is left out.
-/

namespace Gpsxdb

/-! ### What is exported -/

/-- A run of the big-table phase: a pair that writes no vertices (`nodes`, or one
with an empty parent table) has no chunks, and a chunk with an empty window
emits `none`. -/
structure VertexExport (V : Type) where
  out_dir : String
  /-- the names of the regions -/
  regions : List String
  nodup : regions.Nodup
  parallel_table_pairs : ℕ
  threads : ℕ
  pairs : ℕ
  nchunks : ℕ → ℕ
  /-- the vertices a chunk's worker writes, in order, each to a region's writer -/
  emits : ℕ → ℕ → Option (List (Fin regions.length × V))

/-! ### States -/

/-- An `ExtraVertexWriter`; the buffer is what has not been written through yet. -/
inductive ExtraVertexWriter (V : Type) where
  | unopened
  | opened (inode offset : ℕ) (buffer : List V)
  | closed

/-- `parentWorkForChunk`: the writers opened and the vertices emitted so far. -/
inductive ChunkState where
  | unclaimed
  | running (opened emitted : ℕ)
  | finished

/-- Where `appendExtraVertices` stands with one scratch file. -/
inductive AppendStage where
  | fopen
  | fread (inode : Option ℕ)
  | unlink
deriving DecidableEq

/-- `processPair`. -/
inductive PairState where
  | waiting
  | scanning (next_chunk : ℕ)
  | merging (ri : ℕ)
  | appending (ri ci : ℕ) (stage : AppendStage)
  | done
deriving DecidableEq

/-- A pair that a driver has taken and not finished. -/
def PairState.inFlight : PairState → Bool
  | .waiting | .done => false
  | _ => true

/-- A chunk that a worker has claimed and not finished. -/
def ChunkState.isRunning : ChunkState → Bool
  | .running .. => true
  | _ => false

/-- The state of the phase. -/
structure VertexState (V : Type) where
  next_pair : ℕ
  pair : ℕ → PairState
  chunk : ℕ → ℕ → ChunkState
  writer : ℕ → ℕ → ℕ → ExtraVertexWriter V
  files : FileSystem String V
  /-- the content of each region's `extra_vertices.bin` -/
  extra_vertices : ℕ → List V
  extra_vertices_mutex : Option ℕ

/-- The steps of drivers and workers. -/
inductive VertexEvent where
  /-- a driver takes the next pair -/
  | takePair
  /-- a worker of a pair claims the next chunk -/
  | claim (p : ℕ)
  /-- the worker of a chunk opens its next writer -/
  | fopen (p ci : ℕ)
  /-- it hands the next vertex to its writer -/
  | write (p ci : ℕ)
  /-- the first records of a writer's buffer reach the file -/
  | flush (p ci ri n : ℕ)
  /-- it closes a writer -/
  | fclose (p ci ri : ℕ)
  | finish (p ci : ℕ)
  /-- the workers of a pair have ended -/
  | join (p : ℕ)
  | lock (p : ℕ)
  | fopenTemp (p : ℕ)
  | append (p : ℕ)
  | unlink (p : ℕ)
  | unlock (p : ℕ)
  | done (p : ℕ)

namespace VertexExport

variable {V : Type} (cfg : VertexExport V)

/-- The scratch file of a region and a chunk. -/
def extraVertexTemp (ri ci : ℕ) : String :=
  tempPath cfg.out_dir (cfg.regions.getD ri "") ci "extra_vertices"

lemma extraVertexTemp_inj {ri ri' ci ci' : ℕ} (h : ri < cfg.regions.length)
    (h' : ri' < cfg.regions.length)
    (heq : cfg.extraVertexTemp ri ci = cfg.extraVertexTemp ri' ci') : ri = ri' ∧ ci = ci' := by
  obtain ⟨hname, hci⟩ := tempPath_inj heq
  rw [List.getD_eq_getElem?_getD, List.getD_eq_getElem?_getD, List.getElem?_eq_getElem h,
    List.getElem?_eq_getElem h'] at hname
  exact ⟨(cfg.nodup.getElem_inj_iff).mp hname, hci⟩

/-- What a chunk's worker has emitted for a region after its first `n` vertices. -/
def recordsUpTo (p ci ri n : ℕ) : List V :=
  (((cfg.emits p ci).getD []).take n).filterMap fun e => if e.1 = ri then some e.2 else none

/-- What a chunk's worker emits for a region. -/
def records (p ci ri : ℕ) : List V :=
  ((cfg.emits p ci).getD []).filterMap fun e => if e.1 = ri then some e.2 else none

/-- The phase at its start, over files that may be left from earlier runs. -/
def start (files : FileSystem String V) (extra_vertices : ℕ → List V) : VertexState V where
  next_pair := 0
  pair := fun _ => .waiting
  chunk := fun _ _ => .unclaimed
  writer := fun _ _ _ => .unopened
  files := files
  extra_vertices := extra_vertices
  extra_vertices_mutex := none

end VertexExport

namespace VertexState

variable {V : Type}

def setPair (σ : VertexState V) (p : ℕ) (s : PairState) : VertexState V :=
  { σ with pair := Function.update σ.pair p s }

def setChunk (σ : VertexState V) (p ci : ℕ) (s : ChunkState) : VertexState V :=
  { σ with chunk := Function.update σ.chunk p (Function.update (σ.chunk p) ci s) }

def setWriter (σ : VertexState V) (p ci ri : ℕ) (w : ExtraVertexWriter V) : VertexState V :=
  let row := Function.update (σ.writer p ci) ri w
  { σ with writer := Function.update σ.writer p (Function.update (σ.writer p) ci row) }

lemma pair_setPair (σ : VertexState V) (p q : ℕ) (s : PairState) :
    (σ.setPair p s).pair q = if q = p then s else σ.pair q :=
  Function.update_apply ..

lemma chunk_setChunk (σ : VertexState V) (p ci q c : ℕ) (s : ChunkState) :
    (σ.setChunk p ci s).chunk q c = if q = p ∧ c = ci then s else σ.chunk q c := by
  simp only [setChunk, Function.update_apply]
  split_ifs <;> simp_all

lemma writer_setWriter (σ : VertexState V) (p ci ri q c r : ℕ) (w : ExtraVertexWriter V) :
    (σ.setWriter p ci ri w).writer q c r
      = if q = p ∧ c = ci ∧ r = ri then w else σ.writer q c r := by
  by_cases hq : q = p
  · subst hq
    by_cases hc : c = ci
    · subst hc
      simp [setWriter, Function.update_apply]
    · simp [setWriter, hc]
  · simp [setWriter, hq]

/-- Every pair has been processed: the drivers have ended. -/
def Finished (cfg : VertexExport V) (σ : VertexState V) : Prop :=
  ∀ p < cfg.pairs, σ.pair p = .done

end VertexState

namespace VertexExport

variable {V : Type} [Inhabited V] (cfg : VertexExport V)

/-- One step, if it can be taken. -/
def step (σ : VertexState V) : VertexEvent → Option (VertexState V)
  | .takePair =>
      if σ.next_pair < cfg.pairs
          ∧ ((Finset.range cfg.pairs).filter fun p => (σ.pair p).inFlight).card
            < max 1 cfg.parallel_table_pairs then
        some { σ.setPair σ.next_pair (.scanning 0) with next_pair := σ.next_pair + 1 }
      else none
  | .claim p =>
      match σ.pair p with
      | .scanning ci =>
          if ci < cfg.nchunks p
              ∧ ((Finset.range (cfg.nchunks p)).filter fun c => (σ.chunk p c).isRunning).card
                < max 1 cfg.threads then
            some ((σ.setPair p (.scanning (ci + 1))).setChunk p ci
              (if (cfg.emits p ci).isSome then .running 0 0 else .finished))
          else none
      | _ => none
  | .fopen p ci =>
      match σ.chunk p ci with
      | .running ri emitted =>
          if ri < cfg.regions.length then
            let path := cfg.extraVertexTemp ri ci
            some { (σ.setChunk p ci (.running (ri + 1) emitted)).setWriter p ci ri
              (.opened (σ.files.openInode path) 0 []) with files := σ.files.openTrunc path }
          else none
      | _ => none
  | .write p ci =>
      match σ.chunk p ci with
      | .running opened emitted =>
          if opened = cfg.regions.length then
            match ((cfg.emits p ci).getD [])[emitted]? with
            | some (ri, v) =>
                match σ.writer p ci ri with
                | .opened i offset buffer =>
                    some ((σ.setChunk p ci (.running opened (emitted + 1))).setWriter p ci ri
                      (.opened i offset (buffer ++ [v])))
                | _ => none
            | none => none
          else none
      | _ => none
  | .flush p ci ri n =>
      match σ.writer p ci ri with
      | .opened i offset buffer =>
          some { σ.setWriter p ci ri
            (.opened i (offset + (buffer.take n).length) (buffer.drop n)) with
              files := σ.files.writeAt i offset (buffer.take n) }
      | _ => none
  | .fclose p ci ri =>
      match σ.chunk p ci with
      | .running opened emitted =>
          if opened = cfg.regions.length ∧ emitted = ((cfg.emits p ci).getD []).length then
            match σ.writer p ci ri with
            | .opened i offset buffer =>
                some { σ.setWriter p ci ri .closed with
                  files := σ.files.writeAt i offset buffer }
            | _ => none
          else none
      | _ => none
  | .finish p ci =>
      match σ.chunk p ci with
      | .running _ _ =>
          if ∀ ri < cfg.regions.length, σ.writer p ci ri matches .closed then
            some (σ.setChunk p ci .finished)
          else none
      | _ => none
  | .join p =>
      match σ.pair p with
      | .scanning ci =>
          if cfg.nchunks p ≤ ci ∧ ∀ c < cfg.nchunks p, σ.chunk p c matches .finished then
            some (σ.setPair p (.merging 0))
          else none
      | _ => none
  | .lock p =>
      match σ.pair p with
      | .merging ri =>
          if ri < cfg.regions.length ∧ σ.extra_vertices_mutex = none then
            some { σ.setPair p (.appending ri 0 .fopen) with extra_vertices_mutex := some p }
          else none
      | _ => none
  | .fopenTemp p =>
      match σ.pair p with
      | .appending ri ci .fopen =>
          if ci < cfg.nchunks p then
            some (σ.setPair p (.appending ri ci (.fread (σ.files.dir (cfg.extraVertexTemp ri ci)))))
          else none
      | _ => none
  | .append p =>
      match σ.pair p with
      | .appending ri ci (.fread inode) =>
          let read := (inode.map σ.files.data).getD []
          some { σ.setPair p (.appending ri ci .unlink) with
            extra_vertices := Function.update σ.extra_vertices ri (σ.extra_vertices ri ++ read) }
      | _ => none
  | .unlink p =>
      match σ.pair p with
      | .appending ri ci .unlink =>
          some { σ.setPair p (.appending ri (ci + 1) .fopen) with
            files := σ.files.unlink (cfg.extraVertexTemp ri ci) }
      | _ => none
  | .unlock p =>
      match σ.pair p with
      | .appending ri ci .fopen =>
          if ci < cfg.nchunks p then none
          else some { σ.setPair p (.merging (ri + 1)) with extra_vertices_mutex := none }
      | _ => none
  | .done p =>
      match σ.pair p with
      | .merging ri => if ri < cfg.regions.length then none else some (σ.setPair p .done)
      | _ => none

/-- The states of the runs whose steps are all allowed. -/
inductive Reached (allowed : VertexState V → VertexEvent → Prop) : VertexState V → Prop
  | start {files : FileSystem String V} (hfiles : files.Sound) (extra_vertices : ℕ → List V) :
      Reached allowed (start files extra_vertices)
  | step {σ σ' : VertexState V} {e : VertexEvent} : Reached allowed σ → allowed σ e →
      cfg.step σ e = some σ' → Reached allowed σ'

end VertexExport

end Gpsxdb
