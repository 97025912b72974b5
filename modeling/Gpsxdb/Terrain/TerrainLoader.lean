import Mathlib.Tactic
import Gpsxdb.Library.Runs
import Gpsxdb.Terrain.Tiles

/-!
Loads of elevation tiles (`TerrainLoader::load`), one after the other, each of which may
be stopped anywhere.

* `LoadCall`, `LoadCall.tiles`: a call and the tiles it asks for;
* `Stage`, `TerrainRun`: the workers with their batches; `TerrainState`, `Event`, `step`,
  `run`: the two tables, and the steps of all workers in any order;
* `Moved`, `moved_of_step`: **what a step does**;
* `Loaded`, `recorded_of_run`: a tile in `terrain_tiles` has its rows, in every run.

The rows of a tile are one entry of the table `terrain`, for each time they are loaded.
What `load` returns, the source column, which nothing reads, and the functions made at
the end are left out.
-/

namespace Gpsxdb

open WMMLoader (Fate)

namespace TerrainLoader

/-! ### Calls -/

/-- `Bbox`. -/
structure Bbox where
  min_lon : ℚ
  min_lat : ℚ
  max_lon : ℚ
  max_lat : ℚ

/-- The arguments of `load`. -/
structure LoadCall where
  box : Bbox
  source : TerrainSource
  threads : ℤ
  skip_bbox : Option Bbox

/-- The test for a tile inside of `skip_bbox`. -/
def Bbox.holds (b : Bbox) (t : Tile) : Bool :=
  b.min_lon ≤ t.lon && (t.lon + 1 : ℤ) ≤ b.max_lon && b.min_lat ≤ t.lat
    && (t.lat + 1 : ℤ) ≤ b.max_lat

/-- The tiles of the box, less those to be skipped. -/
def LoadCall.tiles (c : LoadCall) : List Tile :=
  (tilesForBBox c.source c.box.min_lon c.box.min_lat c.box.max_lon c.box.max_lat).filter fun t =>
    !c.skip_bbox.any fun b => b.holds t

/-! ### The system -/

def kBatchSize : ℕ := 25

/-- Where a worker stands: before a batch, at its downloads, with its tiles before `psql`,
with its tiles before the transaction on `terrain_tiles`, and at its end. -/
inductive Stage where
  | idle
  | downloading (batch : ℕ) (retried : Bool)
  | loading (batch : ℕ) (retried : Bool) (tiles : List Tile)
  | recording (batch : ℕ) (tiles : List Tile)
  | finished

/-- The batch of a worker. -/
def Stage.batch? : Stage → Option ℕ
  | .downloading b _ => some b
  | .loading b _ _ => some b
  | .recording b _ => some b
  | _ => none

/-- A load under way.  While `boot` holds the table does not exist, and worker 0, on the
connection of the loader, goes through the batches alone. -/
structure TerrainRun where
  to_load : List Tile
  threads : ℤ
  next_batch : ℕ
  boot : Bool
  workers : ℕ → Stage

namespace TerrainRun

def n_batches (r : TerrainRun) : ℕ := (r.to_load.length + kBatchSize - 1) / kBatchSize

/-- The tiles of a batch. -/
def batch (r : TerrainRun) (b : ℕ) : List Tile :=
  (r.to_load.drop (b * kBatchSize)).take kBatchSize

/-- A worker that runs: more of them than batches would find none. -/
def Runs (r : TerrainRun) (i : ℕ) : Prop := if r.boot then i = 0 else (i : ℤ) < max 1 r.threads

instance (r : TerrainRun) (i : ℕ) : Decidable (r.Runs i) :=
  inferInstanceAs (Decidable (if r.boot = true then i = 0 else (i : ℤ) < max 1 r.threads))

/-- A worker moves on. -/
def put (r : TerrainRun) (i : ℕ) (w : Stage) : TerrainRun :=
  { r with workers := Function.update r.workers i w }

/-- The rest of `runBatch` for a failed attempt: another one, or the end of the process. -/
def failed (r : TerrainRun) (i b : ℕ) (retried : Bool) : Option TerrainRun :=
  if retried then none else some (r.put i (.downloading b true))

/-- An exception ends the worker, or leaves `load` where there are no workers yet. -/
def thrown (r : TerrainRun) (i : ℕ) : Option TerrainRun :=
  if r.boot then none else some (r.put i .finished)

end TerrainRun

/-- The tables `terrain`, if there is one, and `terrain_tiles`, and the load under way. -/
structure TerrainState where
  terrain : Option (List String)
  terrain_tiles : List String
  load : Option TerrainRun

/-- What a worker does, and how it goes. -/
inductive Action where
  | take
  | download (downloaded : Tile → Bool) (generated : Bool)
  | psql (fate : Fate)
  | record (fate : Fate)

/-- A call, the end of the process or of the call, or a step of a worker. -/
inductive Event where
  | start (call : LoadCall)
  | stop
  | worker (i : ℕ) (a : Action)

namespace TerrainState

/-- What is in `terrain`. -/
def rows (s : TerrainState) : List String := s.terrain.getD []

/-- The rows of a batch are added. -/
def addRows (s : TerrainState) (tiles : List Tile) : TerrainState :=
  { s with terrain := some (s.rows ++ tiles.map Tile.name) }

/-- `INSERT ... ON CONFLICT DO NOTHING`, tile by tile. -/
def addTiles (s : TerrainState) (tiles : List Tile) : TerrainState :=
  { s with
    terrain_tiles := tiles.foldl
      (fun names t => if t.name ∈ names then names else names ++ [t.name]) s.terrain_tiles }

/-- The beginning of a load, up to the workers. -/
def begin (s : TerrainState) (c : LoadCall) : TerrainState :=
  let to_load := c.tiles.filter fun t => t.name ∉ s.terrain_tiles
  if to_load = [] then s
  else { s with load := some ⟨to_load, c.threads, 0, s.terrain.isNone, fun _ => .idle⟩ }

/-- A step of a worker that stands at a stage.  Without `-a` the SQL creates the table,
with it the SQL needs the table; otherwise `psql` can only fail. -/
def workerStep (s : TerrainState) (r : TerrainRun) (i : ℕ) : Stage → Action → Option TerrainState
  | .idle, .take =>
      if r.next_batch < r.n_batches then
        some { s with
          load := some { r.put i (.downloading r.next_batch false) with
            next_batch := r.next_batch + 1 } }
      else some { s with load := some (r.put i .finished) }
  | .downloading b retried, .download downloaded generated =>
      let tiles := (r.batch b).filter downloaded
      if tiles = [] then some { s with load := some (r.put i .idle) }
      else if generated then some { s with load := some (r.put i (.loading b retried tiles)) }
      else some { s with load := r.failed i b retried }
  | .loading b retried tiles, .psql fate =>
      if fate = .failed then some { s with load := r.failed i b retried }
      else if s.terrain.isNone ≠ r.boot then none
      else if fate = .committed then
        some { s.addRows tiles with load := some (r.put i (.recording b tiles)) }
      else some { s.addRows tiles with load := r.failed i b retried }
  | .recording _ tiles, .record fate =>
      match fate with
      | .committed =>
          some { s.addTiles tiles with load := some { r.put i .idle with boot := false } }
      | .inDoubt => some { s.addTiles tiles with load := r.thrown i }
      | .failed => some { s with load := r.thrown i }
  | _, _ => none

/-- One step; `none` where it cannot be the next one. -/
def step (s : TerrainState) : Event → Option TerrainState
  | .start c => if s.load.isNone then some (s.begin c) else none
  | .stop => some { s with load := none }
  | .worker i a => do
      let r ← s.load
      if r.Runs i then s.workerStep r i (r.workers i) a else none

/-- Steps in turn. -/
def run (s : TerrainState) (es : List Event) : Option TerrainState := es.foldlM step s

/-- Before the first load: no table, or an empty one. -/
structure New (s : TerrainState) : Prop where
  rows : s.rows = []
  terrain_tiles : s.terrain_tiles = []
  load : s.load = none

end TerrainState

/-! ### What a step does -/

/-- A worker without a batch is not at a stage with one. -/
lemma Stage.ne_of_batch {w w' : Stage} {b : ℕ} (h : w.batch? = none) (h' : w'.batch? = some b) :
    w ≠ w' := by
  rintro rfl
  exact nomatch h.symm.trans h'

namespace TerrainRun

variable {i j : ℕ} {w w' : Stage}

lemma put_self (r : TerrainRun) (i : ℕ) (w : Stage) : (r.put i w).workers i = w :=
  Function.update_self ..

lemma put_of_ne (h : j ≠ i) (r : TerrainRun) (w : Stage) :
    (r.put i w).workers j = r.workers j := Function.update_of_ne h ..

/-- A worker at another stage than the one moved to has not moved. -/
lemma workers_of_put {r : TerrainRun} (h : (r.put i w).workers j = w') (hw : w ≠ w') :
    j ≠ i ∧ r.workers j = w' := by
  by_cases hji : j = i
  · rw [hji, put_self] at h
    exact absurd h hw
  · rw [put_of_ne hji] at h
    exact ⟨hji, h⟩

end TerrainRun

/-- A worker that is not at `psql` or behind it goes on with its batch, or drops it. -/
structure TerrainRun.Idles (r : TerrainRun) (i : ℕ) (w : Stage) : Prop where
  before : ∀ b tiles, r.workers i ≠ .recording b tiles
  after : ∀ b tiles, w ≠ .recording b tiles
  batch : w.batch? = none ∨ w.batch? = (r.workers i).batch?
  loading : ∀ b retried tiles, w = .loading b retried tiles →
    tiles ≠ [] ∧ tiles.Sublist (r.batch b)

/-- What is left of a load when a worker drops its batch: nothing, or the load without that
worker at it. -/
def TerrainRun.Drops (r : TerrainRun) (i : ℕ) (load : Option TerrainRun) : Prop :=
  ∀ r', load = some r' → ∃ w boot, w.batch? = none ∧ r' = { r.put i w with boot := boot }

namespace TerrainState

/-- **What a step does.** -/
inductive Moved (s : TerrainState) : Event → TerrainState → Prop
  | skip {c : LoadCall} (hload : s.load = none) : Moved s (.start c) s
  | start {c : LoadCall} (hload : s.load = none) : Moved s (.start c)
      { s with
        load := some ⟨c.tiles.filter fun t => t.name ∉ s.terrain_tiles, c.threads, 0,
          s.terrain.isNone, fun _ => .idle⟩ }
  | stop : Moved s .stop { s with load := none }
  | exit {i : ℕ} {a : Action} (ha : ∀ fate, a ≠ .record fate) :
      Moved s (.worker i a) { s with load := none }
  | take {r : TerrainRun} {i : ℕ} (hr : s.load = some r) (hi : r.workers i = .idle) :
      Moved s (.worker i .take)
        { s with
          load := some { r.put i (.downloading r.next_batch false) with
            next_batch := r.next_batch + 1 } }
  | idle {r : TerrainRun} {i : ℕ} {a : Action} {w : Stage} (hr : s.load = some r)
      (hw : r.Idles i w) : Moved s (.worker i a) { s with load := some (r.put i w) }
  | psql {r : TerrainRun} {i b : ℕ} {retried : Bool} {tiles : List Tile} (hr : s.load = some r)
      (hi : r.workers i = .loading b retried tiles) : Moved s (.worker i (.psql .committed))
        { s.addRows tiles with load := some (r.put i (.recording b tiles)) }
  | doubt {r : TerrainRun} {i b : ℕ} {retried : Bool} {tiles : List Tile} (hr : s.load = some r)
      (hi : r.workers i = .loading b retried tiles) : Moved s (.worker i (.psql .inDoubt))
        { s.addRows tiles with load := r.failed i b retried }
  | record {r : TerrainRun} {i b : ℕ} {tiles : List Tile} {fate : Fate} {load : Option TerrainRun}
      (hr : s.load = some r) (hi : r.workers i = .recording b tiles) (hload : r.Drops i load)
      (hfate : fate ≠ .failed) :
      Moved s (.worker i (.record fate)) { s.addTiles tiles with load := load }
  | lose {r : TerrainRun} {i b : ℕ} {tiles : List Tile} {load : Option TerrainRun}
      (hr : s.load = some r) (hi : r.workers i = .recording b tiles) (hload : r.Drops i load) :
      Moved s (.worker i (.record .failed)) { s with load := load }

variable {s s' : TerrainState} {r : TerrainRun} {e : Event} {i b : ℕ} {retried : Bool}
  {tiles : List Tile}

/-- A failed attempt. -/
lemma moved_failed {a : Action} (ha : ∀ fate, a ≠ .record fate) (hr : s.load = some r)
    (hbatch : (r.workers i).batch? = some b) (hnot : ∀ b tiles, r.workers i ≠ .recording b tiles) :
    Moved s (.worker i a) { s with load := r.failed i b retried } := by
  rw [TerrainRun.failed]
  split
  · exact .exit ha
  · exact .idle hr ⟨hnot, nofun, Or.inr hbatch.symm, nofun⟩

lemma drops_thrown (r : TerrainRun) (i : ℕ) : r.Drops i (r.thrown i) := by
  intro r' hr'
  rw [TerrainRun.thrown] at hr'
  split at hr'
  · exact nomatch hr'
  · obtain rfl := Option.some.inj hr'
    exact ⟨.finished, r.boot, rfl, rfl⟩

lemma moved_of_workerStep {a : Action} (hr : s.load = some r)
    (h : s.workerStep r i (r.workers i) a = some s') : Moved s (.worker i a) s' := by
  generalize hw : r.workers i = w at h
  cases w with
  | idle =>
      cases a with
      | take =>
          rw [workerStep] at h
          split at h
          · obtain rfl := Option.some.inj h
            exact .take hr hw
          · obtain rfl := Option.some.inj h
            exact .idle hr ⟨by simp [hw], nofun, Or.inl rfl, nofun⟩
      | _ => exact nomatch h
  | downloading b retried =>
      cases a with
      | download downloaded generated =>
          rw [workerStep] at h
          split at h
          · obtain rfl := Option.some.inj h
            exact .idle hr ⟨by simp [hw], nofun, Or.inl rfl, nofun⟩
          · rename_i hne
            split at h
            · obtain rfl := Option.some.inj h
              refine .idle hr ⟨by simp [hw], nofun, Or.inr (by rw [hw]; rfl), ?_⟩
              rintro b' retried' tiles ⟨⟩
              exact ⟨hne, List.filter_sublist⟩
            · obtain rfl := Option.some.inj h
              exact moved_failed nofun hr (by rw [hw]; rfl) (by simp [hw])
      | _ => exact nomatch h
  | loading b retried tiles =>
      cases a with
      | psql fate =>
          rw [workerStep] at h
          cases fate with
          | failed =>
              obtain rfl := Option.some.inj h
              exact moved_failed nofun hr (by rw [hw]; rfl) (by simp [hw])
          | committed =>
              simp only [reduceCtorEq, if_false, if_true] at h
              split at h
              · exact nomatch h
              · obtain rfl := Option.some.inj h
                exact .psql hr hw
          | inDoubt =>
              simp only [reduceCtorEq, if_false] at h
              split at h
              · exact nomatch h
              · obtain rfl := Option.some.inj h
                exact .doubt hr hw
      | _ => exact nomatch h
  | recording b tiles =>
      cases a with
      | record fate =>
          cases fate with
          | committed =>
              obtain rfl := Option.some.inj h
              refine .record hr hw ?_ nofun
              rintro r' ⟨⟩
              exact ⟨.idle, false, rfl, rfl⟩
          | inDoubt =>
              obtain rfl := Option.some.inj h
              exact .record hr hw (drops_thrown r i) nofun
          | failed =>
              obtain rfl := Option.some.inj h
              exact .lose hr hw (drops_thrown r i)
      | _ => exact nomatch h
  | finished => exact nomatch h

lemma moved_of_step (h : s.step e = some s') : Moved s e s' := by
  cases e with
  | start c =>
      rw [step] at h
      split at h
      · rename_i hload
        obtain rfl := Option.some.inj h
        rw [begin]
        split
        · exact .skip (Option.isNone_iff_eq_none.mp hload)
        · exact .start (Option.isNone_iff_eq_none.mp hload)
      · exact nomatch h
  | stop =>
      obtain rfl := Option.some.inj h
      exact .stop
  | worker i a =>
      rw [step, Option.bind_eq_bind, Option.bind_eq_some_iff] at h
      obtain ⟨r, hr, h⟩ := h
      split at h
      · exact moved_of_workerStep hr h
      · exact nomatch h

/-! ### Recorded tiles have their rows -/

lemma mem_addTiles {name : String} : name ∈ (s.addTiles tiles).terrain_tiles
    ↔ name ∈ s.terrain_tiles ∨ ∃ t ∈ tiles, t.name = name := by
  rw [addTiles]
  dsimp only
  generalize s.terrain_tiles = names
  induction tiles generalizing names with
  | nil => simp
  | cons t tiles ih =>
      rw [List.foldl_cons, ih, List.exists_mem_cons_iff, ← or_assoc]
      refine or_congr_left ?_
      split
      · rename_i hmem
        exact ⟨Or.inl, fun h => h.elim id fun heq => heq ▸ hmem⟩
      · rw [List.mem_append, List.mem_singleton, eq_comm (a := name)]

/-- A tile whose rows are committed and which is about to be recorded. -/
def Pending (s : TerrainState) (name : String) : Prop :=
  ∃ r i b tiles, s.load = some r ∧ r.workers i = .recording b tiles ∧ ∃ t ∈ tiles, t.name = name

/-- Every tile that is recorded, or about to be, has its rows. -/
structure Loaded (s : TerrainState) : Prop where
  recorded : ∀ name ∈ s.terrain_tiles, name ∈ s.rows
  pending : ∀ name, s.Pending name → name ∈ s.rows

/-- What is recorded in a load without a worker was so before. -/
lemma recording_of_drops {load : Option TerrainRun} (h : r.Drops i load) {r' : TerrainRun}
    (hr' : load = some r') {j b : ℕ} (hj : r'.workers j = .recording b tiles) :
    j ≠ i ∧ r.workers j = .recording b tiles := by
  obtain ⟨w, boot, hw, rfl⟩ := h r' hr'
  exact TerrainRun.workers_of_put hj (Stage.ne_of_batch hw rfl)

/-- The tiles that wait to be recorded, and the tables, are as before. -/
lemma Loaded.of_pending (h : Loaded s) (hrows : s'.rows = s.rows)
    (htiles : s'.terrain_tiles = s.terrain_tiles)
    (hpending : ∀ name, s'.Pending name → s.Pending name) : Loaded s' :=
  ⟨fun name hname => hrows ▸ h.recorded name (htiles ▸ hname),
    fun name hname => hrows ▸ h.pending name (hpending name hname)⟩

lemma Loaded.moved (h : Loaded s) (hm : Moved s e s') : Loaded s' := by
  cases hm with
  | skip hload => exact h
  | start hload =>
      refine h.of_pending rfl rfl ?_
      rintro name ⟨r, i, b, tiles, ⟨⟩, hi, -⟩
      exact nomatch hi
  | stop => exact h.of_pending rfl rfl (by rintro name ⟨r, i, b, tiles, ⟨⟩, -⟩)
  | exit ha => exact h.of_pending rfl rfl (by rintro name ⟨r, i, b, tiles, ⟨⟩, -⟩)
  | take hr hi =>
      refine h.of_pending rfl rfl ?_
      rintro name ⟨r', j, b, tiles, ⟨⟩, hj, ht⟩
      exact ⟨_, j, b, tiles, hr, (TerrainRun.workers_of_put hj nofun).2, ht⟩
  | idle hr hw =>
      refine h.of_pending rfl rfl ?_
      rintro name ⟨r', j, b, tiles, ⟨⟩, hj, ht⟩
      exact ⟨_, j, b, tiles, hr, (TerrainRun.workers_of_put hj (hw.after _ _)).2, ht⟩
  | @psql r i b retried tiles hr hi =>
      refine ⟨fun name hname => List.mem_append_left _ (h.recorded name hname), ?_⟩
      rintro name ⟨r', j, b', tiles', ⟨⟩, hj, t, ht, rfl⟩
      by_cases hji : j = i
      · rw [hji, TerrainRun.put_self] at hj
        obtain ⟨-, rfl⟩ := Stage.recording.inj hj
        exact List.mem_append_right _ (List.mem_map_of_mem ht)
      · rw [TerrainRun.put_of_ne hji] at hj
        exact List.mem_append_left _ (h.pending t.name ⟨r, j, b', tiles', hr, hj, t, ht, rfl⟩)
  | @doubt r i b retried tiles hr hi =>
      refine ⟨fun name hname => List.mem_append_left _ (h.recorded name hname), ?_⟩
      rintro name ⟨r', j, b', tiles', hr', hj, t, ht, rfl⟩
      refine List.mem_append_left _ (h.pending t.name ⟨r, j, b', tiles', hr, ?_, t, ht, rfl⟩)
      dsimp only at hr'
      rw [TerrainRun.failed] at hr'
      split at hr'
      · exact nomatch hr'
      · obtain rfl := Option.some.inj hr'
        exact (TerrainRun.workers_of_put hj nofun).2
  | @record r i b tiles fate load hr hi hload hfate =>
      refine ⟨fun name hname => ?_, ?_⟩
      · rcases mem_addTiles.mp hname with hname | ⟨t, ht, rfl⟩
        · exact h.recorded name hname
        · exact h.pending t.name ⟨r, i, b, tiles, hr, hi, t, ht, rfl⟩
      · rintro name ⟨r', j, b', tiles', hr', hj, ht⟩
        exact h.pending name ⟨r, j, b', tiles', hr, (recording_of_drops hload hr' hj).2, ht⟩
  | lose hr hi hload =>
      refine h.of_pending rfl rfl ?_
      rintro name ⟨r', j, b', tiles', hr', hj, ht⟩
      exact ⟨_, j, b', tiles', hr, (recording_of_drops hload hr' hj).2, ht⟩

lemma loaded_of_new (h : New s) : Loaded s :=
  ⟨by simp [h.terrain_tiles], by rintro name ⟨r, i, b, tiles, hr, -⟩; simp [h.load] at hr⟩

/-- **A tile in `terrain_tiles` has its rows**, wherever the loads were stopped. -/
theorem recorded_of_run {es : List Event} (hnew : New s) (h : s.run es = some s') :
    ∀ name ∈ s'.terrain_tiles, name ∈ s'.rows :=
  (foldlM_invariant (fun _ _ _ hs hstep => Loaded.moved hs (moved_of_step hstep))
    (loaded_of_new hnew) h).recorded

end TerrainState

end TerrainLoader

end Gpsxdb
