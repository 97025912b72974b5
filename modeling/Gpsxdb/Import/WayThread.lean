import Mathlib.Tactic
import Gpsxdb.Import.NavDB

/-!
The way and relation phases of an import: `wayThread` of `main.cpp`, run by any
number of threads over one queue.

* `WayEntry`, `RelationEntry`, `OsmFile`: what the producer pushes, ways before
  relations;
* `buildMultipolygon`: the area of a multipolygon relation;
* `WayThread`, `Stage`: one thread between two of its transactions or reads;
* `step`: one move of one thread, a transaction, a read or a piece of local
  work; `run`: any interleaving.

The queue is first-in first-out, so it is the list of the entries not yet popped,
those not yet pushed included; a `pop` fails once it is empty.  Node entries
never reach it.
-/

namespace Gpsxdb

/-! ### Entries -/

/-- A way of the file. -/
structure WayEntry where
  id : ℤ
  name : Text
  tags : Tags
  node_refs : List ℤ

/-- A way member of a relation, with its role. -/
structure RelationMember where
  id : ℤ
  role : Text

/-- A relation of the file; only its way members are kept. -/
structure RelationEntry where
  id : ℤ
  name : Text
  tags : Tags
  way_members : List RelationMember

/-- An entry of the queue. -/
inductive OSMEntry where
  | way (item : WayEntry)
  | relation (item : RelationEntry)

/-- The ways and relations of a file, with the ids OSM gives them: positive, and
distinct within each kind. -/
structure OsmFile where
  ways : List WayEntry
  relations : List RelationEntry
  way_nodup : (ways.map WayEntry.id).Nodup
  way_pos : ∀ w ∈ ways, 0 < w.id
  relation_nodup : (relations.map RelationEntry.id).Nodup
  relation_pos : ∀ r ∈ relations, 0 < r.id
  member_pos : ∀ r ∈ relations, ∀ m ∈ r.way_members, 0 < m.id

/-! ### Relations -/

/-- The relations stored as areas. -/
def isMultipolygon (tags : Tags) : Bool :=
  tags.find (ascii "type") == some (ascii "multipolygon")
    || tags.find (ascii "type") == some (ascii "boundary")

/-- The relations also stored as roads. -/
def isRoad (tags : Tags) : Bool :=
  tags.find (ascii "route") == some (ascii "road") || (tags.find (ascii "highway")).isSome

/-- The member segments of one role group: members without coordinates are
passed over. -/
def memberSegments (item : RelationEntry) (coords_map : ℤ → List Coord) (inner : Bool) :
    List Segment :=
  (item.way_members.filter fun m => (m.role == ascii "inner") == inner).filterMap fun m =>
    if coords_map m.id = [] then none else some (coords_map m.id)

/-- `buildMultipolygon`, from the coordinates of the members. -/
def buildMultipolygon (item : RelationEntry) (coords_map : ℤ → List Coord) : Option Geog :=
  let outers := memberSegments item coords_map false
  let inners := memberSegments item coords_map true
  if outers = [] then none else polygonsOf (stitchRings outers) (stitchRings inners)

/-- The geometry of any other relation, from those of its members. -/
def relationGeom (geoms : List Geog) : Option Geog :=
  if geoms = [] then none else mergeWayGeoms geoms

/-! ### Threads -/

/-- What a thread does once its transactions are through. -/
inductive Stage where
  /-- pops the next entry -/
  | loop
  /-- arrives at `way_barrier`, with the relation it has popped, if any -/
  | arriving (held : Option RelationEntry)
  /-- waits there for the given phase to end -/
  | waiting (phase : ℕ) (held : Option RelationEntry)
  /-- calls `getWayCoordsMap` for a multipolygon -/
  | rings (item : RelationEntry)
  /-- calls `getWay` for the next of the members left -/
  | geoms (item : RelationEntry) (rest : List RelationMember) (geoms : List Geog)
  /-- has left its loop -/
  | finished

/-- One way thread: its connection, the transactions its last flushes still have
to issue, and where it stands. -/
structure WayThread where
  db : NavDB
  jobs : List Job
  way_phase_done : Bool
  stage : Stage

/-- The run's surroundings: the merged node store, the number of node threads,
and whether ways are skipped (`-R relations`). -/
structure ImportEnv where
  select : ℤ → Option Coord
  node_threads : ℕ
  skip_ways : Bool

namespace WayThread

/-- The end of a turn of the loop: `finalize_roads`. -/
def endEntry (th : WayThread) (n : NavDB) (jobs : List Job) : WayThread :=
  let (n, roads) := n.flush .roads
  { th with db := n, jobs := jobs ++ roads, stage := .loop }

/-- The end of the thread: `finalize_relations`, then the destructor of its
connection. -/
def finish (th : WayThread) : WayThread :=
  let (n, jobs) := th.db.flushAll [.relations, .ways, .areas, .roads, .relations]
  { th with db := n, jobs := jobs, stage := .finished }

/-- `finalize_ways` ahead of the barrier. -/
def finalizeWays (th : WayThread) (held : Option RelationEntry) : WayThread :=
  let (n, jobs) := th.db.flushAll [.ways, .areas]
  { th with db := n, jobs := jobs, stage := .arriving held }

/-- The start of a relation. -/
def startRelation (th : WayThread) (item : RelationEntry) : WayThread :=
  { th with
    way_phase_done := true
    stage := if isMultipolygon item.tags then .rings item else .geoms item item.way_members [] }

end WayThread

/-- The resolvable coordinates of a way, in order. -/
def wayCoords (select : ℤ → Option Coord) (item : WayEntry) : List Coord :=
  item.node_refs.filterMap select

namespace WayThread

/-- A popped way. -/
def processWay (env : ImportEnv) (th : WayThread) (item : WayEntry) : WayThread :=
  if env.skip_ways then th.endEntry th.db []
  else match buildWayGeom (wayCoords env.select item) with
    | none => th.endEntry th.db []
    | some (geog, is_closed) =>
        let (n, jobs) :=
          if isArea is_closed item.tags then th.db.insertArea item.id item.name item.tags geog
          else th.db.insertWay item.id item.name item.tags geog
        th.endEntry n jobs

/-- A popped relation: the first one sends the thread to the barrier. -/
def processRelation (th : WayThread) (item : RelationEntry) : WayThread :=
  if th.way_phase_done then th.startRelation item else th.finalizeWays (some item)

/-- A failed pop: the loop is left, by way of the barrier where no relation led
there before. -/
def leaveLoop (th : WayThread) : WayThread :=
  if th.way_phase_done then th.finish else th.finalizeWays none

/-- A multipolygon once its coordinates are read. -/
def storeArea (th : WayThread) (item : RelationEntry) (coords_map : ℤ → List Coord) : WayThread :=
  match buildMultipolygon item coords_map with
  | none => th.endEntry th.db []
  | some geog =>
      let (n, jobs) := th.db.insertArea (-item.id) item.name item.tags geog
      th.endEntry n jobs

/-- Any other relation once the geometries of its members are read. -/
def storeRelation (th : WayThread) (item : RelationEntry) (geoms : List Geog) : WayThread :=
  let (n, jobs) := th.db.insertRelation item.id item.name item.tags (relationGeom geoms)
  match relationGeom geoms with
  | none => th.endEntry n jobs
  | some road_geog =>
      if isRoad item.tags then
        let (n, jobs') := n.insertRoad item.id item.name item.tags road_geog
        th.endEntry n (jobs ++ jobs')
      else th.endEntry n jobs

end WayThread

/-! ### Where the pieces of local work leave a thread -/

namespace WayThread

@[simp] lemma endEntry_stage (th : WayThread) (n : NavDB) (jobs : List Job) :
    (th.endEntry n jobs).stage = .loop := rfl

@[simp] lemma endEntry_done (th : WayThread) (n : NavDB) (jobs : List Job) :
    (th.endEntry n jobs).way_phase_done = th.way_phase_done := rfl

lemma processWay_stage (env : ImportEnv) (th : WayThread) (w : WayEntry) :
    (th.processWay env w).stage = .loop := by
  rw [processWay]
  split
  · rfl
  · split <;> rfl

lemma processWay_done (env : ImportEnv) (th : WayThread) (w : WayEntry) :
    (th.processWay env w).way_phase_done = th.way_phase_done := by
  rw [processWay]
  split
  · rfl
  · split <;> rfl

lemma storeArea_stage (th : WayThread) (r : RelationEntry) (cm : ℤ → List Coord) :
    (th.storeArea r cm).stage = .loop := by
  rw [storeArea]
  split <;> rfl

lemma storeArea_done (th : WayThread) (r : RelationEntry) (cm : ℤ → List Coord) :
    (th.storeArea r cm).way_phase_done = th.way_phase_done := by
  rw [storeArea]
  split <;> rfl

lemma storeRelation_stage (th : WayThread) (r : RelationEntry) (geoms : List Geog) :
    (th.storeRelation r geoms).stage = .loop := by
  simp only [storeRelation]
  split
  · rfl
  · split <;> rfl

lemma storeRelation_done (th : WayThread) (r : RelationEntry) (geoms : List Geog) :
    (th.storeRelation r geoms).way_phase_done = th.way_phase_done := by
  simp only [storeRelation]
  split
  · rfl
  · split <;> rfl

@[simp] lemma finish_stage (th : WayThread) : th.finish.stage = .finished := rfl

@[simp] lemma finish_done (th : WayThread) : th.finish.way_phase_done = th.way_phase_done := rfl

@[simp] lemma finalizeWays_stage (th : WayThread) (held : Option RelationEntry) :
    (th.finalizeWays held).stage = .arriving held := rfl

@[simp] lemma finalizeWays_done (th : WayThread) (held : Option RelationEntry) :
    (th.finalizeWays held).way_phase_done = th.way_phase_done := rfl

@[simp] lemma startRelation_done (th : WayThread) (r : RelationEntry) :
    (th.startRelation r).way_phase_done = true := rfl

end WayThread

/-! ### The phase as a whole -/

/-- The queue, the tables, the arrivals at `way_barrier` so far, and the
threads. -/
structure ImportState (T : ℕ) where
  queue : List OSMEntry
  db : Database
  arrivals : ℕ
  threads : Fin T → WayThread

namespace ImportState

variable {T : ℕ}

/-- The state with one thread replaced. -/
def setThread (σ : ImportState T) (i : Fin T) (th : WayThread) : ImportState T :=
  { σ with threads := Function.update σ.threads i th }

/-- One move of one thread, if it can move: the next transaction of its last
flush, or the next thing its loop does. -/
def step (env : ImportEnv) (σ : ImportState T) (i : Fin T) : Option (ImportState T) :=
  let th := σ.threads i
  match th.jobs with
  | job :: jobs =>
      let (db, again) := σ.db.exec job
      some ({ σ with db := db }.setThread i { th with jobs := again.toList ++ jobs })
  | [] =>
      match th.stage with
      | .loop =>
          match σ.queue with
          | [] => some (σ.setThread i th.leaveLoop)
          | .way item :: queue =>
              some ({ σ with queue := queue }.setThread i (th.processWay env item))
          | .relation item :: queue =>
              some ({ σ with queue := queue }.setThread i (th.processRelation item))
      | .arriving held =>
          some ({ σ with arrivals := σ.arrivals + 1 }.setThread i
            { th with stage := .waiting (σ.arrivals / T) held })
      | .waiting phase held =>
          if phase < σ.arrivals / T then
            match held with
            | some item => some (σ.setThread i (th.startRelation item))
            | none => some (σ.setThread i th.finish)
          else none
      | .rings item =>
          some (σ.setThread i
            (th.storeArea item (σ.db.getWayCoordsMap (item.way_members.map RelationMember.id))))
      | .geoms item (m :: rest) geoms =>
          some (σ.setThread i
            { th with stage := .geoms item rest (geoms ++ (σ.db.getWay m.id).toList) })
      | .geoms item [] geoms => some (σ.setThread i (th.storeRelation item geoms))
      | .finished => none

/-- A run: the thread that moves, move by move. -/
def run (env : ImportEnv) (σ : ImportState T) (moves : List (Fin T)) : Option (ImportState T) :=
  moves.foldlM (step env) σ

/-- The start of the way threads on tables already there. -/
def start (env : ImportEnv) (d : Database) (queue : List OSMEntry) : ImportState T where
  queue := queue
  db := d
  arrivals := 0
  threads i := ⟨NavDB.connect (env.node_threads + i), [], env.skip_ways, .loop⟩

/-- Every thread has left its loop and issued its last transaction. -/
def Done (σ : ImportState T) : Prop :=
  σ.queue = [] ∧ ∀ i, (σ.threads i).stage = .finished ∧ (σ.threads i).jobs = []

end ImportState

/-- The queue of an import that reads ways and relations. -/
def OsmFile.entries (f : OsmFile) : List OSMEntry :=
  f.ways.map OSMEntry.way ++ f.relations.map OSMEntry.relation

/-- The queue under `-R relations`: the producer drops the ways. -/
def OsmFile.relationEntries (f : OsmFile) : List OSMEntry := f.relations.map OSMEntry.relation

end Gpsxdb
