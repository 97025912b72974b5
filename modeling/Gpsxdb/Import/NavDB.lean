import Mathlib.Tactic
import Gpsxdb.Import.Tags
import Gpsxdb.Import.Geometry

/-!
The database side of a way thread: the tables, the buffers of `NavDB.cpp` and
the transactions its flushes issue.

* `Database`, `getWay`, `getWayCoordsMap`: the tables of the way and relation
  phases and the two queries on them;
* `Job`, `Database.exec`: one transaction of a flush, the `COPY` of a batch with
  its retries (`tryCopyBatch`) or the `COPY` of a tag buffer;
* `NavDB`, `insertWay`, `insertArea`, `insertRoad`, `insertRelation`, `flush`:
  the buffers and their thresholds;
* `truncateForResume`.

The only error of the server modelled is a duplicate key.  Node rows belong to
the node threads' own connections and are left out.
-/

namespace Gpsxdb

/-! ### Tables -/

/-- The tables written in the way and relation phases. -/
inductive Table where
  | ways
  | areas
  | roads
  | relations
deriving DecidableEq

/-- A row of `ways`, `areas`, `roads` or `relations`; only a relation may be
without a geometry. -/
structure GeomRecord where
  id : ℤ
  name : Text
  geog : Option Geog
deriving DecidableEq

/-- The tables with their tag tables, rows in scan order. -/
structure Database where
  rows : Table → List GeomRecord
  tags : Table → List TagRecord

namespace Database

/-- Tables without a row. -/
def empty : Database := ⟨fun _ => [], fun _ => []⟩

/-- The rows of an id. -/
def rowsOf (d : Database) (t : Table) (id : ℤ) : List GeomRecord :=
  (d.rows t).filter fun r => r.id == id

/-- `NavDB::getWay`: the geometry of the first row the union of `ways` and
`areas` has for the id. -/
def getWay (d : Database) (id : ℤ) : Option Geog :=
  match d.rowsOf .ways id ++ d.rowsOf .areas id with
  | [] => none
  | r :: _ => r.geog

/-- The vertices the inner query of `getWayCoordsMap` lists for one row. -/
def pointsOf (r : GeomRecord) : List (ℤ × Coord) :=
  ((r.geog.map Geog.dumpPoints).getD []).map fun p => (r.id, p)

/-- The rows of the query of `getWayCoordsMap`: all vertices of all requested
ids, ordered by id.  Among rows of one id, whose order the SQL leaves open, it is taken to be
that of the scan. -/
def wayPoints (d : Database) (ids : List ℤ) : List (ℤ × Coord) :=
  (((d.rows .ways).filter (fun r => ids.contains r.id)
    ++ (d.rows .areas).filter (fun r => ids.contains r.id)).flatMap pointsOf).mergeSort
      fun a b => a.1 ≤ b.1

/-- The loop of `getWayCoordsMap` over the rows of its query. -/
def coordsMapOf (res : List (ℤ × Coord)) (id : ℤ) : List Coord :=
  (res.filter fun row => row.1 == id).map Prod.snd

/-- `NavDB::getWayCoordsMap`; an id that is not found has no coordinates. -/
def getWayCoordsMap (d : Database) (ids : List ℤ) : ℤ → List Coord :=
  coordsMapOf (d.wayPoints ids)

/-- `NavDB::truncateForResume` of the phases `ways` and `relations`. -/
def truncateForResume (d : Database) (phase : Table) : Database :=
  let tables : List Table := if phase = .ways then [.ways, .areas] else [.relations, .roads]
  { rows := fun t => if tables.contains t then [] else d.rows t
    tags := fun t => if tables.contains t then [] else d.tags t }

end Database

/-! ### Transactions -/

/-- A transaction of a flush: `COPY` of a batch, a first attempt or one of
`tryCopyBatch`, and `COPY` of a tag buffer. -/
inductive Job where
  | copy (t : Table) (buf : List GeomRecord) (retry : Bool)
  | tags (t : Table) (buf : List TagRecord)

/-- The line of the first row `COPY` rejects: its id is in the table already, or
among the rows of the batch before it. -/
def firstRejected (taken : List ℤ) : List GeomRecord → Option ℕ
  | [] => none
  | r :: rs =>
      if taken.contains r.id then some 0
      else (firstRejected (r.id :: taken) rs).map (· + 1)

/-- One transaction: its effect on the tables, and what is left to be done for
the same batch.  A batch is committed whole or not at all; a failed first
attempt is repeated by `tryCopyBatch`, which takes the rejected line out and
tries again until the batch goes through or is empty. -/
def Database.exec (d : Database) : Job → Database × Option Job
  | .copy t buf retry =>
      match firstRejected ((d.rows t).map GeomRecord.id) buf with
      | none => ({ d with rows := Function.update d.rows t (d.rows t ++ buf) }, none)
      | some line =>
          let rest := if retry then buf.eraseIdx line else buf
          (d, if rest = [] then none else some (.copy t rest true))
  | .tags t buf => ({ d with tags := Function.update d.tags t (d.tags t ++ buf) }, none)

/-! ### Buffers -/

/-- The buffers of one connection and its staggered threshold. -/
structure NavDB where
  way_buffer_size : ℕ
  buf : Table → List GeomRecord
  tag_buf : Table → List TagRecord

namespace NavDB

/-- `WAY_BUFFER_SIZE`. -/
def WAY_BUFFER_SIZE : ℕ := 10000

/-- The connection of a thread: its threshold is staggered by the thread id. -/
def connect (thread_id : ℕ) : NavDB :=
  ⟨WAY_BUFFER_SIZE + thread_id * 137, fun _ => [], fun _ => []⟩

/-- `flushWays`, `flushAreas`, `flushRoads`, `flushRelations`: nothing for an
empty buffer, otherwise the rows and then the tag buffer of the table. -/
def flush (n : NavDB) (t : Table) : NavDB × List Job :=
  if n.buf t = [] then (n, [])
  else ({ n with buf := Function.update n.buf t [], tag_buf := Function.update n.tag_buf t [] },
    [.copy t (n.buf t) false, .tags t (n.tag_buf t)])

/-- Flushes of several tables in turn. -/
def flushAll (n : NavDB) : List Table → NavDB × List Job
  | [] => (n, [])
  | t :: ts =>
      let (n, jobs) := n.flush t
      let (n, jobs') := n.flushAll ts
      (n, jobs ++ jobs')

/-- A row and its tags are buffered; the table is flushed once `full` says so of
the number of rows buffered. -/
def insert (n : NavDB) (t : Table) (r : GeomRecord) (tags : List TagRecord)
    (full : ℕ → Bool) : NavDB × List Job :=
  let n := { n with
    buf := Function.update n.buf t (n.buf t ++ [r])
    tag_buf := Function.update n.tag_buf t (n.tag_buf t ++ tags) }
  if full (n.buf t).length then n.flush t else (n, [])

/-- `insertWay`. -/
def insertWay (n : NavDB) (id : ℤ) (name : Text) (tags : Tags) (geog : Geog) : NavDB × List Job :=
  if !hasSurvivingTag tags false then (n, [])
  else n.insert .ways ⟨id, name, some geog⟩ (keptTags id tags false) (n.way_buffer_size ≤ ·)

/-- `insertArea`. -/
def insertArea (n : NavDB) (id : ℤ) (name : Text) (tags : Tags) (geog : Geog) : NavDB × List Job :=
  if !hasSurvivingTag tags false then (n, [])
  else n.insert .areas ⟨id, name, some geog⟩ (keptTags id tags false) (n.way_buffer_size < ·)

/-- `insertRoad`. -/
def insertRoad (n : NavDB) (id : ℤ) (name : Text) (tags : Tags) (geog : Geog) : NavDB × List Job :=
  n.insert .roads ⟨id, name, some geog⟩ (keptTags id tags false) (n.way_buffer_size < ·)

/-- `insertRelation`. -/
def insertRelation (n : NavDB) (id : ℤ) (name : Text) (tags : Tags) (geog : Option Geog) :
    NavDB × List Job :=
  n.insert .relations ⟨id, name, geog⟩ (keptTags id tags false) (n.way_buffer_size < ·)

end NavDB

end Gpsxdb
