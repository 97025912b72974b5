import Mathlib.Tactic
import Gpsxdb.Delta.DeltaApplier

/-!
All the buffers of `NavDB`: five of rows and four of tags, one of which nodes and
relations share.

* `BulkNavDB`, `flush`, `insertNode` and the rest, `finalize_*`, `destroy`: the
  calls, each with the flushes it makes;
* `CopyEvent`, `Flush.copies`, `rowsCopied`, `tagsCopied`: a log of `COPY`s;
* `BulkEntry`, `BulkCall.entry`: what a call brings, a row and its tag rows;
* `Routing`: what is copied and what is buffered are the entries of the calls, in
  order; `routing_push`, `routing_flush`, `routing_call`: the calls keep that;
* `tags_routed`: **every tag row reaches the table of its kind** once, after its own
  row.

A `COPY` goes through here.  The mutex of `flushNodes` and the log lines are left
out.
-/

namespace Gpsxdb

/-! ### Buffers -/

/-- The buffers of tag rows. -/
inductive TagBuffer where
  | tag_buf
  | way_tag_buf
  | area_tag_buf
  | road_tag_buf
deriving DecidableEq

/-- The buffer `finalize_tags_locked` takes for the tag table of a table. -/
def finalizedBuffer : OsmTable → TagBuffer
  | .ways => .way_tag_buf
  | .areas => .area_tag_buf
  | .roads => .road_tag_buf
  | .relations => .tag_buf
  | .nodes => .tag_buf

/-- The buffers of a connection and its staggered threshold. -/
structure BulkNavDB where
  way_buffer_size : ℕ
  buf : OsmTable → List (Row Content)
  tag_buf : TagBuffer → List TagRecord

/-- A flush: the `COPY` of rows to a table, and then that of tag rows to its tag
table. -/
structure Flush where
  table : OsmTable
  rows : List (Row Content)
  tags : List TagRecord
deriving DecidableEq

namespace BulkNavDB

/-- `NODE_BUFFER_SIZE`. -/
def NODE_BUFFER_SIZE : ℕ := 20000

/-- The connection of a thread. -/
def connect (thread_id : ℕ) : BulkNavDB :=
  ⟨NavDB.WAY_BUFFER_SIZE + thread_id * 137, fun _ => [], fun _ => []⟩

/-- `flushNodes`, `flushWays`, `flushAreas`, `flushRoads`, `flushRelations`: nothing for
an empty buffer, whatever tags there are. -/
def flush (n : BulkNavDB) (t : OsmTable) : BulkNavDB × List Flush :=
  if n.buf t = [] then (n, [])
  else ({ n with
      buf := Function.update n.buf t []
      tag_buf := Function.update n.tag_buf (finalizedBuffer t) [] },
    [⟨t, n.buf t, n.tag_buf (finalizedBuffer t)⟩])

/-- Flushes of several tables in turn. -/
def flushAll (n : BulkNavDB) : List OsmTable → BulkNavDB × List Flush
  | [] => (n, [])
  | t :: ts =>
      let first := n.flush t
      let rest := first.1.flushAll ts
      (rest.1, first.2 ++ rest.2)

/-- A row and its tags are buffered. -/
def push (n : BulkNavDB) (t : OsmTable) (r : Row Content) (b : TagBuffer)
    (tags : List TagRecord) : BulkNavDB :=
  { n with
    buf := Function.update n.buf t (n.buf t ++ [r])
    tag_buf := Function.update n.tag_buf b (n.tag_buf b ++ tags) }

/-- The table is flushed once `full` says so of the number of rows buffered. -/
def flushIf (n : BulkNavDB) (t : OsmTable) (full : ℕ → Bool) : BulkNavDB × List Flush :=
  if full (n.buf t).length then n.flush t else (n, [])

/-! ### Calls -/

/-- `insertNode`. -/
def insertNode (n : BulkNavDB) (id : ℤ) (name : Text) (longitude_m latitude_m : Double)
    (tags : Tags) (geog : Text) : BulkNavDB × List Flush :=
  if !hasSurvivingTag tags true then (n, [])
  else (n.push .nodes ⟨id, .node name longitude_m latitude_m geog⟩ .tag_buf
    (keptTags id tags true)).flushIf .nodes (NODE_BUFFER_SIZE ≤ ·)

/-- `insertWay`. -/
def insertWay (n : BulkNavDB) (id : ℤ) (name : Text) (tags : Tags) (geog : Geog) :
    BulkNavDB × List Flush :=
  if !hasSurvivingTag tags false then (n, [])
  else (n.push .ways (geomRow id name (some geog)) .way_tag_buf
    (keptTags id tags false)).flushIf .ways (n.way_buffer_size ≤ ·)

/-- `insertArea`. -/
def insertArea (n : BulkNavDB) (id : ℤ) (name : Text) (tags : Tags) (geog : Geog) :
    BulkNavDB × List Flush :=
  if !hasSurvivingTag tags false then (n, [])
  else (n.push .areas (geomRow id name (some geog)) .area_tag_buf
    (keptTags id tags false)).flushIf .areas (n.way_buffer_size < ·)

/-- `insertRoad`. -/
def insertRoad (n : BulkNavDB) (id : ℤ) (name : Text) (tags : Tags) (geog : Geog) :
    BulkNavDB × List Flush :=
  (n.push .roads (geomRow id name (some geog)) .road_tag_buf
    (keptTags id tags false)).flushIf .roads (n.way_buffer_size < ·)

/-- `insertRelation`: the tags go where those of nodes do. -/
def insertRelation (n : BulkNavDB) (id : ℤ) (name : Text) (tags : Tags) (geog : Option Geog) :
    BulkNavDB × List Flush :=
  (n.push .relations (geomRow id name geog) .tag_buf
    (keptTags id tags false)).flushIf .relations (n.way_buffer_size < ·)

/-- The destructor. -/
def destroy (n : BulkNavDB) : BulkNavDB × List Flush :=
  n.flushAll [.nodes, .ways, .areas, .roads, .relations]

end BulkNavDB

/-- A call on a connection. -/
inductive BulkCall where
  | insertNode (id : ℤ) (name : Text) (longitude_m latitude_m : Double) (tags : Tags) (geog : Text)
  | insertWay (id : ℤ) (name : Text) (tags : Tags) (geog : Geog)
  | insertArea (id : ℤ) (name : Text) (tags : Tags) (geog : Geog)
  | insertRoad (id : ℤ) (name : Text) (tags : Tags) (geog : Geog)
  | insertRelation (id : ℤ) (name : Text) (tags : Tags) (geog : Option Geog)
  | finalize_nodes
  | finalize_ways
  | finalize_roads
  | finalize_relations

/-- The table a call inserts for. -/
def BulkCall.table : BulkCall → Option OsmTable
  | insertNode .. => some .nodes
  | insertWay .. => some .ways
  | insertArea .. => some .areas
  | insertRoad .. => some .roads
  | insertRelation .. => some .relations
  | _ => none

namespace BulkNavDB

/-- A call, with the flushes it makes. -/
def call (n : BulkNavDB) : BulkCall → BulkNavDB × List Flush
  | .insertNode id name longitude_m latitude_m tags geog =>
      n.insertNode id name longitude_m latitude_m tags geog
  | .insertWay id name tags geog => n.insertWay id name tags geog
  | .insertArea id name tags geog => n.insertArea id name tags geog
  | .insertRoad id name tags geog => n.insertRoad id name tags geog
  | .insertRelation id name tags geog => n.insertRelation id name tags geog
  | .finalize_nodes => n.flush .nodes
  | .finalize_ways => n.flushAll [.ways, .areas]
  | .finalize_roads => n.flush .roads
  | .finalize_relations => n.flush .relations

/-- Calls in turn. -/
def run (n : BulkNavDB) (calls : List BulkCall) : BulkNavDB × List Flush :=
  calls.foldl (fun s c => ((s.1.call c).1, s.2 ++ (s.1.call c).2)) (n, [])

/-- A connection from its start to its end. -/
def lifetime (thread_id : ℕ) (calls : List BulkCall) : BulkNavDB × List Flush :=
  let s := (connect thread_id).run calls
  (s.1.destroy.1, s.2 ++ s.1.destroy.2)

lemma run_concat (n : BulkNavDB) (calls : List BulkCall) (c : BulkCall) :
    n.run (calls ++ [c])
      = (((n.run calls).1.call c).1, (n.run calls).2 ++ ((n.run calls).1.call c).2) := by
  rw [run, List.foldl_append]
  rfl

end BulkNavDB

/-! ### The log -/

/-- A `COPY`, to a table or to its tag table. -/
inductive CopyEvent where
  | rows (t : OsmTable) (l : List (Row Content))
  | tags (t : OsmTable) (l : List TagRecord)
deriving DecidableEq

/-- The `COPY`s of a flush: `finalize_tags_locked` has none for an empty buffer. -/
def Flush.copies (f : Flush) : List CopyEvent :=
  .rows f.table f.rows :: if f.tags = [] then [] else [.tags f.table f.tags]

/-- The rows a `COPY` brings a table. -/
def CopyEvent.rowsTo (t : OsmTable) : CopyEvent → List (Row Content)
  | rows u l => if u = t then l else []
  | tags _ _ => []

/-- The tag rows it brings the tag table. -/
def CopyEvent.tagsTo (t : OsmTable) : CopyEvent → List TagRecord
  | rows _ _ => []
  | tags u l => if u = t then l else []

/-- The rows a table gets. -/
def rowsCopied (log : List CopyEvent) (t : OsmTable) : List (Row Content) :=
  log.flatMap (CopyEvent.rowsTo t)

/-- The tag rows its tag table gets. -/
def tagsCopied (log : List CopyEvent) (t : OsmTable) : List TagRecord :=
  log.flatMap (CopyEvent.tagsTo t)

@[simp] lemma rowsCopied_append (log log' : List CopyEvent) (t : OsmTable) :
    rowsCopied (log ++ log') t = rowsCopied log t ++ rowsCopied log' t := List.flatMap_append ..

@[simp] lemma tagsCopied_append (log log' : List CopyEvent) (t : OsmTable) :
    tagsCopied (log ++ log') t = tagsCopied log t ++ tagsCopied log' t := List.flatMap_append ..

lemma rowsCopied_copies (f : Flush) (t : OsmTable) :
    rowsCopied f.copies t = if f.table = t then f.rows else [] := by
  rw [Flush.copies]
  split <;> simp [rowsCopied, CopyEvent.rowsTo]

lemma tagsCopied_copies (f : Flush) (t : OsmTable) :
    tagsCopied f.copies t = if f.table = t then f.tags else [] := by
  rw [Flush.copies]
  split
  · rename_i h
    simp [tagsCopied, CopyEvent.tagsTo, h]
  · simp [tagsCopied, CopyEvent.tagsTo]

/-! ### What the calls bring -/

/-- A row with its tag rows. -/
structure BulkEntry where
  table : OsmTable
  row : Row Content
  tags : List TagRecord

/-- What a call brings: nothing where no tag survives, except for roads and
relations. -/
def BulkCall.entry : BulkCall → Option BulkEntry
  | insertNode id name longitude_m latitude_m tags geog =>
      if hasSurvivingTag tags true then
        some ⟨.nodes, ⟨id, .node name longitude_m latitude_m geog⟩, keptTags id tags true⟩
      else none
  | insertWay id name tags geog =>
      if hasSurvivingTag tags false then
        some ⟨.ways, geomRow id name (some geog), keptTags id tags false⟩
      else none
  | insertArea id name tags geog =>
      if hasSurvivingTag tags false then
        some ⟨.areas, geomRow id name (some geog), keptTags id tags false⟩
      else none
  | insertRoad id name tags geog =>
      some ⟨.roads, geomRow id name (some geog), keptTags id tags false⟩
  | insertRelation id name tags geog =>
      some ⟨.relations, geomRow id name geog, keptTags id tags false⟩
  | _ => none

/-- The entries of calls for a table, in order. -/
def entriesOf (calls : List BulkCall) (t : OsmTable) : List BulkEntry :=
  (calls.filterMap BulkCall.entry).filter fun e => e.table = t

/-- A call that inserts brings an entry for its table, if any. -/
lemma BulkCall.table_of_entry {c : BulkCall} {e : BulkEntry} (h : c.entry = some e) :
    c.table = some e.table := by
  cases c with
  | insertNode | insertWay | insertArea =>
      simp only [entry] at h
      split at h
      · rw [← Option.some.inj h]
        rfl
      · cases h
  | insertRoad | insertRelation =>
      rw [← Option.some.inj h]
      rfl
  | finalize_nodes | finalize_ways | finalize_roads | finalize_relations => cases h

lemma entriesOf_concat (calls : List BulkCall) (c : BulkCall) (t : OsmTable) :
    entriesOf (calls ++ [c]) t
      = entriesOf calls t ++ (c.entry.toList.filter fun e => e.table = t) := by
  rw [entriesOf, List.filterMap_append, List.filter_append, entriesOf]
  cases h : c.entry <;> simp [h]

/-- Tables whose tags never share a buffer. -/
structure Apart (served : OsmTable → Prop) : Prop where
  inj : ∀ t u, served t → served u → finalizedBuffer t = finalizedBuffer u → t = u

/-- Node threads use one table only. -/
lemma apart_nodes : Apart fun t => t = .nodes :=
  ⟨by rintro t u rfl rfl -; rfl⟩

/-- Way threads use the others. -/
lemma apart_ways : Apart fun t => t ≠ .nodes :=
  ⟨fun t u ht hu h => by cases t <;> cases u <;> simp_all [finalizedBuffer]⟩

/-! ### The invariant -/

/-- The `COPY`s so far have brought the rows and tags of the entries `done`, and those
of `pend` are buffered; at no time were the tags of an entry there before its
row. -/
structure Routing (served : OsmTable → Prop) (entries : OsmTable → List BulkEntry)
    (n : BulkNavDB) (log : List CopyEvent) (done pend : OsmTable → List BulkEntry) : Prop where
  split : ∀ t, entries t = done t ++ pend t
  only : ∀ t, ¬ served t → entries t = []
  rows : ∀ t, rowsCopied log t = (done t).map BulkEntry.row
  tags : ∀ t, tagsCopied log t = (done t).flatMap BulkEntry.tags
  buf : ∀ t, n.buf t = (pend t).map BulkEntry.row
  tag_buf : ∀ t, served t → n.tag_buf (finalizedBuffer t) = (pend t).flatMap BulkEntry.tags
  idle : ∀ b, (∀ t, served t → finalizedBuffer t ≠ b) → n.tag_buf b = []
  ordered : ∀ log', log' <+: log → ∀ t, ∃ m k, k ≤ m ∧ m ≤ (done t).length
    ∧ rowsCopied log' t = ((done t).take m).map BulkEntry.row
    ∧ tagsCopied log' t = ((done t).take k).flatMap BulkEntry.tags

section

variable {served : OsmTable → Prop} {entries : OsmTable → List BulkEntry} {n : BulkNavDB}
  {log : List CopyEvent} {done pend : OsmTable → List BulkEntry}

/-- A connection starts without entries. -/
lemma routing_connect (served : OsmTable → Prop) (thread_id : ℕ) :
    Routing served (fun _ => []) (.connect thread_id) [] (fun _ => []) (fun _ => []) := by
  refine ⟨fun _ => rfl, fun _ _ => rfl, fun _ => rfl, fun _ => rfl, fun _ => rfl, fun _ _ => rfl,
    fun _ _ => rfl, fun log' hlog t => ⟨0, 0, le_refl _, le_refl _, ?_, ?_⟩⟩
  · rw [List.prefix_nil.mp hlog]
    rfl
  · rw [List.prefix_nil.mp hlog]
    rfl

/-- A prefix of a log that a flush has made longer. -/
lemma prefix_append_copies {log' : List CopyEvent} {f : Flush} (h : log' <+: log ++ f.copies) :
    log' <+: log ∨ log' = log ++ [.rows f.table f.rows] ∨ log' = log ++ f.copies := by
  rw [Flush.copies] at h ⊢
  split at h
  · rcases List.prefix_concat_iff.mp h with rfl | h
    · exact .inr (.inl rfl)
    · exact .inl h
  · rw [← List.singleton_append, ← List.append_assoc] at h
    rcases List.prefix_concat_iff.mp h with rfl | h
    · exact .inr (.inr (by simp [‹f.tags ≠ []›]))
    · rcases List.prefix_concat_iff.mp h with rfl | h
      · exact .inr (.inl rfl)
      · exact .inl h

/-- **A row and its tags are buffered.** -/
lemma routing_push (hapart : Apart served) (h : Routing served entries n log done pend)
    (e : BulkEntry) (he : served e.table) :
    Routing served (fun t => entries t ++ if e.table = t then [e] else [])
      (n.push e.table e.row (finalizedBuffer e.table) e.tags) log done
      (fun t => pend t ++ if e.table = t then [e] else []) := by
  refine ⟨fun t => ?_, fun t ht => ?_, h.rows, h.tags, fun t => ?_, fun t ht => ?_,
    fun b hb => ?_, h.ordered⟩
  · rw [h.split t, List.append_assoc]
  · have hne : ¬ e.table = t := by
      rintro rfl
      exact ht he
    rw [h.only t ht, if_neg hne]
    rfl
  · rw [BulkNavDB.push]
    by_cases het : e.table = t
    · subst het
      simp [h.buf]
    · simp [Function.update_of_ne (Ne.symm het), h.buf, het]
  · rw [BulkNavDB.push]
    by_cases het : e.table = t
    · subst het
      simp [h.tag_buf _ he]
    · have hne : finalizedBuffer t ≠ finalizedBuffer e.table :=
        fun heq => het (hapart.inj e.table t he ht heq.symm)
      simp [Function.update_of_ne hne, h.tag_buf t ht, het]
  · rw [BulkNavDB.push]
    simp [Function.update_of_ne (Ne.symm (hb e.table he)), h.idle b hb]

/-- **A flush.** -/
lemma routing_flush (hapart : Apart served) (h : Routing served entries n log done pend)
    (t : OsmTable) :
    Routing served entries (n.flush t).1 (log ++ (n.flush t).2.flatMap Flush.copies)
      (Function.update done t (done t ++ pend t)) (Function.update pend t []) := by
  by_cases hnil : n.buf t = []
  · -- nothing is buffered for the table, so the tags there are belong to another one
    have hpend : pend t = [] := by
      rw [h.buf t] at hnil
      exact List.map_eq_nil_iff.mp hnil
    have hdone : Function.update done t (done t ++ pend t) = done := by
      rw [hpend, List.append_nil, Function.update_eq_self]
    have hsame : Function.update pend t [] = pend := by
      rw [← hpend, Function.update_eq_self]
    rw [BulkNavDB.flush, if_pos hnil, hdone, hsame]
    simpa using h
  · have hserved : served t := by
      by_contra hnot
      have hentries := h.split t
      rw [h.only t hnot, eq_comm, List.append_eq_nil_iff] at hentries
      exact hnil (by rw [h.buf t, hentries.2]; rfl)
    have hflush : n.flush t = ({ n with
          buf := Function.update n.buf t []
          tag_buf := Function.update n.tag_buf (finalizedBuffer t) [] },
        [⟨t, n.buf t, n.tag_buf (finalizedBuffer t)⟩]) := by
      rw [BulkNavDB.flush, if_neg hnil]
    have hdone : ∀ u, done u <+: Function.update done t (done t ++ pend t) u := by
      intro u
      by_cases hu : u = t
      · subst hu
        simp
      · simp [Function.update_of_ne hu]
    have hrows : ∀ u, rowsCopied (log ++ Flush.copies
        ⟨t, n.buf t, n.tag_buf (finalizedBuffer t)⟩) u
          = (Function.update done t (done t ++ pend t) u).map BulkEntry.row := by
      intro u
      rw [rowsCopied_append, rowsCopied_copies, h.rows]
      by_cases hu : u = t
      · subst hu
        simp [h.buf]
      · simp [Function.update_of_ne hu, Ne.symm hu]
    have htags : ∀ u, tagsCopied (log ++ Flush.copies
        ⟨t, n.buf t, n.tag_buf (finalizedBuffer t)⟩) u
          = (Function.update done t (done t ++ pend t) u).flatMap BulkEntry.tags := by
      intro u
      rw [tagsCopied_append, tagsCopied_copies, h.tags]
      by_cases hu : u = t
      · subst hu
        simp [h.tag_buf u hserved]
      · simp [Function.update_of_ne hu, Ne.symm hu]
    rw [hflush, List.flatMap_singleton]
    refine ⟨fun u => ?_, h.only, hrows, htags, fun u => ?_, fun u hu => ?_,
      fun b hb => ?_, fun log' hlog u => ?_⟩
    · by_cases hu : u = t
      · subst hu
        simp [h.split]
      · simp [Function.update_of_ne hu, h.split]
    · by_cases hu : u = t
      · subst hu
        simp
      · simp [Function.update_of_ne hu, h.buf]
    · by_cases hut : u = t
      · subst hut
        simp
      · have hne : finalizedBuffer u ≠ finalizedBuffer t :=
          fun heq => hut (hapart.inj u t hu hserved heq)
        simp [Function.update_of_ne hne, Function.update_of_ne hut, h.tag_buf u hu]
    · simp [Function.update_of_ne (Ne.symm (hb t hserved)), h.idle b hb]
    · obtain ⟨rest, hrest⟩ := hdone u
      rcases prefix_append_copies hlog with hlog | rfl | rfl
      · obtain ⟨m, k, hkm, hm, hr, hg⟩ := h.ordered log' hlog u
        rw [← hrest]
        refine ⟨m, k, hkm, by rw [List.length_append]; omega, ?_, ?_⟩
        · rw [List.take_append_of_le_length hm, hr]
        · rw [List.take_append_of_le_length (hkm.trans hm), hg]
      · -- between the two `COPY`s: the rows are there, the tags are not
        refine ⟨(Function.update done t (done t ++ pend t) u).length, (done u).length, ?_,
          le_refl _, ?_, ?_⟩
        · rw [← hrest, List.length_append]
          omega
        · rw [List.take_length, ← hrows u, rowsCopied_append, rowsCopied_append, rowsCopied_copies]
          simp [rowsCopied, CopyEvent.rowsTo]
        · rw [← hrest, List.take_left, ← h.tags u, tagsCopied_append]
          simp [tagsCopied, CopyEvent.tagsTo]
      · exact ⟨_, _, le_refl _, le_refl _, by rw [List.take_length, hrows u],
          by rw [List.take_length, htags u]⟩

/-- Flushes of several tables. -/
lemma routing_flushAll (hapart : Apart served) (h : Routing served entries n log done pend)
    (ts : List OsmTable) : ∃ done' pend', Routing served entries (n.flushAll ts).1
      (log ++ (n.flushAll ts).2.flatMap Flush.copies) done' pend'
      ∧ ∀ t, t ∈ ts ∨ pend t = [] → pend' t = [] := by
  induction ts generalizing n log done pend with
  | nil => exact ⟨done, pend, by simpa [BulkNavDB.flushAll] using h, by simp⟩
  | cons t ts ih =>
      obtain ⟨done', pend', h', hnil⟩ := ih (routing_flush hapart h t)
      rw [List.append_assoc, ← List.flatMap_append] at h'
      refine ⟨done', pend', h', fun u hu => hnil u ?_⟩
      by_cases hut : u = t
      · exact .inr (by rw [hut, Function.update_self])
      · rw [Function.update_of_ne hut]
        rcases hu with hu | hu
        · exact .inl ((List.mem_cons.mp hu).resolve_left hut)
        · exact .inr hu

/-- A flush that may be put off. -/
lemma routing_flushIf (hapart : Apart served) (h : Routing served entries n log done pend)
    (t : OsmTable) (full : ℕ → Bool) : ∃ done' pend', Routing served entries (n.flushIf t full).1
      (log ++ (n.flushIf t full).2.flatMap Flush.copies) done' pend' := by
  rw [BulkNavDB.flushIf]
  split
  · exact ⟨_, _, routing_flush hapart h t⟩
  · exact ⟨done, pend, by simpa using h⟩

/-! ### Calls -/

variable {calls : List BulkCall} {c : BulkCall}

lemma entriesOf_concat_none (hc : c.entry = none) :
    entriesOf (calls ++ [c]) = entriesOf calls := by
  funext t
  rw [entriesOf_concat, hc]
  exact List.append_nil _

lemma entriesOf_concat_some {e : BulkEntry} (hc : c.entry = some e) :
    entriesOf (calls ++ [c])
      = fun t => entriesOf calls t ++ if e.table = t then [e] else [] := by
  funext t
  rw [entriesOf_concat, hc]
  by_cases het : e.table = t <;> simp [het]

/-- An insert that brings an entry. -/
lemma routing_insert (hapart : Apart served)
    (h : Routing served (entriesOf calls) n log done pend) {e : BulkEntry}
    (hc : c.entry = some e) (he : served e.table) (full : ℕ → Bool) :
    ∃ done' pend', Routing served (entriesOf (calls ++ [c]))
      ((n.push e.table e.row (finalizedBuffer e.table) e.tags).flushIf e.table full).1
      (log ++ ((n.push e.table e.row (finalizedBuffer e.table) e.tags).flushIf e.table
        full).2.flatMap Flush.copies) done' pend' := by
  rw [entriesOf_concat_some hc]
  exact routing_flushIf hapart (routing_push hapart h e he) e.table full

/-- An insert behind a filter: it brings its entry, or nothing happens. -/
lemma routing_filtered (hapart : Apart served)
    (h : Routing served (entriesOf calls) n log done pend) {survives : Bool} {e : BulkEntry}
    (hc : c.entry = if survives then some e else none) (he : survives → served e.table)
    (full : ℕ → Bool) {s : BulkNavDB × List Flush}
    (hs : s = if !survives then (n, [])
      else (n.push e.table e.row (finalizedBuffer e.table) e.tags).flushIf e.table full) :
    ∃ done' pend', Routing served (entriesOf (calls ++ [c])) s.1
      (log ++ s.2.flatMap Flush.copies) done' pend' := by
  subst hs
  cases survives with
  | true => exact routing_insert hapart h hc (he rfl) full
  | false =>
      rw [entriesOf_concat_none hc]
      exact ⟨done, pend, by simpa using h⟩

/-- **Every call keeps the entries in their order**, whichever buffers it flushes. -/
lemma routing_call (hapart : Apart served) (h : Routing served (entriesOf calls) n log done pend)
    (hc : ∀ t, c.table = some t → served t) :
    ∃ done' pend', Routing served (entriesOf (calls ++ [c])) (n.call c).1
      (log ++ (n.call c).2.flatMap Flush.copies) done' pend' := by
  cases c with
  | insertNode id name longitude_m latitude_m tags geog =>
      exact routing_filtered hapart h rfl (fun _ => hc _ rfl) (BulkNavDB.NODE_BUFFER_SIZE ≤ ·) rfl
  | insertWay id name tags geog =>
      exact routing_filtered hapart h rfl (fun _ => hc _ rfl) (n.way_buffer_size ≤ ·) rfl
  | insertArea id name tags geog =>
      exact routing_filtered hapart h rfl (fun _ => hc _ rfl) (n.way_buffer_size < ·) rfl
  | insertRoad id name tags geog =>
      exact routing_insert hapart h rfl (hc _ (BulkCall.table_of_entry rfl)) _
  | insertRelation id name tags geog =>
      exact routing_insert hapart h rfl (hc _ (BulkCall.table_of_entry rfl)) _
  | finalize_nodes =>
      rw [entriesOf_concat_none rfl]
      exact ⟨_, _, routing_flush hapart h .nodes⟩
  | finalize_ways =>
      rw [entriesOf_concat_none rfl]
      obtain ⟨done', pend', h', -⟩ := routing_flushAll hapart h [.ways, .areas]
      exact ⟨done', pend', h'⟩
  | finalize_roads =>
      rw [entriesOf_concat_none rfl]
      exact ⟨_, _, routing_flush hapart h .roads⟩
  | finalize_relations =>
      rw [entriesOf_concat_none rfl]
      exact ⟨_, _, routing_flush hapart h .relations⟩

/-- A run of calls. -/
lemma routing_run (hapart : Apart served) (thread_id : ℕ)
    (hcalls : ∀ c ∈ calls, ∀ t, c.table = some t → served t) :
    ∃ done pend, Routing served (entriesOf calls) ((BulkNavDB.connect thread_id).run calls).1
      (((BulkNavDB.connect thread_id).run calls).2.flatMap Flush.copies) done pend := by
  induction calls using List.reverseRecOn with
  | nil => exact ⟨_, _, routing_connect served thread_id⟩
  | append_singleton calls c ih =>
      obtain ⟨done, pend, h⟩ := ih fun c' hc' => hcalls c' (List.mem_append_left _ hc')
      rw [BulkNavDB.run_concat, List.flatMap_append]
      exact routing_call hapart h (hcalls c (by simp))

/-- A connection from its start to its end: no entry is left. -/
lemma routing_lifetime (hapart : Apart served) (thread_id : ℕ)
    (hcalls : ∀ c ∈ calls, ∀ t, c.table = some t → served t) :
    ∃ done, Routing served (entriesOf calls) (BulkNavDB.lifetime thread_id calls).1
      ((BulkNavDB.lifetime thread_id calls).2.flatMap Flush.copies) done fun _ => [] := by
  obtain ⟨done, pend, h⟩ := routing_run hapart thread_id hcalls
  obtain ⟨done', pend', h', hnil⟩ :=
    routing_flushAll hapart h [.nodes, .ways, .areas, .roads, .relations]
  have hempty : pend' = fun _ => [] := funext fun t => hnil t (.inl (by cases t <;> simp))
  rw [BulkNavDB.lifetime, List.flatMap_append, ← hempty]
  exact ⟨done', h'⟩

end

/-- **The tags are routed**: on a connection of a node thread, or of a way thread, every
tag row is copied to the tag table of the kind it was inserted for, exactly once and
after the row it belongs to, and nothing is left in a buffer. -/
theorem tags_routed (thread_id : ℕ) (calls : List BulkCall)
    (h : (∀ c ∈ calls, ∀ t, c.table = some t → t = .nodes)
      ∨ ∀ c ∈ calls, ∀ t, c.table = some t → t ≠ .nodes) :
    let log := (BulkNavDB.lifetime thread_id calls).2.flatMap Flush.copies
    let n := (BulkNavDB.lifetime thread_id calls).1
    (∀ t, rowsCopied log t = (entriesOf calls t).map BulkEntry.row) ∧
      (∀ t, tagsCopied log t = (entriesOf calls t).flatMap BulkEntry.tags) ∧
      (∀ log', log' <+: log → ∀ t, ∃ m k, k ≤ m ∧ m ≤ (entriesOf calls t).length
        ∧ rowsCopied log' t = ((entriesOf calls t).take m).map BulkEntry.row
        ∧ tagsCopied log' t = ((entriesOf calls t).take k).flatMap BulkEntry.tags) ∧
      (∀ t, n.buf t = []) ∧ ∀ b, n.tag_buf b = [] := by
  obtain ⟨served, hapart, hcalls⟩ : ∃ served : OsmTable → Prop, Apart served
      ∧ ∀ c ∈ calls, ∀ t, c.table = some t → served t := by
    rcases h with h | h
    · exact ⟨_, apart_nodes, h⟩
    · exact ⟨_, apart_ways, h⟩
  obtain ⟨done, hroute⟩ := routing_lifetime hapart thread_id hcalls
  have hdone : entriesOf calls = done := funext fun t => by rw [hroute.split t, List.append_nil]
  rw [hdone]
  refine ⟨hroute.rows, hroute.tags, hroute.ordered, hroute.buf, fun b => ?_⟩
  by_cases hb : ∃ t, served t ∧ finalizedBuffer t = b
  · obtain ⟨t, ht, rfl⟩ := hb
    exact hroute.tag_buf t ht
  · exact hroute.idle b fun t ht heq => hb ⟨t, ht, heq⟩

/-- A relation that is a road as well, and a way. -/
def roadCalls : List BulkCall :=
  [.insertRelation 3 [] (.single (ascii "route") (ascii "road")) none,
    .insertRoad 3 [] (.single (ascii "ref") (ascii "7")) (.lineString []), .finalize_roads,
    .insertWay 5 [] (.single (ascii "highway") (ascii "track")) (.lineString []), .finalize_ways]

theorem tags_routed_road :
    tagsCopied ((BulkNavDB.lifetime 0 roadCalls).2.flatMap Flush.copies) .roads
        = [⟨3, ascii "ref", ascii "7"⟩] ∧
      tagsCopied ((BulkNavDB.lifetime 0 roadCalls).2.flatMap Flush.copies) .relations
        = [⟨3, ascii "route", ascii "road"⟩] := by
  have h := (tags_routed 0 roadCalls (.inr (by
    simp [roadCalls, BulkCall.table]))).2.1
  exact ⟨(h .roads).trans (by decide), (h .relations).trans (by decide)⟩

end Gpsxdb
