import Mathlib.Tactic
import Gpsxdb.Import.PrimitiveBlock
import Gpsxdb.Import.WayQueue
import Gpsxdb.Library.Chunks

/-!
The offsets of an import, and the imports that begin there (the producer of `main`).

* `Blob`, `OSMReader.next`: a PBF file, and its blocks one after the other;
* `OffsetFiles`, `Producer`, `producerEntry`, `producerLoop`, `producer`: the loop of the
  producer, from where the resumed phase and the two offset files let it begin;
* `producerLoop_eq`: the loop is one fold over the entries, each with its `blob_start`;
* `handed_foldl`, `offset_foldl`, `relations_offset_foldl`: what it hands to the way
  threads, and the offsets it records;
* `recorded`, `seek_recorded`: the offsets of a full import, and what a seek leaves out;
* `resume_same_entries`: **a resumed import hands over the same entries** as one that
  reads the whole file, and records the same offsets.

Waiting, for the merge or at a full queue, is left out.  An offset file that cannot be
written stays missing.
-/

namespace Gpsxdb

/-! ### The reader -/

/-- A blob of the file: its bytes, and the entries of its block.  A header, or a blob
without data, has no block. -/
structure Blob where
  size : ℕ
  size_pos : 0 < size
  entries : Option (List BlockEntry)

/-- `OSMReader`: the blobs that are left, and `getPosition`. -/
structure OSMReader where
  blobs : List Blob
  position : ℕ

namespace OSMReader

/-- `next`, from a position. -/
def nextFrom : List Blob → ℕ → Option (List BlockEntry × OSMReader)
  | [], _ => none
  | b :: blobs, position =>
      match b.entries with
      | none => nextFrom blobs (position + b.size)
      | some out => some (out, ⟨blobs, position + b.size⟩)

/-- `next`: the entries of the next block, headers passed over. -/
def next (r : OSMReader) : Option (List BlockEntry × OSMReader) := nextFrom r.blobs r.position

/-- `seekTo`, to the start of a blob. -/
def seekTo (blobs : List Blob) (offset : ℕ) : Option OSMReader :=
  (Chunks.seek Blob.size blobs offset).map fun rest => ⟨rest, offset⟩

lemma length_nextFrom {blobs : List Blob} {position : ℕ} {out : List BlockEntry} {r : OSMReader}
    (h : nextFrom blobs position = some (out, r)) : r.blobs.length < blobs.length := by
  induction blobs generalizing position with
  | nil => exact absurd h.symm (Option.some_ne_none _)
  | cons b blobs ih =>
      rw [nextFrom] at h
      split at h
      · exact (ih h).trans (Nat.lt_succ_self _)
      · obtain ⟨-, rfl⟩ := Prod.mk.inj (Option.some.inj h)
        exact Nat.lt_succ_self _

end OSMReader

/-! ### The producer -/

namespace BlockEntry

def isNode : BlockEntry → Bool
  | node _ => true
  | _ => false

def isWay : BlockEntry → Bool
  | way _ => true
  | _ => false

def isRelation : BlockEntry → Bool
  | relation _ => true
  | _ => false

/-- The entry in `way_q`. -/
def toQueueEntry : BlockEntry → QueueEntry
  | node _ => .node
  | way item => .entry (.way item)
  | relation item => .entry (.relation item)

end BlockEntry

/-- `resume_phase`, as far as the producer tells its values apart. -/
inductive ImportPhase where
  | nodes
  | merging
  | ways
  | relations
deriving DecidableEq

/-- The two offset files. -/
@[ext]
structure OffsetFiles where
  offset : Option ℕ
  relations_offset : Option ℕ
deriving DecidableEq

/-- Each file is missing, or as recorded. -/
structure OffsetFiles.Of (files recorded : OffsetFiles) : Prop where
  offset : files.offset = none ∨ files.offset = recorded.offset
  relations_offset : files.relations_offset = none
    ∨ files.relations_offset = recorded.relations_offset

lemma OffsetFiles.Of.offset_eq {files recorded : OffsetFiles} {offset : ℕ}
    (h : files.Of recorded) (hoffset : files.offset = some offset) :
    recorded.offset = some offset := by
  obtain hnone | hsame := h.offset
  · exact absurd (hnone.symm.trans hoffset) (Option.some_ne_none _).symm
  · exact hsame.symm.trans hoffset

lemma OffsetFiles.Of.relations_offset_eq {files recorded : OffsetFiles} {offset : ℕ}
    (h : files.Of recorded) (hoffset : files.relations_offset = some offset) :
    recorded.relations_offset = some offset := by
  obtain hnone | hsame := h.relations_offset
  · exact absurd (hnone.symm.trans hoffset) (Option.some_ne_none _).symm
  · exact hsame.symm.trans hoffset

/-- No file. -/
def OffsetFiles.absent : OffsetFiles := ⟨none, none⟩

/-- The producer: its flags, the offsets it has recorded, and what it has pushed. -/
structure Producer where
  node_phase : Bool
  relations_offset_written : Bool
  written : OffsetFiles
  rr : ℕ
  node_queues : List (ℕ × BlockEntry)
  way_q : List QueueEntry

namespace ImportPhase

/-- `skip_nodes`. -/
def skip_nodes (resume_phase : ImportPhase) : Bool :=
  resume_phase = .ways || resume_phase = .relations

/-- `resume_skip_node_emit`. -/
def resume_skip_node_emit (resume_phase : ImportPhase) : Bool := resume_phase = .merging

/-- The offset the reader is set to, none for the start of the file. -/
def seekOffset (resume_phase : ImportPhase) (files : OffsetFiles) : Option ℕ :=
  if resume_phase = .relations then
    match files.relations_offset with
    | some roff => some roff
    | none => files.offset
  else if resume_phase.skip_nodes || resume_phase.resume_skip_node_emit then files.offset
  else none

end ImportPhase

namespace Producer

/-- The flags before the loop. -/
def start (resume_phase : ImportPhase) : Producer where
  node_phase := !resume_phase.skip_nodes
  relations_offset_written := false
  written := .absent
  rr := 0
  node_queues := []
  way_q := []

variable (resume_phase : ImportPhase) (node_threads : ℕ)

/-- The body of the loop over a batch. -/
def producerEntry (blob_start : ℕ) (σ : Producer) (entry : BlockEntry) : Producer :=
  if σ.node_phase && entry.isNode then
    if resume_phase.resume_skip_node_emit then σ
    else { σ with node_queues := σ.node_queues ++ [(σ.rr % node_threads, entry)], rr := σ.rr + 1 }
  else
    let σ :=
      if σ.node_phase then
        -- the first entry that is no node
        { σ with node_phase := false, written := { σ.written with offset := some blob_start } }
      else σ
    if resume_phase = .relations && entry.isWay then σ
    else
      let σ :=
        if entry.isRelation && !σ.relations_offset_written then
          { σ with relations_offset_written := true,
                   written := { σ.written with relations_offset := some blob_start } }
        else σ
      { σ with way_q := σ.way_q ++ [entry.toQueueEntry] }

/-- The loop over the batches: `blob_start` is the position before `next`. -/
def producerLoop (reader : OSMReader) (blob_start : ℕ) (σ : Producer) : Producer :=
  match _h : reader.next with
  | none => σ
  | some (batch, reader') =>
      producerLoop reader' reader'.position
        (batch.foldl (producerEntry resume_phase node_threads blob_start) σ)
termination_by reader.blobs.length
decreasing_by exact OSMReader.length_nextFrom ‹_›

/-- The producer of an import, none where an offset is not the start of a blob. -/
def producer (blobs : List Blob) (files : OffsetFiles) : Option Producer :=
  let reader := match resume_phase.seekOffset files with
    | some offset => OSMReader.seekTo blobs offset
    | none => some ⟨blobs, 0⟩
  reader.map fun reader =>
    producerLoop resume_phase node_threads reader reader.position (start resume_phase)

/-- What the way threads are handed, the nodes that they ignore aside. -/
def handed (σ : Producer) : List OSMEntry := σ.way_q.filterMap QueueEntry.toEntry

/-! ### The loop as a fold -/

/-- The entries of some blobs, each with its `blob_start`. -/
def located (blobs : List Blob) : ℕ → ℕ → List (ℕ × BlockEntry) :=
  Chunks.located Blob.size Blob.entries blobs

/-- The body of the loop, for an entry with its `blob_start`. -/
def step (σ : Producer) (x : ℕ × BlockEntry) : Producer :=
  producerEntry resume_phase node_threads x.1 σ x.2

/-- **The loop is one fold.** -/
lemma producerLoop_eq (blobs : List Blob) (position blob_start : ℕ) (σ : Producer) :
    producerLoop resume_phase node_threads ⟨blobs, position⟩ blob_start σ
      = (located blobs blob_start position).foldl (step resume_phase node_threads) σ := by
  induction blobs generalizing position blob_start σ with
  | nil =>
      rw [producerLoop]
      rfl
  | cons b blobs ih =>
      cases hentries : b.entries with
      | none =>
          have hnext : OSMReader.next ⟨b :: blobs, position⟩
              = OSMReader.next ⟨blobs, position + b.size⟩ := by
            simp only [OSMReader.next, OSMReader.nextFrom, hentries]
          have hloop : producerLoop resume_phase node_threads ⟨b :: blobs, position⟩ blob_start σ
              = producerLoop resume_phase node_threads ⟨blobs, position + b.size⟩ blob_start σ := by
            rw [producerLoop, producerLoop, hnext]
          have hlocated : located (b :: blobs) blob_start position
              = located blobs blob_start (position + b.size) := by
            simp only [located, Chunks.located, hentries]
          rw [hloop, hlocated, ih]
      | some batch =>
          have hnext : OSMReader.next ⟨b :: blobs, position⟩
              = some (batch, ⟨blobs, position + b.size⟩) := by
            simp only [OSMReader.next, OSMReader.nextFrom, hentries]
          have hlocated : located (b :: blobs) blob_start position
              = batch.map (blob_start, ·)
                ++ located blobs (position + b.size) (position + b.size) := by
            simp only [located, Chunks.located, hentries]
          rw [producerLoop]
          split
          · rename_i h
            rw [hnext] at h
            exact absurd h (Option.some_ne_none _)
          · rename_i batch' reader' h
            rw [hnext] at h
            obtain ⟨rfl, rfl⟩ := Prod.mk.inj (Option.some.inj h)
            rw [ih, hlocated, List.foldl_append, List.foldl_map]
            rfl

/-! ### What one entry does -/

section Entry

variable {resume_phase : ImportPhase} {node_threads : ℕ} {σ : Producer} {x : ℕ × BlockEntry}

/-- What the way threads are handed for an entry. -/
def wanted (resume_phase : ImportPhase) (entry : BlockEntry) : Option OSMEntry :=
  if resume_phase = .relations && entry.isWay then none else entry.toQueueEntry.toEntry

/-- What an entry changes: the flags, the offsets, and what is handed over. -/
structure Effect (resume_phase : ImportPhase) (σ σ' : Producer) (x : ℕ × BlockEntry) : Prop where
  node_phase : σ'.node_phase = (σ.node_phase && x.2.isNode)
  offset : σ'.written.offset = if σ.node_phase && !x.2.isNode then some x.1 else σ.written.offset
  relations_offset_written :
    σ'.relations_offset_written = (σ.relations_offset_written || x.2.isRelation)
  relations_offset : σ'.written.relations_offset
    = if x.2.isRelation && !σ.relations_offset_written then some x.1
      else σ.written.relations_offset
  handed : σ'.handed = σ.handed ++ (wanted resume_phase x.2).toList

/-- **One entry.** -/
lemma effect_step : Effect resume_phase σ (step resume_phase node_threads σ x) x := by
  obtain ⟨node_phase, relations_offset_written, written, rr, node_queues, way_q⟩ := σ
  obtain ⟨blob_start, entry⟩ := x
  have hpush : ∀ item : OSMEntry, (way_q ++ [QueueEntry.entry item]).filterMap QueueEntry.toEntry
      = way_q.filterMap QueueEntry.toEntry ++ [item] := fun item => by
    rw [List.filterMap_append]
    rfl
  have hnode : (way_q ++ [QueueEntry.node]).filterMap QueueEntry.toEntry
      = way_q.filterMap QueueEntry.toEntry ++ [] := by
    rw [List.filterMap_append]
    rfl
  cases entry with
  | node item =>
      have hflag := (Bool.or_false relations_offset_written).symm
      cases node_phase with
      | true => cases resume_phase <;> exact ⟨rfl, rfl, hflag, rfl, (List.append_nil _).symm⟩
      | false => cases resume_phase <;> exact ⟨rfl, rfl, hflag, rfl, hnode⟩
  | way item =>
      have hflag := (Bool.or_false relations_offset_written).symm
      cases resume_phase with
      | relations => cases node_phase <;> exact ⟨rfl, rfl, hflag, rfl, (List.append_nil _).symm⟩
      | _ => cases node_phase <;> exact ⟨rfl, rfl, hflag, rfl, hpush _⟩
  | relation item =>
      cases resume_phase <;> cases node_phase <;> cases relations_offset_written <;>
        exact ⟨rfl, rfl, rfl, rfl, hpush _⟩

end Entry

/-! ### What the loop does -/

section Loop

variable {resume_phase : ImportPhase} {node_threads : ℕ} {σ : Producer} {l : List (ℕ × BlockEntry)}

/-- **What is handed over** is what each entry gives rise to, whatever the flags. -/
lemma handed_foldl : (l.foldl (step resume_phase node_threads) σ).handed
    = σ.handed ++ l.filterMap fun x => wanted resume_phase x.2 := by
  induction l generalizing σ with
  | nil => exact (List.append_nil _).symm
  | cons x l ih =>
      rw [List.foldl_cons, ih, effect_step.handed, List.append_assoc]
      congr 1
      cases hwanted : wanted resume_phase x.2 <;> simp [hwanted]

/-- **The offset** is that of the first entry that is no node. -/
lemma offset_foldl : (l.foldl (step resume_phase node_threads) σ).written.offset
    = if σ.node_phase then ((l.find? fun x => !x.2.isNode).map Prod.fst).or σ.written.offset
      else σ.written.offset := by
  induction l generalizing σ with
  | nil => simp
  | cons x l ih =>
      rw [List.foldl_cons, ih, effect_step.node_phase, effect_step.offset, List.find?_cons]
      cases σ.node_phase <;> cases x.2.isNode <;> simp

/-- **The relations offset** is that of the first relation. -/
lemma relations_offset_foldl :
    (l.foldl (step resume_phase node_threads) σ).written.relations_offset
      = if σ.relations_offset_written then σ.written.relations_offset
        else ((l.find? fun x => x.2.isRelation).map Prod.fst).or σ.written.relations_offset := by
  induction l generalizing σ with
  | nil => simp
  | cons x l ih =>
      rw [List.foldl_cons, ih, effect_step.relations_offset_written, effect_step.relations_offset,
        List.find?_cons]
      cases σ.relations_offset_written <;> cases x.2.isRelation <;> simp

end Loop

/-! ### The resumed import -/

section Resume

variable (blobs : List Blob)

/-- The entries of a file. -/
def entriesOf (blobs : List Blob) : List BlockEntry := blobs.flatMap fun b => b.entries.getD []

/-- Without offset files the whole file is read. -/
lemma producer_absent (resume_phase : ImportPhase) :
    producer resume_phase node_threads blobs .absent
      = some ((located blobs 0 0).foldl (step resume_phase node_threads) (start resume_phase)) := by
  have hseek : resume_phase.seekOffset .absent = none := by cases resume_phase <;> rfl
  simp only [producer, hseek, Option.map_some, producerLoop_eq]

lemma producer_seek {resume_phase : ImportPhase} {files : OffsetFiles} {offset : ℕ}
    {after : List Blob} (hoffset : resume_phase.seekOffset files = some offset)
    (hseek : OSMReader.seekTo blobs offset = some ⟨after, offset⟩) :
    producer resume_phase node_threads blobs files
      = some ((located after offset offset).foldl (step resume_phase node_threads)
        (start resume_phase)) := by
  simp only [producer, hoffset, hseek, Option.map_some, producerLoop_eq]

/-- What a full import records. -/
def recorded (blobs : List Blob) : OffsetFiles where
  offset := ((located blobs 0 0).find? fun x => !x.2.isNode).map Prod.fst
  relations_offset := ((located blobs 0 0).find? fun x => x.2.isRelation).map Prod.fst

/-- An entry that a resumed import may leave out: it is not handed over, and no offset is
recorded for it. -/
structure Idle (resume_phase : ImportPhase) (entry : BlockEntry) : Prop where
  wanted : wanted resume_phase entry = none
  isRelation : entry.isRelation = false
  isNode : (start resume_phase).node_phase = true → entry.isNode = true

lemma idle_of_isNode (resume_phase : ImportPhase) {entry : BlockEntry} (h : entry.isNode = true) :
    Idle resume_phase entry := by
  cases entry with
  | node item => exact ⟨by cases resume_phase <;> rfl, rfl, fun _ => h⟩
  | _ => exact absurd h Bool.false_ne_true

lemma idle_of_not_isRelation {entry : BlockEntry} (h : entry.isRelation = false) :
    Idle .relations entry := by
  cases entry with
  | node item => exact idle_of_isNode _ rfl
  | way item => exact ⟨rfl, h, fun hphase => absurd hphase Bool.false_ne_true⟩
  | relation item => exact absurd h.symm Bool.false_ne_true

/-- **A recorded offset** is the start of a blob, and the entries before it are idle. -/
lemma seek_recorded {blobs : List Blob} {resume_phase : ImportPhase} {files : OffsetFiles}
    {offset : ℕ} (hfiles : files.Of (recorded blobs))
    (hoffset : resume_phase.seekOffset files = some offset) :
    ∃ after l, OSMReader.seekTo blobs offset = some ⟨after, offset⟩
      ∧ located blobs 0 0 = l ++ located after offset offset
      ∧ ∀ x ∈ l, Idle resume_phase x.2 := by
  have hpos : ∀ b ∈ blobs, 0 < b.size := fun b _ => b.size_pos
  -- the offset of the nodes: what it leaves out are nodes
  have hnode : files.offset = some offset → ∃ after l,
      OSMReader.seekTo blobs offset = some ⟨after, offset⟩
        ∧ located blobs 0 0 = l ++ located after offset offset
        ∧ ∀ x ∈ l, Idle resume_phase x.2 := by
    intro hfile
    obtain ⟨x, hfind, rfl⟩ := Option.map_eq_some_iff.mp (hfiles.offset_eq hfile)
    obtain ⟨after, l, hseek, hl, hidle⟩ := Chunks.seek_find? hpos hfind
    refine ⟨after, l, by rw [OSMReader.seekTo, hseek]; rfl, hl, fun y hy => ?_⟩
    exact idle_of_isNode _ (by simpa using hidle y hy)
  cases resume_phase with
  | nodes => exact absurd hoffset (Option.some_ne_none _).symm
  | merging => exact hnode hoffset
  | ways => exact hnode hoffset
  | relations =>
      cases hrelations : files.relations_offset with
      | none =>
          refine hnode ?_
          simpa [ImportPhase.seekOffset, hrelations] using hoffset
      | some roff =>
          obtain rfl : roff = offset := by
            simpa [ImportPhase.seekOffset, hrelations] using hoffset
          obtain ⟨x, hfind, rfl⟩ :=
            Option.map_eq_some_iff.mp (hfiles.relations_offset_eq hrelations)
          obtain ⟨after, l, hseek, hl, hidle⟩ := Chunks.seek_find? hpos hfind
          refine ⟨after, l, by rw [OSMReader.seekTo, hseek]; rfl, hl, fun y hy => ?_⟩
          exact idle_of_not_isRelation (hidle y hy)

/-- **Idle entries make no difference** to what is handed over and recorded. -/
lemma foldl_idle {resume_phase : ImportPhase} {l : List (ℕ × BlockEntry)}
    (rest : List (ℕ × BlockEntry)) (h : ∀ x ∈ l, Idle resume_phase x.2) :
    ((l ++ rest).foldl (step resume_phase node_threads) (start resume_phase)).handed
        = (rest.foldl (step resume_phase node_threads) (start resume_phase)).handed
      ∧ ((l ++ rest).foldl (step resume_phase node_threads) (start resume_phase)).written
        = (rest.foldl (step resume_phase node_threads) (start resume_phase)).written := by
  constructor
  · have hnil : (l.filterMap fun x => wanted resume_phase x.2) = [] :=
      List.filterMap_eq_nil_iff.mpr fun x hx => (h x hx).wanted
    rw [handed_foldl, handed_foldl, List.filterMap_append, hnil, List.nil_append]
  · refine OffsetFiles.ext ?_ ?_
    · rw [offset_foldl, offset_foldl]
      by_cases hphase : (start resume_phase).node_phase = true
      · have hnone : (l.find? fun x => !x.2.isNode) = none :=
          List.find?_eq_none.mpr fun x hx => by simp [(h x hx).isNode hphase]
        rw [List.find?_append, hnone, Option.none_or]
      · rw [if_neg hphase, if_neg hphase]
    · have hnone : (l.find? fun x => x.2.isRelation) = none :=
        List.find?_eq_none.mpr fun x hx => by simp [(h x hx).isRelation]
      rw [relations_offset_foldl, relations_offset_foldl, List.find?_append, hnone, Option.none_or]

/-- An import that reads the whole file records nothing else than a full one. -/
lemma of_recorded (resume_phase : ImportPhase) :
    ((located blobs 0 0).foldl (step resume_phase node_threads) (start resume_phase)).written.Of
      (recorded blobs) := by
  constructor
  · rw [offset_foldl]
    split
    · exact Or.inr (Option.or_none ..)
    · exact Or.inl rfl
  · rw [relations_offset_foldl]
    exact Or.inr (Option.or_none ..)

/-- **Resuming by offset is skipping.**  A full import ends, and let the offset files be
missing or hold what it recorded.  Then an import that is resumed at the merge, the ways
or the relations, and sets the reader to the offset it finds, hands over the same entries
as one that reads the whole file: all ways and relations of the file in order, or only the
relations.  Each offset that it records is the recorded one. -/
theorem resume_same_entries : ∃ full, producer .nodes node_threads blobs .absent = some full
    ∧ ∀ (resume_phase : ImportPhase) (files : OffsetFiles), files.Of full.written →
      ∃ resumed reread, producer resume_phase node_threads blobs files = some resumed
        ∧ producer resume_phase node_threads blobs .absent = some reread
        ∧ resumed.handed = reread.handed
        ∧ resumed.handed = (entriesOf blobs).filterMap (wanted resume_phase)
        ∧ resumed.written.Of full.written := by
  refine ⟨_, producer_absent node_threads blobs .nodes, fun resume_phase files hfiles => ?_⟩
  have hrecorded : ((located blobs 0 0).foldl (step .nodes node_threads) (start .nodes)).written
      = recorded blobs := by
    refine OffsetFiles.ext ?_ ?_
    · rw [offset_foldl]
      exact Option.or_none ..
    · rw [relations_offset_foldl]
      exact Option.or_none ..
  rw [hrecorded] at hfiles ⊢
  have hreread := producer_absent node_threads blobs resume_phase
  have hentries : ((located blobs 0 0).foldl (step resume_phase node_threads)
      (start resume_phase)).handed = (entriesOf blobs).filterMap (wanted resume_phase) := by
    rw [handed_foldl, entriesOf, ← Chunks.map_snd_located Blob.size Blob.entries blobs 0 0,
      List.filterMap_map]
    rfl
  cases hoffset : resume_phase.seekOffset files with
  | none =>
      refine ⟨_, _, ?_, hreread, rfl, hentries, of_recorded node_threads blobs resume_phase⟩
      simp only [producer, hoffset, Option.map_some, producerLoop_eq]
  | some offset =>
      obtain ⟨after, l, hseek, hl, hidle⟩ := seek_recorded hfiles hoffset
      obtain ⟨hhanded, hwritten⟩ := foldl_idle node_threads (located after offset offset) hidle
      have hof := of_recorded node_threads blobs resume_phase
      rw [hl] at hreread hentries hof
      rw [hwritten] at hof
      exact ⟨_, _, producer_seek node_threads blobs hoffset hseek, hreread, hhanded.symm,
        hhanded.symm.trans hentries, hof⟩

end Resume

/-- A node, a way and a relation. -/
def someNode : BlockEntry := .node ⟨1, [], .empty, 0, 0⟩

def someWay : WayEntry := ⟨2, [], .empty, [1]⟩

def someRelation : RelationEntry := ⟨3, [], .empty, [⟨2, []⟩]⟩

/-- A header, nodes, another header, a blob that the nodes end in, and one that the ways
end in. -/
def someBlobs : List Blob :=
  [⟨20, by decide, none⟩, ⟨100, by decide, some [someNode, someNode]⟩, ⟨5, by decide, none⟩,
    ⟨50, by decide, some [someNode, .way someWay]⟩,
    ⟨60, by decide, some [.way someWay, .relation someRelation]⟩]

/-- The relations are resumed in the last blob, the ways at the second header. -/
theorem resume_same_entries_some :
    ∃ relations ways, producer .relations 4 someBlobs ⟨some 120, some 175⟩ = some relations
      ∧ relations.handed = [.relation someRelation]
      ∧ relations.written.Of ⟨some 120, some 175⟩
      ∧ producer .ways 4 someBlobs ⟨some 120, none⟩ = some ways
      ∧ ways.handed = [.way someWay, .way someWay, .relation someRelation] := by
  obtain ⟨full, hfull, h⟩ := resume_same_entries 4 someBlobs
  have hwritten : full.written = ⟨some 120, some 175⟩ := by
    rw [producer_absent] at hfull
    rw [← Option.some.inj hfull]
    rfl
  rw [hwritten] at h
  obtain ⟨relations, -, hrelations, -, -, hhanded, hof⟩ :=
    h .relations ⟨some 120, some 175⟩ ⟨.inr rfl, .inr rfl⟩
  obtain ⟨ways, -, hways, -, -, hhanded', -⟩ := h .ways ⟨some 120, none⟩ ⟨.inr rfl, .inl rfl⟩
  exact ⟨relations, ways, hrelations, hhanded, hof, hways, hhanded'⟩

end Producer

end Gpsxdb
