import Mathlib.Tactic
import Gpsxdb.Import.CopyBatch
import Gpsxdb.Import.TagBuffers

/-!
The tag rows a flush commits when the server does not take every row.

* `CopyPattern`: the rows the server rejects are skipped, or the batch is abandoned;
  `committed`, `lost`;
* `exists_pattern`: whatever a server replies, a flush has followed such a pattern;
* `execFlush`, `execFlushes`: flushes on the tables, the tags whatever became of the
  rows;
* `Attached`: tags are buffered together with their row; `attached_lifetime`;
* `NoOrphans`, `Covered`: every tag row has its row, and every row that is lost is
  replaced or has no tags;
* `noOrphans_iff`: **no flush leaves an orphan** exactly if every flush is covered.

A `COPY` of tag rows goes through.
-/

namespace Gpsxdb

/-! ### Patterns of failures -/

/-- What becomes of the rows of a flush: those the server rejects are skipped, or all
are given up. -/
inductive CopyPattern where
  | skips (accept : List (Row Content) → Row Content → Bool)
  | abandons

namespace CopyPattern

/-- The rows committed. -/
def committed : CopyPattern → List (Row Content) → List (Row Content)
  | skips accept, rows => admitted accept [] rows
  | abandons, _ => []

/-- The rows lost. -/
def lost : CopyPattern → List (Row Content) → List (Row Content)
  | skips accept, rows => refused accept [] rows
  | abandons, rows => rows

/-- A row is committed or lost. -/
lemma mem_committed_or_lost (p : CopyPattern) {rows : List (Row Content)} {r : Row Content}
    (h : r ∈ rows) : r ∈ p.committed rows ∨ r ∈ p.lost rows := by
  cases p with
  | skips accept => exact mem_admitted_or_refused (.inr h)
  | abandons => exact .inr h

end CopyPattern

/-- `tryCopyBatch` commits rows of its buffer in their order, whatever the server
says. -/
lemma tryCopyBatch_sublist {R : Type*} (copy : List R → Option Text) (buf : List R) :
    (tryCopyBatch copy buf).committed.Sublist buf := by
  induction hlen : buf.length using Nat.strong_induction_on generalizing buf with
  | _ len ih =>
      rw [tryCopyBatch]
      by_cases hnil : buf = []
      · simp [hnil]
      · rw [if_neg hnil]
        cases hcopy : copy buf with
        | none => exact .refl _
        | some msg =>
            dsimp only
            cases lineOf msg with
            | missing => exact List.nil_sublist _
            | unreadable => exact List.nil_sublist _
            | line line =>
                dsimp only
                split
                · exact List.nil_sublist _
                · have hlt : (line - 1).toNat < buf.length := by omega
                  refine (ih _ ?_ _ rfl).trans (List.eraseIdx_sublist ..)
                  rw [List.length_eraseIdx_of_lt hlt, ← hlen]
                  omega

/-- **Every flush follows a pattern**, whatever its server replies; that of a server
which names the rows it rejects skips just those. -/
theorem exists_pattern (copy : List (Row Content) → Option Text) (buf : List (Row Content)) :
    (∃ p : CopyPattern, (copyBatch copy buf).committed = p.committed buf) ∧
      ∀ accept, NamesFirstRejected accept copy buf →
        (copyBatch copy buf).committed = (CopyPattern.skips accept).committed buf := by
  have hsub : (copyBatch copy buf).committed.Sublist buf := by
    rw [copyBatch]
    split
    · exact .refl _
    · exact tryCopyBatch_sublist copy buf
  exact ⟨⟨.skips _, (admitted_of_sublist hsub).symm⟩, fun _ h => copyBatch_admits h⟩

/-! ### Flushes on the tables -/

/-- The rows of a flush that are committed, and all of its tag rows. -/
def execFlush (d : TargetTables Content) (p : CopyPattern) (f : Flush) : TargetTables Content where
  rows := Function.update d.rows f.table (d.rows f.table ++ p.committed f.rows)
  tags := Function.update d.tags f.table (d.tags f.table ++ f.tags)

/-- Flushes in turn, each with its pattern. -/
def execFlushes (d : TargetTables Content) (patterns : ℕ → CopyPattern) :
    List Flush → TargetTables Content
  | [] => d
  | f :: fs => execFlushes (execFlush d (patterns 0) f) (fun i => patterns (i + 1)) fs

lemma execFlushes_concat (d : TargetTables Content) (patterns : ℕ → CopyPattern) (fs : List Flush)
    (f : Flush) : execFlushes d patterns (fs ++ [f])
      = execFlush (execFlushes d patterns fs) (patterns fs.length) f := by
  induction fs generalizing d patterns with
  | nil => rfl
  | cons g fs ih =>
      rw [List.cons_append, execFlushes, ih, execFlushes]
      rfl

/-- Flushes take no row out. -/
lemma mem_rows_execFlushes {d : TargetTables Content} {t : OsmTable} {q : Row Content}
    (h : q ∈ d.rows t) (patterns : ℕ → CopyPattern) (fs : List Flush) :
    q ∈ (execFlushes d patterns fs).rows t := by
  induction fs generalizing d patterns with
  | nil => exact h
  | cons f fs ih =>
      refine ih ?_ _
      by_cases ht : t = f.table
      · subst ht
        simp only [execFlush, Function.update_self]
        exact List.mem_append_left _ h
      · simpa only [execFlush, Function.update_of_ne ht] using h

/-- Every tag row of ways, areas, roads and relations has its row. -/
def TargetTables.NoOrphans (d : TargetTables Content) : Prop :=
  ∀ t, t ≠ .nodes → ∀ g ∈ d.tags t, ∃ q ∈ d.rows t, q.id = g.id

/-- A row the server does not take has no tags buffered, or its id has another row: in
the table, or among those of the batch that are taken. -/
def Flush.Covered (d : TargetTables Content) (p : CopyPattern) (f : Flush) : Prop :=
  ∀ r ∈ p.lost f.rows, (∃ g ∈ f.tags, g.id = r.id) →
    ∃ q ∈ d.rows f.table ++ p.committed f.rows, q.id = r.id

/-- A flush of rows with their tags, for another table than `nodes`. -/
structure Flush.Attached (f : Flush) : Prop where
  table : f.table ≠ .nodes
  tags : ∀ g ∈ f.tags, ∃ r ∈ f.rows, r.id = g.id

/-- **One flush**: of tables without an orphan it makes some with one exactly if it is
not covered. -/
lemma noOrphans_execFlush_iff {d : TargetTables Content} (hd : d.NoOrphans) (p : CopyPattern)
    {f : Flush} (hf : f.Attached) : (execFlush d p f).NoOrphans ↔ f.Covered d p := by
  constructor
  · rintro h r - ⟨g, hg, hid⟩
    have hg' : g ∈ (execFlush d p f).tags f.table := by simp [execFlush, hg]
    obtain ⟨q, hq, hqid⟩ := h f.table hf.table g hg'
    refine ⟨q, by simpa [execFlush] using hq, hqid.trans hid⟩
  · intro h t ht g hg
    by_cases hft : t = f.table
    · subst hft
      have hrows : (execFlush d p f).rows f.table = d.rows f.table ++ p.committed f.rows := by
        simp [execFlush]
      have htags : (execFlush d p f).tags f.table = d.tags f.table ++ f.tags := by
        simp [execFlush]
      rw [hrows]
      rw [htags] at hg
      rcases List.mem_append.mp hg with hg | hg
      · obtain ⟨q, hq, hid⟩ := hd f.table ht g hg
        exact ⟨q, List.mem_append_left _ hq, hid⟩
      · obtain ⟨r, hr, hid⟩ := hf.tags g hg
        rcases p.mem_committed_or_lost hr with hr | hr
        · exact ⟨r, List.mem_append_right _ hr, hid⟩
        · obtain ⟨q, hq, hqid⟩ := h r hr ⟨g, hg, hid.symm⟩
          exact ⟨q, hq, hqid.trans hid⟩
    · have hrows : (execFlush d p f).rows t = d.rows t := Function.update_of_ne hft ..
      have htags : (execFlush d p f).tags t = d.tags t := Function.update_of_ne hft ..
      rw [hrows]
      rw [htags] at hg
      exact hd t ht g hg

/-- Flushes leave no orphan at any time exactly if each of them is covered. -/
lemma noOrphans_execFlushes_iff {d : TargetTables Content} (hd : d.NoOrphans)
    (patterns : ℕ → CopyPattern) {fs : List Flush} (hfs : ∀ f ∈ fs, f.Attached) :
    (∀ k, (execFlushes d patterns (fs.take k)).NoOrphans) ↔
      ∀ (k : ℕ) (f : Flush), fs[k]? = some f →
        f.Covered (execFlushes d patterns (fs.take k)) (patterns k) := by
  have hstep : ∀ (k : ℕ) (f : Flush), fs[k]? = some f →
      (execFlushes d patterns (fs.take k)).NoOrphans →
      ((execFlushes d patterns (fs.take (k + 1))).NoOrphans
        ↔ f.Covered (execFlushes d patterns (fs.take k)) (patterns k)) := by
    intro k f hk hno
    obtain ⟨hlt, hget⟩ := List.getElem?_eq_some_iff.mp hk
    have htake : fs.take (k + 1) = fs.take k ++ [f] := by
      rw [List.take_succ_eq_append_getElem hlt, hget]
    have hlen : (fs.take k).length = k := by simp; omega
    rw [htake, execFlushes_concat, hlen]
    exact noOrphans_execFlush_iff hno (patterns k) (hfs f (List.mem_of_getElem? hk))
  constructor
  · exact fun h k f hk => (hstep k f hk (h k)).mp (h (k + 1))
  · intro h k
    induction k with
    | zero => exact hd
    | succ k ih =>
        cases hk : fs[k]? with
        | some f => exact (hstep k f hk ih).mpr (h k f hk)
        | none =>
            have hle : fs.length ≤ k := List.getElem?_eq_none_iff.mp hk
            rw [List.take_of_length_le (by omega)]
            rw [List.take_of_length_le hle] at ih
            exact ih

/-! ### The buffers -/

namespace BulkNavDB

/-- No nodes are buffered, and a tag row is buffered with its row. -/
structure Attached (n : BulkNavDB) : Prop where
  nodes : n.buf .nodes = []
  tags : ∀ t, t ≠ .nodes → ∀ g ∈ n.tag_buf (finalizedBuffer t), ∃ r ∈ n.buf t, r.id = g.id

/-- What a call leaves: buffers and flushes whose tags come with their rows. -/
def AttachedStep (s : BulkNavDB × List Flush) : Prop :=
  s.1.Attached ∧ ∀ f ∈ s.2, f.Attached

variable {n : BulkNavDB}

lemma attached_connect (thread_id : ℕ) : (connect thread_id).Attached :=
  ⟨rfl, fun _ _ _ hg => absurd hg List.not_mem_nil⟩

lemma attached_skip (h : n.Attached) : AttachedStep (n, []) :=
  ⟨h, fun _ hf => absurd hf List.not_mem_nil⟩

lemma attached_flush (h : n.Attached) (t : OsmTable) : AttachedStep (n.flush t) := by
  rw [flush]
  split
  · exact attached_skip h
  · have ht : t ≠ .nodes := by
      rintro rfl
      exact absurd h.nodes ‹_›
    refine ⟨⟨?_, fun u hu g hg => ?_⟩, fun f hf => ?_⟩
    · simp [Function.update_of_ne (Ne.symm ht), h.nodes]
    · by_cases hut : u = t
      · subst hut
        simp at hg
      · have hne : finalizedBuffer u ≠ finalizedBuffer t :=
          fun heq => hut (apart_ways.inj u t hu ht heq)
        simp only [Function.update_of_ne hne] at hg
        simp only [Function.update_of_ne hut]
        exact h.tags u hu g hg
    · rw [List.mem_singleton.mp hf]
      exact ⟨ht, h.tags t ht⟩

lemma attached_flushAll (h : n.Attached) (ts : List OsmTable) : AttachedStep (n.flushAll ts) := by
  induction ts generalizing n with
  | nil => exact attached_skip h
  | cons t ts ih =>
      have hfirst := attached_flush h t
      have hrest := ih hfirst.1
      refine ⟨hrest.1, fun f hf => ?_⟩
      rcases List.mem_append.mp hf with hf | hf
      · exact hfirst.2 f hf
      · exact hrest.2 f hf

/-- An insert: the tags carry the id of the row. -/
lemma attached_insert (h : n.Attached) {t : OsmTable} (ht : t ≠ .nodes) (r : Row Content)
    {tags : List TagRecord} (htags : ∀ g ∈ tags, g.id = r.id) (full : ℕ → Bool) :
    AttachedStep ((n.push t r (finalizedBuffer t) tags).flushIf t full) := by
  have hpush : (n.push t r (finalizedBuffer t) tags).Attached := by
    refine ⟨?_, fun u hu g hg => ?_⟩
    · simp [push, Function.update_of_ne (Ne.symm ht), h.nodes]
    · by_cases hut : u = t
      · subst hut
        simp only [push, Function.update_self, List.mem_append] at hg ⊢
        rcases hg with hg | hg
        · obtain ⟨q, hq, hid⟩ := h.tags u hu g hg
          exact ⟨q, .inl hq, hid⟩
        · exact ⟨r, .inr (by simp), (htags g hg).symm⟩
      · have hne : finalizedBuffer u ≠ finalizedBuffer t :=
          fun heq => hut (apart_ways.inj u t hu ht heq)
        simp only [push, Function.update_of_ne hne] at hg
        simp only [push, Function.update_of_ne hut]
        exact h.tags u hu g hg
  rw [flushIf]
  split
  · exact attached_flush hpush t
  · exact attached_skip hpush

lemma attached_call (h : n.Attached) {c : BulkCall} (hc : c.table ≠ some .nodes) :
    AttachedStep (n.call c) := by
  cases c with
  | insertNode => exact absurd rfl hc
  | insertWay id name tags geog =>
      rw [call, insertWay]
      split
      · exact attached_skip h
      · exact attached_insert h (t := .ways) nofun _ (fun _ hg => id_of_mem_keptTags hg) _
  | insertArea id name tags geog =>
      rw [call, insertArea]
      split
      · exact attached_skip h
      · exact attached_insert h (t := .areas) nofun _ (fun _ hg => id_of_mem_keptTags hg) _
  | insertRoad id name tags geog =>
      exact attached_insert h (t := .roads) nofun _ (fun _ hg => id_of_mem_keptTags hg) _
  | insertRelation id name tags geog =>
      exact attached_insert h (t := .relations) nofun _ (fun _ hg => id_of_mem_keptTags hg) _
  | finalize_nodes => exact attached_flush h .nodes
  | finalize_ways => exact attached_flushAll h [.ways, .areas]
  | finalize_roads => exact attached_flush h .roads
  | finalize_relations => exact attached_flush h .relations

/-- Every flush of a connection that gets no nodes. -/
lemma attached_lifetime (thread_id : ℕ) {calls : List BulkCall}
    (hcalls : ∀ c ∈ calls, c.table ≠ some .nodes) : ∀ f ∈ (lifetime thread_id calls).2,
      f.Attached := by
  have hrun : AttachedStep ((connect thread_id).run calls) := by
    induction calls using List.reverseRecOn with
    | nil => exact attached_skip (attached_connect thread_id)
    | append_singleton calls c ih =>
        have hbefore := ih fun c' hc' => hcalls c' (List.mem_append_left _ hc')
        have hcall := attached_call hbefore.1 (hcalls c (by simp))
        rw [run_concat]
        refine ⟨hcall.1, fun f hf => ?_⟩
        rcases List.mem_append.mp hf with hf | hf
        · exact hbefore.2 f hf
        · exact hcall.2 f hf
  intro f hf
  rcases List.mem_append.mp hf with hf | hf
  · exact hrun.2 f hf
  · exact (attached_flushAll hrun.1 _).2 f hf

end BulkNavDB

/-! ### Orphans -/

/-- **No flush leaves an orphan** exactly if no flush loses the row of buffered tags
without another row of that id. -/
theorem noOrphans_iff (thread_id : ℕ) (calls : List BulkCall)
    (hcalls : ∀ c ∈ calls, c.table ≠ some .nodes) (d : TargetTables Content) (hd : d.NoOrphans)
    (patterns : ℕ → CopyPattern) :
    (∀ k, (execFlushes d patterns ((BulkNavDB.lifetime thread_id calls).2.take k)).NoOrphans) ↔
      ∀ (k : ℕ) (f : Flush), (BulkNavDB.lifetime thread_id calls).2[k]? = some f →
        f.Covered (execFlushes d patterns ((BulkNavDB.lifetime thread_id calls).2.take k))
          (patterns k) :=
  noOrphans_execFlushes_iff hd patterns (BulkNavDB.attached_lifetime thread_id hcalls)

/-- Two ways, of which the server rejects one. -/
def rejectedCalls : List BulkCall :=
  [.insertWay 4 [] (.single (ascii "highway") (ascii "track")) (.lineString []),
    .insertWay 5 [] (.single (ascii "highway") (ascii "path")) (.lineString [])]

/-- Tables without a row. -/
def noRows : TargetTables Content := ⟨fun _ => [], fun _ => []⟩

/-- The tags of a rejected row are committed without it. -/
theorem rejected_row_leaves_orphan :
    ¬ ∀ (thread_id : ℕ) (calls : List BulkCall) (d : TargetTables Content)
      (patterns : ℕ → CopyPattern), (∀ c ∈ calls, c.table ≠ some .nodes) → d.NoOrphans →
      ∀ k, (execFlushes d patterns ((BulkNavDB.lifetime thread_id calls).2.take k)).NoOrphans := by
  intro hall
  have hno := hall 0 rejectedCalls noRows (fun _ => .skips fun _ r => r.id ≠ 5)
    (by simp [rejectedCalls, BulkCall.table]) (fun _ _ _ hg => absurd hg List.not_mem_nil) 1
  have horphan : (⟨5, ascii "highway", ascii "path"⟩ : TagRecord) ∈ (execFlushes noRows
      (fun _ => .skips fun _ r => r.id ≠ 5)
      ((BulkNavDB.lifetime 0 rejectedCalls).2.take 1)).tags .ways := by decide
  obtain ⟨q, hq, hid⟩ := hno .ways (by decide) _ horphan
  revert q
  decide

/-- A road without tags behind the two ways. -/
def mixedCalls : List BulkCall := rejectedCalls ++ [.insertRoad 9 [] .empty (.lineString [])]

/-- Tables where the second way is stored already. -/
def wayStored : TargetTables Content where
  rows t := if t = .ways then [geomRow 5 [] (some (.lineString []))] else []
  tags t := if t = .ways then [⟨5, ascii "highway", ascii "path"⟩] else []

/-- The server rejects the row that is stored and the one without tags, and no tag row is
left alone. -/
theorem noOrphans_taken :
    (execFlushes wayStored (fun _ => .skips fun _ r => r.id ≠ 5 && r.id ≠ 9)
      (BulkNavDB.lifetime 0 mixedCalls).2).NoOrphans := by
  have hstored : wayStored.NoOrphans := by
    intro t _ g hg
    by_cases ht : t = .ways
    · subst ht
      obtain rfl : g = ⟨5, ascii "highway", ascii "path"⟩ := List.mem_singleton.mp hg
      exact ⟨_, List.mem_singleton_self _, rfl⟩
    · simp [wayStored, ht] at hg
  have htagged : ∀ f ∈ (BulkNavDB.lifetime 0 mixedCalls).2, ∀ g ∈ f.tags,
      f.table = .ways ∧ g.id ≠ 9 := by
    decide
  have hall := (noOrphans_iff 0 mixedCalls (by simp [mixedCalls, rejectedCalls, BulkCall.table])
    wayStored hstored fun _ => .skips fun _ r => r.id ≠ 5 && r.id ≠ 9).mpr <| by
      rintro k f hk r hr ⟨g, hg, hid⟩
      obtain ⟨htable, hnine⟩ := htagged f (List.mem_of_getElem? hk) g hg
      obtain ⟨-, kept, hno⟩ := exists_of_mem_refused hr
      have hfive : r.id = 5 := by
        by_contra hne
        rw [hid] at hnine
        simp [hne, hnine] at hno
      refine ⟨geomRow 5 [] (some (.lineString [])), List.mem_append_left _ ?_, hfive.symm⟩
      rw [htable]
      exact mem_rows_execFlushes (List.mem_singleton_self _) ..
  rw [← List.take_length (l := (BulkNavDB.lifetime 0 mixedCalls).2)]
  exact hall _

end Gpsxdb
