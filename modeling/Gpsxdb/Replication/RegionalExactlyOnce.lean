import Mathlib.Tactic
import Gpsxdb.Delta.RegionalDiffs
import Gpsxdb.Replication.ExactlyOnce

/-!
A regional target that is polled, whatever becomes of the processes that poll.

* `history`: the changes of the diffs so far; `regionalApplied`: these diffs, each applied once
  by a process of its own;
* `restartable_regional`: diffs that can be followed may be begun any number of times, from
  the buffers that the ones before them leave or from none;
* `restricts_applied`: each applied once, they take the target along with the master;
* `IsRegionOf`, `region_exactly_once`: **the target is the region of the master**, however
  often the processes are stopped, fail or are killed.
-/

namespace Gpsxdb

open RegionalApplier

/-! ### The diffs, each once -/

/-- The changes of the first so many diffs behind `n₀`. -/
def history (diffs : ℤ → List OSCChange) (n₀ : ℤ) : ℕ → List OSCChange
  | 0 => []
  | k + 1 => history diffs n₀ k ++ diffs (n₀ + k + 1)

/-- The calls of a diff, by a process that starts with it. -/
def regionalCalls (env : RegionalEnv) (s : DeltaState) (diff : List OSCChange) : List DeltaCall :=
  (regionalApplier env).diffCalls (regionalApplier env).empty s diff

/-- The first so many diffs behind `n₀`, each applied once by a process of its own. -/
def regionalApplied (env : RegionalEnv) (diffs : ℤ → List OSCChange) (n₀ : ℤ) (s : DeltaState) :
    ℕ → DeltaState
  | 0 => s
  | k + 1 => (regionalApplied env diffs n₀ s k).execAll
      (regionalCalls env (regionalApplied env diffs n₀ s k) (diffs (n₀ + k + 1)))

section

variable {env : RegionalEnv} {diffs : ℤ → List OSCChange} {n₀ : ℤ} {m s : DeltaState}

/-- A process that starts with a diff, by its calls. -/
lemma tables_run_start (s : DeltaState) (cs : List OSCChange) :
    ((start s.tables).run env (cs.map .change)).tables
      = (s.execAll (regionalCalls env s cs)).tables :=
  congrArg RegionalApplier.tables (run_eq (regionalApplier env).empty s cs)

/-- Tables that agree cell by cell are alike to a regional applier. -/
lemma alike_regional (env : RegionalEnv) : Alike (regionalApplier env) DeltaState.Agrees where
  refl := .refl
  trans _ _ _ h h' := h.trans h'
  exec _ _ op h := h.exec op
  calls b s t c h := by
    refine tableCalls_congr (fun _ _ _ _ _ _ => rfl) fun _ => funext fun id => ?_
    show s.tables.getWay id = t.tables.getWay id
    rw [TargetTables.getWay_eq, TargetTables.getWay_eq, h.rowAt, h.rowAt]

/-- An upsert brings the tags of its change. -/
lemma tags_of_mem_tableCalls {t : RegionalApplier} {c : OSCChange} {u : OsmTable} {r : Row Content}
    {tags : Tags} (h : .upsert u r tags ∈ t.tableCalls env c) : tags = c.tags := by
  have hcalls : ∀ {c : OSCChange},
      .upsert u r tags ∈ calls env.projection (t.resolve env) t.tables c → tags = c.tags :=
    fun h => tags_of_mem_calls h
  cases c with
  | node type n =>
      have hrow : .upsert u r tags ∈ [DeltaCall.upsert .nodes (env.projection.updateNodeRow n)
          n.tags] → tags = n.tags := fun h => by
        exact (DeltaCall.upsert.inj (List.mem_singleton.mp h)).2.2
      cases type with
      | create =>
          rw [tableCalls] at h
          split at h
          · cases h
          · exact hrow h
      | modify =>
          rw [tableCalls] at h
          split at h
          · exact hrow h
          · cases List.mem_singleton.mp h
      | delete => cases List.mem_singleton.mp h
  | way type w =>
      have hup : .upsert u r tags ∈ t.upsertWayCalls env w → tags = w.tags := by
        rw [upsertWayCalls]
        split
        · exact fun h => hcalls (c := .way .delete w) h
        · exact fun h => hcalls (c := .way .modify w) h
      cases type with
      | create => exact hup h
      | modify => exact hup h
      | delete => exact hcalls (c := .way .delete w) h
  | relation type q =>
      have hup : .upsert u r tags ∈ t.upsertRelationCalls env q → tags = q.tags := by
        rw [upsertRelationCalls]
        split
        · exact fun h => hcalls (c := .relation .modify q) h
        · exact fun h => hcalls (c := .relation .delete q) h
      cases type with
      | create => exact hup h
      | modify => exact hup h
      | delete => exact hcalls (c := .relation .delete q) h

lemma tags_of_mem_regionalCalls {b : CoordBuffers} {s : DeltaState} {cs : List OSCChange}
    {u : OsmTable} {r : Row Content} {tags : Tags}
    (h : .upsert u r tags ∈ (regionalApplier env).diffCalls b s cs) :
    ∃ c ∈ cs, tags = c.tags := by
  induction cs generalizing b s with
  | nil => cases h
  | cons c cs ih =>
      rcases List.mem_append.mp h with h | h
      · exact ⟨c, List.mem_cons_self .., tags_of_mem_tableCalls h⟩
      · obtain ⟨c', hc', htags⟩ := ih h
        exact ⟨c', List.mem_cons_of_mem _ hc', htags⟩

/-- Where tags stay apart, the calls survive a replay. -/
lemma replay_regionalCalls {cs : List OSCChange} (htags : ∀ c ∈ cs, c.TagsApart) (s₀ s : DeltaState)
    (k : ℕ) : ((s.execAll ((regionalCalls env s₀ cs).take k)).execAll
      (regionalCalls env s₀ cs)).Agrees (s.execAll (regionalCalls env s₀ cs)) := by
  refine Replayable.replay (fun t id key => ?_) s k
  rintro ⟨r, tags, hcall, -, hlen⟩
  obtain ⟨c, hc, rfl⟩ := tags_of_mem_regionalCalls hcall
  have hle := htags c hc (decide (t = .nodes)) key
  omega

/-! ### Any number of times -/

/-- **Diffs that can be followed** may be begun any number of times: from the buffers that the
diffs before them leave, or from none. -/
lemma restartable_regional (s : DeltaState)
    (hdiff : ∀ k : ℕ, FollowOk env (history diffs n₀ k) (applied env.projection diffs n₀ m k)
      (diffs (n₀ + k + 1))) :
    Restartable (regionalApplier env) DeltaState.Agrees
      (fun k b => Buffered env.projection (history diffs n₀ k) []
        (applied env.projection diffs n₀ m k).nodes b) diffs n₀ (regionalApplied env diffs n₀ s)
      (fun k => regionalCalls env (regionalApplied env diffs n₀ s k) (diffs (n₀ + k + 1))) where
  alike := alike_regional env
  empty _ := buffered_empty _ _
  flush k _ hb := buffered_flush (buffered_read hb (diffs (n₀ + k + 1)))
  repeatable k := by
    have hempty := resolvesAs_of_buffered (hdiff k) (buffered_empty _ _)
    refine ⟨fun b hb ks => ?_, replay_regionalCalls (hdiff k).apart _⟩
    exact diffCalls_attempts (hdiff k).ordered hempty (resolvesAs_of_buffered (hdiff k) hb) ks
  next _ := .refl _

/-- **Each applied once**, they take the target along with the master. -/
lemma restricts_applied
    (hdiff : ∀ k : ℕ, FollowOk env (history diffs n₀ k) (applied env.projection diffs n₀ m k)
      (diffs (n₀ + k + 1))) (hstart : Restricts env.keeps m.tables s.tables) (k : ℕ) :
    Restricts env.keeps (applied env.projection diffs n₀ m k).tables
      (regionalApplied env diffs n₀ s k).tables := by
  induction k with
  | zero => exact hstart
  | succ k ih =>
      have hrun := restricts_run (s := start (regionalApplied env diffs n₀ s k).tables) ih
        (trackOk_of_followOk (hdiff k) _)
      rw [masterRun_changes, tables_run_start] at hrun
      exact hrun

lemma Polled.keyed_run {ρ : Polled OSCChange CoordBuffers DeltaState} (hkey : s.tables.Keyed)
    {evs : List (PollEvent OSCChange × ℕ)}
    (h : (Polled.start (regionalApplier env) n₀ s).run (regionalApplier env) evs = some ρ) :
    ρ.store.tables.Keyed := by
  let I : Polled OSCChange CoordBuffers DeltaState → Prop := fun ρ => ρ.store.tables.Keyed
  have hstep : ∀ (ρ : Polled OSCChange CoordBuffers DeltaState) (e : PollEvent OSCChange × ℕ)
      (ρ' : Polled OSCChange CoordBuffers DeltaState), I ρ →
      ρ.step (regionalApplier env) e = some ρ' → I ρ' := by
    intro ρ e ρ' hkey hs
    obtain ⟨poll, -, rfl⟩ := Option.map_eq_some_iff.mp hs
    show (ρ.written (regionalApplier env) e.1 e.2).tables.Keyed
    rw [Polled.written.eq_def]
    split
    · exact DeltaState.keyed_execAll hkey _
    · exact hkey
  exact foldlM_invariant (I := I) hstep hkey h

/-! ### The region of the master -/

/-- Of the nodes, ways and areas, those that lie in the region and no others, with their tag
rows. -/
def IsRegionOf (env : RegionalEnv) (d d' : TargetTables Content) : Prop :=
  ∀ t, t.Local → (d'.rows t).Perm ((d.rows t).filter env.keeps)
    ∧ (d'.tags t).Perm ((d.tags t).filter fun g => (d.rowAt t g.id).any env.keeps)

/-- Restricted tables, cell by cell. -/
lemma Restricts.of_agrees {d : TargetTables Content} {s' : DeltaState}
    (h : Restricts env.keeps d s.tables) (hs : s'.Agrees s) : Restricts env.keeps d s'.tables := by
  refine ⟨fun t ht id => (hs.rowAt t id).trans (h.row t ht id), fun t ht id key => ?_, h.single⟩
  rw [hs.valuesOf, hs.rowAt]
  exact h.tags t ht id key

/-- **The region of the master, exactly once.**  A target is installed from a bundle cut from
the master.  The ways of the diffs behind it refer to nodes that were exported and have not
moved, or that the same diff puts where they are and none before it anywhere else.  However
often the processes that poll are stopped, fail, are killed within a change or find a file
cut off, and so lose their buffers, the target holds the nodes, ways and areas of the master
at the stored sequence that lie in the region, unless some of the next diff was downloaded;
and even then a new process that applies that diff takes it to those of the master behind
it. -/
theorem region_exactly_once {b : RegionBundle Content} {d : TargetTables Content}
    (hm : m.tables.Keyed)
    (hsingle : ∀ t, t.Local → ∀ id key, (valuesOf (m.tables.tags t) id key).length ≤ 1)
    (hcut : CutFrom env m.tables b) (hinstall : runScript b emptyTables = some d)
    (hdiff : ∀ k : ℕ, FollowOk env (history diffs n₀ k) (applied env.projection diffs n₀ m k)
      (diffs (n₀ + k + 1)))
    {evs : List (PollEvent OSCChange × ℕ)} {ρ : Polled OSCChange CoordBuffers DeltaState}
    (h : (Polled.start (regionalApplier env) n₀ (target env d)).run (regionalApplier env) evs
      = some ρ) (hserved : Served diffs ρ.poll.log) : ∃ k : ℕ, ρ.poll.stored = n₀ + k
      ∧ ((∀ file, .begin (n₀ + k + 1) file ∉ ρ.poll.log) →
          IsRegionOf env (applied env.projection diffs n₀ m k).tables ρ.store.tables)
      ∧ IsRegionOf env (applied env.projection diffs n₀ m (k + 1)).tables
          ((start ρ.store.tables).run env ((diffs (n₀ + k + 1)).map .change)).tables := by
  obtain ⟨hinstalled, hkeyed⟩ := restricts_install hm hsingle hcut hinstall
  have hstore : ρ.store.tables.Keyed := Polled.keyed_run hkeyed h
  have hmaster : ∀ k, (applied env.projection diffs n₀ m k).tables.Keyed := keyed_applied hm
  obtain ⟨k, hk, -, hfresh, hnext⟩ :=
    polled_exactly_once (restartable_regional (target env d) hdiff) h hserved
  refine ⟨k, hk, fun hno t ht => ?_, fun t ht => ?_⟩
  · exact ((restricts_applied hdiff hinstalled k).of_agrees (hfresh hno)).perm (hmaster k) hstore ht
  · rw [tables_run_start]
    have hagrees := hnext _ (buffered_empty _ _)
    exact ((restricts_applied hdiff hinstalled (k + 1)).of_agrees hagrees).perm (hmaster (k + 1))
      (DeltaState.keyed_execAll hstore _) ht

end

/-! ### Two nodes that change sides, twice -/

/-- One diff, in which two nodes change sides and a street joins them. -/
def sidesDiff (seq : ℤ) : List OSCChange :=
  if seq = 6 then [.node .modify (fountain 1 5), .node .modify (fountain 2 0), .way .create street]
  else []

/-- A process that is killed within the change of the street, and one that applies the diff. -/
def sidesTwice : List (PollEvent OSCChange × ℕ) :=
  [(.start, 0), (.test, 0), (.read true (some 6), 0), (.test, 0),
    (.download (some ⟨sidesDiff 6, true⟩), 0), (.change .returned, 0), (.change .returned, 0),
    (.change .killed, 1),
    (.start, 0), (.test, 0), (.read true (some 6), 0), (.test, 0),
    (.download (some ⟨sidesDiff 6, true⟩), 0), (.change .returned, 0), (.change .returned, 0),
    (.change .returned, 0), (.endOfFile, 0), (.flush .returned, 0),
    (.setSequence true .returned, 0)]

/-- What the two processes do. -/
def sidesLog : List (Effect OSCChange) :=
  [.begin 6 ⟨sidesDiff 6, true⟩, .change 6 (.node .modify (fountain 1 5)),
    .change 6 (.node .modify (fountain 2 0)), .partly 6 (.way .create street),
    .begin 6 ⟨sidesDiff 6, true⟩, .change 6 (.node .modify (fountain 1 5)),
    .change 6 (.node .modify (fountain 2 0)), .change 6 (.way .create street), .flush 6, .store 6]

lemma sidesLog_served : Served sidesDiff sidesLog ∧ ∀ file, .begin 7 file ∉ sidesLog := by
  refine ⟨fun seq file hmem => ?_, fun file hmem => by simp [sidesLog] at hmem⟩
  obtain ⟨rfl, rfl⟩ : seq = 6 ∧ file = ⟨sidesDiff 6, true⟩ := by simpa [sidesLog] using hmem
  exact ⟨List.prefix_refl _, fun _ => rfl⟩

/-- The street finds a fountain where the diff puts it. -/
lemma refOk_sides {ref : ℤ} (href : ref ∈ street.node_refs) :
    RefOk westSide [] (sidesDiff 6) (bothSides.run wholeDegrees (sidesDiff 6)).nodes ref := by
  have hnodes : ref = 1 ∨ ref = 2 := by simpa [street] using href
  have hput : ∀ c ∈ sidesDiff 6, ∀ y, nodeChange wholeDegrees (.change c) = some (ref, some y) →
      (bothSides.run wholeDegrees (sidesDiff 6)).nodes ref = some y := by
    intro c hc y hput
    obtain rfl | rfl | rfl : c = .node .modify (fountain 1 5) ∨ c = .node .modify (fountain 2 0)
        ∨ c = .way .create street := by simpa [sidesDiff] using hc
    · obtain ⟨rfl, hy⟩ := Prod.mk.inj (Option.some.inj hput)
      exact hy
    · obtain ⟨rfl, hy⟩ := Prod.mk.inj (Option.some.inj hput)
      exact hy
    · cases hput
  have hplaced : ∃ y, Places wholeDegrees (sidesDiff 6) ref y := by
    rcases hnodes with rfl | rfl
    · exact ⟨⟨5, 0⟩, .node .modify (fountain 1 5), by simp [sidesDiff], rfl⟩
    · exact ⟨⟨0, 0⟩, .node .modify (fountain 2 0), by simp [sidesDiff], rfl⟩
  have hmap : westSide.node_map.select ref = none := rfl
  refine ⟨fun x hx => absurd (hmap.symm.trans hx) (by simp), fun x _ hx => ⟨hplaced, ?_⟩⟩
  rintro y ⟨c, hc, hchange⟩
  exact Option.some.inj ((hput c hc y hchange).symm.trans hx)

lemma followOk_sides (k : ℕ) : FollowOk westSide (history sidesDiff 5 k)
    (applied westSide.projection sidesDiff 5 bothSides k) (sidesDiff (5 + k + 1)) := by
  rcases k with _ | k
  · refine ⟨?_, fun c hc is_node key => ?_, fun pre n post hsplit => ?_,
      fun type w hw _ ref href => ?_⟩
    · simp [Ordered, OSCChange.kind, sidesDiff]
    · have hone : c.tags.entries.length ≤ 1 := by
        obtain rfl | rfl | rfl : c = .node .modify (fountain 1 5)
            ∨ c = .node .modify (fountain 2 0) ∨ c = .way .create street := by
          simpa [sidesDiff] using hc
        all_goals exact le_rfl
      exact (length_valuesFor_le c.tags is_node key).trans hone
    · have hmem : .node .create n ∈ sidesDiff 6 := by
        have hall : sidesDiff 6 = pre ++ .node .create n :: post := hsplit
        simp [hall]
      simp [sidesDiff] at hmem
    · obtain ⟨-, rfl⟩ : type = .create ∧ w = street := by simpa [sidesDiff] using hw
      exact refOk_sides href
  · have hnil : sidesDiff (5 + ↑(k + 1) + 1) = [] := if_neg (by push_cast; omega)
    rw [hnil]
    exact ⟨List.Pairwise.nil, fun c hc => absurd hc (by simp),
      fun pre n post hsplit => absurd hsplit (by simp), fun type w hw => absurd hw (by simp)⟩

theorem region_exactly_once_sides : ∃ d ρ, runScript westBundle emptyTables = some d
    ∧ (Polled.start (regionalApplier westSide) 5 (target westSide d)).run
      (regionalApplier westSide) sidesTwice = some ρ
    ∧ (ρ.store.tables.rows .nodes).Perm [wholeDegrees.updateNodeRow (fountain 2 0)] := by
  obtain ⟨d, hinstall⟩ : ∃ d, runScript westBundle emptyTables = some d := ⟨_, rfl⟩
  obtain ⟨ρ, h, hstored, hlog⟩ : ∃ ρ, (Polled.start (regionalApplier westSide) 5
      (target westSide d)).run (regionalApplier westSide) sidesTwice = some ρ
        ∧ ρ.poll.stored = 6 ∧ ρ.poll.log = sidesLog := ⟨_, rfl, rfl, rfl⟩
  have hkeyed : bothSides.tables.Keyed := by
    intro t
    cases t <;> decide
  obtain ⟨k, hk, hfresh, -⟩ := region_exactly_once hkeyed (fun t _ => bothSides_single t)
    westBundle_cut hinstall followOk_sides h (hlog.symm ▸ sidesLog_served.1)
  obtain rfl : k = 1 := by omega
  have hregion := hfresh (hlog.symm ▸ sidesLog_served.2) .nodes (.inl rfl)
  exact ⟨d, ρ, hinstall, h, hregion.1.trans (.of_eq (by decide))⟩

end Gpsxdb
