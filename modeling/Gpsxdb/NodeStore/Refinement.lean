import Mathlib.Tactic
import Gpsxdb.Library.Runs
import Gpsxdb.NodeStore.Scans

/-!
The node store in delta mode against the finite map it stands for.

* `StoreOp`, `OSMMMap.step`, `deltaRun`: the operations of delta and poll mode
  on a store created for `max_id`, close and reopen included;
* `Holds`: the two files hold exactly the entries of a map, the relation every
  operation keeps (`step_holds`);
* `delta_mode_refines_map`: **the refinement**, for every sequence of
  operations on ids in the sane range.
-/

namespace Gpsxdb

/-- An operation on a node store in delta mode. -/
inductive StoreOp where
  | update (id : ℤ) (c : Coord)
  | remove (id : ℤ)
  | reopen (max_id : ℤ)

namespace StoreOp

/-- The ids are in `0..kMaxSaneNodeId`, the largest id configured at a
reopening is a non-negative `int64_t`. -/
def Sane : StoreOp → Prop
  | update id _ => 0 ≤ id ∧ id ≤ kMaxSaneNodeId
  | remove id => 0 ≤ id ∧ id ≤ kMaxSaneNodeId
  | reopen max_id => 0 ≤ max_id ∧ max_id < 2 ^ 63

lemma Sane.isInt64 {max_id : ℤ} (h : (reopen max_id).Sane) : IsInt64 max_id :=
  ⟨by have := h.1; omega, h.2⟩

/-- The id an operation is about. -/
def id? : StoreOp → Option ℤ
  | update id _ => some id
  | remove id => some id
  | reopen _ => none

/-- The write an operation makes to the map the store stands for. -/
def write : StoreOp → Option (ℤ × Option Coord)
  | update id c => some (id, some c)
  | remove id => some (id, none)
  | reopen _ => none

lemma write_eq_some_some_iff {op : StoreOp} {j : ℤ} {c : Coord} :
    op.write = some (j, some c) ↔ op = update j c := by
  cases op <;> simp [write]

lemma forall_write_ne_iff {op : StoreOp} {j : ℤ} :
    (∀ o, op.write ≠ some (j, o)) ↔ op.id? ≠ some j := by
  cases op <;> simp [write, id?]

end StoreOp

namespace OSMMMap

/-- One operation of delta mode. -/
def step (s : OSMMMap) : StoreOp → Option OSMMMap
  | .update id c => s.update id c
  | .remove id => some (s.remove id)
  | .reopen max_id => openFiles s.toNodeFiles max_id

/-- A run of delta mode: the files are created for `max_id`, opened for
`open_id`, and the operations follow. -/
def deltaRun (max_id open_id : ℤ) (ops : List StoreOp) : Option OSMMMap := do
  let d ← createFile max_id
  let s ← openFiles d open_id
  ops.foldlM step s

/-! ### The simulation relation -/

/-- The two files are sound, their bitmap covers `.dat` and no negative id, and
they hold exactly the entries of the map `m`. -/
structure Holds (s : OSMMMap) (m : ℤ → Option Coord) : Prop where
  sound : s.Sound
  covers : s.Covers
  bmp_le : s.bmp.size ≤ 2 ^ 60
  natCast : ∀ i : ℕ, m i = s.entry i
  neg : ∀ j < 0, m j = none

/-- A lookup reads the map. -/
lemma Holds.select_eq {s : OSMMMap} {m : ℤ → Option Coord} (h : s.Holds m) {j : ℤ}
    (hj : IsInt64 j) : s.select j = m j := by
  by_cases h0 : 0 ≤ j
  · obtain ⟨i, rfl⟩ := Int.eq_ofNat_of_zero_le h0
    rw [select_natCast h.sound hj.2, h.natCast i]
  · rw [select_of_neg h.bmp_le (not_le.mp h0) hj.1, h.neg j (not_le.mp h0)]

/-- A bitmap opened for a non-negative largest id reaches no negative id. -/
lemma bmp_le_of_openFiles {d : NodeFiles} {s : OSMMMap} {m : ℤ} (hb : d.bmp.size ≤ 2 ^ 60)
    (h0 : 0 ≤ m) (hlt : m < 2 ^ 63) (h : OSMMMap.openFiles d m = some s) :
    s.bmp.size ≤ 2 ^ 60 := by
  rw [(growFileIfNeeded_spec (openFiles_eq_some h).2.1).1, bitmapSize_eq h0 hlt]
  omega

/-- Opening the pair again keeps the map. -/
lemma Holds.openFiles {s s' : OSMMMap} {m : ℤ → Option Coord} (h : s.Holds m) {max_id : ℤ}
    (h0 : 0 ≤ max_id) (hlt : max_id < 2 ^ 63)
    (hopen : OSMMMap.openFiles s.toNodeFiles max_id = some s') : s'.Holds m := by
  obtain ⟨hs, hc, he⟩ := openFiles_spec h.sound ⟨by omega, hlt⟩ hopen
  exact ⟨hs, hc h.covers, bmp_le_of_openFiles h.bmp_le h0 hlt hopen,
    fun i => (h.natCast i).trans (he i).symm, h.neg⟩

/-- Reading a map back after a write under a natural id. -/
lemma update_natCast_eq {m : ℤ → Option Coord} {s s' : OSMMMap} (h : s.Holds m) {i : ℕ}
    {o : Option Coord} (he : ∀ j, s'.entry j = if j = i then o else s.entry j) (k : ℕ) :
    Function.update m (i : ℤ) o k = s'.entry k := by
  rw [he k]
  by_cases hk : k = i
  · subst hk
    rw [Function.update_self, if_pos rfl]
  · rw [Function.update_of_ne (by exact_mod_cast hk), if_neg hk, h.natCast k]

/-- **One operation**: every operation in the sane range carries the map along. -/
lemma step_holds {s s' : OSMMMap} {m : ℤ → Option Coord} {op : StoreOp} (hop : op.Sane)
    (h : s.Holds m) (hstep : s.step op = some s') :
    s'.Holds (observe StoreOp.write m op) := by
  cases op with
  | update id c =>
      obtain ⟨i, rfl⟩ := Int.eq_ofNat_of_zero_le hop.1
      obtain ⟨t, ht, hsound, hsz, hent, hcov⟩ := update_spec h.sound hop.2 c
      obtain rfl := Option.some.inj (ht.symm.trans hstep)
      have hc : t.Covers ∧ t.bmp.size ≤ 2 ^ 60 := by
        rcases hcov with hc | ⟨hd, hb⟩
        · exact hc
        · exact ⟨NodeFiles.covers_of_sizes h.covers hd hb, by rw [hb]; exact h.bmp_le⟩
      -- the bitmap reaches the id, since `.dat` holds its record
      have hbit : i / 8 < t.bmp.size := hc.1 i hop.2 hsz
      refine ⟨hsound, hc.1, hc.2, update_natCast_eq h fun j => ?_, fun j hj => ?_⟩
      · rw [hent j, if_pos hbit]
      · exact (Function.update_of_ne (by omega) _ _).trans (h.neg j hj)
  | remove id =>
      obtain ⟨i, rfl⟩ := Int.eq_ofNat_of_zero_le hop.1
      obtain ⟨hsound, hd, hb, hent⟩ := remove_spec h.sound hop.2
      obtain rfl := Option.some.inj hstep
      refine ⟨hsound, NodeFiles.covers_of_sizes h.covers hd hb, by rw [hb]; exact h.bmp_le,
        update_natCast_eq h hent, fun j hj => ?_⟩
      exact (Function.update_of_ne (by omega) _ _).trans (h.neg j hj)
  | reopen max_id => exact h.openFiles hop.1 hop.2 hstep

/-- **A whole run**: the store a run ends with holds what its log leaves. -/
lemma deltaRun_holds {max_id open_id : ℤ} (h0 : 0 ≤ max_id) (hlt : max_id < 2 ^ 63)
    (ho0 : 0 ≤ open_id) (holt : open_id < 2 ^ 63) {ops : List StoreOp}
    (hops : ∀ op ∈ ops, op.Sane) {s : OSMMMap} (hrun : deltaRun max_id open_id ops = some s) :
    s.Holds (replay StoreOp.write ops) := by
  simp only [deltaRun, Option.bind_eq_bind, Option.bind_eq_some_iff] at hrun
  obtain ⟨d, hd, s₀, hs₀, hrun⟩ := hrun
  obtain ⟨hsound, hcov, hble, hnone⟩ := createFile_spec ⟨by omega, hlt⟩ hd
  obtain ⟨hsound₀, hcov₀, hent₀⟩ := openFiles_spec hsound ⟨by omega, holt⟩ hs₀
  have hinit : s₀.Holds fun _ => none :=
    ⟨hsound₀, hcov₀ hcov, bmp_le_of_openFiles (hble h0) ho0 holt hs₀,
      fun i => ((hent₀ i).trans (hnone i)).symm, fun _ _ => rfl⟩
  rw [replay]
  refine foldlM_simulation (R := Holds) (P := StoreOp.Sane) ?_ hops hinit hrun
  exact fun s m op s' hop h hstep => step_holds hop h hstep

/-- Under the sanity ceiling every operation succeeds, so long as the
configured ids keep the files inside `off_t`. -/
lemma step_isSome {s : OSMMMap} (hs : s.Sound) {op : StoreOp} (hop : op.Sane)
    (hmax : ∀ m, op = .reopen m → m < 2 ^ 58) : ∃ s', s.step op = some s' ∧ s'.Sound := by
  cases op with
  | update id c =>
      obtain ⟨i, rfl⟩ := Int.eq_ofNat_of_zero_le hop.1
      obtain ⟨t, ht, hsound, -, -, -⟩ := update_spec hs hop.2 c
      exact ⟨t, ht, hsound⟩
  | remove id =>
      obtain ⟨i, rfl⟩ := Int.eq_ofNat_of_zero_le hop.1
      exact ⟨s.remove i, rfl, (remove_spec hs hop.2).1⟩
  | reopen m =>
      obtain ⟨t, ht⟩ := Option.isSome_iff_exists.mp (openFiles_isSome hs hop.1 (hmax m rfl))
      exact ⟨t, ht, (openFiles_spec hs hop.isInt64 ht).1⟩

lemma deltaRun_isSome {max_id open_id : ℤ} (h0 : 0 ≤ max_id) (hlt : max_id < 2 ^ 58)
    (ho0 : 0 ≤ open_id) (holt : open_id < 2 ^ 58) {ops : List StoreOp}
    (hops : ∀ op ∈ ops, op.Sane) (hmax : ∀ m, .reopen m ∈ ops → m < 2 ^ 58) :
    ∃ s, deltaRun max_id open_id ops = some s := by
  obtain ⟨d, hd⟩ := Option.isSome_iff_exists.mp (createFile_isSome h0 hlt)
  have hsound := (createFile_spec ⟨by omega, by omega⟩ hd).1
  obtain ⟨s₀, hs₀⟩ := Option.isSome_iff_exists.mp (openFiles_isSome hsound ho0 holt)
  have hsound₀ := (openFiles_spec hsound ⟨by omega, by omega⟩ hs₀).1
  obtain ⟨s, hs⟩ := foldlM_isSome (P := fun op => op.Sane ∧ ∀ m, op = .reopen m → m < 2 ^ 58)
    (I := fun s : OSMMMap => s.Sound) (fun s op hop hI => step_isSome hI hop.1 hop.2)
    (fun op hop => ⟨hops op hop, fun m hm => hmax m (hm ▸ hop)⟩) hsound₀
  refine ⟨s, ?_⟩
  simp only [deltaRun, hd, hs₀, Option.bind_eq_bind, Option.bind_some]
  exact hs

/-! ### What a store that holds a map answers -/

/-- An entry lies under a natural id that is an `int64_t`. -/
lemma isInt64_of_entry {s : OSMMMap} (hs : s.Sound) {i : ℕ} {c : Coord}
    (h : s.entry i = some c) : IsInt64 i := by
  have hin := hs.inside i (NodeFiles.entry_eq_some_iff.mp h).1
  have hlt := hs.dat_lt
  exact ⟨by omega, by omega⟩

section

variable {s : OSMMMap} (hs : s.Sound) (hb : s.bmp.size ≤ 2 ^ 60)
include hs hb

/-- The ids with a coordinate are those of the entries. -/
lemma select_eq_some_iff {j : ℤ} {c : Coord} :
    IsInt64 j ∧ s.select j = some c ↔ ∃ i : ℕ, j = i ∧ s.entry i = some c := by
  constructor
  · rintro ⟨hj, hsel⟩
    by_cases h0 : 0 ≤ j
    · obtain ⟨i, rfl⟩ := Int.eq_ofNat_of_zero_le h0
      exact ⟨i, rfl, by rw [← select_natCast hs hj.2]; exact hsel⟩
    · rw [select_of_neg hb (not_le.mp h0) hj.1] at hsel
      simp at hsel
  · rintro ⟨i, rfl, hent⟩
    have hj := isInt64_of_entry hs hent
    exact ⟨hj, by rw [select_natCast hs hj.2, hent]⟩

/-- The full scan passes exactly what a lookup finds. -/
lemma mem_forEachPopulated_iff_select (id : ℤ) (c : Coord) :
    (id, c) ∈ s.forEachPopulated ↔ IsInt64 id ∧ s.select id = some c := by
  rw [mem_forEachPopulated hs, select_eq_some_iff hs hb]

/-- `highestPopulatedId` against the lookups. -/
lemma highestPopulatedId_isGreatest :
    (s.highestPopulatedId = -1 ∧ ∀ j, IsInt64 j → s.select j = none)
      ∨ IsGreatest {j | IsInt64 j ∧ s.select j ≠ none} s.highestPopulatedId := by
  rcases highestPopulatedId_spec s with ⟨h, hnone⟩ | ⟨m, h, hm, hmax⟩
  · refine Or.inl ⟨h, fun j hj => ?_⟩
    by_contra hsel
    obtain ⟨c, hc⟩ := Option.ne_none_iff_exists'.mp hsel
    obtain ⟨i, -, hent⟩ := (select_eq_some_iff hs hb).mp ⟨hj, hc⟩
    rw [hnone i] at hent
    simp at hent
  · refine Or.inr ⟨?_, ?_⟩
    · obtain ⟨c, hc⟩ := Option.ne_none_iff_exists'.mp hm
      obtain ⟨hj, hsel⟩ := (select_eq_some_iff hs hb).mpr ⟨m, rfl, hc⟩
      rw [h]
      exact ⟨hj, by rw [hsel]; simp⟩
    · rintro j ⟨hj, hsel⟩
      obtain ⟨c, hc⟩ := Option.ne_none_iff_exists'.mp hsel
      obtain ⟨i, rfl, hent⟩ := (select_eq_some_iff hs hb).mp ⟨hj, hc⟩
      rw [h]
      exact_mod_cast hmax i (by rw [hent]; simp)

/-- Two stores with the same entries answer every lookup alike. -/
lemma select_congr {s' : OSMMMap} (hs' : s'.Sound) (hb' : s'.bmp.size ≤ 2 ^ 60)
    (he : ∀ i, s'.entry i = s.entry i) {j : ℤ} (hj : IsInt64 j) : s'.select j = s.select j := by
  by_cases h0 : 0 ≤ j
  · obtain ⟨i, rfl⟩ := Int.eq_ofNat_of_zero_le h0
    rw [select_natCast hs' hj.2, select_natCast hs hj.2, he]
  · rw [select_of_neg hb' (not_le.mp h0) hj.1, select_of_neg hb (not_le.mp h0) hj.1]

/-- A live grow changes no lookup. -/
lemma select_growMergedIfNeeded {id : ℤ} (h0 : 0 ≤ id)
    (hid : id ≤ kMaxSaneNodeId) : ∃ s', s.growMergedIfNeeded id = some s'
      ∧ ∀ j, IsInt64 j → s'.select j = s.select j := by
  obtain ⟨i, rfl⟩ := Int.eq_ofNat_of_zero_le h0
  obtain ⟨s', hs', hsound, -, hent, hcov⟩ := growMergedIfNeeded_spec hs hid
  refine ⟨s', hs', fun j hj => select_congr hs hb hsound ?_ hent hj⟩
  rcases hcov with ⟨-, hb'⟩ | rfl
  · exact hb'
  · exact hb

/-- Reopening changes no lookup. -/
lemma select_openFiles {s' : OSMMMap} {m : ℤ} (h0 : 0 ≤ m) (hm : m < 2 ^ 63)
    (h : openFiles s.toNodeFiles m = some s') {j : ℤ} (hj : IsInt64 j) :
    s'.select j = s.select j := by
  obtain ⟨hsound, -, hent⟩ := openFiles_spec hs ⟨by omega, hm⟩ h
  exact select_congr hs hb hsound (bmp_le_of_openFiles hb h0 hm h) hent hj

end

/-- A value of the replayed log is the last `update` of its id, with no later
`remove`. -/
lemma replay_write_eq_some_iff {ops : List StoreOp} {j : ℤ} {c : Coord} :
    replay StoreOp.write ops j = some c ↔ ∃ pre post, ops = pre ++ .update j c :: post
      ∧ ∀ op ∈ post, op.id? ≠ some j := by
  rw [replay_eq_some_iff]
  constructor
  · rintro ⟨pre, e, post, rfl, he, hpost⟩
    rw [StoreOp.write_eq_some_some_iff] at he
    subst he
    exact ⟨pre, post, rfl, fun op hop => StoreOp.forall_write_ne_iff.mp (hpost op hop)⟩
  · rintro ⟨pre, post, rfl, hpost⟩
    exact ⟨pre, _, post, rfl, rfl, fun op hop => StoreOp.forall_write_ne_iff.mpr (hpost op hop)⟩

/-- **The node store in delta mode refines a finite map.**  For every sequence
of updates, removals and reopenings with ids in the sane range, on files created
for any `max_id`: a lookup finds the last update of its id not followed by a
removal, the scan passes exactly these ids, each once and ascending, the largest
populated id is their maximum or `-1`, and no growth of either file, live or at
a reopening, changes a lookup.  The run itself fails only where a configured id
asks for files beyond the range of `off_t`. -/
theorem delta_mode_refines_map {max_id open_id : ℤ} (h0 : 0 ≤ max_id) (hlt : max_id < 2 ^ 63)
    (ho0 : 0 ≤ open_id) (holt : open_id < 2 ^ 63) {ops : List StoreOp}
    (hops : ∀ op ∈ ops, op.Sane) :
    (max_id < 2 ^ 58 → open_id < 2 ^ 58 → (∀ m, .reopen m ∈ ops → m < 2 ^ 58) →
      ∃ s, deltaRun max_id open_id ops = some s)
    ∧ ∀ s, deltaRun max_id open_id ops = some s →
      (∀ j, IsInt64 j → ∀ c, s.select j = some c ↔
        ∃ pre post, ops = pre ++ .update j c :: post ∧ ∀ op ∈ post, op.id? ≠ some j)
      ∧ (s.forEachPopulated.map Prod.fst).Pairwise (· < ·)
      ∧ (∀ id c, (id, c) ∈ s.forEachPopulated ↔ IsInt64 id ∧ s.select id = some c)
      ∧ ((s.highestPopulatedId = -1 ∧ ∀ j, IsInt64 j → s.select j = none)
        ∨ IsGreatest {j | IsInt64 j ∧ s.select j ≠ none} s.highestPopulatedId)
      ∧ (∀ id, 0 ≤ id → id ≤ kMaxSaneNodeId → ∃ s', s.growMergedIfNeeded id = some s'
        ∧ ∀ j, IsInt64 j → s'.select j = s.select j)
      ∧ ∀ m s', 0 ≤ m → m < 2 ^ 63 → openFiles s.toNodeFiles m = some s' →
        ∀ j, IsInt64 j → s'.select j = s.select j := by
  refine ⟨fun hm ho hmax => deltaRun_isSome h0 hm ho0 ho hops hmax, fun s hrun => ?_⟩
  have hholds := deltaRun_holds h0 hlt ho0 holt hops hrun
  obtain ⟨hs, -, hb, -, -⟩ := id hholds
  refine ⟨fun j hj c => ?_,
    List.pairwise_map.mpr (pairwise_forEachPopulatedRange s 0 s.bmp.size),
    mem_forEachPopulated_iff_select hs hb, highestPopulatedId_isGreatest hs hb,
    fun id h0 hid => select_growMergedIfNeeded hs hb h0 hid,
    fun m s' hm hm' h j hj => select_openFiles hs hb hm hm' h hj⟩
  rw [hholds.select_eq hj, replay_write_eq_some_iff]

/-- The refinement at work: a store made for 63 ids, grown live for node 70,
reopened for fewer and cleared again. -/
theorem delta_mode_refines_map_grown :
    ∃ s, deltaRun 63 63 [.update 5 ⟨1, 2⟩, .update 70 ⟨3, 4⟩, .reopen 9, .remove 5] = some s
      ∧ s.select 70 = some ⟨3, 4⟩ ∧ s.select 5 ≠ some ⟨1, 2⟩ := by
  have hops : ∀ op ∈ [StoreOp.update 5 ⟨1, 2⟩, .update 70 ⟨3, 4⟩, .reopen 9, .remove 5],
      op.Sane := by
    simp [StoreOp.Sane, kMaxSaneNodeId]
  obtain ⟨hsome, hall⟩ := delta_mode_refines_map (by norm_num : (0 : ℤ) ≤ 63) (by norm_num)
    (by norm_num : (0 : ℤ) ≤ 63) (by norm_num) hops
  obtain ⟨s, hs⟩ := hsome (by norm_num) (by norm_num) (by simp)
  refine ⟨s, hs, ((hall s hs).1 70 (by decide) ⟨3, 4⟩).mpr ?_, fun h => ?_⟩
  · exact ⟨[.update 5 ⟨1, 2⟩], [.reopen 9, .remove 5], rfl, by simp [StoreOp.id?]⟩
  · obtain ⟨pre, post, heq, hpost⟩ := ((hall s hs).1 5 (by decide) ⟨1, 2⟩).mp h
    have hmem : StoreOp.remove 5 ∈ post := by
      rcases pre with _ | ⟨_, _ | ⟨_, _ | ⟨_, _ | ⟨_, _⟩⟩⟩⟩ <;> simp at heq
      rw [← heq]
      simp
    exact hpost _ hmem rfl

end OSMMMap

end Gpsxdb
