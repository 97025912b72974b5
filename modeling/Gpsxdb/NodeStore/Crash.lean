import Mathlib.Tactic
import Gpsxdb.NodeStore.Scans
import Gpsxdb.NodeStore.Refinement

/-!
Death of the process inside a live grow of the node store.

* `crashInGrow`: the files left on disk, by where the process dies between the
  two `ftruncate`s of `growMergedIfNeeded`; `crashAndReopen` opens them again;
* `Ready`: both lengths are in range and the bitmap covers `.dat`;
  `updatesStick_iff_covers`: this is exactly what makes every later update
  readable;
* `Survives`: the crashes after which the bitmap still covers `.dat`, extended
  for the largest id of the reopening or long enough as it was;
* `updatesStick_of_reached`: in a run whose crashes all survive no update is
  ever dropped, and the next crash drops one exactly when it does not survive;
* `update_lost_after_crash`: the tiny window at work.
-/

namespace Gpsxdb

/-- Where the process dies inside `growMergedIfNeeded`. -/
inductive CrashPoint where
  | before
  | between
  | after

namespace OSMMMap

/-- The files on disk after the process died inside `growMergedIfNeeded`: before
the first `ftruncate`, between the two, or after the second. -/
def crashInGrow (s : OSMMMap) (id : ℤ) : CrashPoint → Option NodeFiles
  | .before => some s.toNodeFiles
  | .between => if s.needsGrow id then (s.growDat id).map toNodeFiles else some s.toNodeFiles
  | .after => (s.growMergedIfNeeded id).map toNodeFiles

/-- The next process opens the files left behind. -/
def crashAndReopen (s : OSMMMap) (id : ℤ) (p : CrashPoint) (max_id : ℤ) : Option OSMMMap := do
  let d ← s.crashInGrow id p
  openFiles d max_id

/-- No update is dropped: every id in the sane range reads back what a next
`update` stores, and the scan visits it. -/
def UpdatesStick (s : OSMMMap) : Prop :=
  ∀ id c, 0 ≤ id → id ≤ kMaxSaneNodeId →
    ∃ s', s.update id c = some s' ∧ s'.select id = some c ∧ (id, c) ∈ s'.forEachPopulated

/-- The states of runs whose crashes all meet a condition: updates and removals
of any ids, reopenings for any largest id, and deaths inside a grow. -/
inductive Reached (ok : OSMMMap → ℤ → CrashPoint → ℤ → Prop) : OSMMMap → Prop
  | opened {max_id open_id : ℤ} {d : NodeFiles} {s : OSMMMap} :
      IsInt64 max_id → IsInt64 open_id → createFile max_id = some d →
      openFiles d open_id = some s → Reached ok s
  | update {s s' : OSMMMap} {id : ℤ} {c : Coord} :
      Reached ok s → IsInt64 id → s.update id c = some s' → Reached ok s'
  | remove {s : OSMMMap} {id : ℤ} : Reached ok s → IsInt64 id → Reached ok (s.remove id)
  | reopen {s s' : OSMMMap} {max_id : ℤ} :
      Reached ok s → IsInt64 max_id → openFiles s.toNodeFiles max_id = some s' → Reached ok s'
  | crash {s s' : OSMMMap} {id max_id : ℤ} {p : CrashPoint} :
      Reached ok s → 0 ≤ id → IsInt64 id → IsInt64 max_id → ok s id p max_id →
      s.crashAndReopen id p max_id = some s' → Reached ok s'

/-! ### Lengths decide -/

/-- Both lengths are in range, and the bitmap covers `.dat`. -/
structure Ready (d : NodeFiles) : Prop where
  dat_lt : d.dat.size < 2 ^ 63
  bmp_lt : d.bmp.size < 2 ^ 63
  covers : d.Covers

lemma Ready.of_sizes {d e : NodeFiles} (h : Ready d) (hd : e.dat.size = d.dat.size)
    (hb : e.bmp.size = d.bmp.size) : Ready e :=
  ⟨hd ▸ h.dat_lt, hb ▸ h.bmp_lt, NodeFiles.covers_of_sizes h.covers hd hb⟩

/-- A live grow of any id: the files stay as they are, or end covered. -/
lemma ready_growMergedIfNeeded {s : OSMMMap} (h : Ready s.toNodeFiles) {id : ℤ} (h0 : 0 ≤ id)
    {s' : OSMMMap} (hs' : s.growMergedIfNeeded id = some s') : Ready s'.toNodeFiles := by
  obtain ⟨i, rfl⟩ := Int.eq_ofNat_of_zero_le h0
  by_cases hi : (i : ℤ) ≤ kMaxSaneNodeId
  · rcases Nat.lt_or_ge s.dat.size ((i + 1) * 16) with hg | hg
    · obtain ⟨-, -, hlt⟩ := newDataSize_bounds s hi hg
      have hbm : s.newBmSize i < 2 ^ 60 := by rw [newBmSize, recSize]; omega
      obtain rfl := Option.some.inj ((growMergedIfNeeded_of_lt s hi hg).symm.trans hs')
      exact ⟨by simp only [MappedFile.size_resize]; omega,
        by simp only [MappedFile.size_resize]; omega, fun j _ hj => lt_newBmSize s hj⟩
    · obtain rfl := Option.some.inj ((growMergedIfNeeded_of_le s hi hg).symm.trans hs')
      exact h
  · have hno : s.needsGrow i = false := by simp [needsGrow, hi]
    rw [growMergedIfNeeded, hno] at hs'
    obtain rfl := Option.some.inj hs'
    exact h

/-- An update keeps the files ready. -/
lemma ready_update {s s' : OSMMMap} (h : Ready s.toNodeFiles) {id : ℤ} {c : Coord}
    (hs' : s.update id c = some s') : Ready s'.toNodeFiles := by
  rw [update] at hs'
  split at hs'
  · obtain rfl := Option.some.inj hs'
    exact h
  · rw [Option.bind_eq_bind, Option.bind_eq_some_iff] at hs'
    obtain ⟨t, ht, hs'⟩ := hs'
    have hready := ready_growMergedIfNeeded h (by omega) ht
    split at hs'
    · obtain rfl := Option.some.inj hs'
      exact hready
    · obtain rfl := Option.some.inj hs'
      exact hready.of_sizes rfl (size_bitmapSet _ _)

/-- A removal changes neither length. -/
lemma ready_remove {s : OSMMMap} (h : Ready s.toNodeFiles) (id : ℤ) :
    Ready (s.remove id).toNodeFiles := by
  rw [remove]
  split
  · exact h
  · split
    · exact h
    · exact h.of_sizes rfl (by simp only; split <;> rfl)

/-- The lengths after an opening. -/
lemma sizes_openFiles {d : NodeFiles} {m : ℤ} {s : OSMMMap} (h : openFiles d m = some s) :
    s.dat.size = max (dataSize m) d.dat.size ∧ s.bmp.size = max (bitmapSize m) d.bmp.size := by
  obtain ⟨hdat, hbmp, -⟩ := openFiles_eq_some h
  exact ⟨(growFileIfNeeded_spec hdat).1, (growFileIfNeeded_spec hbmp).1⟩

/-- What an opening adds to `.dat` the bitmap it opens covers, so the pair it
opens covers exactly when the old `.dat` is covered. -/
lemma covers_openFiles_iff {d : NodeFiles} {m : ℤ} (hm : IsInt64 m) {s : OSMMMap}
    (hd : d.dat.size < 2 ^ 63) (h : openFiles d m = some s) :
    s.Covers ↔ ∀ i : ℕ, (i : ℤ) ≤ kMaxSaneNodeId → (i + 1) * 16 ≤ d.dat.size →
      i / 8 < max (bitmapSize m) d.bmp.size := by
  obtain ⟨hdsz, hbsz⟩ := sizes_openFiles h
  have hlt := growFileIfNeeded_lt hd (openFiles_eq_some h).1
  rw [NodeFiles.Covers, hdsz, hbsz]
  constructor
  · exact fun hc i hi hle => hc i hi (hle.trans (le_max_right _ _))
  · intro hc i hi hle
    rcases Nat.lt_or_ge d.dat.size ((i + 1) * 16) with hold | hold
    · have := lt_bitmapSize hm (by omega) (by omega : (i + 1) * 16 ≤ dataSize m)
      omega
    · exact hc i hi hold

lemma ready_openFiles {d : NodeFiles} {m : ℤ} {s : OSMMMap}
    (hd : d.dat.size < 2 ^ 63) (hb : d.bmp.size < 2 ^ 63) (h : openFiles d m = some s)
    (hc : s.Covers) : Ready s.toNodeFiles := by
  obtain ⟨hdat, hbmp, -⟩ := openFiles_eq_some h
  exact ⟨growFileIfNeeded_lt hd hdat, growFileIfNeeded_lt hb hbmp, hc⟩

/-- Reopening keeps the files ready. -/
lemma Ready.openFiles {d : NodeFiles} (h : Ready d) {m : ℤ} (hm : IsInt64 m) {s : OSMMMap}
    (ho : OSMMMap.openFiles d m = some s) : Ready s.toNodeFiles :=
  ready_openFiles h.dat_lt h.bmp_lt ho ((covers_openFiles_iff hm h.dat_lt ho).mpr
    fun i hi hle => (h.covers i hi hle).trans_le (le_max_right _ _))

/-! ### Updates stick exactly when the bitmap covers `.dat` -/

/-- On ready files an update of a sane id is found and visited. -/
lemma update_sticks {s : OSMMMap} (h : Ready s.toNodeFiles) {i : ℕ}
    (hi : (i : ℤ) ≤ kMaxSaneNodeId) (c : Coord) :
    ∃ s', s.update i c = some s' ∧ s'.select i = some c ∧ ((i : ℤ), c) ∈ s'.forEachPopulated := by
  obtain ⟨t, ht, hsz⟩ : ∃ t, s.growMergedIfNeeded i = some t ∧ (i + 1) * 16 ≤ t.dat.size := by
    rcases Nat.lt_or_ge s.dat.size ((i + 1) * 16) with hg | hg
    · exact ⟨_, growMergedIfNeeded_of_lt s hi hg, (newDataSize_bounds s hi hg).1⟩
    · exact ⟨s, growMergedIfNeeded_of_le s hi hg, hg⟩
  have hready := ready_growMergedIfNeeded h (by omega) ht
  refine ⟨_, update_eq hi ht hsz c, ?_⟩
  generalize hs' : ({ t with
    dat := writeCoord t.dat (recOffset i) c, bmp := bitmapSet t.bmp i } : OSMMMap) = s'
  have hoff : recOffset i = 16 * i := recOffset_natCast (by rw [kMaxSaneNodeId] at hi; omega)
  have hlt : s'.dat.size < 2 ^ 63 := hs' ▸ hready.dat_lt
  have hin : (i + 1) * 16 ≤ s'.dat.size := hs' ▸ hsz
  have hpop : s'.populated i = true := by
    rw [← hs', populated_bitmapSet _ _ (by rw [kMaxSaneNodeId] at hi; omega), if_pos rfl]
    exact decide_eq_true (hready.covers i hi hsz)
  have hcoord : s'.coordAt i = c := by
    rw [← hs', hoff, coordAt_writeCoord, if_pos rfl]
  have hsel := select_of_populated hlt hpop hin
  have hvis := mem_forEachPopulated_of_populated hlt hpop hin
  rw [hcoord] at hsel hvis
  exact ⟨hsel, hvis⟩

/-- An update of an id whose record is inside `.dat` but past the bitmap is
dropped: the fast path of the grow looks at `.dat` alone. -/
lemma select_update_of_not_covered {s : OSMMMap} {i : ℕ} (hi : (i : ℤ) ≤ kMaxSaneNodeId)
    (hsz : (i + 1) * 16 ≤ s.dat.size) (hb : s.bmp.size ≤ i / 8) (c : Coord) :
    ∃ s', s.update i c = some s' ∧ s'.select i = none := by
  refine ⟨_, update_eq hi (growMergedIfNeeded_of_le s hi hsz) hsz c, ?_⟩
  rw [kMaxSaneNodeId] at hi
  refine select_of_not_populated (by omega) ?_
  rw [populated_bitmapSet _ _ (by omega), if_pos rfl]
  exact decide_eq_false (not_lt.mpr hb)

/-- **Coverage is what makes updates stick.** -/
lemma updatesStick_iff_covers {s : OSMMMap} (hd : s.dat.size < 2 ^ 63)
    (hb : s.bmp.size < 2 ^ 63) : s.UpdatesStick ↔ s.Covers := by
  constructor
  · intro h i hi hsz
    by_contra hbit
    obtain ⟨s', hs', hsel, -⟩ := h i ⟨0, 0⟩ (by omega) hi
    obtain ⟨t, ht, hnone⟩ := select_update_of_not_covered hi hsz (not_lt.mp hbit) ⟨0, 0⟩
    obtain rfl := Option.some.inj (ht.symm.trans hs')
    rw [hnone] at hsel
    simp at hsel
  · intro hc id c h0 hid
    obtain ⟨i, rfl⟩ := Int.eq_ofNat_of_zero_le h0
    exact update_sticks ⟨hd, hb, hc⟩ hid c

/-! ### The crashes that survive -/

/-- The condition on a crash: no grow was cut between its two halves, or the
bitmap on disk, extended for the largest id of the reopening, has a bit for
every sane id the extended `.dat` has a record for. -/
def Survives (s : OSMMMap) (id : ℤ) (p : CrashPoint) (max_id : ℤ) : Prop :=
  p = .between → s.needsGrow id →
    min (s.newDataSize id / recSize) (kMaxSaneNodeId.toNat + 1)
      ≤ 8 * max (bitmapSize max_id) s.bmp.size

/-- The files a crash leaves: ready, or `.dat` alone has been extended. -/
lemma crashInGrow_cases {s : OSMMMap} (h : Ready s.toNodeFiles) {id : ℤ} (h0 : 0 ≤ id)
    {p : CrashPoint} {d : NodeFiles} (hd : s.crashInGrow id p = some d) :
    (¬(p = .between ∧ s.needsGrow id) ∧ Ready d)
      ∨ p = .between ∧ s.needsGrow id ∧ d.dat.size = s.newDataSize id
        ∧ s.newDataSize id < 2 ^ 62 ∧ d.bmp.size = s.bmp.size := by
  cases p with
  | before =>
      obtain rfl := Option.some.inj hd
      exact Or.inl ⟨by simp, h⟩
  | after =>
      rw [crashInGrow, Option.map_eq_some_iff] at hd
      obtain ⟨s', hs', rfl⟩ := hd
      exact Or.inl ⟨by simp, ready_growMergedIfNeeded h h0 hs'⟩
  | between =>
      rw [crashInGrow] at hd
      split at hd
      · rename_i hg
        obtain ⟨i, rfl⟩ := Int.eq_ofNat_of_zero_le h0
        have hi : (i : ℤ) ≤ kMaxSaneNodeId := by
          rw [needsGrow, Bool.and_eq_true, decide_eq_true_eq] at hg
          exact hg.1
        have hsz := hg
        rw [needsGrow_natCast s hi, decide_eq_true_eq] at hsz
        obtain ⟨-, -, hlt⟩ := newDataSize_bounds s hi hsz
        rw [growDat, MappedFile.ftruncate_eq_some _ (by omega)] at hd
        obtain rfl := Option.some.inj hd
        exact Or.inr ⟨rfl, hg, rfl, hlt, rfl⟩
      · rename_i hg
        obtain rfl := Option.some.inj hd
        exact Or.inl ⟨fun h' => hg h'.2, h⟩

/-- **A crash and the reopening**: from ready files every later update sticks
exactly when the crash survives. -/
lemma crashAndReopen_spec {s : OSMMMap} (h : Ready s.toNodeFiles) {id max_id : ℤ}
    (h0 : 0 ≤ id) (hm : IsInt64 max_id) {p : CrashPoint} {s' : OSMMMap}
    (hs' : s.crashAndReopen id p max_id = some s') :
    (s'.UpdatesStick ↔ Survives s id p max_id)
      ∧ (Survives s id p max_id → Ready s'.toNodeFiles) := by
  rw [crashAndReopen, Option.bind_eq_bind, Option.bind_eq_some_iff] at hs'
  obtain ⟨d, hd, hopen⟩ := hs'
  rcases crashInGrow_cases h h0 hd with ⟨hno, hready⟩ | ⟨rfl, hg, hdsz, hlt, hbsz⟩
  · have hs'ready := hready.openFiles hm hopen
    have hsurv : Survives s id p max_id := fun hp hg => absurd ⟨hp, hg⟩ hno
    refine ⟨?_, fun _ => hs'ready⟩
    rw [updatesStick_iff_covers hs'ready.dat_lt hs'ready.bmp_lt]
    exact iff_of_true hs'ready.covers hsurv
  · have hdlt : d.dat.size < 2 ^ 63 := by omega
    have hblt : d.bmp.size < 2 ^ 63 := hbsz ▸ h.bmp_lt
    obtain ⟨hdat, hbmp, -⟩ := openFiles_eq_some hopen
    -- the bitmap has a bit for each of the first `n` ids iff `n` is at most its bits
    have hiff : s'.Covers ↔ Survives s id .between max_id := by
      rw [covers_openFiles_iff hm hdlt hopen, hdsz, hbsz]
      constructor
      · intro hc _ _
        rw [recSize]
        by_contra hcon
        have hi := hc (min (s.newDataSize id / 16) (kMaxSaneNodeId.toNat + 1) - 1)
          (by rw [kMaxSaneNodeId]; omega) (by omega)
        omega
      · intro hsurv i hi hle
        have hmin := hsurv rfl hg
        rw [recSize] at hmin
        have : i + 1 ≤ kMaxSaneNodeId.toNat + 1 := by omega
        omega
    refine ⟨?_, fun hsurv => ready_openFiles hdlt hblt hopen (hiff.mpr hsurv)⟩
    rw [updatesStick_iff_covers (growFileIfNeeded_lt hdlt hdat) (growFileIfNeeded_lt hblt hbmp)]
    exact hiff

/-- Every state of a run whose crashes survive is ready. -/
lemma ready_of_reached {s : OSMMMap} (h : Reached Survives s) : Ready s.toNodeFiles := by
  induction h with
  | opened hm ho hd hs =>
      obtain ⟨hsound, hcov, -, -⟩ := createFile_spec hm hd
      exact Ready.openFiles ⟨hsound.dat_lt, hsound.bmp_lt, hcov⟩ ho hs
  | update _ _ hs' ih => exact ready_update ih hs'
  | remove _ _ ih => exact ready_remove ih _
  | reopen _ hm hs' ih => exact ih.openFiles hm hs'
  | crash _ h0 _ hm hok hs' ih => exact (crashAndReopen_spec ih h0 hm hs').2 hok

/-- **Durability of growth.**  In every run of updates, removals, reopenings and
deaths inside a grow, so long as each death survives, every state reached drops
no update; and a further death, followed by a reopening for any largest id,
leaves a store that drops none exactly when it survives. -/
theorem updatesStick_of_reached {s : OSMMMap} (h : Reached Survives s) :
    s.UpdatesStick ∧ ∀ id p max_id s', 0 ≤ id → IsInt64 id → IsInt64 max_id →
      s.crashAndReopen id p max_id = some s' →
      (s'.UpdatesStick ↔ Survives s id p max_id) := by
  have hready := ready_of_reached h
  exact ⟨(updatesStick_iff_covers hready.dat_lt hready.bmp_lt).mpr hready.covers,
    fun id p max_id s' h0 _ hm hs' => (crashAndReopen_spec hready h0 hm hs').1⟩

/-- A store created and opened for the ids up to 100. -/
def opened100 : OSMMMap := ⟨⟨.blank 1616, .blank 13⟩, 100⟩

lemma reached_opened100 (ok : OSMMMap → ℤ → CrashPoint → ℤ → Prop) : Reached ok opened100 :=
  Reached.opened (by decide : IsInt64 100) (by decide : IsInt64 100)
    (rfl : createFile 100 = some ⟨.blank 1616, .blank 13⟩) rfl

/-- A death between the two halves of a grow for node 10000, then a reopening
for two million ids, drops nothing. -/
theorem updatesStick_of_reached_wide :
    ∃ s', opened100.crashAndReopen 10000 .between 2000000 = some s' ∧ s'.UpdatesStick := by
  have hok : Survives opened100 10000 .between 2000000 := fun _ _ => by decide
  exact ⟨_, rfl, (updatesStick_of_reached (Reached.crash (reached_opened100 Survives)
    (by norm_num) (by decide) (by decide) hok rfl)).1⟩

/-- **The window.**  A death between the two halves of the same grow leaves a
`.dat` for a million ids under a bitmap for 104; after the reopening the update
of node 500 takes the fast path and is silently dropped. -/
theorem update_lost_after_crash :
    ∃ s s' t, Reached (fun _ _ _ _ => True) s
      ∧ s.crashAndReopen 10000 .between 100 = some s'
      ∧ s'.update 500 ⟨1, 2⟩ = some t ∧ t.select 500 = none :=
  ⟨opened100, _, _, reached_opened100 _, rfl, rfl, by decide⟩

end OSMMMap

end Gpsxdb
