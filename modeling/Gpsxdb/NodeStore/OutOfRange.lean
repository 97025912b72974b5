import Mathlib.Tactic
import Gpsxdb.NodeStore.Crash

/-!
Ids outside `nodes.dat`.

* `recordOf`: the record an access to an id is made to, its offset being taken
  modulo `2 ^ 64`; `pastEnd_iff`: what the bounds test lets through;
* `Uncovered`, `Inert`: the ids without a record, and what it means that they
  change nothing;
* `Harmless`: the accesses that the bounds test stops, or that fall on a record
  nobody reads; `inert_iff_harmless`: **these are exactly the inert ones**;
* `Sized`, `sized_of_reached`: what every run keeps, accesses with wrapped offsets
  and deaths inside a grow included;
* `inert_of_reached`: **out-of-range ids in every run**;
* `update_overwrites`: an id of `2 ^ 60` and the node of id `0`.
-/

namespace Gpsxdb

namespace OSMMMap

/-! ### Offsets that wrap -/

/-- The record an access to an id is made to. -/
def recordOf (id : ℤ) : ℕ := recOffset id / recSize

lemma recordOf_eq (id : ℤ) : recordOf id = toSize id % 2 ^ 60 := by
  rw [recordOf, recOffset, wrapSize, recSize]
  omega

lemma recOffset_eq (id : ℤ) : recOffset id = 16 * recordOf id := by
  rw [recordOf, recOffset, wrapSize, recSize]
  omega

lemma recordOf_lt (id : ℤ) : recordOf id < 2 ^ 60 := by
  rw [recordOf_eq]
  exact Nat.mod_lt _ (by norm_num)

/-- The bounds test stops an access past the end, but not one at the last record
below `2 ^ 64`, whose end wraps to zero. -/
lemma pastEnd_iff (s : OSMMMap) (id : ℤ) : s.pastEnd (recOffset id) = true
    ↔ recordOf id ≠ 2 ^ 60 - 1 ∧ s.dat.size < 16 * (recordOf id + 1) := by
  have hlt := recordOf_lt id
  rw [pastEnd, recOffset_eq, decide_eq_true_eq, wrapSize, recSize]
  omega

/-! ### Ids without a record -/

/-- The id is negative, or its record is not covered by `.dat`. -/
def Uncovered (s : OSMMMap) (id : ℤ) : Prop := id < 0 ∨ (s.dat.size : ℤ) < 16 * (id + 1)

/-- An id changes nothing: neither its removal, nor its update where it is
negative or above the sanity ceiling, and it is not found.  An access that is
made stays inside the mapping. -/
structure Inert (s : OSMMMap) (id : ℤ) : Prop where
  inside : 0 ≤ id → s.pastEnd (recOffset id) = false → recOffset id + recSize ≤ s.dat.size
  remove : ∀ j, IsInt64 j → (s.remove id).select j = s.select j
  update : id < 0 ∨ kMaxSaneNodeId < id → ∀ c, ∃ s', s.update id c = some s'
    ∧ ∀ j, IsInt64 j → s'.select j = s.select j
  select : s.select id = none

/-- The access is not made, or it is made inside the mapping, to a record that no
id with its bit set is read from, and the bitmap ends before the id's own bit. -/
def Harmless (s : OSMMMap) (id : ℤ) : Prop :=
  id < 0 ∨ s.pastEnd (recOffset id) = true
    ∨ (recOffset id + recSize ≤ s.dat.size
      ∧ (∀ q < 8, s.populated (recordOf id + 2 ^ 60 * q) = false)
      ∧ s.bmp.size ≤ toSize id / 8)

instance (s : OSMMMap) (id : ℤ) : Decidable (s.Harmless id) :=
  inferInstanceAs (Decidable (_ ∨ _))

/-- Both lengths are in range, and no bit is set for a negative id. -/
structure Sized (d : NodeFiles) : Prop where
  dat_lt : d.dat.size < 2 ^ 63
  bmp_lt : d.bmp.size < 2 ^ 63
  nonneg : ∀ i, d.populated i → i < 2 ^ 63

/-! ### Lookups -/

lemma bitmapGet_eq (s : OSMMMap) (id : ℤ) : bitmapGet s.bmp id = s.populated (toSize id) := by
  rw [bitmapGet, NodeFiles.populated]
  by_cases h : toSize id / 8 < s.bmp.size
  · simp [h, not_le.mpr h]
  · simp [h, not_lt.mp h]

variable {s : OSMMMap} {id : ℤ}

/-- **A lookup** of any id: its bit and the record its offset wraps to. -/
lemma select_eq (s : OSMMMap) (id : ℤ) : s.select id
    = if s.populated (toSize id) = true ∧ s.pastEnd (recOffset id) = false
      then some (s.coordAt (recordOf id)) else none := by
  have hread : s.readCoord (recOffset id) = s.coordAt (recordOf id) := by
    rw [readCoord, NodeFiles.coordAt, recOffset_eq]
    congr 2 <;> omega
  rw [select, bitmapGet_eq, hread]
  cases s.populated (toSize id) <;> cases s.pastEnd (recOffset id) <;> rfl

lemma select_of_clear (h : s.populated (toSize id) = false) : s.select id = none := by
  rw [select_eq, h]
  rfl

/-- A negative id is not found. -/
lemma Sized.select_of_neg (hs : Sized s.toNodeFiles) (hid : IsInt64 id) (h : id < 0) :
    s.select id = none := by
  refine select_of_clear ?_
  by_contra hp
  have hlt := hs.nonneg (toSize id) (by simpa using hp)
  have hle := le_toSize_of_neg h hid.1
  omega

/-! ### Accesses that are stopped -/

lemma remove_of_stopped (h : id < 0 ∨ s.pastEnd (recOffset id) = true) : s.remove id = s := by
  rw [remove]
  split
  · rfl
  · rw [if_pos (h.resolve_left ‹_›)]

/-- An id above the ceiling does not grow the files. -/
lemma growMergedIfNeeded_of_insane (h : kMaxSaneNodeId < id) :
    s.growMergedIfNeeded id = some s := by
  have hno : s.needsGrow id = false := by simp [needsGrow, not_le.mpr h]
  rw [growMergedIfNeeded, hno]
  rfl

lemma update_of_stopped (hsane : id < 0 ∨ kMaxSaneNodeId < id)
    (h : id < 0 ∨ s.pastEnd (recOffset id) = true) (c : Coord) : s.update id c = some s := by
  rw [update]
  split
  · rfl
  · rename_i h0
    rw [growMergedIfNeeded_of_insane (hsane.resolve_left h0), Option.bind_eq_bind, Option.bind_some,
      if_pos (h.resolve_left h0)]

/-- An access that is stopped is inert. -/
lemma inert_of_stopped (hs : Sized s.toNodeFiles) (hid : IsInt64 id)
    (h : id < 0 ∨ s.pastEnd (recOffset id) = true) : Inert s id where
  inside h0 hend := by
    rw [h.resolve_left (by omega)] at hend
    simp at hend
  remove j _ := by rw [remove_of_stopped h]
  update hsane c := ⟨s, update_of_stopped hsane h c, fun _ _ => rfl⟩
  select := by
    rcases h with hneg | hend
    · exact hs.select_of_neg hid hneg
    · rw [select_eq, hend]
      simp

/-! ### Accesses that are made -/

/-- An access has written `c` to the record of an id, left every bit but the id's
own alone, and kept the length of `.dat`. -/
structure Wrote (s s' : OSMMMap) (id : ℤ) (c : Coord) (bit : Bool) : Prop where
  size : s'.dat.size = s.dat.size
  coordAt : ∀ k, s'.coordAt k = if k = recordOf id then c else s.coordAt k
  populated : ∀ i, s'.populated i = if i = toSize id then bit else s.populated i

/-- The stored bitmap after one bit, below its end or not. -/
lemma populated_bitmapSet_toSize (dat : MappedFile Double) (bm : MappedFile UInt8) (id : ℤ)
    (i : ℕ) : (⟨dat, bitmapSet bm id⟩ : NodeFiles).populated i
      = if i = toSize id then decide (toSize id / 8 < bm.size)
        else (⟨dat, bm⟩ : NodeFiles).populated i := by
  rw [bitmapSet]
  by_cases hlt : toSize id / 8 < bm.size
  · rw [if_neg (not_le.mpr hlt), populated_store dat bm hlt (v := true)]
    · rw [decide_eq_true hlt]
    · rw [bitOf_setBit _ (by omega) (by omega)]
      simp
    · intro k hk hne
      rw [bitOf_setBit _ (by omega) hk]
      simp [Ne.symm hne]
  · rw [if_pos (not_lt.mp hlt), decide_eq_false hlt]
    split
    · subst i
      simp [NodeFiles.populated, hlt]
    · rfl

/-- **`update`** of an id above the ceiling that the bounds test lets through: the
record is written all the same. -/
lemma update_wrote (h0 : 0 ≤ id) (hsane : kMaxSaneNodeId < id)
    (hend : s.pastEnd (recOffset id) = false) (c : Coord) :
    ∃ s', s.update id c = some s'
      ∧ Wrote s s' id c (decide (toSize id / 8 < s.bmp.size)) := by
  refine ⟨{ s with dat := writeCoord s.dat (recOffset id) c, bmp := bitmapSet s.bmp id }, ?_, rfl,
    fun k => ?_, populated_bitmapSet_toSize _ _ id⟩
  · rw [update, if_neg (by omega), growMergedIfNeeded_of_insane hsane, Option.bind_eq_bind,
      Option.bind_some, hend]
    rfl
  · rw [recOffset_eq]
    exact coordAt_writeCoord s.toNodeFiles _ _ _ _

/-- **`remove`** of an id that the bounds test lets through. -/
lemma remove_wrote (h0 : 0 ≤ id) (hend : s.pastEnd (recOffset id) = false) :
    Wrote s (s.remove id) id ⟨0, 0⟩ false := by
  rw [remove, if_neg (by omega), hend]
  refine ⟨rfl, fun k => ?_, fun i => ?_⟩
  · rw [recOffset_eq]
    exact coordAt_writeCoord s.toNodeFiles _ _ _ _
  · simp only [Bool.false_eq_true, if_false]
    by_cases hlt : toSize id / 8 < s.bmp.size
    · rw [if_pos hlt]
      refine populated_store _ s.bmp hlt ?_ (fun k hk hne => ?_) i
      · rw [bitOf_clearBit _ (by omega) (by omega)]
        simp
      · rw [bitOf_clearBit _ (by omega) hk]
        simp [Ne.symm hne]
    · rw [if_neg hlt]
      split
      · subst i
        simp [NodeFiles.populated, hlt]
      · rfl

/-- A write to a record nobody reads changes no lookup. -/
lemma Wrote.select_eq {s' : OSMMMap} {c : Coord} (hs : Sized s.toNodeFiles)
    (h : Wrote s s' id c false)
    (hq : ∀ q < 8, s.populated (recordOf id + 2 ^ 60 * q) = false) {j : ℤ} :
    s'.select j = s.select j := by
  have hpast : s'.pastEnd (recOffset j) = s.pastEnd (recOffset j) := by
    rw [pastEnd, pastEnd, h.size]
  rw [OSMMMap.select_eq s' j, OSMMMap.select_eq s j, hpast, h.populated, h.coordAt]
  by_cases hk : recordOf j = recordOf id
  · -- the ids read from that record are the ones `2 ^ 60` apart
    have hclear : s.populated (toSize j) = false := by
      by_contra hp
      have hlt := hs.nonneg (toSize j) (by simpa using hp)
      rw [recordOf_eq] at hk
      refine hp ?_
      rw [show toSize j = recordOf id + 2 ^ 60 * (toSize j / 2 ^ 60) by omega]
      exact hq _ (by omega)
    simp [hclear]
  · have hne : toSize j ≠ toSize id := by
      intro heq
      rw [recordOf_eq, recordOf_eq, heq] at hk
      exact hk rfl
    rw [if_neg hk, if_neg hne]

/-- An access that is made to a record nobody reads, with no bit of its own, is inert. -/
lemma inert_of_unread (hs : Sized s.toNodeFiles) (h0 : 0 ≤ id)
    (hend : s.pastEnd (recOffset id) = false) (hin : recOffset id + recSize ≤ s.dat.size)
    (hq : ∀ q < 8, s.populated (recordOf id + 2 ^ 60 * q) = false)
    (hbit : s.bmp.size ≤ toSize id / 8) : Inert s id where
  inside _ _ := hin
  remove j _ := (remove_wrote h0 hend).select_eq hs hq
  update hsane c := by
    obtain ⟨s', hs', hw⟩ := update_wrote h0 (hsane.resolve_left (not_lt.mpr h0)) hend c
    rw [decide_eq_false (not_lt.mpr hbit)] at hw
    exact ⟨s', hs', fun j _ => hw.select_eq hs hq⟩
  select := by
    refine select_of_clear ?_
    rw [NodeFiles.populated, decide_eq_false (not_lt.mpr hbit), Bool.false_and]

/-- The bit that an update of `id` leaves for another id. -/
def bitAfter (s : OSMMMap) (id j : ℤ) : Bool :=
  if toSize j = toSize id then decide (toSize id / 8 < s.bmp.size) else s.populated (toSize j)

/-- If the update of an inert id is made, no id of its record reads back: it would
read back everything that is written. -/
lemma Inert.bitAfter_eq_false (h : Inert s id) (h0 : 0 ≤ id) (hsane : kMaxSaneNodeId < id)
    (hend : s.pastEnd (recOffset id) = false) {j : ℤ} (hj : IsInt64 j)
    (hk : recordOf j = recordOf id) : s.bitAfter id j = false := by
  by_contra hp
  rw [Bool.not_eq_false] at hp
  have hread : ∀ c, s.select j = some c := by
    intro c
    obtain ⟨s', hs', hw⟩ := update_wrote h0 hsane hend c
    obtain ⟨t, ht, hsel⟩ := h.update (Or.inr hsane) c
    obtain rfl := Option.some.inj (hs'.symm.trans ht)
    have hpast : s'.pastEnd (recOffset j) = false := by
      rw [pastEnd, hw.size, recOffset_eq, hk, ← recOffset_eq]
      exact hend
    have hpop : s'.populated (toSize j) = true := (hw.populated _).trans hp
    rw [← hsel j hj, select_eq, hpop, hpast, hw.coordAt, if_pos hk]
    rfl
  have h1 := hread ⟨0, 0⟩
  rw [hread ⟨1, 0⟩] at h1
  simp at h1

/-- An inert id whose access is made falls on a record nobody reads. -/
lemma Inert.unread (h : Inert s id) (h0 : 0 ≤ id) (hsane : kMaxSaneNodeId < id)
    (hend : s.pastEnd (recOffset id) = false) (hid : IsInt64 id) :
    (∀ q < 8, s.populated (recordOf id + 2 ^ 60 * q) = false) ∧ s.bmp.size ≤ toSize id / 8 := by
  have hbit : s.bmp.size ≤ toSize id / 8 := by
    have hself := h.bitAfter_eq_false h0 hsane hend hid rfl
    rw [bitAfter, if_pos rfl, decide_eq_false_iff_not] at hself
    exact not_lt.mp hself
  refine ⟨fun q hq => ?_, hbit⟩
  have hrec := recordOf_lt id
  have hlt : recordOf id + 2 ^ 60 * q < 2 ^ 63 := by omega
  have hsize : toSize ((recordOf id + 2 ^ 60 * q : ℕ) : ℤ) = recordOf id + 2 ^ 60 * q := by
    rw [toSize_of_nonneg (by omega) (by omega), Int.toNat_natCast]
  have hk : recordOf ((recordOf id + 2 ^ 60 * q : ℕ) : ℤ) = recordOf id := by
    rw [recordOf_eq ((recordOf id + 2 ^ 60 * q : ℕ) : ℤ), hsize]
    omega
  have hother := h.bitAfter_eq_false h0 hsane hend ⟨by omega, by omega⟩ hk
  rw [bitAfter, hsize] at hother
  split at hother
  · rename_i heq
    rw [NodeFiles.populated, heq, decide_eq_false (not_lt.mpr hbit), Bool.false_and]
  · exact hother

/-- **The inert ids are the harmless ones.** -/
lemma inert_iff_harmless (hs : Sized s.toNodeFiles) (hid : IsInt64 id) (hout : s.Uncovered id) :
    Inert s id ↔ Harmless s id := by
  rw [Harmless, ← or_assoc]
  by_cases hstop : id < 0 ∨ s.pastEnd (recOffset id) = true
  · exact iff_of_true (inert_of_stopped hs hid hstop) (Or.inl hstop)
  · obtain ⟨h0, hend⟩ := not_or.mp hstop
    rw [not_lt] at h0
    rw [Bool.not_eq_true] at hend
    rw [or_iff_right hstop]
    constructor
    · intro h
      have hin := h.inside h0 hend
      -- an id without a record whose access is made has wrapped
      have hsane : kMaxSaneNodeId < id := by
        have hlt := hs.dat_lt
        have hsz := toSize_of_nonneg h0 hid.2
        have hrec := recordOf_eq id
        have hoff := recOffset_eq id
        simp only [Uncovered, kMaxSaneNodeId, recSize] at *
        omega
      exact ⟨hin, h.unread h0 hsane hend hid⟩
    · rintro ⟨hin, hq, hbit⟩
      exact inert_of_unread hs h0 hend hin hq hbit

/-! ### Every run -/

/-- Setting a length sets no bit. -/
lemma populated_of_resize {dat dat' : MappedFile Double} {bm : MappedFile UInt8} {sz i : ℕ}
    (h : (⟨dat', bm.resize 1 sz⟩ : NodeFiles).populated i) :
    (⟨dat, bm⟩ : NodeFiles).populated i := by
  by_cases hi : (i / 8 + 1) * 1 ≤ bm.size
  · rw [NodeFiles.populated, Bool.and_eq_true, decide_eq_true_eq, MappedFile.size_resize,
      MappedFile.cell_resize_of_le 1 hi (by omega)] at h
    have hlt : i / 8 < bm.size := by omega
    rw [NodeFiles.populated, decide_eq_true hlt, h.2]
    rfl
  · rw [NodeFiles.populated, MappedFile.cell_resize_of_lt 1 (not_le.mp hi),
      bitOf_zero (Nat.mod_lt _ (by norm_num)), Bool.and_false] at h
    simp at h

/-- Setting both lengths within range. -/
lemma Sized.resize {dat dat' : MappedFile Double} {bm : MappedFile UInt8}
    (h : Sized ⟨dat, bm⟩) (hd : dat'.size < 2 ^ 63) {sz : ℕ} (hsz : sz < 2 ^ 63) :
    Sized ⟨dat', bm.resize 1 sz⟩ :=
  ⟨hd, hsz, fun i hi => h.nonneg i (populated_of_resize hi)⟩

lemma Sized.withDat {d : NodeFiles} (h : Sized d) {dat : MappedFile Double}
    (hd : dat.size < 2 ^ 63) : Sized ⟨dat, d.bmp⟩ :=
  ⟨hd, h.bmp_lt, h.nonneg⟩

/-- The first half of a grow. -/
lemma Sized.growDat {s' : OSMMMap} (h : Sized s.toNodeFiles) (hs' : s.growDat id = some s') :
    Sized s'.toNodeFiles := by
  rw [OSMMMap.growDat, Option.bind_eq_bind, Option.bind_eq_some_iff] at hs'
  obtain ⟨dat, hdat, hs'⟩ := hs'
  obtain ⟨rfl, hlt⟩ := MappedFile.eq_resize_of_ftruncate 8 hdat
  obtain rfl := Option.some.inj hs'
  exact h.withDat hlt

/-- The second half of a grow. -/
lemma Sized.growBmp {s' : OSMMMap} {sz : ℕ} (h : Sized s.toNodeFiles)
    (hs' : s.growBmp sz id = some s') : Sized s'.toNodeFiles := by
  rw [OSMMMap.growBmp, Option.bind_eq_bind, Option.bind_eq_some_iff] at hs'
  obtain ⟨bmp, hbmp, hs'⟩ := hs'
  obtain ⟨rfl, hlt⟩ := MappedFile.eq_resize_of_ftruncate 1 hbmp
  obtain rfl := Option.some.inj hs'
  have hs : Sized ⟨s.dat, s.bmp⟩ := h
  exact hs.resize h.dat_lt hlt

lemma Sized.growMergedIfNeeded {s' : OSMMMap} (h : Sized s.toNodeFiles)
    (hs' : s.growMergedIfNeeded id = some s') : Sized s'.toNodeFiles := by
  rw [OSMMMap.growMergedIfNeeded] at hs'
  split at hs'
  · rw [Option.bind_eq_bind, Option.bind_eq_some_iff] at hs'
    obtain ⟨t, ht, hs'⟩ := hs'
    exact (h.growDat ht).growBmp hs'
  · obtain rfl := Option.some.inj hs'
    exact h

/-- A write keeps both lengths, and sets only the bit of its own id. -/
lemma Sized.wrote {d : NodeFiles} (h : Sized d) {dat : MappedFile Double} {bm : MappedFile UInt8}
    (hd : dat.size = d.dat.size) (hb : bm.size = d.bmp.size) (h0 : 0 ≤ id) (hid : IsInt64 id)
    (hp : ∀ i ≠ toSize id, (⟨dat, bm⟩ : NodeFiles).populated i = d.populated i) :
    Sized ⟨dat, bm⟩ := by
  refine ⟨hd ▸ h.dat_lt, hb ▸ h.bmp_lt, fun i hi => ?_⟩
  by_cases heq : i = toSize id
  · have hsz := toSize_of_nonneg h0 hid.2
    have hlt := hid.2
    omega
  · exact h.nonneg i ((hp i heq) ▸ hi)

lemma Sized.update {s' : OSMMMap} {c : Coord} (h : Sized s.toNodeFiles) (hid : IsInt64 id)
    (hs' : s.update id c = some s') : Sized s'.toNodeFiles := by
  rw [OSMMMap.update] at hs'
  split at hs'
  · obtain rfl := Option.some.inj hs'
    exact h
  · rename_i h0
    rw [Option.bind_eq_bind, Option.bind_eq_some_iff] at hs'
    obtain ⟨t, ht, hs'⟩ := hs'
    have hgrown := h.growMergedIfNeeded ht
    split at hs'
    · obtain rfl := Option.some.inj hs'
      exact hgrown
    · obtain rfl := Option.some.inj hs'
      refine hgrown.wrote rfl (size_bitmapSet _ _) (not_lt.mp h0) hid fun i hne => ?_
      rw [populated_bitmapSet_toSize, if_neg hne]
      rfl

lemma Sized.remove (h : Sized s.toNodeFiles) (hid : IsInt64 id) :
    Sized (s.remove id).toNodeFiles := by
  by_cases hstop : id < 0 ∨ s.pastEnd (recOffset id) = true
  · rw [remove_of_stopped hstop]
    exact h
  · obtain ⟨h0, hend⟩ := not_or.mp hstop
    rw [not_lt] at h0
    rw [Bool.not_eq_true] at hend
    have hw := remove_wrote h0 hend
    have hb : (s.remove id).bmp.size = s.bmp.size := by
      rw [OSMMMap.remove, if_neg (not_lt.mpr h0), hend]
      simp only [Bool.false_eq_true, if_false]
      split <;> rfl
    exact h.wrote hw.size hb h0 hid fun i hne => by rw [hw.populated, if_neg hne]

lemma Sized.openFiles {d : NodeFiles} (h : Sized d) {m : ℤ} {s : OSMMMap}
    (ho : OSMMMap.openFiles d m = some s) : Sized s.toNodeFiles := by
  obtain ⟨hdat, hbmp, -⟩ := openFiles_eq_some ho
  refine ⟨growFileIfNeeded_lt h.dat_lt hdat, growFileIfNeeded_lt h.bmp_lt hbmp, fun i hi => ?_⟩
  rw [growFileIfNeeded] at hbmp
  split at hbmp
  · obtain ⟨heq, -⟩ := MappedFile.eq_resize_of_ftruncate 1 hbmp
    have hi' : (⟨s.dat, s.bmp⟩ : NodeFiles).populated i := hi
    rw [heq] at hi'
    exact h.nonneg i (populated_of_resize hi')
  · have heq : s.bmp = d.bmp := (Option.some.inj hbmp).symm
    refine h.nonneg i ?_
    rw [NodeFiles.populated, ← heq]
    exact hi

/-- A death inside a grow, and the next opening. -/
lemma Sized.crashAndReopen {s' : OSMMMap} {p : CrashPoint} {m : ℤ} (h : Sized s.toNodeFiles)
    (hs' : s.crashAndReopen id p m = some s') : Sized s'.toNodeFiles := by
  rw [OSMMMap.crashAndReopen, Option.bind_eq_bind, Option.bind_eq_some_iff] at hs'
  obtain ⟨d, hd, hopen⟩ := hs'
  refine Sized.openFiles ?_ hopen
  cases p with
  | before =>
      obtain rfl := Option.some.inj hd
      exact h
  | between =>
      rw [crashInGrow] at hd
      split at hd
      · obtain ⟨t, ht, rfl⟩ := Option.map_eq_some_iff.mp hd
        exact h.growDat ht
      · obtain rfl := Option.some.inj hd
        exact h
  | after =>
      obtain ⟨t, ht, rfl⟩ := Option.map_eq_some_iff.mp hd
      exact h.growMergedIfNeeded ht

/-- Every state of every run is sized. -/
lemma sized_of_reached {ok : OSMMMap → ℤ → CrashPoint → ℤ → Prop} (h : Reached ok s) :
    Sized s.toNodeFiles := by
  induction h with
  | opened hm _ hd hs =>
      obtain ⟨hsound, -, -, hnone⟩ := createFile_spec hm hd
      refine Sized.openFiles ⟨hsound.dat_lt, hsound.bmp_lt, fun i hi => ?_⟩ hs
      rw [NodeFiles.entry_eq_none_iff.mp (hnone i)] at hi
      simp at hi
  | update _ hid hs' ih => exact ih.update hid hs'
  | remove _ hid ih => exact ih.remove hid
  | reopen _ _ hs' ih => exact ih.openFiles hs'
  | crash _ _ _ _ _ hs' ih => exact ih.crashAndReopen hs'

/-- **Out-of-range ids.**  In every state of every run, of updates and removals of
any 64-bit ids, reopenings and deaths inside a grow, an id without a record is
inert exactly when it is harmless. -/
theorem inert_of_reached (h : Reached (fun _ _ _ _ => True) s) (hid : IsInt64 id)
    (hout : s.Uncovered id) : Inert s id ↔ Harmless s id :=
  inert_iff_harmless (sized_of_reached h) hid hout

/-- In a store opened for the ids up to 100, the id `10 ^ 12` is inert and the id
`2 ^ 60 - 1`, whose record would end at byte `2 ^ 64`, is not. -/
theorem inert_of_reached_opened :
    Inert opened100 (10 ^ 12) ∧ ¬Inert opened100 (2 ^ 60 - 1) :=
  ⟨(inert_of_reached (reached_opened100 _) (by decide) (Or.inr (by decide))).mpr (by decide),
    fun h => absurd ((inert_of_reached (reached_opened100 _) (by decide)
      (Or.inr (by decide))).mp h) (by decide)⟩

/-- **A wrapped offset.**  Once node `0` is stored, the update of the id `2 ^ 60`
overwrites it, past the ceiling that is to drop the record, and the removal of
that id zeroes it. -/
theorem update_overwrites : ∃ s s', Reached (fun _ _ _ _ => True) s ∧ IsInt64 (2 ^ 60)
    ∧ s.Uncovered (2 ^ 60) ∧ kMaxSaneNodeId < 2 ^ 60 ∧ s.select 0 = some ⟨1, 2⟩
    ∧ s.update (2 ^ 60) ⟨3, 4⟩ = some s' ∧ s'.select 0 = some ⟨3, 4⟩
    ∧ (s.remove (2 ^ 60)).select 0 = some ⟨0, 0⟩ := by
  have hs : Reached (fun _ _ _ _ => True) _ :=
    Reached.update (c := ⟨1, 2⟩) (reached_opened100 _) (by decide : IsInt64 0) rfl
  exact ⟨_, _, hs, by decide, Or.inr (by decide), by decide, by decide, rfl, by decide, by decide⟩

end OSMMMap

end Gpsxdb
