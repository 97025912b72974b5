import Mathlib.Tactic

/-!
Files under names, several processes having them open at once.

A name leads to an inode, and a descriptor to an inode and an offset. Opening a
name that is in use for writing empties its file, and a name that is taken away
leaves its file to the descriptors that still have it open.

* `FileSystem`, `Sound`: no two names lead to one inode;
* `openTrunc`, `writeAt`, `unlink`;
* `overwrite_length`, `data_openTrunc`, `data_writeAt_of_ne`, `dir_unlink_of_ne`.

Files are lists of records, and a record is written as a whole. A record that
was never written and lies before one that was reads as `default`.
-/

namespace Gpsxdb

/-- Names, and the files they lead to. -/
structure FileSystem (P α : Type*) where
  dir : P → Option ℕ
  data : ℕ → List α
  /-- the first inode not in use -/
  next : ℕ

/-- A file after records are written over it from an offset on; where there are
none to write, nothing is. -/
def overwrite {α : Type*} [Inhabited α] (old : List α) (offset : ℕ) (xs : List α) : List α :=
  if xs.isEmpty then old else old.takeD offset default ++ xs ++ old.drop (offset + xs.length)

/-- Writing where a file ends appends to it. -/
lemma overwrite_length {α : Type*} [Inhabited α] (old xs : List α) :
    overwrite old old.length xs = old ++ xs := by
  rw [overwrite]
  split
  · simp_all
  · rw [List.takeD_eq_take _ le_rfl, List.take_length,
      List.drop_eq_nil_of_le (Nat.le_add_right ..), List.append_nil]

namespace FileSystem

variable {P α : Type*}

/-- A name leads to an inode that is in use, and to no other name's. -/
structure Sound (fs : FileSystem P α) : Prop where
  lt_next : ∀ {p i}, fs.dir p = some i → i < fs.next
  dir_inj : ∀ {p q i}, fs.dir p = some i → fs.dir q = some i → p = q

/-- The content under a name. -/
def read (fs : FileSystem P α) (p : P) : Option (List α) := (fs.dir p).map fs.data

/-- The inode that opening a name for writing yields. -/
def openInode (fs : FileSystem P α) (p : P) : ℕ := (fs.dir p).getD fs.next

section Open

variable [DecidableEq P]

/-- `fopen(.., "wb")`: the name's file is emptied, or a new one is made. -/
def openTrunc (fs : FileSystem P α) (p : P) : FileSystem P α where
  dir := Function.update fs.dir p (some (fs.openInode p))
  data := Function.update fs.data (fs.openInode p) []
  next := max fs.next (fs.openInode p + 1)

/-- `unlink`. -/
def unlink (fs : FileSystem P α) (p : P) : FileSystem P α :=
  { fs with dir := Function.update fs.dir p none }

end Open

/-- A write through a descriptor. -/
def writeAt [Inhabited α] (fs : FileSystem P α) (i offset : ℕ) (xs : List α) : FileSystem P α :=
  { fs with data := Function.update fs.data i (overwrite (fs.data i) offset xs) }

/-! ### Opening -/

variable [DecidableEq P] {fs : FileSystem P α} {p q : P} {i : ℕ}

@[simp] lemma dir_openTrunc : (fs.openTrunc p).dir p = some (fs.openInode p) :=
  Function.update_self ..

@[simp] lemma dir_openTrunc_of_ne (h : q ≠ p) : (fs.openTrunc p).dir q = fs.dir q :=
  Function.update_of_ne h ..

@[simp] lemma data_openTrunc : (fs.openTrunc p).data (fs.openInode p) = [] :=
  Function.update_self ..

lemma data_openTrunc_of_ne (h : i ≠ fs.openInode p) : (fs.openTrunc p).data i = fs.data i :=
  Function.update_of_ne h ..

omit [DecidableEq P] in
/-- What another name leads to is not what opening a name yields. -/
lemma Sound.ne_openInode (hfs : fs.Sound) (h : q ≠ p) (hi : fs.dir q = some i) :
    i ≠ fs.openInode p := by
  rw [openInode]
  rcases hp : fs.dir p with _ | j
  · exact (hfs.lt_next hi).ne
  · rintro rfl
    exact h (hfs.dir_inj hi hp)

lemma Sound.openTrunc (hfs : fs.Sound) (p : P) : (fs.openTrunc p).Sound := by
  refine ⟨fun {q i} hq => ?_, fun {q r i} hq hr => ?_⟩
  · by_cases h : q = p
    · subst h
      rw [dir_openTrunc, Option.some.injEq] at hq
      subst hq
      exact lt_of_lt_of_le (Nat.lt_succ_self _) (le_max_right ..)
    · rw [dir_openTrunc_of_ne h] at hq
      exact lt_of_lt_of_le (hfs.lt_next hq) (le_max_left ..)
  · by_cases h : q = p <;> by_cases h' : r = p
    · rw [h, h']
    · rw [h, dir_openTrunc, Option.some.injEq] at hq
      rw [dir_openTrunc_of_ne h'] at hr
      exact absurd hq.symm (hfs.ne_openInode h' hr)
    · rw [h', dir_openTrunc, Option.some.injEq] at hr
      rw [dir_openTrunc_of_ne h] at hq
      exact absurd hr.symm (hfs.ne_openInode h hq)
    · rw [dir_openTrunc_of_ne h] at hq
      rw [dir_openTrunc_of_ne h'] at hr
      exact hfs.dir_inj hq hr

/-! ### Unlinking and writing -/

@[simp] lemma dir_unlink_of_ne (h : q ≠ p) : (fs.unlink p).dir q = fs.dir q :=
  Function.update_of_ne h ..

lemma dir_of_dir_unlink (h : (fs.unlink p).dir q = some i) : fs.dir q = some i := by
  by_cases hq : q = p
  · subst hq
    simp [unlink] at h
  · rwa [dir_unlink_of_ne hq] at h

lemma Sound.unlink (hfs : fs.Sound) (p : P) : (fs.unlink p).Sound :=
  ⟨fun h => hfs.lt_next (dir_of_dir_unlink h),
    fun h h' => hfs.dir_inj (dir_of_dir_unlink h) (dir_of_dir_unlink h')⟩

omit [DecidableEq P] in
lemma Sound.writeAt [Inhabited α] (hfs : fs.Sound) (i offset : ℕ) (xs : List α) :
    (fs.writeAt i offset xs).Sound :=
  ⟨hfs.lt_next, hfs.dir_inj⟩

omit [DecidableEq P] in
/-- A write where the file ends. -/
lemma data_writeAt [Inhabited α] (fs : FileSystem P α) (i : ℕ) (xs : List α) :
    (fs.writeAt i (fs.data i).length xs).data i = fs.data i ++ xs :=
  (Function.update_self ..).trans (overwrite_length ..)

omit [DecidableEq P] in
@[simp] lemma writeAt_nil [Inhabited α] (fs : FileSystem P α) (i offset : ℕ) :
    fs.writeAt i offset [] = fs := by
  simp [writeAt, overwrite]

omit [DecidableEq P] in
@[simp] lemma data_writeAt_of_ne [Inhabited α] {offset j : ℕ} {xs : List α} (h : j ≠ i) :
    (fs.writeAt i offset xs).data j = fs.data j :=
  Function.update_of_ne h ..

end FileSystem

end Gpsxdb
