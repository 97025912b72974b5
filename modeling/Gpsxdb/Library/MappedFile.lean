import Mathlib.Tactic

/-!
A file that a process maps into memory and reads and writes cell by cell, each
cell `w` bytes wide.  A shared mapping writes through to the file, so the
content of the mapping and of the file are one value.

* `MappedFile.blank`: a freshly truncated file, all zero bytes;
* `MappedFile.resize`: the content after the file's length is set, cells wholly
  below both lengths kept, everything else reading as zero;
* `MappedFile.ftruncate`: the system call, refusing lengths that are negative
  as an `off_t`;
* `MappedFile.store`, with the read-over-write rules `cell_store_self` and
  `cell_store_of_ne`.
-/

namespace Gpsxdb

/-- A mapped file: its length in bytes and its cells. -/
structure MappedFile (α : Type*) where
  size : ℕ
  cell : ℕ → α

namespace MappedFile

variable {α : Type*} [Zero α] (w : ℕ)

/-- A file of `sz` zero bytes. -/
def blank (sz : ℕ) : MappedFile α := ⟨sz, fun _ => 0⟩

/-- The file after its length is set to `sz` bytes. -/
def resize (f : MappedFile α) (sz : ℕ) : MappedFile α :=
  ⟨sz, fun i => if (i + 1) * w ≤ min f.size sz then f.cell i else 0⟩

/-- `ftruncate`: a length of `2^63` or more is a negative `off_t`, refused. -/
def ftruncate (f : MappedFile α) (sz : ℕ) : Option (MappedFile α) :=
  if sz < 2 ^ 63 then some (f.resize w sz) else none

omit [Zero α] in
/-- Write one cell. -/
def store (f : MappedFile α) (i : ℕ) (a : α) : MappedFile α :=
  ⟨f.size, Function.update f.cell i a⟩

@[simp] lemma size_blank (sz : ℕ) : (blank sz : MappedFile α).size = sz := rfl

@[simp] lemma cell_blank (sz i : ℕ) : (blank sz : MappedFile α).cell i = 0 := rfl

@[simp] lemma size_resize (f : MappedFile α) (sz : ℕ) : (f.resize w sz).size = sz := rfl

omit [Zero α] in
@[simp] lemma size_store (f : MappedFile α) (i : ℕ) (a : α) : (f.store i a).size = f.size := rfl

/-- A cell inside both lengths keeps its content. -/
lemma cell_resize_of_le {f : MappedFile α} {sz i : ℕ} (h : (i + 1) * w ≤ f.size)
    (h' : (i + 1) * w ≤ sz) : (f.resize w sz).cell i = f.cell i :=
  if_pos (le_min h h')

/-- A cell past the old length reads as zero. -/
lemma cell_resize_of_lt {f : MappedFile α} {sz i : ℕ} (h : f.size < (i + 1) * w) :
    (f.resize w sz).cell i = 0 :=
  if_neg fun h' => absurd (h'.trans (min_le_left _ _)) (by omega)

omit [Zero α] in
@[simp] lemma cell_store_self (f : MappedFile α) (i : ℕ) (a : α) : (f.store i a).cell i = a :=
  Function.update_self ..

omit [Zero α] in
lemma cell_store_of_ne (f : MappedFile α) {i j : ℕ} (a : α) (h : j ≠ i) :
    (f.store i a).cell j = f.cell j :=
  Function.update_of_ne h ..

lemma ftruncate_eq_some {f : MappedFile α} {sz : ℕ} (h : sz < 2 ^ 63) :
    f.ftruncate w sz = some (f.resize w sz) :=
  if_pos h

lemma eq_resize_of_ftruncate {f g : MappedFile α} {sz : ℕ} (h : f.ftruncate w sz = some g) :
    g = f.resize w sz ∧ sz < 2 ^ 63 := by
  rw [ftruncate] at h
  split at h
  · exact ⟨(Option.some.inj h).symm, ‹_›⟩
  · simp at h

end MappedFile

end Gpsxdb
