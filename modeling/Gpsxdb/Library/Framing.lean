import Mathlib.Tactic

/-!
Rows of any length in one file, each behind its length.

* `Prefix`: a length as a fixed number of symbols, for lengths below a bound;
* `frame`: a row behind its length;
* `readFrames`: the loop that reads rows until a length or a row is cut short;
* `readFrames_flatMap_frame`: **it reads back what was framed**;
* `Cut`, `exists_cut_of_prefix`: **where a file is cut**, pieces that are whole and a part of
  the next one.
-/

namespace Gpsxdb

/-- Lengths below a bound as a fixed number of symbols. -/
structure Prefix (β : Type*) where
  width : ℕ
  bound : ℕ
  encode : ℕ → List β
  decode : List β → ℕ
  width_pos : 0 < width
  length_encode : ∀ n, (encode n).length = width
  decode_encode : ∀ n < bound, decode (encode n) = n

namespace Prefix

variable {β : Type*} (p : Prefix β)

/-- A row behind its length. -/
def frame (row : List β) : List β := p.encode row.length ++ row

/-- The rows of a file. -/
def readFrames (bs : List β) : List (List β) :=
  if _h : p.width ≤ bs.length then
    let len := p.decode (bs.take p.width)
    let rest := bs.drop p.width
    if len ≤ rest.length then rest.take len :: readFrames (rest.drop len) else []
  else []
termination_by bs.length
decreasing_by
  have hpos := p.width_pos
  simp only [List.length_drop]
  omega

lemma readFrames_nil : p.readFrames [] = [] := by
  rw [readFrames, dif_neg (by simpa using p.width_pos.ne')]

/-- The first row of a file. -/
lemma readFrames_frame_append {row : List β} (hrow : row.length < p.bound) (bs : List β) :
    p.readFrames (p.frame row ++ bs) = row :: p.readFrames bs := by
  have hlen := p.length_encode row.length
  have htake : (p.frame row ++ bs).take p.width = p.encode row.length := by
    rw [frame, List.append_assoc]
    exact List.take_left' hlen
  have hdrop : (p.frame row ++ bs).drop p.width = row ++ bs := by
    rw [frame, List.append_assoc]
    exact List.drop_left' hlen
  have hle : p.width ≤ (p.frame row ++ bs).length := by
    rw [frame, List.length_append, List.length_append, hlen]
    omega
  rw [readFrames, dif_pos hle]
  dsimp only
  rw [htake, hdrop, p.decode_encode _ hrow, if_pos (by simp), List.take_left' rfl,
    List.drop_left' rfl]

/-- **Reading gives back the rows that were framed.** -/
theorem readFrames_flatMap_frame {rows : List (List β)} (h : ∀ row ∈ rows, row.length < p.bound) :
    p.readFrames (rows.flatMap p.frame) = rows := by
  induction rows with
  | nil => exact p.readFrames_nil
  | cons row rows ih =>
      rw [List.flatMap_cons, p.readFrames_frame_append (h row (List.mem_cons_self ..)),
        ih fun r hr => h r (List.mem_cons_of_mem _ hr)]

end Prefix

/-! ### Files that are cut -/

section Cut

variable {α β : Type*} (bytes : α → List β)

/-- A part of the next piece, or nothing where there is none. -/
structure Cut (after : List α) (tail : List β) : Prop where
  part : ∀ a ∈ after.head?, tail <+: bytes a ∧ tail.length < (bytes a).length
  nil : after = [] → tail = []

/-- **Where a file is cut**: behind so many whole pieces. -/
lemma exists_cut_of_prefix {as : List α} {p : List β} (h : p <+: as.flatMap bytes) :
    ∃ before after tail, as = before ++ after ∧ p = before.flatMap bytes ++ tail
      ∧ Cut bytes after tail := by
  induction as generalizing p with
  | nil =>
      obtain rfl := List.prefix_nil.mp h
      exact ⟨[], [], [], rfl, rfl, ⟨fun a ha => absurd ha (by simp), fun _ => rfl⟩⟩
  | cons a as ih =>
      rw [List.flatMap_cons] at h
      by_cases hlen : p.length < (bytes a).length
      · have hpart : p <+: bytes a :=
          List.prefix_of_prefix_length_le h (List.prefix_append ..) hlen.le
        refine ⟨[], a :: as, p, rfl, rfl, ⟨fun b hb => ?_, fun hnil => absurd hnil (by simp)⟩⟩
        obtain rfl : a = b := by simpa using hb
        exact ⟨hpart, hlen⟩
      · -- the first piece is whole
        obtain ⟨rest, rfl⟩ : bytes a <+: p :=
          List.prefix_of_prefix_length_le (List.prefix_append ..) h (not_lt.mp hlen)
        obtain ⟨before, after, tail, rfl, rfl, hcut⟩ := ih ((List.prefix_append_right_inj _).mp h)
        exact ⟨a :: before, after, tail, rfl, by rw [List.flatMap_cons, List.append_assoc], hcut⟩

end Cut

end Gpsxdb
