import Mathlib.Tactic

/-!
A buffered output stream, as the C library has it.

* `Stream`, `Outcome`: the file, the position in it and what is buffered; how a call
  that may write goes;
* `fwrite`, `fseek`, `fclose`: the calls, with what they report;
* `Stream.Holds`: the stream stands at the end of its file and no symbol is lost;
  `Holds.fwrite`: **an accepted write loses nothing**;
* `delivered`, `fclose_eq`: **what a call and the close after it bring to the file**.
-/

namespace Gpsxdb

/-- `bs` with `new` written over it at a position. -/
def overwriteAt {β : Type*} (bs : List β) (pos : ℕ) (new : List β) : List β :=
  bs.take pos ++ new ++ bs.drop (pos + new.length)

/-- An output stream: the file, the position in it, and what is buffered for it. -/
structure Stream (β : Type*) where
  disk : List β
  pos : ℕ
  pending : List β

/-- How a call that may write goes: what it reports, how much of the buffer reaches
the file, and whether it keeps the rest when it fails. -/
structure Outcome where
  ok : Bool
  wrote : ℕ
  keeps : Bool

variable {β : Type*}

lemma overwriteAt_end (bs new : List β) : overwriteAt bs bs.length new = bs ++ new := by
  rw [overwriteAt, List.take_length, List.drop_eq_nil_of_le (by omega), List.append_nil]

lemma overwriteAt_nil (bs : List β) (pos : ℕ) : overwriteAt bs pos [] = bs := by
  rw [overwriteAt, List.append_nil, List.length_nil, Nat.add_zero, List.take_append_drop]

/-- One write after another. -/
lemma overwriteAt_append {bs : List β} {pos : ℕ} (h : pos ≤ bs.length) (x y : List β) :
    overwriteAt (overwriteAt bs pos x) (pos + x.length) y = overwriteAt bs pos (x ++ y) := by
  have hlen : (bs.take pos ++ x).length = pos + x.length := by
    rw [List.length_append, List.length_take, min_eq_left h]
  rw [overwriteAt, overwriteAt, List.take_left' hlen, ← List.drop_drop, List.drop_left' hlen,
    List.drop_drop, overwriteAt, List.length_append, Nat.add_assoc, List.append_assoc (bs.take pos)]

namespace Stream

/-- The first `n` buffered symbols reach the file. -/
def emit (s : Stream β) (n : ℕ) : Stream β :=
  ⟨overwriteAt s.disk s.pos (s.pending.take n), s.pos + (s.pending.take n).length, s.pending.drop n⟩

/-- A call that has failed. -/
def fail (s : Stream β) (o : Outcome) : Stream β :=
  if o.keeps then s.emit o.wrote else { s.emit o.wrote with pending := [] }

/-- `fwrite`: a write that is accepted may stay in the buffer. -/
def fwrite (s : Stream β) (bs : List β) (o : Outcome) : Bool × Stream β :=
  (o.ok, if o.ok then { s with pending := s.pending ++ bs }.emit o.wrote
    else { s with pending := s.pending ++ bs }.fail o)

/-- `fseek`: the buffer is flushed before the position moves. -/
def fseek (s : Stream β) (pos : ℕ) (o : Outcome) : Bool × Stream β :=
  (o.ok, if o.ok then { s.emit s.pending.length with pos := pos } else s.fail o)

/-- `fclose`: the file it leaves, whatever it reports. -/
def fclose (s : Stream β) (o : Outcome) : List β :=
  (s.emit (if o.ok then s.pending.length else o.wrote)).disk

/-! ### Nothing is lost while calls are accepted -/

/-- The stream stands at the end of its file, which with the buffer is `data`. -/
structure Holds (s : Stream β) (data : List β) : Prop where
  pos : s.pos = s.disk.length
  data : s.disk ++ s.pending = data

variable {s : Stream β} {data bs : List β} {o : Outcome}

lemma Holds.emit (h : s.Holds data) (n : ℕ) : (s.emit n).Holds data := by
  obtain ⟨hpos, rfl⟩ := h
  refine ⟨?_, ?_⟩
  · rw [Stream.emit, hpos, overwriteAt_end, List.length_append]
  · rw [Stream.emit, hpos, overwriteAt_end, List.append_assoc, List.take_append_drop]

/-- **An accepted write loses nothing.** -/
lemma Holds.fwrite (h : s.Holds data) (hok : o.ok = true) :
    (s.fwrite bs o).2.Holds (data ++ bs) := by
  have happend : { s with pending := s.pending ++ bs }.Holds (data ++ bs) :=
    ⟨h.pos, by rw [← h.data, List.append_assoc]⟩
  rw [Stream.fwrite, hok]
  exact happend.emit o.wrote

/-- A seek that succeeds has brought everything to the file. -/
lemma Holds.fseek (h : s.Holds data) (hok : o.ok = true) (pos : ℕ) :
    (s.fseek pos o).2 = ⟨data, pos, []⟩ := by
  obtain ⟨hpos, rfl⟩ := h
  rw [Stream.fseek, hok, if_pos rfl, Stream.emit, hpos, overwriteAt_end, List.take_length,
    List.drop_length]

/-! ### The close after a call -/

/-- How many of `n` buffered symbols reach the file in a call and in the close
after it. -/
def delivered (o o' : Outcome) (n : ℕ) : ℕ :=
  if o.ok ∨ o.keeps then (if o'.ok then n else o.wrote + o'.wrote) else o.wrote

lemma emit_emit (h : s.pos ≤ s.disk.length) (m n : ℕ) : (s.emit m).emit n = s.emit (m + n) := by
  rw [emit, emit, emit, overwriteAt_append h, List.take_add, List.drop_drop, List.length_append,
    Nat.add_assoc]

/-- Once everything is out there is no more to write. -/
lemma disk_emit_of_le {n : ℕ} (h : s.pending.length ≤ n) :
    (s.emit n).disk = (s.emit s.pending.length).disk := by
  rw [emit, emit, List.take_of_length_le h, List.take_length]

/-- **What a call and the close after it leave.** -/
lemma fclose_eq (o o' : Outcome) (h : s.pos ≤ s.disk.length) :
    (if o.ok then s.emit o.wrote else s.fail o).fclose o'
      = overwriteAt s.disk s.pos (s.pending.take (delivered o o' s.pending.length)) := by
  have hdrop : ({ s.emit o.wrote with pending := [] } : Stream β).fclose o'
      = (s.emit o.wrote).disk := by
    rw [fclose, emit, List.take_nil, overwriteAt_nil]
  have hkeep : (s.emit o.wrote).fclose o'
      = (s.emit (if o'.ok then s.pending.length else o.wrote + o'.wrote)).disk := by
    rw [fclose, emit_emit h]
    split
    · refine disk_emit_of_le ?_
      rw [emit, List.length_drop]
      omega
    · rfl
  have hfile : ∀ n, (s.emit n).disk = overwriteAt s.disk s.pos (s.pending.take n) := fun _ => rfl
  rw [delivered, ← hfile]
  cases hok : o.ok with
  | true => simpa using hkeep
  | false =>
      cases hkeeps : o.keeps with
      | true => simpa [fail, hkeeps] using hkeep
      | false => simpa [fail, hkeeps] using hdrop

end Stream

end Gpsxdb
