import Mathlib.Tactic
import Gpsxdb.Library.Cells

/-!
Clients that apply changes to a store, and that may be lost part of the way.

A client keeps buffers of its own, which are gone when it is; the store lasts.  It makes
calls on the store, change by change, and after a failure another client begins the diff
again from its start, without any buffers.

* `ChangeApplier`: the calls a change makes, and what becomes of the buffers;
  `diffCalls`: the calls of a diff;
* `Alike`: stores that are alike for an applier;
* `Repeatable`: a diff that makes the same calls from all buffers a client may have, however
  often it was begun, and whose calls survive a replay;
* `Repeatable.through`: **the attempt that goes through** ends as if it were the only one;
  `Repeatable.exists_attempt`: what one that does not has come to.
-/

namespace Gpsxdb

/-! ### Appliers -/

/-- What applies changes: the calls that one of them makes on the store, and what becomes of
the buffers then, and at a flush. -/
structure ChangeApplier (C B S Op : Type) where
  empty : B
  next : B → C → B
  flush : B → B
  calls : B → S → C → List Op
  exec : S → Op → S

namespace ChangeApplier

variable {C B S Op : Type} (A : ChangeApplier C B S Op)

/-- Calls in turn. -/
def execAll (s : S) (cs : List Op) : S := cs.foldl A.exec s

/-- The buffers after changes. -/
def read (b : B) (cs : List C) : B := cs.foldl A.next b

/-- The calls of a diff, each change seeing what the ones before it have done. -/
def diffCalls : B → S → List C → List Op
  | _, _, [] => []
  | b, s, c :: cs => A.calls b s c ++ diffCalls (A.next b c) (A.execAll s (A.calls b s c)) cs

lemma execAll_append (s : S) (cs cs' : List Op) :
    A.execAll s (cs ++ cs') = A.execAll (A.execAll s cs) cs' := List.foldl_append ..

lemma read_append (b : B) (cs cs' : List C) : A.read b (cs ++ cs') = A.read (A.read b cs) cs' :=
  List.foldl_append ..

lemma diffCalls_append (b : B) (s : S) (cs cs' : List C) : A.diffCalls b s (cs ++ cs')
    = A.diffCalls b s cs ++ A.diffCalls (A.read b cs) (A.execAll s (A.diffCalls b s cs)) cs' := by
  induction cs generalizing b s with
  | nil => rfl
  | cons c cs ih =>
      rw [List.cons_append, diffCalls, ih, diffCalls, List.append_assoc, execAll_append]
      rfl

end ChangeApplier

/-! ### Diffs that may be begun again -/

variable {C B S Op : Type} {A : ChangeApplier C B S Op}

/-- The diff behind the first `k`: from all buffers that a process may have then, and however
often it was begun, it makes the calls of `log`; these survive a replay. -/
structure Repeatable (A : ChangeApplier C B S Op) (r : S → S → Prop) (live : B → Prop)
    (diff : List C) (base : S) (log : List Op) : Prop where
  same : ∀ b, live b → ∀ ks, A.diffCalls b (attempts A.exec log base ks) diff = log
  replay : ∀ s k, r (A.execAll (A.execAll s (log.take k)) log) (A.execAll s log)

/-- Stores that are alike for an applier. -/
structure Alike (A : ChangeApplier C B S Op) (r : S → S → Prop) : Prop where
  refl : ∀ s, r s s
  trans : ∀ s t u, r s t → r t u → r s u
  exec : ∀ s t op, r s t → r (A.exec s op) (A.exec t op)
  calls : ∀ b s t c, r s t → A.calls b s c = A.calls b t c

lemma Alike.execAll {r : S → S → Prop} (h : Alike A r) {s t : S} (hst : r s t) (cs : List Op) :
    r (A.execAll s cs) (A.execAll t cs) := by
  induction cs generalizing s t with
  | nil => exact hst
  | cons c cs ih => exact ih (h.exec s t c hst)

lemma Alike.diffCalls {r : S → S → Prop} (h : Alike A r) {s t : S} (hst : r s t) (b : B)
    (cs : List C) : A.diffCalls b s cs = A.diffCalls b t cs := by
  induction cs generalizing b s t with
  | nil => rfl
  | cons c cs ih =>
      rw [ChangeApplier.diffCalls, ChangeApplier.diffCalls, h.calls b s t c hst,
        ih (h.execAll hst _)]

section Attempts

variable {r : S → S → Prop} {live : B → Prop} {diff : List C} {base s : S} {log : List Op}

/-- **The attempt that goes through** ends as if it were the only one. -/
lemma Repeatable.through (h : Repeatable A r live diff base log) (hr : Alike A r) (ks : List ℕ) :
    r (A.execAll (attempts A.exec log base ks) log) (A.execAll base log) :=
  foldl_attempts hr.refl hr.trans h.replay base ks

/-- **What an attempt has come to**, part of the way through a change: it has made the first
of the calls. -/
lemma Repeatable.exists_attempt (h : Repeatable A r live diff base log) {b : B} (hb : live b)
    (ks : List ℕ) {read more : List C} (hdiff : diff = read ++ more) {part : List Op}
    (hpart : ∃ later, A.diffCalls (A.read b read) (A.execAll (attempts A.exec log base ks)
      (A.diffCalls b (attempts A.exec log base ks) read)) more = part ++ later) :
    ∃ k, A.execAll (A.execAll (attempts A.exec log base ks)
        (A.diffCalls b (attempts A.exec log base ks) read)) part
      = attempts A.exec log base (ks ++ [k]) := by
  obtain ⟨later, hmore⟩ := hpart
  let done := A.diffCalls b (attempts A.exec log base ks) read ++ part
  have hlog : log = done ++ later := by
    calc log
        = A.diffCalls b (attempts A.exec log base ks) (read ++ more) := by
          rw [← hdiff, h.same b hb]
      _ = done ++ later := by rw [A.diffCalls_append, hmore, List.append_assoc]
  refine ⟨done.length, ?_⟩
  calc A.execAll (A.execAll (attempts A.exec log base ks)
        (A.diffCalls b (attempts A.exec log base ks) read)) part
      = A.execAll (attempts A.exec log base ks) done := (A.execAll_append ..).symm
    _ = A.execAll (attempts A.exec log base ks) (log.take done.length) := by
        rw [hlog, List.take_left' rfl]
    _ = attempts A.exec log base (ks ++ [done.length]) := (attempts_concat ..).symm

end Attempts

end Gpsxdb
