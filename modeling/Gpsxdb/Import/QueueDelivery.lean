import Mathlib.Tactic
import Gpsxdb.Import.WayQueue
import Gpsxdb.Library.Runs
import Gpsxdb.Library.Word

/-!
Any number of threads on one `BlockingQueue`.

* `QueueMove`, `QueueRun`, `step`, `run`: the critical sections in any order, with what
  was pushed, what was popped by whom, and who has seen `pop` fail;
* `step_cases`: **what a critical section does**;
* `QueueRun.Sound`: nothing is lost between the two ends, and the queue is not above
  its bound while it is open; `sound_of_run`;
* `exactly_once`: **every run delivers in order and once**, and all there is by the time
  the last consumer sees `pop` fail; `delivered_of_joined` for the order in which `main`
  joins its threads.

A call that waits is no step until its condition holds.
-/

namespace Gpsxdb

/-- A critical section of a thread. -/
inductive QueueMove (T α : Type) where
  | push (t : T) (item : α)
  | pop (t : T)
  | shutdown (t : T)

/-- The queue, the items in the order in which they were pushed and popped, and the
threads for which `pop` has returned false. -/
structure QueueRun (T α : Type) where
  queue : BlockingQueue α
  pushed : List α
  popped : List (T × α)
  finished : List T

namespace QueueRun

variable {T α : Type}

/-- A new queue. -/
def start (max_size : ℤ) : QueueRun T α := ⟨⟨max_size, [], false⟩, [], [], []⟩

/-- One critical section, nothing where it has to wait. -/
def step (s : QueueRun T α) : QueueMove T α → Option (QueueRun T α)
  | .push _ item => (s.queue.push item).map fun queue =>
      { s with queue := queue, pushed := s.pushed ++ [item] }
  | .pop t => s.queue.pop.map fun
      | (some item, queue) => { s with queue := queue, popped := s.popped ++ [(t, item)] }
      | (none, queue) => { s with queue := queue, finished := s.finished ++ [t] }
  | .shutdown _ => some { s with queue := s.queue.shutdown }

/-- A run of critical sections. -/
def run (s : QueueRun T α) (moves : List (QueueMove T α)) : Option (QueueRun T α) :=
  moves.foldlM step s

/-- **What a critical section does**: it adds an item at the back, where there is room or
the queue is shut down; it takes the first item; it finds an empty queue that is shut
down; or it shuts the queue down. -/
inductive Moved (s : QueueRun T α) : QueueMove T α → QueueRun T α → Prop
  | push {t : T} {item : α} (hroom : s.queue.q.length < s.queue.max_size ∨ s.queue.stop = true) :
      Moved s (.push t item)
        { s with queue.q := s.queue.q ++ [item], pushed := s.pushed ++ [item] }
  | pop {t : T} {item : α} {q : List α} (hq : s.queue.q = item :: q) :
      Moved s (.pop t) { s with queue.q := q, popped := s.popped ++ [(t, item)] }
  | finish {t : T} (hq : s.queue.q = []) (hstop : s.queue.stop = true) :
      Moved s (.pop t) { s with finished := s.finished ++ [t] }
  | shutdown {t : T} : Moved s (.shutdown t) { s with queue.stop := true }

variable {s s' : QueueRun T α} {m : QueueMove T α} {moves : List (QueueMove T α)} {max_size : ℤ}

lemma step_cases (h : s.step m = some s') : Moved s m s' := by
  cases m with
  | push t item =>
      obtain ⟨queue, hpush, rfl⟩ := Option.map_eq_some_iff.mp h
      obtain ⟨hroom, rfl⟩ := BlockingQueue.of_push hpush
      exact .push hroom
  | pop t =>
      obtain ⟨⟨r, queue⟩, hpop, rfl⟩ := Option.map_eq_some_iff.mp h
      rcases BlockingQueue.of_pop hpop with ⟨item, q, hq, rfl, rfl⟩ | ⟨hq, hstop, rfl, rfl⟩
      · exact .pop hq
      · exact .finish hq hstop
  | shutdown t =>
      obtain rfl := Option.some.inj h
      exact .shutdown

/-! ### The invariant -/

/-- What was pushed has been popped in that order, or is in the queue; the queue is not
above its bound while it is open; and `pop` fails only once it is shut down. -/
structure Sound (max_size : ℤ) (s : QueueRun T α) : Prop where
  max_size_eq : s.queue.max_size = max_size
  conserved : s.popped.map Prod.snd ++ s.queue.q = s.pushed
  bounded : s.queue.stop = false → (s.queue.q.length : ℤ) ≤ max 0 max_size
  stopped : s.finished ≠ [] → s.queue.stop = true

lemma sound_start : Sound max_size (start max_size : QueueRun T α) :=
  ⟨rfl, rfl, fun _ => le_max_left .., fun h => absurd rfl h⟩

lemma Sound.moved (hs : Sound max_size s) (h : Moved s m s') : Sound max_size s' := by
  obtain ⟨hmax, hconserved, hbounded, hstopped⟩ := hs
  cases h with
  | @push t item hroom =>
      refine ⟨hmax, ?_, fun hopen => ?_, hstopped⟩
      · rw [← hconserved, List.append_assoc]
      · rw [hmax, or_iff_left (by simpa using hopen)] at hroom
        rw [List.length_append, List.length_singleton]
        push_cast
        exact le_max_of_le_right hroom
  | @pop t item q hq =>
      refine ⟨hmax, ?_, fun hopen => ?_, hstopped⟩
      · rw [← hconserved, hq, List.map_append, List.append_assoc]
        rfl
      · have hbefore := hbounded hopen
        rw [hq, List.length_cons] at hbefore
        push_cast at hbefore
        exact le_trans (Int.le_add_one le_rfl) hbefore
  | finish hq hstop => exact ⟨hmax, hconserved, hbounded, fun _ => hstop⟩
  | shutdown => exact ⟨hmax, hconserved, (nomatch ·), fun _ => rfl⟩

lemma sound_of_run (h : (start max_size).run moves = some s) : Sound max_size s :=
  foldlM_invariant (fun _ _ _ hs hstep => hs.moved (step_cases hstep)) sound_start h

/-- **The conversion of the size to `int`** does not matter: while the queue is open the
size is in range, and then it is not looked at. -/
lemma Sound.wrap_iff (hs : Sound max_size s) (hint : max_size < 2 ^ 31) :
    (wrapInt32 s.queue.q.length < s.queue.max_size ∨ s.queue.stop = true)
      ↔ s.queue.q.length < s.queue.max_size ∨ s.queue.stop = true := by
  cases hstop : s.queue.stop with
  | true => exact iff_of_true (Or.inr rfl) (Or.inr rfl)
  | false =>
      have hlength := hs.bounded hstop
      have hlt : (s.queue.q.length : ℤ) < 2 ^ 31 :=
        lt_of_le_of_lt hlength (max_lt (by norm_num) hint)
      rw [wrapInt32, Int.bmod_eq_of_le_mul_two (by omega) (by omega)]

/-! ### Delivery -/

/-- `pop` has failed for all of these threads. -/
def AllFinished (consumers : List T) (s : QueueRun T α) : Prop := ∀ t ∈ consumers, t ∈ s.finished

/-- **A failing `pop`** finds everything delivered. -/
lemma Sound.delivered (hs : Sound max_size s) (hq : s.queue.q = []) :
    s.popped.map Prod.snd = s.pushed := by
  rw [← hs.conserved, hq, List.append_nil]

/-- The step with which the last of some threads sees `pop` fail. -/
lemma queue_empty_of_allFinished {consumers : List T} (h : Moved s m s')
    (hbefore : ¬ AllFinished consumers s) (hafter : AllFinished consumers s') :
    s'.queue.q = [] := by
  cases h with
  | push hroom => exact absurd hafter hbefore
  | pop hq => exact absurd hafter hbefore
  | finish hq hstop => exact hq
  | shutdown => exact absurd hafter hbefore

/-- **Exactly once, in order**: what is popped is the beginning of what was pushed, and
the queue holds the rest; `pop` fails only when the queue is empty and shut down, and
when the last of the consumers sees that, all that was pushed until then has been
delivered; and while the queue is open it holds no more than `max_size` items. -/
theorem exactly_once (max_size : ℤ) (moves : List (QueueMove T α)) (s : QueueRun T α)
    (h : (start max_size).run moves = some s) :
    s.popped.map Prod.snd ++ s.queue.q = s.pushed
      ∧ (s.queue.stop = false → (s.queue.q.length : ℤ) ≤ max 0 max_size)
      ∧ (∀ m s', s.step m = some s' → s'.finished ≠ s.finished →
        s.queue.q = [] ∧ s.queue.stop = true)
      ∧ ∀ (consumers : List T) m s', s.step m = some s' → ¬ AllFinished consumers s →
        AllFinished consumers s' → s'.popped.map Prod.snd = s'.pushed := by
  have hs := sound_of_run h
  refine ⟨hs.conserved, hs.bounded, fun m s' hstep hfinished => ?_,
    fun consumers m s' hstep hbefore hafter => ?_⟩
  · cases step_cases hstep with
    | push hroom => exact absurd rfl hfinished
    | pop hq => exact absurd rfl hfinished
    | finish hq hstop => exact ⟨hq, hstop⟩
    | shutdown => exact absurd rfl hfinished
  · have hmoved := step_cases hstep
    exact (hs.moved hmoved).delivered (queue_empty_of_allFinished hmoved hbefore hafter)

/-- A producer that waits at a full queue of one item, and pushes after the shutdown. -/
theorem exactly_once_late_push : ∃ s s' : QueueRun ℕ ℕ,
    (start 1).run [.push 0 5, .shutdown 2, .push 0 6, .pop 1, .pop 1] = some s
      ∧ s.step (.pop 1) = some s' ∧ s'.popped.map Prod.snd = [5, 6] := by
  refine ⟨_, _, rfl, rfl, ?_⟩
  exact (exactly_once 1 [.push 0 5, .shutdown 2, .push 0 6, .pop 1, .pop 1] _ rfl).2.2.2
    [1] (.pop 1) _ rfl (by simp [AllFinished, start]) (by simp [AllFinished])

/-! ### The order of `main` -/

/-- Without producers, an empty queue stays empty once a `pop` has failed. -/
lemma empty_of_joined {s : QueueRun T α} (hjoined : ∀ m ∈ moves, ∀ t item, m ≠ .push t item)
    (h : s.run moves = some s') (hs : s.finished ≠ [] → s.queue.q = []) :
    s'.finished ≠ [] → s'.queue.q = [] := by
  refine foldlM_invariant_of (I := fun s => s.finished ≠ [] → s.queue.q = []) ?_ hjoined hs h
  intro s m s' hm hs hstep
  cases step_cases hstep with
  | push hroom => exact absurd rfl (hm _ _)
  | pop hq =>
      intro hfinished
      have hempty := hs hfinished
      rw [hq] at hempty
      exact nomatch hempty
  | finish hq hstop => exact fun _ => hq
  | shutdown => exact hs

/-- **`main` joins the producers before it shuts the queue down**: then every item is
delivered by the time any consumer has seen `pop` fail. -/
theorem delivered_of_joined {before after : List (QueueMove T α)} {opened : QueueRun T α}
    (hbefore : (start max_size).run before = some opened) (hopen : opened.queue.stop = false)
    (hjoined : ∀ m ∈ after, ∀ t item, m ≠ .push t item) (hafter : opened.run after = some s)
    (hfinished : s.finished ≠ []) : s.popped.map Prod.snd = s.pushed := by
  have hnone : opened.finished = [] := by
    by_contra hne
    rw [(sound_of_run hbefore).stopped hne] at hopen
    exact nomatch hopen
  have hrun : (start max_size).run (before ++ after) = some s :=
    (foldlM_append_of_run hbefore after).trans hafter
  refine (sound_of_run hrun).delivered (empty_of_joined hjoined hafter ?_ hfinished)
  exact fun hne => absurd hnone hne

end QueueRun

end Gpsxdb
