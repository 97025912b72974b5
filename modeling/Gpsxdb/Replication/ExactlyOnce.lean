import Mathlib.Tactic
import Gpsxdb.Delta.Attempts
import Gpsxdb.Replication.Polled

/-!
What a polled target holds, whatever becomes of the processes that poll.

* `Replica`, `step`, `run`: the process of `Replicator::poll` with the database it writes
  to; a call that is left before its end has made part of its writes;
* `applied`: the diffs one after the other, each once;
* `deltaApplier`: `DeltaApplier` as an applier of changes; `Replica.polled`: the process
  with it;
* `restartable_applied`: diffs that survive an interruption may be begun any number of times;
* `replica_exactly_once`: **at-least-once delivery has the effect of exactly once**.
-/

namespace Gpsxdb

/-! ### The process and its target -/

/-- A process that polls, or none, and the database. -/
structure Replica where
  poll : ReplicatorState OSCChange
  target : DeltaState

namespace Replica

/-- What a step of the process does to the target: a change that does not return has made
so many of its calls. -/
def written (p : Projection) (ρ : Replica) (e : PollEvent OSCChange) (made : ℕ) : DeltaState :=
  match ρ.poll.stage, e with
  | .parsing _ _ _ (c :: _), .change callEnd =>
      let cs := calls p ρ.target.nodes ρ.target.tables c
      ρ.target.execAll (match callEnd with
        | .returned => cs
        | _ => cs.take made)
  | _, _ => ρ.target

/-- One step. -/
def step (p : Projection) (ρ : Replica) (e : PollEvent OSCChange × ℕ) : Option Replica :=
  (ρ.poll.step e.1).map fun poll => ⟨poll, ρ.written p e.1 e.2⟩

/-- A run of steps. -/
def run (p : Projection) (ρ : Replica) (evs : List (PollEvent OSCChange × ℕ)) : Option Replica :=
  evs.foldlM (step p) ρ

/-- A target that is at a sequence, before the first process. -/
def start (n₀ : ℤ) (s : DeltaState) : Replica := ⟨.initial n₀, s⟩

end Replica

/-- The first so many diffs behind `n₀`, each applied once. -/
def applied (p : Projection) (diffs : ℤ → List OSCChange) (n₀ : ℤ) (s : DeltaState) :
    ℕ → DeltaState
  | 0 => s
  | k + 1 => (applied p diffs n₀ s k).run p (diffs (n₀ + k + 1))

/-! ### The applier -/

/-- `DeltaApplier`: a process keeps nothing of its own. -/
def deltaApplier (p : Projection) : ChangeApplier OSCChange Unit DeltaState DeltaCall where
  empty := ()
  next _ _ := ()
  flush _ := ()
  calls _ s c := calls p s.nodes s.tables c
  exec := DeltaState.exec

lemma diffCalls_deltaApplier (p : Projection) (s : DeltaState) (cs : List OSCChange) :
    (deltaApplier p).diffCalls () s cs = diffCalls p s cs := by
  induction cs generalizing s with
  | nil => rfl
  | cons c cs ih => exact congrArg _ (ih _)

/-- The process with its applier. -/
def Replica.polled (ρ : Replica) : Polled OSCChange Unit DeltaState := ⟨ρ.poll, (), ρ.target⟩

section

variable {p : Projection} {diffs : ℤ → List OSCChange} {n₀ : ℤ} {s₀ : DeltaState} {ρ : Replica}

lemma Replica.written_polled (ρ : Replica) (e : PollEvent OSCChange) (made : ℕ) :
    ρ.polled.written (deltaApplier p) e made = ρ.written p e made := by
  obtain ⟨⟨stored, g_stop, stage, log⟩, target⟩ := ρ
  cases stage with
  | parsing seq remote file rest => cases rest <;> cases e <;> rfl
  | _ => rfl

lemma Replica.polled_step (ρ : Replica) (e : PollEvent OSCChange × ℕ) :
    ρ.polled.step (deltaApplier p) e = (ρ.step p e).map polled := by
  rw [Polled.step, written_polled, step, Option.map_map]
  rfl

lemma Replica.polled_run {ρ ρ' : Replica} {evs : List (PollEvent OSCChange × ℕ)}
    (h : ρ.run p evs = some ρ') : ρ.polled.run (deltaApplier p) evs = some ρ'.polled := by
  induction evs generalizing ρ with
  | nil => exact congrArg _ (congrArg polled (Option.some.inj h))
  | cons e evs ih =>
      obtain ⟨ρ₁, hstep, hrun⟩ := foldlM_cons_eq_some.mp h
      exact foldlM_cons_eq_some.mpr ⟨ρ₁.polled, by rw [polled_step, hstep]; rfl, ih hrun⟩

/-- **Diffs that survive an interruption** may be begun any number of times. -/
lemma restartable_applied
    (hdiff : ∀ j : ℕ, Replayable p (applied p diffs n₀ s₀ j) (diffs (n₀ + j + 1))) :
    Restartable (deltaApplier p) DeltaState.Agrees (fun _ _ => True) diffs n₀
      (applied p diffs n₀ s₀)
      (fun k => diffCalls p (applied p diffs n₀ s₀ k) (diffs (n₀ + k + 1))) where
  alike := ⟨.refl, fun _ _ _ h h' => h.trans h', fun _ _ op h => h.exec op,
    fun _ _ _ c h => h.calls p c⟩
  empty _ := trivial
  flush _ _ _ := trivial
  repeatable k := by
    refine ⟨fun b _ ks => ?_, Replayable.replay (hdiff k).cleared⟩
    exact (diffCalls_deltaApplier p _ _).trans (diffCalls_attempted (hdiff k).ordered ks)
  next k := by
    rw [applied, run_eq_execAll]
    exact .refl _

lemma keyed_written (h : ρ.target.tables.Keyed) (e : PollEvent OSCChange) (made : ℕ) :
    (ρ.written p e made).tables.Keyed := by
  rw [Replica.written.eq_def]
  split
  · exact DeltaState.keyed_execAll h _
  · exact h

lemma Replica.keyed_run (hkey : s₀.tables.Keyed) {evs : List (PollEvent OSCChange × ℕ)}
    (h : (Replica.start n₀ s₀).run p evs = some ρ) : ρ.target.tables.Keyed := by
  refine foldlM_invariant (I := fun ρ : Replica => ρ.target.tables.Keyed) ?_ hkey h
  intro ρ e ρ' hkey hs
  obtain ⟨poll, -, rfl⟩ := Option.map_eq_some_iff.mp hs
  exact keyed_written hkey e.1 e.2

lemma keyed_applied (hkey : s₀.tables.Keyed) (k : ℕ) : (applied p diffs n₀ s₀ k).tables.Keyed := by
  induction k with
  | zero => exact hkey
  | succ k ih => exact DeltaState.keyed_run ih _ _

/-- **Exactly once.**  However often the processes that poll are stopped, fail, are killed
within a change or find a file cut off, in every state they reach the target has the
contents that the diffs up to the stored sequence give when each is applied once, followed
by some attempts at the next diff.  Where none of that was downloaded there were no
attempts, and where there were, applying it takes the target to the next of these contents. -/
theorem replica_exactly_once (hkey : s₀.tables.Keyed)
    (hdiff : ∀ j : ℕ, Replayable p (applied p diffs n₀ s₀ j) (diffs (n₀ + j + 1)))
    {evs : List (PollEvent OSCChange × ℕ)} (h : (Replica.start n₀ s₀).run p evs = some ρ)
    (hserved : Served diffs ρ.poll.log) : ∃ k : ℕ, ρ.poll.stored = n₀ + k
      ∧ (∃ ks, SameContents ρ.target
          (attempted p (applied p diffs n₀ s₀ k) (diffs (n₀ + k + 1)) ks))
      ∧ ((∀ file, .begin (n₀ + k + 1) file ∉ ρ.poll.log) →
          SameContents ρ.target (applied p diffs n₀ s₀ k))
      ∧ SameContents (ρ.target.run p (diffs (n₀ + k + 1))) (applied p diffs n₀ s₀ (k + 1)) := by
  have htarget := Replica.keyed_run hkey h
  obtain ⟨k, hk, ⟨ks, hks⟩, hfresh, hnext⟩ :=
    polled_exactly_once (restartable_applied hdiff) (Replica.polled_run h) hserved
  have hbase : ∀ k, (applied p diffs n₀ s₀ k).tables.Keyed := keyed_applied hkey
  refine ⟨k, hk, ⟨ks, hks.sameContents htarget (keyed_attempted (hbase k) ks)⟩,
    fun hno => (hfresh hno).sameContents htarget (hbase k), ?_⟩
  have hrun := hnext () trivial
  rw [diffCalls_deltaApplier] at hrun
  rw [run_eq_execAll]
  exact hrun.sameContents (DeltaState.keyed_execAll htarget _) (hbase (k + 1))

end

/-! ### A street, twice -/

/-- One diff, of a street. -/
def streetDiff (seq : ℤ) : List OSCChange := if seq = 6 then [.way .modify street] else []

/-- A process that is killed after the first call of the street's change, and one that
applies it. -/
def streetTwice : List (PollEvent OSCChange × ℕ) :=
  [(.start, 0), (.test, 0), (.read true (some 6), 0), (.test, 0),
    (.download (some ⟨[.way .modify street], true⟩), 0), (.change .killed, 1),
    (.start, 0), (.test, 0), (.read true (some 6), 0), (.test, 0),
    (.download (some ⟨[.way .modify street], true⟩), 0), (.change .returned, 0),
    (.endOfFile, 0), (.flush .returned, 0), (.setSequence true .returned, 0)]

lemma streetDiff_replayable (s : DeltaState) (seq : ℤ) :
    Replayable wholeDegrees s (streetDiff seq) := by
  rw [streetDiff]
  split
  · refine replayable_of_tagsApart (List.pairwise_singleton ..) fun c hc is_node key => ?_
    obtain rfl := List.mem_singleton.mp hc
    exact length_valuesFor_le street.tags is_node key
  · exact replayable_of_tagsApart List.Pairwise.nil fun c hc => absurd hc (by simp)

/-- What the two processes do. -/
def streetLog : List (Effect OSCChange) :=
  [.begin 6 ⟨[.way .modify street], true⟩, .partly 6 (.way .modify street),
    .begin 6 ⟨[.way .modify street], true⟩, .change 6 (.way .modify street), .flush 6, .store 6]

lemma streetLog_served : Served streetDiff streetLog ∧ ∀ file, .begin 7 file ∉ streetLog := by
  refine ⟨fun seq file hmem => ?_, fun file hmem => by simp [streetLog] at hmem⟩
  obtain ⟨rfl, rfl⟩ : seq = 6 ∧ file = ⟨[.way .modify street], true⟩ := by
    simpa [streetLog] using hmem
  exact ⟨List.prefix_refl _, fun _ => rfl⟩

theorem replica_exactly_once_street : ∃ ρ, (Replica.start 5 twoNodes).run wholeDegrees streetTwice
    = some ρ ∧ SameContents ρ.target (twoNodes.run wholeDegrees [.way .modify street]) := by
  obtain ⟨ρ, h, hstored, hlog⟩ : ∃ ρ, (Replica.start 5 twoNodes).run wholeDegrees streetTwice
      = some ρ ∧ ρ.poll.stored = 6 ∧ ρ.poll.log = streetLog := ⟨_, rfl, rfl, rfl⟩
  have hkey : twoNodes.tables.Keyed := fun _ => List.nodup_nil
  obtain ⟨k, hk, -, hfresh, -⟩ := replica_exactly_once hkey
    (fun j => streetDiff_replayable _ _) h (hlog.symm ▸ streetLog_served.1)
  obtain rfl : k = 1 := by omega
  exact ⟨ρ, h, hfresh (hlog.symm ▸ streetLog_served.2)⟩

end Gpsxdb
