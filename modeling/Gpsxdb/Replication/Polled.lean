import Mathlib.Tactic
import Gpsxdb.Library.Appliers
import Gpsxdb.Replication.InOrder

/-!
Appliers under the process of `Replicator::poll`, whatever becomes of it.

* `Polled`, `step`, `run`: the process with its applier; a change that is left before its end
  has made part of its calls;
* `Served`: what is downloaded for a sequence is its diff, or the beginning of it;
* `Restartable`: diffs that may be begun any number of times, one after the other;
* `Reached`, `Holds`, `holds_step`: **the invariant**: the store is the one with all diffs up
  to the stored sequence, with some attempts at the next one;
* `polled_exactly_once`: **at-least-once delivery has the effect of exactly once**.
-/

namespace Gpsxdb

/-! ### The process and its applier -/

/-- A process that polls, or none, with its buffers, and the store. -/
structure Polled (C B S : Type) where
  poll : ReplicatorState C
  buffers : B
  store : S

namespace Polled

variable {C B S Op : Type} (A : ChangeApplier C B S Op)

/-- What a step of the process does to the store: a change that does not return has made so
many of its calls. -/
def written (ρ : Polled C B S) (e : PollEvent C) (made : ℕ) : S :=
  match ρ.poll.stage, e with
  | .parsing _ _ _ (c :: _), .change callEnd =>
      let cs := A.calls ρ.buffers ρ.store c
      A.execAll ρ.store (match callEnd with
        | .returned => cs
        | _ => cs.take made)
  | _, _ => ρ.store

/-- What it does to the buffers: a process starts without any. -/
def buffered (ρ : Polled C B S) (e : PollEvent C) : B :=
  match ρ.poll.stage, e with
  | .stopped, .start => A.empty
  | .parsing _ _ _ (c :: _), .change _ => A.next ρ.buffers c
  | .parsed _ _, .flush .returned => A.flush ρ.buffers
  | _, _ => ρ.buffers

/-- One step. -/
def step (ρ : Polled C B S) (e : PollEvent C × ℕ) : Option (Polled C B S) :=
  (ρ.poll.step e.1).map fun poll => ⟨poll, ρ.buffered A e.1, ρ.written A e.1 e.2⟩

/-- A run of steps. -/
def run (ρ : Polled C B S) (evs : List (PollEvent C × ℕ)) : Option (Polled C B S) :=
  evs.foldlM (step A) ρ

/-- A store that is at a sequence, before the first process. -/
def start (n₀ : ℤ) (s : S) : Polled C B S := ⟨.initial n₀, A.empty, s⟩

end Polled

/-- Whatever is downloaded for a sequence is its diff, or the beginning of it in a file
that is found to be cut off. -/
def Served {C : Type} (diffs : ℤ → List C) (log : List (Effect C)) : Prop :=
  ∀ seq file, .begin seq file ∈ log →
    file.changes <+: diffs seq ∧ (file.well_formed = true → file.changes = diffs seq)

/-! ### The invariant -/

section

variable {C B S Op : Type} {A : ChangeApplier C B S Op} {r : S → S → Prop}

/-- The diffs behind `n₀` may be begun any number of times, each from the buffers that the
ones before it leave, or from none. -/
structure Restartable (A : ChangeApplier C B S Op) (r : S → S → Prop) (live : ℕ → B → Prop)
    (diffs : ℤ → List C) (n₀ : ℤ) (base : ℕ → S) (log : ℕ → List Op) : Prop where
  alike : Alike A r
  empty : ∀ k, live k A.empty
  flush : ∀ k b, live k b → live (k + 1) (A.flush (A.read b (diffs (n₀ + k + 1))))
  repeatable : ∀ k : ℕ, Repeatable A r (live k) (diffs (n₀ + k + 1)) (base k) (log k)
  next : ∀ k, r (A.execAll (base k) (log k)) (base (k + 1))

/-- The process is not on its way out. -/
def PollStage.working (g_stop : Bool) : PollStage C → Bool
  | .stopped => false
  | .loop => !g_stop
  | _ => true

/-- The process works on no file. -/
def PollStage.resting : PollStage C → Bool
  | .parsing .. => false
  | .parsed .. => false
  | .flushed .. => false
  | _ => true

/-- What the stage of the process says about buffers and store: attempts at the diff that were
given up, and the one under way. -/
def Reached (A : ChangeApplier C B S Op) (r : S → S → Prop) (live : B → Prop) (diff : List C)
    (base : S) (log : List Op) (g_stop : Bool) : PollStage C → B → S → Prop
  | .parsing _ _ file rest, b, s => ∃ ks b₀ read, live b₀ ∧ file.changes = read ++ rest
      ∧ b = A.read b₀ read ∧ r s (A.execAll (attempts A.exec log base ks)
        (A.diffCalls b₀ (attempts A.exec log base ks) read))
  | .parsed _ _, b, s => ∃ ks b₀, live b₀ ∧ b = A.read b₀ diff
      ∧ r s (A.execAll (attempts A.exec log base ks) log)
  | .flushed _ _, b, s => ∃ ks b₀, live b₀ ∧ b = A.flush (A.read b₀ diff)
      ∧ r s (A.execAll (attempts A.exec log base ks) log)
  | stage, b, s => (stage.working g_stop = true → live b) ∧ ∃ ks, r s (attempts A.exec log base ks)

variable {live : ℕ → B → Prop} {diffs : ℤ → List C} {n₀ : ℤ} {base : ℕ → S} {log : ℕ → List Op}

/-- **The invariant**: the store is the one with all diffs up to the stored sequence, with
some attempts at the next one; without any where none of it was downloaded. -/
structure Holds (A : ChangeApplier C B S Op) (r : S → S → Prop) (live : ℕ → B → Prop)
    (diffs : ℤ → List C) (n₀ : ℤ) (base : ℕ → S) (log : ℕ → List Op) (k : ℕ) (ρ : Polled C B S) :
    Prop where
  stored : ρ.poll.stored = n₀ + k
  reached : Reached A r (live k) (diffs (n₀ + k + 1)) (base k) (log k) ρ.poll.g_stop
    ρ.poll.stage ρ.buffers ρ.store
  fresh : (∀ file, .begin (n₀ + k + 1) file ∉ ρ.poll.log) → r ρ.store (base k)

/-! ### Whatever the stage -/

section Stages

variable {alive : B → Prop} {diff : List C} {origin : S} {ops : List Op} {b : B} {s : S}
  {g_stop : Bool}

/-- An attempt that made all calls of the diff. -/
lemma attempt_of_whole {ks : List ℕ}
    (hs : r s (A.execAll (attempts A.exec ops origin ks) ops)) :
    ∃ ks, r s (attempts A.exec ops origin ks) := by
  refine ⟨ks ++ [ops.length], ?_⟩
  rw [attempts_concat, List.take_length]
  exact hs

/-- An attempt that is broken off between two changes. -/
lemma Repeatable.of_prefix (h : Repeatable A r alive diff origin ops) {ks : List ℕ} {b₀ : B}
    (hb : alive b₀) {read : List C} (hread : read <+: diff)
    (hs : r s (A.execAll (attempts A.exec ops origin ks)
      (A.diffCalls b₀ (attempts A.exec ops origin ks) read))) :
    ∃ ks, r s (attempts A.exec ops origin ks) := by
  obtain ⟨more, hmore⟩ := hread
  obtain ⟨k, hk⟩ := h.exists_attempt hb ks hmore.symm ⟨_, (List.nil_append _).symm⟩
  exact ⟨ks ++ [k], hk ▸ hs⟩

/-- An attempt that is broken off within a change. -/
lemma Repeatable.of_part (h : Repeatable A r alive diff origin ops) (hr : Alike A r) {ks : List ℕ}
    {b₀ : B} (hb : alive b₀) {read rest : List C} {c : C} (hread : read ++ c :: rest <+: diff)
    (hs : r s (A.execAll (attempts A.exec ops origin ks)
      (A.diffCalls b₀ (attempts A.exec ops origin ks) read))) (made : ℕ) :
    ∃ ks, r (A.execAll s ((A.calls (A.read b₀ read) s c).take made))
      (attempts A.exec ops origin ks) := by
  obtain ⟨more, hmore⟩ := hread
  let t := A.execAll (attempts A.exec ops origin ks)
    (A.diffCalls b₀ (attempts A.exec ops origin ks) read)
  let cs := A.calls (A.read b₀ read) t c
  have hdiff : diff = read ++ c :: (rest ++ more) := by rw [← hmore, List.append_assoc]; rfl
  have hpart : ∃ later, A.diffCalls (A.read b₀ read) t (c :: (rest ++ more))
      = cs.take made ++ later := by
    refine ⟨cs.drop made ++ A.diffCalls (A.next (A.read b₀ read) c) (A.execAll t cs) (rest ++ more),
      ?_⟩
    rw [ChangeApplier.diffCalls, ← List.append_assoc, List.take_append_drop]
  obtain ⟨k, hk⟩ := h.exists_attempt hb ks hdiff hpart
  rw [hr.calls _ s t c hs]
  exact ⟨ks ++ [k], hk ▸ hr.execAll hs _⟩

/-- **Whatever the stage**, there have only been attempts. -/
lemma Reached.attempts {stage : PollStage C} {stored : ℤ} {effects : List (Effect C)}
    (h : Reached A r alive (diffs (stored + 1)) origin ops g_stop stage b s)
    (hdiff : Repeatable A r alive (diffs (stored + 1)) origin ops) (hserved : Served diffs effects)
    (hfits : stage.Fits stored effects) : ∃ ks, r s (attempts A.exec ops origin ks) := by
  cases stage with
  | parsing seq remote file rest =>
      obtain ⟨rfl, pre, read', -, rfl⟩ := hfits
      obtain ⟨ks, b₀, read, hb, hread, -, hs⟩ := h
      have hprefix := (hserved (stored + 1) file (by simp)).1
      exact hdiff.of_prefix hb ((hread ▸ List.prefix_append ..).trans hprefix) hs
  | parsed seq remote =>
      obtain ⟨ks, -, -, -, hs⟩ := h
      exact attempt_of_whole hs
  | flushed seq remote =>
      obtain ⟨ks, -, -, -, hs⟩ := h
      exact attempt_of_whole hs
  | stopped | loop | body | pending | fetching | done => exact h.2

/-- At rest, there is nothing but attempts. -/
lemma reached_of_resting {stage : PollStage C} (hstage : stage.resting = true)
    (hlive : stage.working g_stop = true → alive b)
    (hs : ∃ ks, r s (Gpsxdb.attempts A.exec ops origin ks)) :
    Reached A r alive diff origin ops g_stop stage b s := by
  cases stage with
  | parsing | parsed | flushed => exact absurd hstage Bool.false_ne_true
  | stopped | loop | body | pending | fetching | done => exact ⟨hlive, hs⟩

/-- At rest, a process that works has buffers to begin with. -/
lemma Reached.buffers {stage : PollStage C} (h : Reached A r alive diff origin ops g_stop stage b s)
    (hstage : stage.resting = true) (hworking : stage.working g_stop = true) : alive b := by
  cases stage with
  | parsing | parsed | flushed => exact absurd hstage Bool.false_ne_true
  | stopped | loop | body | pending | fetching | done => exact h.1 hworking

end Stages

/-! ### One step -/

namespace Holds

variable {k : ℕ} {ρ : Polled C B S} {b : B} {t : S} {poll : ReplicatorState C}
  {es : List (Effect C)}

/-- A step that leaves the stored sequence alone, and nothing but attempts. -/
lemma next (h : Holds A r live diffs n₀ base log k ρ) (hstored : poll.stored = ρ.poll.stored)
    (hlog : poll.log = ρ.poll.log ++ es)
    (hreached : Reached A r (live k) (diffs (n₀ + k + 1)) (base k) (log k) poll.g_stop
      poll.stage b t)
    (hsame : t = ρ.store ∨ ∃ file, .begin (n₀ + k + 1) file ∈ ρ.poll.log) :
    Holds A r live diffs n₀ base log k ⟨poll, b, t⟩ := by
  refine ⟨hstored.trans h.stored, hreached, fun hno => ?_⟩
  have hold : ∀ file, .begin (n₀ + k + 1) file ∉ ρ.poll.log := by
    intro file hmem
    exact hno file (hlog ▸ List.mem_append_left es hmem)
  rcases hsame with rfl | ⟨file, hmem⟩
  · exact h.fresh hold
  · exact absurd hmem (hold file)

/-- A process that comes to rest, the store being left alone. -/
lemma rest (h : Holds A r live diffs n₀ base log k ρ)
    (hdiff : Repeatable A r (live k) (diffs (n₀ + k + 1)) (base k) (log k))
    (hinv : ReplicatorState.Invariant n₀ ρ.poll) (hserved : Served diffs ρ.poll.log)
    (hstored : poll.stored = ρ.poll.stored) (hlog : poll.log = ρ.poll.log ++ es)
    (hstage : poll.stage.resting = true)
    (hlive : poll.stage.working poll.g_stop = true → live k b) :
    Holds A r live diffs n₀ base log k ⟨poll, b, ρ.store⟩ := by
  have hfits := hinv.fits
  rw [h.stored] at hfits
  exact h.next hstored hlog
    (reached_of_resting hstage hlive (h.reached.attempts hdiff hserved hfits)) (Or.inl rfl)

/-- The next change of a file. -/
lemma change (h : Holds A r live diffs n₀ base log k ρ) (hr : Alike A r)
    (hdiff : Repeatable A r (live k) (diffs (n₀ + k + 1)) (base k) (log k))
    (hinv : ReplicatorState.Invariant n₀ ρ.poll) (hserved : Served diffs ρ.poll.log)
    {callEnd : CallEnd} {made : ℕ} (hs : ρ.poll.step (.change callEnd) = some poll) :
    Holds A r live diffs n₀ base log k
      ⟨poll, ρ.buffered A (.change callEnd), ρ.written A (.change callEnd) made⟩ := by
  rw [ReplicatorState.step.eq_def] at hs
  dsimp only at hs
  split at hs
  · rename_i seq remote file c rest hstage
    have hfits := hinv.fits
    have hreached := h.reached
    rw [hstage] at hfits hreached
    obtain ⟨rfl, pre, read', -, hlog⟩ := hfits
    obtain ⟨ks, b₀, read, hb, hread, hbuffers, hstore⟩ := hreached
    have hbegin : .begin (n₀ + k + 1) file ∈ ρ.poll.log := by
      rw [← h.stored, hlog]
      simp
    have hprefix : read ++ c :: rest <+: diffs (n₀ + k + 1) := hread ▸ (hserved _ _ hbegin).1
    have hpart := hdiff.of_part hr hb hprefix hstore made
    obtain rfl := Option.some.inj hs
    rw [Polled.written.eq_def, Polled.buffered.eq_def, hstage]
    dsimp only
    rw [hbuffers]
    cases callEnd with
    | returned =>
        refine h.next rfl rfl ⟨ks, b₀, read ++ [c], hb, by rw [hread]; simp, ?_, ?_⟩
          (Or.inr ⟨file, hbegin⟩)
        · exact (A.read_append b₀ read [c]).symm
        · rw [A.diffCalls_append, A.execAll_append, hr.calls _ _ _ _ hstore,
            ChangeApplier.diffCalls, ChangeApplier.diffCalls, List.append_nil]
          exact hr.execAll hstore _
    | threw | killed =>
        exact h.next rfl rfl ⟨fun hworking => absurd hworking Bool.false_ne_true, hpart⟩
          (Or.inr ⟨file, hbegin⟩)
  · cases hs

/-- The end of a file: a cut off one is given up. -/
lemma endOfFile (h : Holds A r live diffs n₀ base log k ρ)
    (hdiff : Repeatable A r (live k) (diffs (n₀ + k + 1)) (base k) (log k))
    (hinv : ReplicatorState.Invariant n₀ ρ.poll) (hserved : Served diffs ρ.poll.log)
    (hs : ρ.poll.step .endOfFile = some poll) :
    Holds A r live diffs n₀ base log k ⟨poll, ρ.buffers, ρ.store⟩ := by
  rw [ReplicatorState.step.eq_def] at hs
  dsimp only at hs
  split at hs
  · rename_i seq remote file hstage
    obtain rfl := Option.some.inj hs
    split
    · have hfits := hinv.fits
      have hreached := h.reached
      rw [hstage] at hfits hreached
      obtain ⟨rfl, pre, read', -, hlog⟩ := hfits
      obtain ⟨ks, b₀, read, hb, hread, hbuffers, hstore⟩ := hreached
      have hbegin : .begin (n₀ + k + 1) file ∈ ρ.poll.log := by
        rw [← h.stored, hlog]
        simp
      rw [List.append_nil] at hread
      rw [← hread, (hserved _ _ hbegin).2 ‹_›] at hbuffers hstore
      rw [hdiff.same b₀ hb] at hstore
      exact h.next rfl (List.append_nil _).symm ⟨ks, b₀, hb, hbuffers, hstore⟩ (Or.inl rfl)
    · exact h.rest hdiff hinv hserved rfl (List.append_nil _).symm rfl
        fun hworking => absurd hworking Bool.false_ne_true
  · cases hs

/-- `flush` at the end of a diff, which has nothing left to write. -/
lemma flush (h : Holds A r live diffs n₀ base log k ρ)
    (hdiff : Repeatable A r (live k) (diffs (n₀ + k + 1)) (base k) (log k))
    (hinv : ReplicatorState.Invariant n₀ ρ.poll) (hserved : Served diffs ρ.poll.log)
    {callEnd : CallEnd} (hs : ρ.poll.step (.flush callEnd) = some poll) :
    Holds A r live diffs n₀ base log k ⟨poll, ρ.buffered A (.flush callEnd), ρ.store⟩ := by
  rw [ReplicatorState.step.eq_def] at hs
  dsimp only at hs
  split at hs
  · rename_i seq remote hstage
    obtain rfl := Option.some.inj hs
    have hreached := h.reached
    rw [hstage] at hreached
    obtain ⟨ks, b₀, hb, hbuffers, hstore⟩ := hreached
    rw [Polled.buffered.eq_def, hstage]
    dsimp only
    rw [hbuffers]
    exact h.next rfl rfl ⟨ks, b₀, hb, rfl, hstore⟩ (Or.inl rfl)
  · rename_i callEnd _ _ _ _ _ hne
    obtain rfl := Option.some.inj hs
    cases callEnd with
    | returned => exact (hne rfl).elim
    | threw | killed =>
        exact h.rest hdiff hinv hserved rfl (List.append_nil _).symm rfl
          fun hworking => absurd hworking Bool.false_ne_true
  · cases hs

/-- The commit of a sequence: **the attempt that went through is the only one**. -/
lemma commit (h : Holds A r live diffs n₀ base log k ρ)
    (hdiff : Restartable A r live diffs n₀ base log) {seq remote : ℤ}
    (hstage : ρ.poll.stage = .flushed seq remote) (hstored : poll.stored = n₀ + k + 1)
    (hrest : poll.stage.resting = true) :
    Holds A r live diffs n₀ base log (k + 1) ⟨poll, ρ.buffers, ρ.store⟩ := by
  have hreached := h.reached
  rw [hstage] at hreached
  obtain ⟨ks, b₀, hb, hbuffers, hstore⟩ := hreached
  have hnext : r ρ.store (base (k + 1)) :=
    hdiff.alike.trans _ _ _ (hdiff.alike.trans _ _ _ hstore
      ((hdiff.repeatable k).through hdiff.alike ks)) (hdiff.next k)
  refine ⟨?_, reached_of_resting hrest (fun _ => hbuffers ▸ hdiff.flush k b₀ hb)
    ⟨[], hnext⟩, fun _ => hnext⟩
  rw [hstored, Nat.cast_add, Nat.cast_one, add_assoc]

/-- `setSequence`, which may be committed though it is not seen to return. -/
lemma setSequence (h : Holds A r live diffs n₀ base log k ρ)
    (hdiff : Restartable A r live diffs n₀ base log)
    (hinv : ReplicatorState.Invariant n₀ ρ.poll) (hserved : Served diffs ρ.poll.log)
    {committed : Bool} {callEnd : CallEnd}
    (hs : ρ.poll.step (.setSequence committed callEnd) = some poll) :
    ∃ k, Holds A r live diffs n₀ base log k ⟨poll, ρ.buffers, ρ.store⟩ := by
  rw [ReplicatorState.step.eq_def] at hs
  dsimp only at hs
  split at hs
  · cases hs
  · rename_i callEnd _ _ _ seq remote hstage
    have hfits := hinv.fits
    rw [hstage] at hfits
    have hseq : seq = n₀ + k + 1 := by rw [hfits.1, h.stored]
    obtain rfl := Option.some.inj hs
    cases callEnd with
    | returned | threw | killed => exact ⟨k + 1, h.commit hdiff hstage hseq rfl⟩
  · rename_i callEnd _ _ _ _ _ _ hne
    obtain rfl := Option.some.inj hs
    cases callEnd with
    | returned => exact (hne rfl).elim
    | threw | killed =>
        exact ⟨k, h.rest (hdiff.repeatable k) hinv hserved rfl (List.append_nil _).symm rfl
          fun hworking => absurd hworking Bool.false_ne_true⟩
  · cases hs

/-- The file of a diff arrives, or does not. -/
lemma download (h : Holds A r live diffs n₀ base log k ρ)
    (hdiff : Repeatable A r (live k) (diffs (n₀ + k + 1)) (base k) (log k))
    (hinv : ReplicatorState.Invariant n₀ ρ.poll) (hserved : Served diffs ρ.poll.log)
    {file : Option (OSCFile C)} (hs : ρ.poll.step (.download file) = some poll) :
    Holds A r live diffs n₀ base log k ⟨poll, ρ.buffers, ρ.store⟩ := by
  rw [ReplicatorState.step.eq_def] at hs
  dsimp only at hs
  split at hs
  · obtain rfl := Option.some.inj hs
    exact h.rest hdiff hinv hserved rfl (List.append_nil _).symm rfl
      fun hworking => absurd hworking Bool.false_ne_true
  · rename_i seq remote file hstage
    have hreached := h.reached
    rw [hstage] at hreached
    obtain ⟨hlive, ks, hks⟩ := hreached
    obtain rfl := Option.some.inj hs
    exact h.next rfl rfl ⟨ks, ρ.buffers, [], hlive rfl, rfl, rfl, hks⟩ (Or.inl rfl)
  · cases hs

end Holds

/-- The steps that do nothing but move the process on. -/
def PollEvent.moves : PollEvent C → Bool
  | .start => true
  | .kill => true
  | .test => true
  | .read .. => true
  | .external _ => true
  | _ => false

/-- They bring a process to rest, and one that goes on then has gone on before, or starts. -/
lemma resting_of_moves {σ σ' : ReplicatorState C} {e : PollEvent C} (he : e.moves = true)
    (hs : σ.step e = some σ') : σ'.stored = σ.stored ∧ σ'.stage.resting = true
      ∧ (σ'.stage.working σ'.g_stop = true →
        e = .start ∨ σ.stage.resting = true ∧ σ.stage.working σ.g_stop = true) := by
  rw [ReplicatorState.step.eq_def] at hs
  cases e with
  | kill =>
      obtain rfl := Option.some.inj hs
      exact ⟨rfl, rfl, fun hworking => absurd hworking Bool.false_ne_true⟩
  | start =>
      dsimp only at hs
      split at hs
      · obtain rfl := Option.some.inj hs
        exact ⟨rfl, rfl, fun _ => .inl rfl⟩
      · cases hs
  | external threw =>
      dsimp only at hs
      split at hs
      · rename_i seq remote hstage
        obtain rfl := Option.some.inj hs
        exact ⟨rfl, by cases threw <;> rfl, fun _ => .inr (by rw [hstage]; exact ⟨rfl, rfl⟩)⟩
      · cases hs
  | test =>
      dsimp only at hs
      split at hs
      · rename_i hstage
        obtain rfl := Option.some.inj hs
        refine ⟨rfl, by dsimp only; split <;> rfl, fun hworking => .inr ?_⟩
        rw [hstage]
        cases hstop : σ.g_stop with
        | false => exact ⟨rfl, rfl⟩
        | true =>
            dsimp only at hworking
            rw [hstop, if_pos rfl] at hworking
            exact absurd hworking Bool.false_ne_true
      · rename_i seq remote hstage
        obtain rfl := Option.some.inj hs
        exact ⟨rfl, by dsimp only; split <;> rfl, fun _ => .inr (by rw [hstage]; exact ⟨rfl, rfl⟩)⟩
      · cases hs
  | read answered remote =>
      dsimp only at hs
      split at hs
      · rename_i hstage
        obtain rfl := Option.some.inj hs
        exact ⟨rfl, rfl, fun _ => .inr (by rw [hstage]; exact ⟨rfl, rfl⟩)⟩
      · rename_i hstage
        obtain rfl := Option.some.inj hs
        exact ⟨rfl, by dsimp only; split_ifs <;> rfl,
          fun _ => .inr (by rw [hstage]; exact ⟨rfl, rfl⟩)⟩
      · cases hs
  | signal | download | change | endOfFile | flush | setSequence =>
      exact absurd he Bool.false_ne_true

/-- A step only adds to the log. -/
lemma ReplicatorState.log_of_step {σ σ' : ReplicatorState C}
    (hinv : ReplicatorState.Invariant n₀ σ) {e : PollEvent C} (hs : σ.step e = some σ') :
    ∃ es, σ'.log = σ.log ++ es := by
  cases ReplicatorState.step_cases hinv.fits hs with
  | move g_stop stage hstage => exact ⟨[], (List.append_nil _).symm⟩
  | work e he g_stop stage hstage => exact ⟨[e], rfl⟩
  | commit pre es hlog hes g_stop stage hstage => exact ⟨[.store (σ.stored + 1)], rfl⟩

/-- Only changes write to the store. -/
lemma Polled.written_of_ne {ρ : Polled C B S} {e : PollEvent C}
    (he : ∀ callEnd, e ≠ .change callEnd) (made : ℕ) : ρ.written A e made = ρ.store := by
  rw [written.eq_def]
  split
  · exact absurd rfl (he _)
  · rfl

/-- Only these steps touch the buffers. -/
lemma Polled.buffered_of_ne {ρ : Polled C B S} {e : PollEvent C} (hstart : e ≠ .start)
    (hflush : ∀ callEnd, e ≠ .flush callEnd) (hchange : ∀ callEnd, e ≠ .change callEnd) :
    ρ.buffered A e = ρ.buffers := by
  rw [buffered.eq_def]
  split
  · exact absurd rfl hstart
  · exact absurd rfl (hchange _)
  · exact absurd rfl (hflush _)
  · rfl

/-- **A step keeps the invariant.** -/
lemma holds_step (hdiff : Restartable A r live diffs n₀ base log) {k : ℕ} {ρ ρ' : Polled C B S}
    (h : Holds A r live diffs n₀ base log k ρ) (hinv : ReplicatorState.Invariant n₀ ρ.poll)
    (hserved : Served diffs ρ'.poll.log) {e : PollEvent C × ℕ} (hs : ρ.step A e = some ρ') :
    ∃ k, Holds A r live diffs n₀ base log k ρ' := by
  obtain ⟨e, made⟩ := e
  obtain ⟨poll, hpoll, rfl⟩ := Option.map_eq_some_iff.mp hs
  obtain ⟨es, hlog⟩ := ReplicatorState.log_of_step hinv hpoll
  have hearlier : Served diffs ρ.poll.log := fun seq file hmem =>
    hserved seq file (by rw [hlog]; exact List.mem_append_left es hmem)
  have hk := hdiff.repeatable k
  by_cases hchange : ∃ callEnd, e = .change callEnd
  · obtain ⟨callEnd, rfl⟩ := hchange
    exact ⟨k, h.change hdiff.alike hk hinv hearlier hpoll⟩
  have hchange : ∀ callEnd, e ≠ .change callEnd := fun callEnd he => hchange ⟨callEnd, he⟩
  have hwritten : ρ.written A e made = ρ.store := Polled.written_of_ne hchange made
  dsimp only
  rw [hwritten]
  cases e with
  | kill | test | read | external =>
      obtain ⟨hstored, hstage, hlive⟩ := resting_of_moves rfl hpoll
      refine ⟨k, h.rest hk hinv hearlier hstored hlog hstage fun hworking => ?_⟩
      obtain ⟨hrest, hold⟩ := (hlive hworking).resolve_left (by simp)
      rw [Polled.buffered_of_ne (by simp) (by simp) (by simp)]
      exact h.reached.buffers hrest hold
  | start =>
      obtain ⟨hstored, hstage, -⟩ := resting_of_moves rfl hpoll
      refine ⟨k, h.rest hk hinv hearlier hstored hlog hstage fun _ => ?_⟩
      have hstopped : ρ.poll.stage = .stopped := by
        rw [ReplicatorState.step.eq_def] at hpoll
        dsimp only at hpoll
        split at hpoll
        · assumption
        · cases hpoll
      rw [Polled.buffered.eq_def, hstopped]
      exact hdiff.empty k
  | signal =>
      rw [Polled.buffered_of_ne (by simp) (by simp) (by simp)]
      obtain rfl := Option.some.inj hpoll
      refine ⟨k, h.next rfl hlog ?_ (Or.inl rfl)⟩
      have hreached := h.reached
      dsimp only
      cases hstage : ρ.poll.stage with
      | loop =>
          rw [hstage] at hreached
          exact ⟨fun hworking => absurd hworking Bool.false_ne_true, hreached.2⟩
      | stopped | body | pending | fetching | done | parsing | parsed | flushed =>
          rw [hstage] at hreached
          exact hreached
  | download file =>
      rw [Polled.buffered_of_ne (by simp) (by simp) (by simp)]
      exact ⟨k, h.download hk hinv hearlier hpoll⟩
  | change callEnd => exact absurd rfl (hchange callEnd)
  | endOfFile =>
      rw [Polled.buffered_of_ne (by simp) (by simp) (by simp)]
      exact ⟨k, h.endOfFile hk hinv hearlier hpoll⟩
  | flush callEnd => exact ⟨k, h.flush hk hinv hearlier hpoll⟩
  | setSequence committed callEnd =>
      rw [Polled.buffered_of_ne (by simp) (by simp) (by simp)]
      exact h.setSequence hdiff hinv hearlier hpoll

/-! ### Runs -/

/-- The invariant in every state of a run. -/
lemma holds_run (hdiff : Restartable A r live diffs n₀ base log) {ρ : Polled C B S}
    {evs : List (PollEvent C × ℕ)} (h : (Polled.start A n₀ (base 0)).run A evs = some ρ) :
    ReplicatorState.Invariant n₀ ρ.poll
      ∧ (Served diffs ρ.poll.log → ∃ k, Holds A r live diffs n₀ base log k ρ) := by
  let I : Polled C B S → Prop := fun ρ => ReplicatorState.Invariant n₀ ρ.poll
    ∧ (Served diffs ρ.poll.log → ∃ k, Holds A r live diffs n₀ base log k ρ)
  have hstart : I (.start A n₀ (base 0)) := by
    refine ⟨ReplicatorState.invariant_initial n₀, fun _ => ⟨0, ?_⟩⟩
    exact ⟨(add_zero n₀).symm, ⟨fun hworking => absurd hworking Bool.false_ne_true, [],
      hdiff.alike.refl _⟩, fun _ => hdiff.alike.refl _⟩
  have hstep : ∀ (ρ : Polled C B S) (e : PollEvent C × ℕ) (ρ' : Polled C B S), I ρ →
      ρ.step A e = some ρ' → I ρ' := by
    rintro ρ e ρ' ⟨hinv, hholds⟩ hs
    obtain ⟨poll, hpoll, rfl⟩ := Option.map_eq_some_iff.mp hs
    have hinv' := ReplicatorState.invariant_step hinv hpoll
    refine ⟨hinv', fun hserved => ?_⟩
    obtain ⟨es, hlog⟩ := ReplicatorState.log_of_step hinv hpoll
    obtain ⟨k, hk⟩ := hholds fun seq file hmem =>
      hserved seq file (by rw [hlog]; exact List.mem_append_left es hmem)
    exact holds_step hdiff hk hinv hserved hs
  exact foldlM_invariant (I := I) hstep hstart h

/-- **Exactly once.**  Whatever becomes of the processes that poll, the store is the one that
the diffs up to the stored sequence give when each is applied once, with some attempts at the
next diff.  Where none of that was downloaded there were no attempts, and where there were, a
process that applies it brings the store to the next of these. -/
lemma polled_exactly_once (hdiff : Restartable A r live diffs n₀ base log) {ρ : Polled C B S}
    {evs : List (PollEvent C × ℕ)} (h : (Polled.start A n₀ (base 0)).run A evs = some ρ)
    (hserved : Served diffs ρ.poll.log) : ∃ k : ℕ, ρ.poll.stored = n₀ + k
      ∧ (∃ ks, r ρ.store (attempts A.exec (log k) (base k) ks))
      ∧ ((∀ file, .begin (n₀ + k + 1) file ∉ ρ.poll.log) → r ρ.store (base k))
      ∧ ∀ b, live k b →
        r (A.execAll ρ.store (A.diffCalls b ρ.store (diffs (n₀ + k + 1)))) (base (k + 1)) := by
  obtain ⟨hinv, hholds⟩ := holds_run hdiff h
  obtain ⟨k, hk⟩ := hholds hserved
  have hfits := hinv.fits
  rw [hk.stored] at hfits
  obtain ⟨ks, hks⟩ := hk.reached.attempts (hdiff.repeatable k) hserved hfits
  refine ⟨k, hk.stored, ⟨ks, hks⟩, hk.fresh, fun b hb => ?_⟩
  rw [hdiff.alike.diffCalls hks, (hdiff.repeatable k).same b hb]
  exact hdiff.alike.trans _ _ _ (hdiff.alike.execAll hks _)
    (hdiff.alike.trans _ _ _ ((hdiff.repeatable k).through hdiff.alike ks) (hdiff.next k))

end

end Gpsxdb
