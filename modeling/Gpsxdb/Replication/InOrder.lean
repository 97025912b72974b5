import Mathlib.Tactic
import Gpsxdb.Library.Runs
import Gpsxdb.Library.Delivery
import Gpsxdb.Replication.Replicator

/-!
The diffs are applied in order, each at least once.

* `Underway`, `PollStage.Fits`: what the stage of a process says about the stored
  sequence and the end of the log;
* `Advance`, `step_cases`: what a step does: it moves the process, works on the
  next diff or commits it;
* `Invariant`, `invariant_step`, `invariant_run`: the log is a `Delivery`;
* `replication_in_order`: **order and at-least-once** for every run.
-/

namespace Gpsxdb

/-! ### Stages and logs -/

variable {C : Type}

/-- The effects of a file up to the changes still to come. -/
def Underway (log : List (Effect C)) (seq : ℤ) (file : OSCFile C) (rest : List C) : Prop :=
  ∃ pre read, file.changes = read ++ rest ∧ log = pre ++ .begin seq file :: read.map (.change seq)

/-- What the stage says about the stored sequence and the end of the log. -/
def PollStage.Fits : PollStage C → ℤ → List (Effect C) → Prop
  | .pending seq _, stored, _ => seq = stored + 1
  | .fetching seq _, stored, _ => seq = stored + 1
  | .parsing seq _ file rest, stored, log => seq = stored + 1 ∧ Underway log seq file rest
  | .parsed seq _, stored, log =>
      seq = stored + 1 ∧ ∃ file, file.well_formed = true ∧ Underway log seq file []
  | .flushed seq _, stored, log =>
      seq = stored + 1 ∧ ∃ pre es, log = pre ++ es ∧ FullyApplied seq es
  | .done seq _, stored, _ => seq = stored
  | _, _, _ => True

/-- The next change of a file goes to the log. -/
lemma Underway.change {log : List (Effect C)} {seq : ℤ} {file : OSCFile C} {c : C} {rest : List C}
    (h : Underway log seq file (c :: rest)) : Underway (log ++ [.change seq c]) seq file rest := by
  obtain ⟨pre, read, hread, rfl⟩ := h
  exact ⟨pre, read ++ [c], by simp [hread], by simp⟩

/-- A file read to its end and flushed is fully applied. -/
lemma Underway.flush {log : List (Effect C)} {seq : ℤ} {file : OSCFile C}
    (h : Underway log seq file []) (hfile : file.well_formed = true) :
    ∃ pre es, log ++ [.flush seq] = pre ++ es ∧ FullyApplied seq es := by
  obtain ⟨pre, read, hread, rfl⟩ := h
  rw [List.append_nil] at hread
  exact ⟨pre, _, List.append_assoc .., file, hfile, by rw [hread]⟩

namespace ReplicatorState

variable {n₀ : ℤ} {σ σ' : ReplicatorState C}

/-! ### The invariant -/

/-- **The invariant**: the log delivers the diffs up to the stored sequence, and the
process is where the log says. -/
structure Invariant (n₀ : ℤ) (σ : ReplicatorState C) : Prop where
  delivery : Delivery Effect.seq .store FullyApplied n₀ σ.stored σ.log
  fits : PollStage.Fits σ.stage σ.stored σ.log

lemma invariant_initial (n₀ : ℤ) : Invariant n₀ (initial n₀ : ReplicatorState C) :=
  ⟨.nil n₀, trivial⟩

/-- What a step does: it moves the process, works on the next diff, or commits
it. -/
inductive Advance (σ : ReplicatorState C) : ReplicatorState C → Prop
  | move (g_stop : Bool) (stage : PollStage C) (hstage : stage.Fits σ.stored σ.log) :
      Advance σ { σ with g_stop := g_stop, stage := stage }
  | work (e : Effect C) (he : e.seq = σ.stored + 1) (g_stop : Bool) (stage : PollStage C)
      (hstage : stage.Fits σ.stored (σ.log ++ [e])) :
      Advance σ { σ.write e with g_stop := g_stop, stage := stage }
  | commit (pre es : List (Effect C)) (hlog : σ.log = pre ++ es)
      (hes : FullyApplied (σ.stored + 1) es) (g_stop : Bool) (stage : PollStage C)
      (hstage : stage.Fits (σ.stored + 1) (σ.log ++ [.store (σ.stored + 1)])) :
      Advance σ ⟨σ.stored + 1, g_stop, stage, σ.log ++ [.store (σ.stored + 1)]⟩

/-- A call that is not logged. -/
lemma Advance.after {next : PollStage C} (c : CallEnd)
    (hnext : c = .returned → next.Fits σ.stored σ.log) : Advance σ (σ.after next c) := by
  cases c with
  | returned => exact .move _ _ (hnext rfl)
  | threw => exact .move _ _ trivial
  | killed => exact .move _ _ trivial

/-- **What a step does**, from a stage that fits the log. -/
lemma step_cases (hfits : σ.stage.Fits σ.stored σ.log) {e : PollEvent C}
    (hs : σ.step e = some σ') : Advance σ σ' := by
  rw [step.eq_def] at hs
  cases e with
  | start =>
      dsimp only at hs
      split at hs
      · exact Option.some.inj hs ▸ .move _ _ trivial
      · exact absurd hs (by simp)
  | signal => exact Option.some.inj hs ▸ .move true σ.stage hfits
  | kill => exact Option.some.inj hs ▸ .move _ _ trivial
  | test =>
      dsimp only at hs
      split at hs
      · refine Option.some.inj hs ▸ .move _ _ ?_
        split <;> trivial
      · rename_i hstage
        rw [hstage] at hfits
        refine Option.some.inj hs ▸ .move _ _ ?_
        split
        · exact hfits
        · trivial
      · exact absurd hs (by simp)
  | read answered remote =>
      dsimp only at hs
      split at hs
      · exact Option.some.inj hs ▸ .move _ _ trivial
      · cases answered with
        | false => exact Option.some.inj hs ▸ .move _ _ trivial
        | true =>
            refine Option.some.inj hs ▸ .move _ _ ?_
            rw [if_pos rfl]
            split
            · trivial
            · split
              · trivial
              · exact rfl
      · exact absurd hs (by simp)
  | download file =>
      dsimp only at hs
      split at hs
      · exact Option.some.inj hs ▸ .move _ _ trivial
      · rename_i file hstage
        rw [hstage] at hfits
        exact Option.some.inj hs ▸ .work (.begin _ file) hfits _ _ ⟨hfits, σ.log, [], rfl, rfl⟩
      · exact absurd hs (by simp)
  | change callEnd =>
      dsimp only at hs
      split at hs
      · rename_i hstage
        rw [hstage] at hfits
        obtain ⟨hseq, hunder⟩ := hfits
        cases callEnd with
        | returned => exact Option.some.inj hs ▸ .work (.change _ _) hseq _ _ ⟨hseq, hunder.change⟩
        | threw => exact Option.some.inj hs ▸ .work (.partly _ _) hseq _ _ trivial
        | killed => exact Option.some.inj hs ▸ .work (.partly _ _) hseq _ _ trivial
      · exact absurd hs (by simp)
  | endOfFile =>
      dsimp only at hs
      split at hs
      · rename_i hstage
        rw [hstage] at hfits
        obtain rfl := Option.some.inj hs
        split
        · exact .move _ _ ⟨hfits.1, _, ‹_›, hfits.2⟩
        · exact .move _ _ trivial
      · exact absurd hs (by simp)
  | flush callEnd =>
      dsimp only at hs
      split at hs
      · rename_i hstage
        rw [hstage] at hfits
        obtain ⟨hseq, file, hfile, hunder⟩ := hfits
        exact Option.some.inj hs ▸ .work (.flush _) hseq _ _ ⟨hseq, hunder.flush hfile⟩
      · exact Option.some.inj hs ▸ .after _ fun hret => absurd hret ‹_›
      · exact absurd hs (by simp)
  | setSequence committed callEnd =>
      dsimp only at hs
      split at hs
      · exact absurd hs (by simp)
      · rename_i callEnd _ _ _ seq remote hstage
        rw [hstage] at hfits
        obtain ⟨rfl, pre, es, hlog, hes⟩ := hfits
        obtain rfl := Option.some.inj hs
        cases callEnd with
        | returned => exact .commit pre es hlog hes σ.g_stop (.done (σ.stored + 1) remote) rfl
        | threw => exact .commit pre es hlog hes true .loop trivial
        | killed => exact .commit pre es hlog hes σ.g_stop .stopped trivial
      · exact Option.some.inj hs ▸ .after _ fun hret => absurd hret ‹_›
      · exact absurd hs (by simp)
  | external threw =>
      dsimp only at hs
      split at hs
      · rename_i hstage
        rw [hstage] at hfits
        refine Option.some.inj hs ▸ .move _ _ ?_
        split
        · trivial
        · exact congrArg (· + 1) hfits
      · exact absurd hs (by simp)

/-- **Every step keeps the invariant.** -/
lemma invariant_step (h : Invariant n₀ σ) {e : PollEvent C} (hs : σ.step e = some σ') :
    Invariant n₀ σ' := by
  cases step_cases h.fits hs with
  | move g_stop stage hstage => exact ⟨h.delivery, hstage⟩
  | work e he g_stop stage hstage => exact ⟨h.delivery.append he, hstage⟩
  | commit pre es hlog hes g_stop stage hstage =>
      exact ⟨h.delivery.commit_next rfl hlog hes, hstage⟩

lemma invariant_run {evs : List (PollEvent C)} (h : (initial n₀).run evs = some σ) :
    Invariant n₀ σ :=
  foldlM_invariant (fun _ _ _ hi hs => invariant_step hi hs) (invariant_initial n₀) h

/-! ### Order -/

/-- **Replication is in order and at least once.**  In every state a run reaches,
all diffs above the start value up to the stored sequence are in the log as a
whole; no effect is of a diff beyond the next one, nor before all diffs below its
own are applied and stored; and one step leaves the stored sequence or raises it
by one, right behind the whole of that diff. -/
theorem replication_in_order (n₀ : ℤ) (evs : List (PollEvent C)) (σ : ReplicatorState C)
    (h : (initial n₀).run evs = some σ) :
    Delivery Effect.seq .store FullyApplied n₀ σ.stored σ.log
      ∧ ∀ e σ', σ.step e = some σ' → σ'.stored = σ.stored
        ∨ (σ'.stored = σ.stored + 1
          ∧ ∃ pre es, σ.log = pre ++ es ∧ FullyApplied (σ.stored + 1) es) := by
  have hinv := invariant_run h
  refine ⟨hinv.delivery, fun e σ' hs => ?_⟩
  cases step_cases hinv.fits hs with
  | move g_stop stage hstage => exact Or.inl rfl
  | work e he g_stop stage hstage => exact Or.inl rfl
  | commit pre es hlog hes g_stop stage hstage => exact Or.inr ⟨rfl, pre, es, hlog, hes⟩

/-- A diff of two changes, killed after the first and applied again by a second
process, which then fails to download the next one. -/
def interrupted : List (PollEvent ℕ) :=
  [.start, .test, .read true (some 7), .test, .download (some ⟨[1, 2], true⟩), .change .returned,
    .kill, .start, .test, .read true (some 7), .test, .download (some ⟨[1, 2], true⟩),
    .change .returned, .change .returned, .endOfFile, .flush .returned,
    .setSequence true .returned, .external false, .test, .download none, .test]

theorem replication_in_order_interrupted :
    ∃ σ, (initial 5).run interrupted = some σ ∧ σ.stored = 6
      ∧ Delivery Effect.seq .store FullyApplied 5 6 σ.log :=
  ⟨_, rfl, rfl, (replication_in_order 5 interrupted _ rfl).1⟩

end ReplicatorState

end Gpsxdb
