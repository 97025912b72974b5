import Mathlib.Tactic

/-!
A function that replaces what is stored, in several transactions.

* `Exit`: how a function ends;
* `Txn`: a transaction, which commits an effect or is rolled back and ends the
  function;
* `runTxns`, `committed`: transactions in turn, and the effects of those before the
  first failure; `runTxns_snd`, `runTxns_of_clean`, `runTxns_of_not_clean`;
* `Txn.ofOption`, `committed_map`: transactions that go through where they have an
  effect;
* `Atomic`: all of the new contents, or none of it;
* `atomic_replace_iff`: **when a replacement is atomic** that first clears what is
  there, in a transaction of its own.
-/

namespace Gpsxdb

/-- How a function ends. -/
inductive Exit where
  | returned (ok : Bool)
  | threw
deriving DecidableEq

variable {S : Type*}

/-- A transaction: the effect it commits, or how the function is left. -/
inductive Txn (S : Type*) where
  | commit (effect : S → S)
  | fail (e : Exit)

/-- The transaction goes through. -/
def Txn.Clean (t : Txn S) : Prop := ∃ f, t = .commit f

@[simp] lemma Txn.clean_commit (f : S → S) : (Txn.commit f).Clean := ⟨f, rfl⟩

@[simp] lemma Txn.not_clean_fail (e : Exit) : ¬ (Txn.fail e : Txn S).Clean :=
  fun ⟨_, hf⟩ => nomatch hf

/-- Transactions in turn. -/
def runTxns (last : Exit) : List (Txn S) → S → Exit × S
  | [], s => (last, s)
  | .commit f :: ts, s => runTxns last ts (f s)
  | .fail e :: _, s => (e, s)

/-- The effects before the first failure. -/
def committed : List (Txn S) → List (S → S)
  | [] => []
  | .commit f :: ts => f :: committed ts
  | .fail _ :: _ => []

/-- Effects in turn. -/
def applyAll (fs : List (S → S)) (s : S) : S := fs.foldl (fun s f => f s) s

@[simp] lemma applyAll_nil (s : S) : applyAll [] s = s := rfl

@[simp] lemma applyAll_cons (f : S → S) (fs : List (S → S)) (s : S) :
    applyAll (f :: fs) s = applyAll fs (f s) := rfl

/-- What is left is what was committed. -/
lemma runTxns_snd (last : Exit) (ts : List (Txn S)) (s : S) :
    (runTxns last ts s).2 = applyAll (committed ts) s := by
  induction ts generalizing s with
  | nil => rfl
  | cons t ts ih =>
      cases t with
      | commit f => exact ih (f s)
      | fail e => rfl

/-- Without a failure the function ends as it says. -/
lemma runTxns_of_clean {ts : List (Txn S)} (h : ∀ t ∈ ts, t.Clean) (last : Exit) (s : S) :
    (runTxns last ts s).1 = last := by
  induction ts generalizing s with
  | nil => rfl
  | cons t ts ih =>
      obtain ⟨⟨f, rfl⟩, hrest⟩ := List.forall_mem_cons.mp h
      exact ih hrest (f s)

/-- With one it ends as the failure says. -/
lemma runTxns_of_not_clean {ts : List (Txn S)} (h : ¬ ∀ t ∈ ts, t.Clean) (last : Exit) (s : S) :
    Txn.fail (runTxns last ts s).1 ∈ ts := by
  induction ts generalizing s with
  | nil => exact absurd (fun _ ht => absurd ht List.not_mem_nil) h
  | cons t ts ih =>
      cases t with
      | fail e => exact List.mem_cons_self ..
      | commit f =>
          refine List.mem_cons_of_mem _ (ih (fun hrest => h ?_) (f s))
          exact List.forall_mem_cons.mpr ⟨⟨f, rfl⟩, hrest⟩

/-! ### Transactions that throw -/

/-- A transaction with an effect, unless an exception leaves it. -/
def Txn.ofOption : Option (S → S) → Txn S
  | some f => .commit f
  | none => .fail .threw

lemma Txn.clean_ofOption {f : Option (S → S)} : (Txn.ofOption f).Clean ↔ f.isSome = true := by
  cases f <;> simp [Txn.ofOption]

/-- The effects of such transactions, up to the first that has none. -/
lemma committed_map {ι : Type*} (effect : ι → Option (S → S)) (is : List ι) :
    committed (is.map fun i => .ofOption (effect i))
      = (is.takeWhile fun i => (effect i).isSome).filterMap effect := by
  induction is with
  | nil => rfl
  | cons i is ih =>
      rcases hi : effect i with _ | f
      · rw [List.map_cons, hi, Txn.ofOption, committed]
        simp [hi]
      · rw [List.map_cons, hi, Txn.ofOption, committed, ih]
        simp [hi]

/-! ### Atomicity -/

/-- The function returns true with the new contents in place, or what was there is
left. -/
def Atomic (dataset : S → Prop) (prior : S) (r : Exit × S) : Prop :=
  (r.1 = .returned true ∧ dataset r.2) ∨ r.2 = prior

/-- A function that gives up before it stores anything. -/
lemma atomic_of_unchanged {dataset : S → Prop} {prior : S} (e : Exit) :
    Atomic dataset prior (e, prior) := Or.inr rfl

/-- **A replacement** is prepared, what is there is cleared, and transactions then
store the new contents.  It is atomic exactly if one of the first two fails, or all
others go through and leave the new contents, or what is left happens to be what was
there. -/
theorem atomic_replace_iff (dataset : S → Prop) (prior : S) (last : Exit) {empty : S}
    {prepare truncate : Txn S} {ts : List (Txn S)} (hprepare : ∀ f, prepare = .commit f → f = id)
    (htruncate : ∀ f, truncate = .commit f → ∀ s, f s = empty)
    (hfail : ∀ e, .fail e ∈ ts → e ≠ .returned true) :
    Atomic dataset prior (runTxns last (prepare :: truncate :: ts) prior)
      ↔ ¬ prepare.Clean ∨ ¬ truncate.Clean
        ∨ ((∀ t ∈ ts, t.Clean) ∧ last = .returned true ∧ dataset (applyAll (committed ts) empty))
        ∨ applyAll (committed ts) empty = prior := by
  cases prepare with
  | fail e => exact iff_of_true (atomic_of_unchanged e) (Or.inl (Txn.not_clean_fail e))
  | commit f =>
      obtain rfl := hprepare f rfl
      cases truncate with
      | fail e => exact iff_of_true (atomic_of_unchanged e) (Or.inr (Or.inl (Txn.not_clean_fail e)))
      | commit f =>
          have hrun : runTxns last (.commit id :: .commit f :: ts) prior
              = runTxns last ts empty := by
            rw [runTxns, runTxns, htruncate f rfl]
          simp only [Txn.clean_commit, not_true_eq_false, false_or]
          rw [hrun, Atomic, runTxns_snd]
          refine or_congr_left ?_
          by_cases hclean : ∀ t ∈ ts, t.Clean
          · rw [runTxns_of_clean hclean]
            exact ⟨fun h => ⟨hclean, h⟩, fun h => h.2⟩
          · constructor
            · rintro ⟨hret, -⟩
              exact absurd hret (hfail _ (runTxns_of_not_clean hclean last empty))
            · exact fun h => absurd h.1 hclean

end Gpsxdb
