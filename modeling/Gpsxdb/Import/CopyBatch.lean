import Mathlib.Tactic
import Gpsxdb.Library.Admission
import Gpsxdb.Reload.Csv

/-!
`tryCopyBatch`: the retry loop of a flush against a server that rejects rows.

* `lineOf`: the line a message of the server names, as the loop reads it;
  `lineOf_context`: that of a message in the server's form;
* `tryCopyBatch`, `CopyRun`: the loop, and what it has committed;
* `NamesFirstRejected`: `COPY` is atomic, and its message names the first row it
  rejects given the rows before it;
* `tryCopyBatch_admits`: **the rows committed are those of one scan** in order that
  passes over each rejected row;
* `copyBatch_admits`: so are those of a flush, whose first attempt is its own.

A row and the server are parameters; the reply of a server is its message, if it
fails.  A buffer holds less than `2 ^ 31` rows, as its threshold is an `int`.
-/

namespace Gpsxdb

/-! ### Messages -/

/-- What follows the first occurrence of a pattern: `find` and `substr`. -/
def afterFirst (pattern : Text) : Text → Option Text
  | [] => none
  | c :: s =>
      if pattern.isPrefixOf (c :: s) then some ((c :: s).drop pattern.length)
      else afterFirst pattern s

/-- The line number in a message: there may be none, and `std::stoi` may throw. -/
inductive LineNumber where
  | missing
  | unreadable
  | line (n : ℤ)
deriving DecidableEq

/-- The pattern the loop anchors on. -/
def linePattern : Text := ascii ", line "

/-- The line number as `tryCopyBatch` reads it. -/
def lineOf (msg : Text) : LineNumber :=
  match afterFirst linePattern msg with
  | none => .missing
  | some s =>
      match stoi s with
      | none => .unreadable
      | some n => .line n

/-- A number in decimal. -/
def decimal (n : ℕ) : Text := (Nat.toDigits 10 n).map fun c => c.toNat.toUInt8

/-- A decimal digit is a digit to `stoi`, with its value. -/
lemma isDigit_digitChar {c : Char} (h : c.isDigit = true) :
    isDigit c.toNat.toUInt8 = true ∧ c.toNat.toUInt8.toNat - 0x30 = c.toNat - '0'.toNat := by
  have hc : 48 ≤ c.toNat ∧ c.toNat ≤ 57 := by
    simpa [Char.isDigit, UInt32.le_iff_toNat_le] using h
  obtain ⟨h1, h2⟩ := hc
  generalize c.toNat = m at h1 h2
  interval_cases m <;> decide

lemma isDigit_of_mem_decimal {n : ℕ} {d : UInt8} (h : d ∈ decimal n) : isDigit d = true := by
  obtain ⟨c, hc, rfl⟩ := List.mem_map.mp h
  exact (isDigit_digitChar (Nat.isDigit_of_mem_toDigits (by decide) (by decide) hc)).1

/-- The fold of `stoi` over digits. -/
lemma foldl_digits {cs : List Char} (h : ∀ c ∈ cs, c.isDigit = true) (init : ℕ) :
    (cs.map fun c => c.toNat.toUInt8).foldl
        (fun (n : ℤ) c => 10 * n + (c.toNat - 0x30 : ℕ)) (init : ℤ)
      = (Nat.ofDigitChars 10 cs init : ℕ) := by
  induction cs generalizing init with
  | nil => rfl
  | cons c cs ih =>
      have hdigit := (isDigit_digitChar (h c (List.mem_cons_self ..))).2
      rw [List.map_cons, List.foldl_cons, hdigit, Nat.ofDigitChars_cons,
        ← ih fun d hd => h d (List.mem_cons_of_mem _ hd)]
      push_cast
      rfl

lemma decimal_ne_nil (n : ℕ) : decimal n ≠ [] := by
  rw [decimal, ne_eq, List.map_eq_nil_iff]
  exact Nat.toDigits_ne_nil

/-- What stands after a number ends it. -/
def EndsNumber (after : Text) : Prop := ∀ c s, after = c :: s → isDigit c = false

/-- **`stoi` reads a number written in decimal**, if it is an `int`. -/
lemma stoi_decimal {n : ℕ} (hn : n < 2 ^ 31) {after : Text} (hafter : EndsNumber after) :
    stoi (decimal n ++ after) = some (n : ℤ) := by
  obtain ⟨d, ds, hdigits⟩ := List.exists_cons_of_ne_nil (decimal_ne_nil n)
  have hd : isDigit d = true := isDigit_of_mem_decimal (n := n) (by rw [hdigits]; simp)
  have hspace : (decimal n ++ after).dropWhile isSpace = decimal n ++ after := by
    have hnot : isSpace d = false := by
      simp only [isDigit, Bool.and_eq_true, decide_eq_true_eq, UInt8.le_iff_toNat_le] at hd
      simp only [isSpace, Bool.or_eq_false_iff, beq_eq_false_iff_ne, ne_eq, Bool.and_eq_false_iff,
        decide_eq_false_iff_not, UInt8.le_iff_toNat_le, ← UInt8.toNat_inj]
      exact ⟨by simp at hd ⊢; omega, .inr (by simp at hd ⊢; omega)⟩
    rw [hdigits, List.cons_append, List.dropWhile_cons_of_neg (by simp [hnot])]
  have hsign : splitSign (decimal n ++ after) = (false, decimal n ++ after) := by
    rw [hdigits, List.cons_append, splitSign]
    · rintro s h
      obtain rfl := (List.cons.inj h).1
      exact absurd hd (by decide)
    · rintro s h
      obtain rfl := (List.cons.inj h).1
      exact absurd hd (by decide)
  have htake : (decimal n ++ after).takeWhile isDigit = decimal n := by
    rw [List.takeWhile_append_of_pos fun c hc => isDigit_of_mem_decimal hc]
    cases after with
    | nil => simp
    | cons c s => rw [List.takeWhile_cons_of_neg (by simp [hafter c s rfl]), List.append_nil]
  have hval : (decimal n).foldl (fun (n : ℤ) c => 10 * n + (c.toNat - 0x30 : ℕ)) 0 = n := by
    have hdigit : ∀ c ∈ Nat.toDigits 10 n, c.isDigit :=
      fun c hc => Nat.isDigit_of_mem_toDigits (by decide) (by decide) hc
    have hfold := foldl_digits hdigit 0
    rw [Nat.ofDigitChars_ten_toDigits] at hfold
    exact hfold
  have hint : (n : ℤ) < 2 ^ 31 := by exact_mod_cast hn
  rw [stoi, hspace, hsign]
  dsimp only
  rw [htake, if_neg (decimal_ne_nil n), hval]
  simp only [Bool.false_eq_true, if_false]
  rw [if_pos ⟨by omega, hint⟩]

/-- The pattern is found at its first place. -/
lemma afterFirst_append {before after pattern : Text}
    (hbefore : ∀ k < before.length, pattern.isPrefixOf ((before ++ (pattern ++ after)).drop k)
      = false) (hpattern : pattern ≠ []) :
    afterFirst pattern (before ++ (pattern ++ after)) = some after := by
  induction before with
  | nil =>
      obtain ⟨c, s, hcs⟩ := List.exists_cons_of_ne_nil hpattern
      have hpre : pattern.isPrefixOf (pattern ++ after) = true :=
        List.isPrefixOf_iff_prefix.mpr (List.prefix_append ..)
      have hcons : pattern ++ after = c :: (s ++ after) := by rw [hcs]; rfl
      rw [List.nil_append]
      conv_lhs => rw [hcons]
      rw [afterFirst, ← hcons, if_pos hpre, List.drop_left]
  | cons c before ih =>
      have hnot := hbefore 0 (Nat.zero_lt_succ _)
      rw [List.cons_append, List.drop_zero] at hnot
      rw [List.cons_append, afterFirst, if_neg (by simp [hnot])]
      exact ih fun k hk => hbefore (k + 1) (Nat.succ_lt_succ hk)

/-- **The server's form** of a message: the line is read if nothing before it looks
like one. -/
lemma lineOf_context {before after : Text} {n : ℕ} (hn : n < 2 ^ 31) (hafter : EndsNumber after)
    (hbefore : ∀ k < before.length, linePattern.isPrefixOf
      ((before ++ (linePattern ++ (decimal n ++ after))).drop k) = false) :
    lineOf (before ++ (linePattern ++ (decimal n ++ after))) = .line n := by
  rw [lineOf, afterFirst_append hbefore (by decide)]
  dsimp only
  rw [stoi_decimal hn hafter]

/-! ### The loop -/

section

variable {R : Type*}

/-- How a run of the loop ends: its rows are written, it gives up, or `std::stoi`
throws. -/
inductive CopyEnd where
  | written
  | gaveUp
  | threw
deriving DecidableEq

/-- A run of the loop: its end, the rows committed, the buffer it leaves and the
number of attempts. -/
structure CopyRun (R : Type*) where
  ended : CopyEnd
  committed : List R
  buf : List R
  attempts : ℕ

/-- `tryCopyBatch`, which returns the length of the buffer it leaves; `copy` is the
message of a `COPY` that fails. -/
def tryCopyBatch (copy : List R → Option Text) (buf : List R) : CopyRun R :=
  if buf = [] then ⟨.written, [], [], 0⟩
  else
    match copy buf with
    | none => ⟨.written, buf, buf, 1⟩
    | some msg =>
        match lineOf msg with
        | .missing => ⟨.gaveUp, [], buf, 1⟩
        | .unreadable => ⟨.threw, [], buf, 1⟩
        | .line line =>
            let idx := line - 1
            if _hidx : idx < 0 ∨ buf.length ≤ idx then ⟨.gaveUp, [], buf, 1⟩
            else
              let rest := tryCopyBatch copy (buf.eraseIdx idx.toNat)
              { rest with attempts := rest.attempts + 1 }
termination_by buf.length
decreasing_by
  have hlt : (line - 1).toNat < buf.length := by simp only [idx] at _hidx; omega
  rw [List.length_eraseIdx_of_lt hlt]
  omega

/-- `flushViaTemp` and `flushRelations` as far as the rows: a first attempt, and
`tryCopyBatch` if it fails. -/
def copyBatch (copy : List R → Option Text) (buf : List R) : CopyRun R :=
  match copy buf with
  | none => ⟨.written, buf, buf, 1⟩
  | some _ =>
      let run := tryCopyBatch copy buf
      { run with attempts := run.attempts + 1 }

/-- `COPY` on the batches a buffer can shrink to: it goes through if every row is
accepted after those before it, and else its message names the first that is
not. -/
structure NamesFirstRejected (accept : List R → R → Bool) (copy : List R → Option Text)
    (buf : List R) : Prop where
  commits : ∀ batch, batch.Sublist buf → firstRefused accept [] batch = none → copy batch = none
  names : ∀ batch i, batch.Sublist buf → firstRefused accept [] batch = some i →
    ∃ msg, copy batch = some msg ∧ lineOf msg = .line (i + 1)

variable {accept : List R → R → Bool} {copy : List R → Option Text} {buf : List R}

lemma NamesFirstRejected.mono {buf' : List R} (h : NamesFirstRejected accept copy buf)
    (hsub : buf'.Sublist buf) : NamesFirstRejected accept copy buf' :=
  ⟨fun batch hb => h.commits batch (hb.trans hsub),
    fun batch i hb => h.names batch i (hb.trans hsub)⟩

/-- An attempt that goes through. -/
lemma tryCopyBatch_of_none (hne : buf ≠ []) (hcopy : copy buf = none) :
    tryCopyBatch copy buf = ⟨.written, buf, buf, 1⟩ := by
  rw [tryCopyBatch, if_neg hne, hcopy]

/-- An attempt whose message names a row of the buffer: the row is taken out. -/
lemma tryCopyBatch_of_line {msg : Text} {i : ℕ} (hcopy : copy buf = some msg)
    (hline : lineOf msg = .line (i + 1)) (hi : i < buf.length) :
    tryCopyBatch copy buf = { tryCopyBatch copy (buf.eraseIdx i) with
      attempts := (tryCopyBatch copy (buf.eraseIdx i)).attempts + 1 } := by
  have hne : buf ≠ [] := List.ne_nil_of_length_pos (Nat.zero_lt_of_lt hi)
  have hidx : (i : ℤ) + 1 - 1 = i := by omega
  have hin : ¬ ((i : ℤ) < 0 ∨ (buf.length : ℤ) ≤ i) := by omega
  rw [tryCopyBatch, if_neg hne, hcopy]
  dsimp only
  rw [hline]
  dsimp only
  simp only [hidx, hin, Int.toNat_natCast, dite_false]

/-- The run of the loop against such a server. -/
lemma tryCopyBatch_eq (h : NamesFirstRejected accept copy buf) : ∃ attempts ≤ buf.length + 1,
    tryCopyBatch copy buf
      = ⟨.written, admitted accept [] buf, admitted accept [] buf, attempts⟩ := by
  induction hlen : buf.length generalizing buf with
  | zero =>
      obtain rfl := List.length_eq_zero_iff.mp hlen
      exact ⟨0, Nat.zero_le _, by rw [tryCopyBatch, if_pos rfl]; rfl⟩
  | succ n ih =>
      have hne : buf ≠ [] := List.ne_nil_of_length_pos (by omega)
      cases hfirst : firstRefused accept [] buf with
      | none =>
          refine ⟨1, by omega, ?_⟩
          rw [tryCopyBatch_of_none hne (h.commits buf (.refl _) hfirst),
            admitted_of_firstRefused_eq_none hfirst]
          rfl
      | some i =>
          -- the row the message names goes, and the scan does not see it go
          obtain ⟨msg, hcopy, hline⟩ := h.names buf i (.refl _) hfirst
          have hi := firstRefused_lt hfirst
          obtain ⟨attempts, hle, hrun⟩ := ih (h.mono (List.eraseIdx_sublist ..))
            (by rw [List.length_eraseIdx_of_lt hi]; omega)
          refine ⟨attempts + 1, by omega, ?_⟩
          rw [tryCopyBatch_of_line hcopy hline hi, hrun, admitted_eraseIdx hfirst]

/-- **The rows committed are those of one scan** in order, each accepted after those
committed before it, and the loop makes at most one attempt more than there are
rows. -/
theorem tryCopyBatch_admits (accept : List R → R → Bool) (copy : List R → Option Text)
    (buf : List R) (h : NamesFirstRejected accept copy buf) :
    (tryCopyBatch copy buf).ended = .written ∧
      (tryCopyBatch copy buf).committed = admitted accept [] buf ∧
      (tryCopyBatch copy buf).buf = admitted accept [] buf ∧
      (tryCopyBatch copy buf).attempts ≤ buf.length + 1 := by
  obtain ⟨attempts, hle, hrun⟩ := tryCopyBatch_eq h
  rw [hrun]
  exact ⟨rfl, rfl, rfl, hle⟩

/-- **A flush commits the same rows**: its first attempt decides nothing by
itself. -/
theorem copyBatch_admits (h : NamesFirstRejected accept copy buf) :
    (copyBatch copy buf).committed = admitted accept [] buf := by
  cases hfirst : firstRefused accept [] buf with
  | none =>
      rw [copyBatch, h.commits buf (.refl _) hfirst, admitted_of_firstRefused_eq_none hfirst]
      rfl
  | some i =>
      obtain ⟨msg, hcopy, -⟩ := h.names buf i (.refl _) hfirst
      obtain ⟨attempts, -, hrun⟩ := tryCopyBatch_eq h
      rw [copyBatch, hcopy, hrun]

/-! ### A server -/

/-- A server that accepts rows by a predicate and reports in its usual form. -/
def reportingServer (accept : List R → R → Bool) (batch : List R) : Option Text :=
  (firstRefused accept [] batch).map fun i =>
    ascii "COPY ways" ++ (linePattern ++ (decimal (i + 1) ++ []))

/-- It names the first row it rejects, as long as lines are an `int`. -/
lemma namesFirstRejected_reportingServer (accept : List R → R → Bool) {buf : List R}
    (hbuf : buf.length < 2 ^ 31) : NamesFirstRejected accept (reportingServer accept) buf := by
  refine ⟨fun batch _ hnone => by rw [reportingServer, hnone]; rfl, fun batch i hsub hsome => ?_⟩
  have hi : i + 1 < 2 ^ 31 := by
    have hlt := firstRefused_lt hsome
    have hle := hsub.length_le
    omega
  refine ⟨_, by rw [reportingServer, hsome]; rfl, ?_⟩
  rw [lineOf_context hi (by rintro c s ⟨⟩)]
  · push_cast
    rfl
  · intro k hk
    have hlen : (ascii "COPY ways").length = 9 := by decide
    rw [hlen] at hk
    interval_cases k <;> rfl

end

/-- Ids without a duplicate. -/
def acceptNew (kept : List ℤ) (id : ℤ) : Bool := !kept.contains id

theorem tryCopyBatch_duplicates :
    (tryCopyBatch (reportingServer acceptNew) [4, 7, 4, 9, 7]).committed = [4, 7, 9] :=
  (tryCopyBatch_admits acceptNew (reportingServer acceptNew) [4, 7, 4, 9, 7]
    (namesFirstRejected_reportingServer acceptNew (by decide))).2.1

end Gpsxdb
