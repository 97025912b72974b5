import Mathlib.Tactic
import Gpsxdb.Import.Tags
import Gpsxdb.Library.Transactions
import Gpsxdb.NodeStore.OSMMMap

/-!
How the loaders of external data fill a table.

* `Cell`: one value of `write_values`;
* `FloatOps`: what the loaders need of floating point and of PROJ;
* `CopyFaults`, `writeRows`, `copyRows`: a stream into a table, row by row, which an
  exception on a row or an error of the server ends;
* `rowsFrom`, `copyRows_eq_some`: the rows the input gives rise to, and **when a
  stream stores them**;
* `downloadRetry`: a download that is tried again.

A table is the bag of its rows, without the serial ids.
-/

namespace Gpsxdb

/-! ### Values -/

/-- A value of a column. -/
inductive Cell where
  | null
  | text (s : Text)
  | int (n : ℤ)
  | double (x : Double)
  | bool (b : Bool)
deriving DecidableEq

/-- A row, column by column. -/
abbrev Record := List Cell

namespace Cell

def ofText : Option Text → Cell
  | none => null
  | some s => text s

def ofInt : Option ℤ → Cell
  | none => null
  | some n => int n

def ofDouble : Option Double → Cell
  | none => null
  | some x => double x

def ofBool : Option Bool → Cell
  | none => null
  | some b => bool b

end Cell

/-- `std::stod`, `std::to_string` of a double, the conversions between doubles and
64-bit integers, and the projection, which throws where PROJ has no transformation. -/
structure FloatOps where
  stod : Text → Option Double
  to_string : Double → Text
  ofInt : ℤ → Double
  toInt64 : Double → ℤ
  toMercator : Double → Double → Option Coord

/-- Floating point for examples that do not need it. -/
def noFloats : FloatOps := ⟨fun _ => none, fun _ => [], fun _ => 0, fun _ => 0, fun _ _ => none⟩

/-! ### Streams -/

/-- The errors of the server during the transaction of one stream: when it is opened,
at a row, when it is completed, at the commit. -/
structure CopyFaults where
  opened : Bool
  row : ℕ → Bool
  complete : Bool
  commit : Bool

/-- A transaction the server goes along with. -/
def CopyFaults.none : CopyFaults := ⟨false, fun _ => false, false, false⟩

variable {α : Type}

/-- The loop over the input: `none` is an exception, and a row may be skipped.  `n`
rows are written already. -/
def writeRows (fault : ℕ → Bool) (rowOf : α → Option (Option Record)) :
    ℕ → List α → Option (List Record)
  | _, [] => some []
  | n, a :: as =>
      match rowOf a with
      | none => none
      | some none => writeRows fault rowOf n as
      | some (some r) =>
          if fault n then none else (writeRows fault rowOf (n + 1) as).map fun rows => r :: rows

/-- The transaction of a stream: its rows, once it is committed. -/
def copyRows (fs : CopyFaults) (rowOf : α → Option (Option Record)) (as : List α) :
    Option (List Record) :=
  if fs.opened then none
  else
    match writeRows fs.row rowOf 0 as with
    | none => none
    | some rows => if fs.complete then none else if fs.commit then none else some rows

/-- The rows an input gives rise to, if none of them throws. -/
def rowsFrom {β : Type} (rowOf : α → Option (Option β)) : List α → Option (List β)
  | [] => some []
  | a :: as =>
      match rowOf a with
      | none => none
      | some none => rowsFrom rowOf as
      | some (some r) => (rowsFrom rowOf as).map fun rows => r :: rows

/-- The rows of an input in two parts. -/
lemma rowsFrom_append {β : Type} {rowOf : α → Option (Option β)} {as bs : List α}
    {rows rest : List β} (has : rowsFrom rowOf as = some rows)
    (hbs : rowsFrom rowOf bs = some rest) : rowsFrom rowOf (as ++ bs) = some (rows ++ rest) := by
  induction as generalizing rows with
  | nil =>
      obtain rfl := Option.some.inj has
      exact hbs
  | cons a as ih =>
      rw [rowsFrom] at has
      rw [List.cons_append, rowsFrom]
      rcases hrow : rowOf a with _ | _ | r
      · rw [hrow] at has
        exact nomatch has
      · rw [hrow] at has
        exact ih has
      · rw [hrow] at has
        obtain ⟨later, hlater, rfl⟩ := Option.map_eq_some_iff.mp has
        dsimp only
        rw [ih hlater, Option.map_some, List.cons_append]

/-- The server accepts a stream of so many rows. -/
def CopyFaults.Accepts (fs : CopyFaults) (n : ℕ) : Prop :=
  fs.opened = false ∧ (∀ i < n, fs.row i = false) ∧ fs.complete = false ∧ fs.commit = false

/-- The loop writes the rows of the input, if the server takes each. -/
lemma writeRows_eq_some {fault : ℕ → Bool} {rowOf : α → Option (Option Record)} {n : ℕ}
    {as : List α} {rows : List Record} : writeRows fault rowOf n as = some rows
      ↔ rowsFrom rowOf as = some rows ∧ ∀ i, n ≤ i → i < n + rows.length → fault i = false := by
  induction as generalizing n rows with
  | nil =>
      rw [writeRows, rowsFrom]
      constructor
      · intro h
        obtain rfl := Option.some.inj h
        exact ⟨rfl, fun i h1 h2 => by simp at h2; omega⟩
      · exact fun h => h.1
  | cons a as ih =>
      rw [writeRows, rowsFrom]
      rcases rowOf a with _ | _ | r
      · simp
      · exact ih
      · dsimp only
        by_cases hn : fault n = true
        · rw [if_pos hn]
          refine iff_of_false nofun ?_
          rintro ⟨hrows, hfault⟩
          obtain ⟨rest, -, rfl⟩ := Option.map_eq_some_iff.mp hrows
          have hfine := hfault n le_rfl (by simp)
          exact absurd (hn.symm.trans hfine) (by decide)
        · rw [if_neg hn, Option.map_eq_some_iff, Option.map_eq_some_iff]
          constructor
          · rintro ⟨rest, hrest, rfl⟩
            obtain ⟨hrecords, hfault⟩ := ih.mp hrest
            refine ⟨⟨rest, hrecords, rfl⟩, fun i h1 h2 => ?_⟩
            rw [List.length_cons] at h2
            rcases Nat.eq_or_lt_of_le h1 with rfl | hlt
            · exact Bool.eq_false_iff.mpr hn
            · exact hfault i hlt (by omega)
          · rintro ⟨⟨rest, hrecords, rfl⟩, hfault⟩
            refine ⟨rest, ih.mpr ⟨hrecords, fun i h1 h2 => ?_⟩, rfl⟩
            exact hfault i (by omega) (by rw [List.length_cons]; omega)

/-- **When a stream stores its rows**: no row throws, and the server takes them. -/
lemma copyRows_eq_some {fs : CopyFaults} {rowOf : α → Option (Option Record)} {as : List α}
    {rows : List Record} :
    copyRows fs rowOf as = some rows ↔ rowsFrom rowOf as = some rows ∧ fs.Accepts rows.length := by
  rw [copyRows, CopyFaults.Accepts]
  by_cases hopened : fs.opened = true
  · simp [hopened]
  · rw [if_neg hopened]
    constructor
    · intro h
      split at h
      · exact nomatch h
      · rename_i written hwritten
        obtain ⟨hrecords, hfault⟩ := writeRows_eq_some.mp hwritten
        split at h
        · exact nomatch h
        · split at h
          · exact nomatch h
          · obtain rfl := Option.some.inj h
            exact ⟨hrecords, by simpa using hopened,
              fun i hi => hfault i (Nat.zero_le i) (by omega),
              by simpa using ‹¬ fs.complete = true›, by simpa using ‹¬ fs.commit = true›⟩
    · rintro ⟨hrecords, -, hfault, hcomplete, hcommit⟩
      have hwritten : writeRows fs.row rowOf 0 as = some rows :=
        writeRows_eq_some.mpr ⟨hrecords, fun i _ hi => hfault i (by omega)⟩
      rw [hwritten]
      simp [hcomplete, hcommit]

/-- What a stream leaves in its table. -/
def addTo (rows : List Record) (s : Multiset Record) : Multiset Record := s + rows

/-! ### Downloads -/

/-- `kAttempts`. -/
def kAttempts : ℕ := 3

/-- `downloadAP`, `downloadFileRetry`: whether one of the attempts succeeds. -/
def downloadRetry (attempts : ℕ → Bool) : Bool := (List.range kAttempts).any attempts

end Gpsxdb
