import Mathlib.Tactic
import Gpsxdb.Reload.Csv

/-!
The two CSV readers side by side.

* `quoteField`, `csvLine`: a line of quoted fields;
* `csvLoop_quoted`: a quoted field is read up to its closing quote;
  `parseCsvLineAP_csvLine`: **a written line is read back**;
* `splitLoop_eq`: `splitCSV` toggles at each of two quotes where `parseCsvLineAP` looks
  ahead, and is in the same state after both;
* `csv_readers`: both.
-/

namespace Gpsxdb

/-! ### Written lines -/

/-- The inside of a quoted field: every quote twice. -/
def doubleQuotes (field : Text) : Text :=
  field.flatMap fun c => if c = 0x22 then [0x22, 0x22] else [c]

/-- A quoted field. -/
def quoteField (field : Text) : Text := 0x22 :: (doubleQuotes field ++ [0x22])

/-- A line of quoted fields. -/
def csvLine (fields : List Text) : Text := [0x2C].intercalate (fields.map quoteField)

/-- Inside of quotes, a byte other than a quote is part of the field. -/
lemma csvLoop_inside {c : UInt8} (hc : c ≠ 0x22) (field s : Text) :
    csvLoop true field (c :: s) = csvLoop true (field ++ [c]) s := by
  rw [csvLoop, if_neg hc]
  intro s' heq _
  exact hc heq

/-- A quote without another one behind it ends the quotes. -/
lemma csvLoop_close {rest : Text} (h : rest.head? ≠ some 0x22) (field : Text) :
    csvLoop true field (0x22 :: rest) = csvLoop false field rest := by
  rw [csvLoop, if_pos rfl]
  intro s' _ heq
  exact h (heq ▸ rfl)

/-- **A quoted field** is read up to its closing quote. -/
lemma csvLoop_quoted {rest : Text} (h : rest.head? ≠ some 0x22) (field before : Text) :
    csvLoop true before (doubleQuotes field ++ 0x22 :: rest)
      = csvLoop false (before ++ field) rest := by
  induction field generalizing before with
  | nil => rw [List.append_nil, ← csvLoop_close h]; rfl
  | cons c field ih =>
      have hsplit : before ++ c :: field = (before ++ [c]) ++ field := by simp
      rw [hsplit, ← ih, doubleQuotes, List.flatMap_cons]
      by_cases hc : c = 0x22
      · rw [if_pos hc, hc]
        rfl
      · rw [if_neg hc]
        exact csvLoop_inside hc ..

lemma csvLoop_quoteField {rest : Text} (h : rest.head? ≠ some 0x22) (field : Text) :
    csvLoop false [] (quoteField field ++ rest) = csvLoop false field rest := by
  rw [quoteField, List.cons_append, List.append_assoc, csvLoop, if_pos rfl]
  exact csvLoop_quoted h field []

/-- **A written line is read back.** -/
lemma parseCsvLineAP_csvLine {fields : List Text} (h : fields ≠ []) :
    parseCsvLineAP (csvLine fields) = fields := by
  rw [parseCsvLineAP, csvLine]
  induction fields with
  | nil => exact absurd rfl h
  | cons field fields ih =>
      cases fields with
      | nil =>
          have hlast := @csvLoop_quoteField [] nofun field
          rw [List.append_nil] at hlast
          have hline : [0x2C].intercalate ([field].map quoteField) = quoteField field := by
            simp [List.intercalate]
          rw [hline, hlast, csvLoop]
      | cons next fields =>
          have hline : [0x2C].intercalate ((field :: next :: fields).map quoteField)
              = quoteField field
                ++ 0x2C :: [0x2C].intercalate ((next :: fields).map quoteField) := by
            simp [List.intercalate]
          rw [hline, csvLoop_quoteField (by simp), csvLoop, if_neg (by decide), if_pos rfl,
            ih (by simp)]

/-! ### Two readers -/

/-- A field without its quotes. -/
def withoutQuotes (field : Text) : Text := field.filter fun c => c ≠ 0x22

lemma withoutQuotes_concat (field : Text) (c : UInt8) : withoutQuotes (field ++ [c])
    = withoutQuotes field ++ if c = 0x22 then [] else [c] := by
  rw [withoutQuotes, List.filter_append]
  by_cases hc : c = 0x22 <;> simp [withoutQuotes, hc]

/-- **The readers in step**: behind two quotes `splitCSV` is inside of quotes again. -/
lemma splitLoop_eq (in_quotes : Bool) (field s : Text) :
    splitLoop in_quotes (withoutQuotes field) s
      = (csvLoop in_quotes field s).map withoutQuotes := by
  fun_induction csvLoop in_quotes field s with
  | case1 => simp [splitLoop]
  | case2 field s ih =>
      rw [← ih, withoutQuotes_concat, if_pos rfl, List.append_nil]
      rfl
  | case3 field s hlast ih =>
      rw [← ih, splitLoop]
      rfl
  | case4 field c s hlast hc ih =>
      rw [← ih, splitLoop, if_neg hc, if_neg (by simp), withoutQuotes_concat, if_neg hc]
  | case5 field s ih =>
      rw [← ih, splitLoop]
      rfl
  | case6 field s hc ih =>
      rw [List.map_cons, ← ih]
      rfl
  | case7 field c s hc hcomma ih =>
      rw [← ih, splitLoop, if_neg hc, if_neg (by simp [hcomma]), withoutQuotes_concat, if_neg hc]

/-- **The readers of CSV**: a line of quoted fields is read back, and on any line the
fields of `splitCSV` are those of `parseCsvLineAP` without their quotes. -/
theorem csv_readers :
    (∀ fields : List Text, fields ≠ [] → parseCsvLineAP (csvLine fields) = fields)
      ∧ ∀ line, splitCSV line = (parseCsvLineAP line).map withoutQuotes :=
  ⟨fun _ h => parseCsvLineAP_csvLine h, fun line => splitLoop_eq false [] line⟩

/-- A field with a quote and a comma, and an empty one. -/
theorem csv_readers_two :
    parseCsvLineAP (csvLine [ascii "a\"b,", []]) = [ascii "a\"b,", []]
      ∧ splitCSV (csvLine [ascii "a\"b,", []]) = [ascii "ab,", []] := by
  have hread := csv_readers.1 [ascii "a\"b,", []] (by decide)
  refine ⟨hread, ?_⟩
  rw [csv_readers.2, hread]
  decide

end Gpsxdb
