import Mathlib.Tactic
import Gpsxdb.Delta.PointWKB
import Gpsxdb.Reload.Streams

/-!
CSV files as `AirportsLoader.cpp` and `FAAObstacleLoader.cpp` read them.

* `getlines`: the lines of a file;
* `parseCsvLineAP`, `splitCSV`: the fields of a line, with doubled quotes and without;
* `stoi`, `optInt`, `optDouble`, `optStr`, `parseBool`: numbers and optional values;
* `trim`, `latinToUtf8`: how a line of obstacles is cleaned.
-/

namespace Gpsxdb

/-! ### Lines and fields -/

/-- `std::getline` until it fails, with what of the line is read already. -/
def getlinesFrom : Text → Text → List Text
  | line, [] => if line = [] then [] else [line]
  | line, c :: s => if c = 0x0A then line :: getlinesFrom [] s else getlinesFrom (line ++ [c]) s

/-- The lines of a file. -/
def getlines (content : Text) : List Text := getlinesFrom [] content

/-- The loop of `parseCsvLineAP`: `in_quotes`, the field read so far, and the rest. -/
def csvLoop : Bool → Text → Text → List Text
  | _, field, [] => [field]
  | true, field, 0x22 :: 0x22 :: s => csvLoop true (field ++ [0x22]) s
  | true, field, c :: s =>
      if c = 0x22 then csvLoop false field s else csvLoop true (field ++ [c]) s
  | false, field, c :: s =>
      if c = 0x22 then csvLoop true field s
      else if c = 0x2C then field :: csvLoop false [] s
      else csvLoop false (field ++ [c]) s

/-- `parseCsvLineAP`. -/
def parseCsvLineAP (line : Text) : List Text := csvLoop false [] line

/-- The loop of `splitCSV`: a quote is never part of a field. -/
def splitLoop : Bool → Text → Text → List Text
  | _, field, [] => [field]
  | in_quotes, field, c :: s =>
      if c = 0x22 then splitLoop (!in_quotes) field s
      else if c = 0x2C && !in_quotes then field :: splitLoop in_quotes [] s
      else splitLoop in_quotes (field ++ [c]) s

/-- `splitCSV`. -/
def splitCSV (line : Text) : List Text := splitLoop false [] line

/-- A field, empty where there is none. -/
def fieldAt (v : List Text) (i : ℕ) : Text := v.getD i []

/-! ### Numbers -/

/-- `isspace`. -/
def isSpace (c : UInt8) : Bool := c == 0x20 || (0x09 ≤ c && c ≤ 0x0D)

/-- `isdigit`. -/
def isDigit (c : UInt8) : Bool := 0x30 ≤ c && c ≤ 0x39

/-- The sign of a number, and what follows it. -/
def splitSign : Text → Bool × Text
  | 0x2D :: s => (true, s)
  | 0x2B :: s => (false, s)
  | s => (false, s)

/-- `std::stoi`: nothing where it throws, without a digit or out of range. -/
def stoi (s : Text) : Option ℤ :=
  let (negative, rest) := splitSign (s.dropWhile isSpace)
  let digits := rest.takeWhile isDigit
  if digits = [] then none
  else
    let n : ℤ := digits.foldl (fun n c => 10 * n + (c.toNat - 0x30 : ℕ)) 0
    let n := if negative then -n else n
    if -2 ^ 31 ≤ n ∧ n < 2 ^ 31 then some n else none

/-- `optInt`. -/
def optInt (s : Text) : Option ℤ := if s = [] then none else stoi s

/-- `optDouble`. -/
def optDouble (ops : FloatOps) (s : Text) : Option Double := if s = [] then none else ops.stod s

/-- `optStr`. -/
def optStr (s : Text) : Option Text := if s = [] then none else some s

/-- `parseBool`. -/
def parseBool (s : Text) : Bool := s == ascii "1" || s == ascii "yes" || s == ascii "true"

/-! ### Obstacles -/

/-- `trim`. -/
def trim (s : Text) : Text :=
  let blank (c : UInt8) : Bool := c == 0x20 || c == 0x09 || c == 0x0D || c == 0x0A
  ((s.dropWhile blank).reverse.dropWhile blank).reverse

/-- `sanitizeUtf8` of the obstacles, with `n` bytes still to look at: what is not UTF-8
is taken for Latin-1. -/
def latinLoop : ℕ → Text → Text
  | 0, _ => []
  | _, [] => []
  | n + 1, c :: s =>
      let encoded : Text := [(0xC0 : UInt8) ||| c >>> 6, (0x80 : UInt8) ||| c &&& 0x3F]
      match sequenceLength c with
      | none => encoded ++ latinLoop n s
      | some len =>
          if len ≤ s.length + 1 && (s.take (len - 1)).all fun cc => cc &&& 0xC0 == 0x80 then
            c :: s.take (len - 1) ++ latinLoop n (s.drop (len - 1))
          else encoded ++ latinLoop n s

/-- `sanitizeUtf8` of `FAAObstacleLoader.cpp`. -/
def latinToUtf8 (s : Text) : Text := latinLoop s.length s

example : parseCsvLineAP (ascii "1,\"a,\"\"b\"\"\",") = [ascii "1", ascii "a,\"b\"", []] := by
  decide

example : stoi (ascii " -12x") = some (-12) := by decide

end Gpsxdb
