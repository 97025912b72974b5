import Mathlib.Tactic
import Gpsxdb.Reload.Csv

/-!
`FAAObstacleLoader`: the load of the obstacles.

* `ObstacleSource`: what a load meets;
* `obstaclePointWKB`, `obstacleRow`: the row of a line, nothing where it is skipped;
* `load`: its transactions.
-/

namespace Gpsxdb

namespace FAAObstacleLoader

/-- What a load meets: whether the archive is downloaded and extracted, the file if it
can be opened, and the errors of the server. -/
structure ObstacleSource where
  download : Bool
  unzip : Bool
  csv : Option Text
  ddl : Bool
  truncate : Bool
  copy : CopyFaults

variable (ops : FloatOps) (g_srid : UInt32)

/-- `obstaclePointWKB`. -/
def obstaclePointWKB (lon lat : Double) : Option Text :=
  if g_srid = 3857 then
    (ops.toMercator lon lat).map fun c => pointWKB g_srid c.lon_m c.lat_m
  else some (pointWKB g_srid lon lat)

/-- The row of a line: `-` starts a ruler, and a line without a position is skipped. -/
def obstacleRow (line : Text) : Option (Option Record) :=
  if line = [] ∨ line.head? = some 0x2D then some none
  else
    let v := splitCSV (latinToUtf8 line)
    if v.length < 19 then some none
    else
      let lat_s := trim (fieldAt v 5)
      let lon_s := trim (fieldAt v 6)
      if lat_s = [] ∨ lon_s = [] then some none
      else
        match ops.stod lat_s, ops.stod lon_s with
        | some lat, some lon => do
            let geog ← obstaclePointWKB ops g_srid lon lat
            let text (i : ℕ) : Cell := .text (trim (fieldAt v i))
            let number (i : ℕ) : Cell := .int ((stoi (trim (fieldAt v i))).getD 0)
            let acc := trim (fieldAt v 14)
            return some
              [text 0, .bool (trim (fieldAt v 1) == ascii "O"), text 2, text 3, text 4,
                .double lat, .double lon, text 9, number 10, number 11, number 12, text 13,
                .text (acc.take 1), .text ((acc.drop 1).take 1), text 15, text 16, text 17, text 18,
                .text geog]
        | _, _ => some none

/-- `load`. -/
def load (src : ObstacleSource) (s : Multiset Record) : Exit × Multiset Record :=
  if !src.download then (.returned false, s)
  else if !src.unzip then (.returned false, s)
  else
    match src.csv with
    | none => (.returned false, s)
    | some csv => runTxns (.returned true)
        [if src.ddl then .fail .threw else .commit id,
          if src.truncate then .fail .threw else .commit fun _ => 0,
          .ofOption ((copyRows src.copy (obstacleRow ops g_srid) (getlines csv).tail).map addTo)] s

end FAAObstacleLoader

end Gpsxdb
