import Mathlib.Tactic
import Gpsxdb.Reload.Csv

/-!
`AirportsLoader`: the load of the airports and what belongs to them.

* `AirportFile`, `AirportTable`, `AirportStream`: the six files, the seven tables they
  fill, and the eight transactions that do so;
* `countryRow`, `regionRow`, `airportRow`, `frequencyRow`, `runwayRow`, `navaidRow`:
  the rows of a line, and its tag rows;
* `streamRows`, `storeStream`: the rows of a stream, and the stream itself;
* `load`: its transactions.

All tables are cleared in one transaction; each stream then has its own.
-/

namespace Gpsxdb

namespace AirportsLoader

inductive AirportFile where
  | countries
  | regions
  | airports
  | frequencies
  | runways
  | navaids
deriving DecidableEq

inductive AirportTable where
  | countries
  | regions
  | airports
  | tags
  | frequencies
  | runways
  | navaids
deriving DecidableEq

/-- The streams: airports and navaids have one for their tags as well. -/
inductive AirportStream where
  | countries
  | regions
  | airports
  | airportTags
  | frequencies
  | runways
  | navaids
  | navaidTags
deriving DecidableEq

/-- The table of a stream. -/
def AirportStream.table : AirportStream → AirportTable
  | countries => .countries
  | regions => .regions
  | airports => .airports
  | airportTags => .tags
  | frequencies => .frequencies
  | runways => .runways
  | navaids => .navaids
  | navaidTags => .tags

/-- The files in the order of their downloads. -/
def files : List AirportFile := [.countries, .regions, .airports, .frequencies, .runways, .navaids]

/-- The streams in their order. -/
def streams : List AirportStream :=
  [.countries, .regions, .airports, .airportTags, .frequencies, .runways, .navaids, .navaidTags]

/-- What a load meets: the attempts to download the files and what they hold, and the
errors of the server. -/
structure AirportSource where
  attempts : AirportFile → ℕ → Bool
  content : AirportFile → Text
  set : Bool
  truncate : Bool
  copy : AirportStream → CopyFaults

/-- The lines behind the header. -/
def AirportSource.lines (src : AirportSource) (file : AirportFile) : List Text :=
  (getlines (src.content file)).tail

variable (ops : FloatOps)

/-! ### Positions -/

/-- `validLonLatAP`: the sign bit aside, the numbers are at most those of 180 and 90;
an infinity or a NaN is above. -/
def validLonLatAP (lon lat : Double) : Bool :=
  lon &&& 0x7FFFFFFFFFFFFFFF ≤ 0x4066800000000000
    && lat &&& 0x7FFFFFFFFFFFFFFF ≤ 0x4056800000000000

/-- `pointWKBAP`: lower-case digits, and always SRID 3857. -/
def pointWKBAP (lon_m lat_m : Double) : Text :=
  (pointWKB 3857 lon_m lat_m).map fun c => if 0x41 ≤ c ∧ c ≤ 0x46 then c + 0x20 else c

/-- The projected position of two fields, nothing where they are missing or wrong. -/
def positionOf (lat lon : Option Double) : Option (Option Coord) :=
  match lat, lon with
  | some lat, some lon =>
      if validLonLatAP lon lat then (ops.toMercator lon lat).map some else some none
  | _, _ => some none

/-- The columns of a position: latitude, longitude. -/
def positionCells (position : Option Coord) : Record :=
  [.ofDouble (position.map Coord.lat_m), .ofDouble (position.map Coord.lon_m)]

/-- The column of its point. -/
def geogCell (position : Option Coord) : Cell :=
  .ofText (position.map fun c => pointWKBAP c.lon_m c.lat_m)

/-! ### Rows -/

/-- A column of text. -/
def textCell (v : List Text) (i : ℕ) : Cell := .ofText (optStr (fieldAt v i))

/-- A column of whole numbers. -/
def intCell (v : List Text) (i : ℕ) : Cell := .ofInt (optInt (fieldAt v i))

/-- A column of numbers. -/
def doubleCell (v : List Text) (i : ℕ) : Cell := .ofDouble (optDouble ops (fieldAt v i))

/-- The tag rows of a line. -/
def tagRows (v : List Text) (ident : Text) (entity_type : String) (cols : List (ℕ × String)) :
    List Record :=
  cols.filterMap fun (col, key) =>
    if fieldAt v col = [] then none
    else some [.text ident, .text (ascii entity_type), .text (ascii key), .text (fieldAt v col)]

/-- `loadCountries`, a line. -/
def countryRow (line : Text) : Option (Option Record) :=
  let v := parseCsvLineAP line
  if v.length < 4 then some none
  else do
    let id ← stoi (fieldAt v 0)
    return some (.int id :: [1, 2, 3].map (textCell v))

/-- `loadRegions`, a line. -/
def regionRow (line : Text) : Option (Option Record) :=
  let v := parseCsvLineAP line
  if v.length < 6 then some none
  else do
    let id ← stoi (fieldAt v 0)
    return some (.int id :: [1, 2, 3, 4, 5].map (textCell v))

/-- `AIRPORT_TAG_COLS`. -/
def AIRPORT_TAG_COLS : List (ℕ × String) :=
  [(16, "home_link"), (17, "wikipedia_link"), (18, "keywords")]

/-- `loadAirports`, a line: its row and its tag rows. -/
def airportRow (line : Text) : Option (Option (Record × List Record)) :=
  let v := parseCsvLineAP line
  if v.length < 19 then some none
  else do
    let position ← positionOf ops (optDouble ops (fieldAt v 4)) (optDouble ops (fieldAt v 5))
    let id ← stoi (fieldAt v 0)
    let row : Record := .int id :: [1, 2, 3].map (textCell v) ++ positionCells position
      ++ [intCell v 6] ++ [7, 8, 9, 10].map (textCell v) ++ [.bool (parseBool (fieldAt v 11))]
      ++ [12, 13, 14, 15].map (textCell v) ++ [geogCell position]
    return some (row, tagRows v (fieldAt v 1) "airport" AIRPORT_TAG_COLS)

/-- `loadFrequencies`, a line. -/
def frequencyRow (line : Text) : Option (Option Record) :=
  let v := parseCsvLineAP line
  if v.length < 6 then some none
  else do
    let id ← stoi (fieldAt v 0)
    return some (.int id :: intCell v 1 :: [2, 3, 4].map (textCell v) ++ [doubleCell ops v 5])

/-- One end of a runway, from its first field on. -/
def runwayEnd (v : List Text) (i : ℕ) (position : Option Coord) : Record :=
  textCell v i :: positionCells position
    ++ [intCell v (i + 3), doubleCell ops v (i + 4), intCell v (i + 5), geogCell position]

/-- `loadRunways`, a line. -/
def runwayRow (line : Text) : Option (Option Record) :=
  let v := parseCsvLineAP line
  if v.length < 20 then some none
  else do
    let le ← positionOf ops (optDouble ops (fieldAt v 9)) (optDouble ops (fieldAt v 10))
    let he ← positionOf ops (optDouble ops (fieldAt v 15)) (optDouble ops (fieldAt v 16))
    let id ← stoi (fieldAt v 0)
    return some ([.int id, intCell v 1, textCell v 2, intCell v 3, intCell v 4, textCell v 5,
      .bool (parseBool (fieldAt v 6)), .bool (parseBool (fieldAt v 7))]
        ++ runwayEnd ops v 8 le ++ runwayEnd ops v 14 he)

/-- `NAVAID_TAG_COLS`. -/
def NAVAID_TAG_COLS : List (ℕ × String) :=
  [(1, "filename"), (15, "slaved_variation_deg"), (16, "magnetic_variation_deg")]

/-- `loadNavaids`, a line: its row and its tag rows. -/
def navaidRow (line : Text) : Option (Option (Record × List Record)) :=
  let v := parseCsvLineAP line
  if v.length < 20 then some none
  else do
    let position ← positionOf ops (optDouble ops (fieldAt v 6)) (optDouble ops (fieldAt v 7))
    let dme ← positionOf ops (optDouble ops (fieldAt v 12)) (optDouble ops (fieldAt v 13))
    let id ← stoi (fieldAt v 0)
    let row : Record := .int id :: [2, 3, 4].map (textCell v) ++ [doubleCell ops v 5]
      ++ positionCells position ++ [intCell v 8, textCell v 9, doubleCell ops v 10, textCell v 11]
      ++ positionCells dme ++ [intCell v 14, doubleCell ops v 15, doubleCell ops v 16]
      ++ [17, 18, 19].map (textCell v) ++ [geogCell position]
    return some (row, tagRows v (fieldAt v 19) "navaid" NAVAID_TAG_COLS)

/-! ### Transactions -/

/-- The rows of the lines of a file, if none of them throws. -/
def AirportSource.parsed {β : Type} (src : AirportSource) (file : AirportFile)
    (rowOf : Text → Option (Option β)) : Option (List β) := rowsFrom rowOf (src.lines file)

/-- The rows of a stream. -/
def streamRows (src : AirportSource) : AirportStream → Option (List Record)
  | .countries => src.parsed .countries countryRow
  | .regions => src.parsed .regions regionRow
  | .airports => (src.parsed .airports (airportRow ops)).map fun rs => rs.map Prod.fst
  | .airportTags => (src.parsed .airports (airportRow ops)).map fun rs => rs.flatMap Prod.snd
  | .frequencies => src.parsed .frequencies (frequencyRow ops)
  | .runways => src.parsed .runways (runwayRow ops)
  | .navaids => (src.parsed .navaids (navaidRow ops)).map fun rs => rs.map Prod.fst
  | .navaidTags => (src.parsed .navaids (navaidRow ops)).map fun rs => rs.flatMap Prod.snd

/-- Rows that are there before the stream is opened. -/
def copyAll (fs : CopyFaults) (rows : List Record) : Option (List Record) :=
  copyRows fs (fun r => some (some r)) rows

/-- A stream: airports and navaids are read in full before theirs are opened, the
others line by line. -/
def storeStream (src : AirportSource) (st : AirportStream) : Option (List Record) :=
  match st with
  | .countries => copyRows (src.copy st) countryRow (src.lines .countries)
  | .regions => copyRows (src.copy st) regionRow (src.lines .regions)
  | .frequencies => copyRows (src.copy st) (frequencyRow ops) (src.lines .frequencies)
  | .runways => copyRows (src.copy st) (runwayRow ops) (src.lines .runways)
  | st => (streamRows ops src st).bind (copyAll (src.copy st))

/-- The tables. -/
abbrev AirportTables := AirportTable → Multiset Record

/-- What a stream adds. -/
def addRows (t : AirportTable) (rows : List Record) (s : AirportTables) : AirportTables :=
  Function.update s t (addTo rows (s t))

/-- `load`. -/
def load (src : AirportSource) (s : AirportTables) : Exit × AirportTables :=
  if !files.all fun file => downloadRetry (src.attempts file) then (.returned false, s)
  else runTxns (.returned true)
    ((if src.set then .fail .threw else .commit id)
      :: (if src.truncate then .fail .threw else .commit fun _ _ => 0)
      :: streams.map fun st => .ofOption ((storeStream ops src st).map (addRows st.table))) s

end AirportsLoader

end Gpsxdb
