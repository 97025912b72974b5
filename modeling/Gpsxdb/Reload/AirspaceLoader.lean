import Mathlib.Tactic
import Gpsxdb.Reload.Json
import Gpsxdb.Wkb.Writers

/-!
`AirspaceLoader`: the five loads of airspaces and routes.

* `GeoJsonSource`: what a load from a GeoJSON file meets; `featureRow`,
  `loadGeoJson`: its rows and its transactions;
* `loadClassAirspace`, `loadSpecialUseAirspace`, `loadMilitaryTrainingRoutes`,
  `loadNationalDefenseTFRs`: the columns of each;
* `Listing`: the pages of OpenAIP; `pageLoop`, `loadInternationalAirspace`.

The table, its indexes and its rows are made in transactions of their own.  Behind the last
one the query functions are made: the transaction that looks which tables there are may
throw, with the rows committed.  Progress reports, the temporary file and the functions
themselves, whose errors are caught, are left out: none of them touches a table or fails.
-/

namespace Gpsxdb

namespace AirspaceLoader

open Json

/-- A table. -/
abbrev AirspaceTable := Multiset Record

/-- `CREATE TABLE IF NOT EXISTS` and its indexes. -/
def prepare (fault : Bool) : Txn AirspaceTable := if fault then .fail .threw else .commit id

/-- `TRUNCATE`. -/
def truncate (fault : Bool) : Txn AirspaceTable :=
  if fault then .fail .threw else .commit fun _ => 0

/-- The transaction of `createAirspaceQueryFunctions` that no `try` surrounds. -/
def createQueryFunctions (fault : Bool) : Txn AirspaceTable :=
  if fault then .fail .threw else .commit id

/-! ### GeoJSON files -/

/-- What a load from a file meets: the attempts to download it, the document if it can
be parsed, and the errors of the server. -/
structure GeoJsonSource where
  attempts : ℕ → Bool
  doc : Option Json
  ddl : Bool
  truncate : Bool
  copy : CopyFaults
  query_functions : Bool

/-- The transaction of the rows: a document without features is found out inside of
it. -/
def copyFeatures (rowOf : Json → Option (Option Record)) (fs : CopyFaults) (doc : Json) :
    Txn AirspaceTable :=
  if fs.opened then .fail .threw
  else
    match featuresOf doc with
    | none => .fail (.returned false)
    | some feats => .ofOption ((copyRows fs rowOf feats).map addTo)

/-- The load of a file. -/
def loadGeoJson (rowOf : Json → Option (Option Record)) (src : GeoJsonSource)
    (s : AirspaceTable) : Exit × AirspaceTable :=
  if !downloadRetry src.attempts then (.returned false, s)
  else
    match src.doc with
    | none => (.returned false, s)
    | some doc => runTxns (.returned true)
        [prepare src.ddl, truncate src.truncate, copyFeatures rowOf src.copy doc,
          createQueryFunctions src.query_functions] s

variable (ops : FloatOps) (g_srid : UInt32)

/-- The properties and the geometry of a feature, nothing where it is skipped. -/
def partsOf (fv : Json) : Option (Option (JsonObject × JsonObject)) := do
  let f ← fv.asObject
  match find f "properties", find f "geometry" with
  | some properties, some geometry =>
      if geometry.isNull then return none
      else return some (← properties.asObject, ← geometry.asObject)
  | _, _ => return none

/-- The row of a feature with polygons: its columns, and the polygons. -/
def featureRow (columns : JsonObject → Record) (fv : Json) : Option (Option Record) := do
  match ← partsOf fv with
  | none => return none
  | some (p, geom) =>
      let polygons ← polygonsFromGeometry ops g_srid geom
      if polygons = [] then return none
      else return some (columns p ++ [.text (toHex (multiPolygonWKB g_srid polygons))])

/-- A column of text. -/
def textCell (p : JsonObject) (k : String) : Cell := .text (jstr ops p k)

/-- A column of numbers. -/
def doubleCell (p : JsonObject) (k : String) : Cell := .ofDouble (jdouble ops p k)

/-- The limits of an airspace. -/
def limitCells (p : JsonObject) : Record :=
  [doubleCell ops p "LOWER_VAL", textCell ops p "LOWER_UOM", textCell ops p "LOWER_CODE",
    doubleCell ops p "UPPER_VAL", textCell ops p "UPPER_UOM", textCell ops p "UPPER_CODE"]

def classAirspaceRow : Json → Option (Option Record) :=
  featureRow ops g_srid fun p =>
    ["IDENT", "ICAO_ID", "NAME", "CLASS", "TYPE_CODE", "LOCAL_TYPE"].map (textCell ops p)
      ++ limitCells ops p ++ ["CITY", "STATE", "COUNTRY"].map (textCell ops p)

def loadClassAirspace : GeoJsonSource → AirspaceTable → Exit × AirspaceTable :=
  loadGeoJson (classAirspaceRow ops g_srid)

def specialUseAirspaceRow : Json → Option (Option Record) :=
  featureRow ops g_srid fun p =>
    ["NAME", "TYPE_CODE", "CLASS"].map (textCell ops p) ++ limitCells ops p
      ++ ["CITY", "STATE", "COUNTRY", "TIMESOFUSE", "REMARKS"].map (textCell ops p)

def loadSpecialUseAirspace : GeoJsonSource → AirspaceTable → Exit × AirspaceTable :=
  loadGeoJson (specialUseAirspaceRow ops g_srid)

/-- A route is a line of at least two points. -/
def militaryTrainingRouteRow (fv : Json) : Option (Option Record) := do
  match ← partsOf fv with
  | none => return none
  | some (p, geom) =>
      match find geom "type", find geom "coordinates" with
      | some type, some coordinates =>
          if (← type.asString) ≠ ascii "LineString" then return none
          else
            let pts ← projectRing ops g_srid (← coordinates.asArray)
            if pts.length < 2 then return none
            else return some <|
              [textCell ops p "IDENT", .ofInt (jint ops p "MTR_TYPE"), textCell ops p "ROUTETYPE"]
                ++ limitCells ops p
                ++ [doubleCell ops p "WIDTHLEFT", doubleCell ops p "WIDTHRIGHT",
                  textCell ops p "COUNTRY", .text (toHex (lineStringWKB g_srid pts))]
      | _, _ => return none

def loadMilitaryTrainingRoutes : GeoJsonSource → AirspaceTable → Exit × AirspaceTable :=
  loadGeoJson (militaryTrainingRouteRow ops g_srid)

def nationalDefenseTFRRow : Json → Option (Option Record) :=
  featureRow ops g_srid fun p =>
    ["NAME", "TYPE_CODE", "LOCAL_TYPE", "WKHR_CODE", "WKHR_RMK", "CITY", "STATE",
      "COUNTRY"].map (textCell ops p)

def loadNationalDefenseTFRs : GeoJsonSource → AirspaceTable → Exit × AirspaceTable :=
  loadGeoJson (nationalDefenseTFRRow ops g_srid)

/-! ### OpenAIP -/

/-- `kPageLimit`, `kMaxPages`. -/
def kPageLimit : ℕ := 1000

def kMaxPages : ℕ := 1000

/-- What the load of the international airspaces meets: of each page the attempts to
fetch it, and the document if it can be parsed. -/
structure OpenAipSource where
  api_key : Text
  attempts : ℕ → ℕ → Bool
  doc : ℕ → Option Json
  ddl : Bool
  truncate : Bool
  copy : CopyFaults
  query_functions : Bool

/-- What the loop finds of a page: it stops, it throws, or it has the items. -/
inductive Page where
  | stop
  | throws
  | items (items : List Json)

/-- A page that is fetched. -/
def OpenAipSource.page (src : OpenAipSource) (page : ℕ) : Page :=
  if !downloadRetry (src.attempts page) then .stop
  else
    match src.doc page with
    | some (.object o) =>
        match find o "items" with
        | none => .stop
        | some items => items.asArray.elim .throws .items
    | _ => .stop

/-- The row of an item: those of the US are skipped. -/
def internationalRow (iv : Json) : Option (Option Record) := do
  let it ← iv.asObject
  match find it "geometry" with
  | none => return none
  | some geometry =>
      if geometry.isNull then return none
      else if jstr ops it "country" = ascii "US" then return none
      else
        let polygons ← polygonsFromGeometry ops g_srid (← geometry.asObject)
        if polygons = [] then return none
        else
          let lo := jaltLimit ops it "lowerLimit"
          let up := jaltLimit ops it "upperLimit"
          return some
            [textCell ops it "_id", textCell ops it "name", .ofInt (jint ops it "type"),
              .ofInt (jint ops it "icaoClass"), textCell ops it "country",
              .ofDouble lo.value, .ofInt lo.unit, .ofInt lo.ref,
              .ofDouble up.value, .ofInt up.unit, .ofInt up.ref,
              .ofInt (jint ops it "activity"), .ofBool (jbool it "onDemand"),
              .ofBool (jbool it "onRequest"), .ofBool (jbool it "byNotam"),
              .ofText ((field it "updatedAt").map fun _ => jstr ops it "updatedAt"),
              .text (toHex (multiPolygonWKB g_srid polygons))]

/-- The loop over the pages, with so many still allowed and `n` rows written. -/
def pageLoop (src : OpenAipSource) : ℕ → ℕ → ℕ → Option (List Record)
  | 0, _, _ => some []
  | pages + 1, page, n =>
      match src.page page with
      | .stop => some []
      | .throws => none
      | .items [] => some []
      | .items items =>
          match writeRows src.copy.row (internationalRow ops g_srid) n items with
          | none => none
          | some rows =>
              if items.length < kPageLimit then some rows
              else (pageLoop src pages (page + 1) (n + rows.length)).map fun rest => rows ++ rest

/-- The transaction of the pages: its rows, once it is committed. -/
def copyPages (src : OpenAipSource) : Option (List Record) :=
  if src.copy.opened then none
  else
    match pageLoop ops g_srid src kMaxPages 1 0 with
    | none => none
    | some rows => if src.copy.complete then none else if src.copy.commit then none else some rows

/-- `loadInternationalAirspace`: true if there is a row at all. -/
def loadInternationalAirspace (src : OpenAipSource) (s : AirspaceTable) : Exit × AirspaceTable :=
  if src.api_key = [] then (.returned false, s)
  else
    let copied := copyPages ops g_srid src
    runTxns (.returned (0 < (copied.getD []).length))
      [prepare src.ddl, truncate src.truncate, .ofOption (copied.map addTo),
        createQueryFunctions src.query_functions] s

end AirspaceLoader

end Gpsxdb
