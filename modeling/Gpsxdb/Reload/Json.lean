import Mathlib.Tactic
import Gpsxdb.Reload.Streams

/-!
JSON documents as `AirspaceLoader.cpp` reads them.

* `Json`: what the parser makes of a document; `asObject`, `asArray`, `asString`: the
  accessors that throw on another kind of value;
* `jstr`, `jdouble`, `jint`, `jbool`, `jaltLimit`: fields, whatever their kind;
* `projectRing`, `polygonsFromGeometry`: geometries; `featuresOf`.

`none` stands for an exception where the accessor throws, and for a missing value in
`jdouble` and its siblings.
-/

namespace Gpsxdb

/-- A document. -/
inductive Json where
  | null
  | bool (b : Bool)
  | int64 (n : ℤ)
  | uint64 (n : ℕ)
  | double (x : Double)
  | string (s : Text)
  | array (as : List Json)
  | object (fields : List (Text × Json))

/-- The fields of an object. -/
abbrev JsonObject := List (Text × Json)

namespace Json

/-! ### Values -/

def isNull : Json → Bool
  | null => true
  | _ => false

def asObject : Json → Option JsonObject
  | object fields => some fields
  | _ => none

def asArray : Json → Option (List Json)
  | array as => some as
  | _ => none

def asString : Json → Option Text
  | string s => some s
  | _ => none

/-! ### Fields -/

/-- `o.find(k)`. -/
def find (o : JsonObject) (k : String) : Option Json :=
  (List.find? (fun kv => kv.1 == ascii k) o).map Prod.snd

/-- `hasField`, with the field: there, and not null. -/
def field (o : JsonObject) (k : String) : Option Json := (find o k).filter fun v => !v.isNull

variable (ops : FloatOps)

/-- `jstr`. -/
def jstr (o : JsonObject) (k : String) : Text :=
  match field o k with
  | some (string s) => s
  | some (int64 n) => ascii (toString n)
  | some (uint64 n) => ascii (toString n)
  | some (double x) => ops.to_string x
  | some (bool b) => if b then ascii "1" else ascii "0"
  | _ => []

/-- `jdouble`. -/
def jdouble (o : JsonObject) (k : String) : Option Double :=
  match field o k with
  | some (double x) => some x
  | some (int64 n) => some (ops.ofInt n)
  | some (uint64 n) => some (ops.ofInt n)
  | some (string s) => if s = [] then none else ops.stod s
  | _ => none

/-- `jint`. -/
def jint (o : JsonObject) (k : String) : Option ℤ :=
  match field o k with
  | some (int64 n) => some n
  | some (uint64 n) => some (Int.bmod n (2 ^ 64))
  | some (double x) => some (ops.toInt64 x)
  | _ => none

/-- `jbool`. -/
def jbool (o : JsonObject) (k : String) : Option Bool :=
  match field o k with
  | some (bool b) => some b
  | _ => none

/-- `AltLimit`. -/
structure AltLimit where
  value : Option Double
  unit : Option ℤ
  ref : Option ℤ

/-- `jaltLimit`. -/
def jaltLimit (o : JsonObject) (k : String) : AltLimit :=
  match field o k with
  | some (object lim) =>
      ⟨jdouble ops lim "value", jint ops lim "unit", jint ops lim "referenceDatum"⟩
  | _ => ⟨none, none, none⟩

/-! ### Geometries -/

/-- A number of a point: a double, or else an `int64`. -/
def coordinate : Json → Option Double
  | double x => some x
  | int64 n => some (ops.ofInt n)
  | _ => none

/-- `lonOf` and `latOf`; a number that is missing is taken to throw. -/
def numberAt (i : ℕ) (pt : Json) : Option Double := do
  let a ← pt.asArray
  coordinate ops (← a[i]?)

/-- `projectRing`. -/
def projectRing (g_srid : UInt32) (ring : List Json) : Option (List Coord) :=
  ring.mapM fun pt => do
    let lon ← numberAt ops 0 pt
    let lat ← numberAt ops 1 pt
    if g_srid = 3857 then ops.toMercator lon lat else some ⟨lon, lat⟩

/-- The rings of a polygon. -/
def projectRings (g_srid : UInt32) (rings : List Json) : Option (List (List Coord)) :=
  rings.mapM fun ring => do projectRing ops g_srid (← ring.asArray)

/-- `polygonsFromGeometry`. -/
def polygonsFromGeometry (g_srid : UInt32) (geom : JsonObject) :
    Option (List (List (List Coord))) :=
  match find geom "type", find geom "coordinates" with
  | some type, some coordinates => do
      let type ← type.asString
      let coords ← coordinates.asArray
      if type = ascii "Polygon" then
        return [← projectRings ops g_srid coords]
      else if type = ascii "MultiPolygon" then
        coords.mapM fun poly => do projectRings ops g_srid (← poly.asArray)
      else return []
  | _, _ => some []

/-- `featuresOf`. -/
def featuresOf (doc : Json) : Option (List Json) := do
  let o ← doc.asObject
  (← find o "features").asArray

end Json

end Gpsxdb
