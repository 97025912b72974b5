import Mathlib.Tactic
import Gpsxdb.Export.NodeExport
import Gpsxdb.Import.Holes
import Gpsxdb.Wkb.WkbDecode

/-!
Whether a geometry belongs to a region (`RegionIndex.cpp`).

* `inRange`, `rangesOverlap`: a range that may wrap around the antimeridian;
  `rangesOverlap_iff`: **the test for intervals** is that some number of the interval
  passes the test for numbers;
* `Boost`, `Boost.Lawful`: the functions of the library, and what they promise;
* `Entry`, `build`, `matchesRegion`: a region, its index and the two filters;
* `matchesRegion_iff`: **the filters reject no match**; `nodeMatches_iff` of the nodes of
  an export.
-/

namespace Gpsxdb

open WkbDecode

/-! ### Doubles and numbers -/

namespace Double

/-- A double that is not above a number. -/
def Below (x : Double) (v : ℚ) : Prop := isNaN x = false ∧ doubleValue (key x) ≤ v

/-- A double that is not below a number. -/
def Above (x : Double) (v : ℚ) : Prop := isNaN x = false ∧ v ≤ doubleValue (key x)

instance (x : Double) (v : ℚ) : Decidable (Below x v) := inferInstanceAs (Decidable (_ ∧ _))

instance (x : Double) (v : ℚ) : Decidable (Above x v) := inferInstanceAs (Decidable (_ ∧ _))

lemma key_le_of_below_above {x y : Double} {v : ℚ} (hx : Below x v) (hy : Above y v) :
    key x ≤ key y := doubleValue_le_iff.mp (hx.2.trans hy.2)

/-- Doubles around a number are in order. -/
lemma le_of_below_above {x y : Double} {v : ℚ} (hx : Below x v) (hy : Above y v) :
    le x y = true := (le_iff hx.1 hy.1).mpr (key_le_of_below_above hx hy)

lemma lt_eq_false {x y : Double} {v : ℚ} (hx : Below x v) (hy : Above y v) : lt y x = false := by
  rw [lt, hx.1, hy.1]
  simpa using key_le_of_below_above hx hy

lemma lt_iff {x y : Double} (hx : isNaN x = false) (hy : isNaN y = false) :
    lt x y = true ↔ key x < key y := by
  rw [lt, hx, hy]
  simp

end Double

namespace RegionIndex

/-! ### Ranges -/

/-- `inRange`: a range with `hi` below `lo` wraps around the antimeridian. -/
def inRange (v lo hi : Double) : Bool :=
  if Double.le lo hi then Double.le lo v && Double.le v hi else Double.le lo v || Double.le v hi

/-- `rangesOverlap`. -/
def rangesOverlap (lo hi v0 v1 : Double) : Bool :=
  if Double.le lo hi then Double.le lo v1 && Double.le v0 hi
  else !(Double.lt hi v0 && Double.lt v1 lo)

/-- `inRange` of a number. -/
def InRange (v : ℚ) (lo hi : Double) : Prop :=
  if Double.le lo hi then lo.Below v ∧ hi.Above v else lo.Below v ∨ hi.Above v

instance (v : ℚ) (lo hi : Double) : Decidable (InRange v lo hi) :=
  inferInstanceAs (Decidable (if Double.le lo hi = true then lo.Below v ∧ hi.Above v
    else lo.Below v ∨ hi.Above v))

/-- **An interval around a number of the range** overlaps the range, wrapped or not. -/
lemma rangesOverlap_of_inRange {lo hi v0 v1 : Double} {v : ℚ} (h0 : v0.Below v) (h1 : v1.Above v)
    (h : InRange v lo hi) : rangesOverlap lo hi v0 v1 = true := by
  rw [InRange] at h
  rw [rangesOverlap]
  split_ifs at h ⊢ with hordinary
  · rw [Double.le_of_below_above h.1 h1, Double.le_of_below_above h0 h.2]
    rfl
  · obtain hlo | hhi := h
    · rw [Double.lt_eq_false hlo h1, Bool.and_false]
      rfl
    · rw [Double.lt_eq_false h0 hhi, Bool.false_and]
      rfl

/-- **The test for intervals**: some number of the interval is in the range. -/
theorem rangesOverlap_iff {lo hi v0 v1 : Double} (hlo : Double.isNaN lo = false)
    (hhi : Double.isNaN hi = false) (h : Double.le v0 v1 = true) :
    rangesOverlap lo hi v0 v1 = true
      ↔ ∃ v, Double.le v0 v = true ∧ Double.le v v1 = true ∧ inRange v lo hi = true := by
  obtain ⟨⟨h0, h1⟩, hkey⟩ : (Double.isNaN v0 = false ∧ Double.isNaN v1 = false)
      ∧ Double.key v0 ≤ Double.key v1 := by simpa [Double.le] using h
  constructor
  · intro hoverlap
    rw [rangesOverlap] at hoverlap
    split_ifs at hoverlap with hordinary
    · obtain ⟨hlow, hhigh⟩ := Bool.and_eq_true_iff.mp hoverlap
      rw [Double.le_iff hlo h1] at hlow
      rw [Double.le_iff h0 hhi] at hhigh
      have hrange := (Double.le_iff hlo hhi).mp hordinary
      -- the greater one of the two lower ends
      rcases le_total (Double.key lo) (Double.key v0) with hle | hle
      · refine ⟨v0, (Double.le_iff h0 h0).mpr le_rfl, h, ?_⟩
        rw [inRange, if_pos hordinary, (Double.le_iff hlo h0).mpr hle,
          (Double.le_iff h0 hhi).mpr hhigh]
        rfl
      · refine ⟨lo, (Double.le_iff h0 hlo).mpr hle, (Double.le_iff hlo h1).mpr hlow, ?_⟩
        rw [inRange, if_pos hordinary, hordinary, (Double.le_iff hlo hlo).mpr le_rfl]
        rfl
    · -- one end at least is outside the gap
      rw [Bool.not_eq_true', Bool.and_eq_false_iff, ← Bool.not_eq_true, ← Bool.not_eq_true,
        Double.lt_iff hhi h0, Double.lt_iff h1 hlo, not_lt, not_lt] at hoverlap
      obtain hwest | heast := hoverlap
      · refine ⟨v0, (Double.le_iff h0 h0).mpr le_rfl, h, ?_⟩
        rw [inRange, if_neg hordinary, (Double.le_iff h0 hhi).mpr hwest, Bool.or_true]
      · refine ⟨v1, h, (Double.le_iff h1 h1).mpr le_rfl, ?_⟩
        rw [inRange, if_neg hordinary, (Double.le_iff hlo h1).mpr heast, Bool.true_or]
  · rintro ⟨v, hv0, hv1, hrange⟩
    have hv : Double.isNaN v = false := by
      rw [Double.le] at hv0
      simp only [Bool.and_eq_true, Bool.not_eq_true'] at hv0
      exact hv0.1.2
    refine rangesOverlap_of_inRange (v := doubleValue (Double.key v))
      ⟨h0, doubleValue_le_iff.mpr ((Double.le_iff h0 hv).mp hv0)⟩
      ⟨h1, doubleValue_le_iff.mpr ((Double.le_iff hv h1).mp hv1)⟩ ?_
    rw [inRange] at hrange
    rw [InRange]
    split_ifs at hrange ⊢ with hordinary
    · rw [Bool.and_eq_true, Double.le_iff hlo hv, Double.le_iff hv hhi] at hrange
      exact ⟨⟨hlo, doubleValue_le_iff.mpr hrange.1⟩, hhi, doubleValue_le_iff.mpr hrange.2⟩
    · rw [Bool.or_eq_true, Double.le_iff hlo hv, Double.le_iff hv hhi] at hrange
      exact hrange.imp (fun hle => ⟨hlo, doubleValue_le_iff.mpr hle⟩)
        fun hle => ⟨hhi, doubleValue_le_iff.mpr hle⟩

/-! ### Boxes -/

/-- `Box`. -/
structure Box where
  min_corner : Coord
  max_corner : Coord
deriving DecidableEq

namespace Box

/-- A point of the plane in a box. -/
def Contains (b : Box) (p : ℚ × ℚ) : Prop :=
  (b.min_corner.lon_m.Below p.1 ∧ b.max_corner.lon_m.Above p.1)
    ∧ b.min_corner.lat_m.Below p.2 ∧ b.max_corner.lat_m.Above p.2

instance (b : Box) (p : ℚ × ℚ) : Decidable (b.Contains p) :=
  inferInstanceAs (Decidable ((_ ∧ _) ∧ _ ∧ _))

/-- Boxes with a point in common. -/
def meets (a b : Box) : Bool :=
  (Double.le a.min_corner.lon_m b.max_corner.lon_m
      && Double.le b.min_corner.lon_m a.max_corner.lon_m)
    && (Double.le a.min_corner.lat_m b.max_corner.lat_m
      && Double.le b.min_corner.lat_m a.max_corner.lat_m)

lemma meets_of_contains {a b : Box} {p : ℚ × ℚ} (ha : a.Contains p) (hb : b.Contains p) :
    a.meets b = true := by
  obtain ⟨⟨hax, hax'⟩, hay, hay'⟩ := ha
  obtain ⟨⟨hbx, hbx'⟩, hby, hby'⟩ := hb
  rw [meets, Double.le_of_below_above hax hbx', Double.le_of_below_above hbx hax',
    Double.le_of_below_above hay hby', Double.le_of_below_above hby hay']
  rfl

end Box

/-! ### The library -/

/-- What is used of Boost: envelopes, the exact test, and an index of boxes. -/
structure Boost where
  envelope : GeomVariant → Box
  polygonEnvelope : Polygon → Box
  intersects : GeomVariant → Polygon → Bool
  PolyRtree : Type
  empty : PolyRtree
  insert : PolyRtree → Box × ℕ → PolyRtree
  query : PolyRtree → Box → List (Box × ℕ)

/-- What the library promises, with the points that geometries stand for: an envelope
contains the geometry, geometries that intersect have a point in common, and a query
returns the boxes that meet the box of the query, in any order. -/
structure Boost.Lawful (bg : Boost) (points : GeomVariant → Set (ℚ × ℚ))
    (polygonPoints : Polygon → Set (ℚ × ℚ)) : Prop where
  envelope_contains : ∀ g, ∀ p ∈ points g, (bg.envelope g).Contains p
  polygonEnvelope_contains : ∀ poly, ∀ p ∈ polygonPoints poly, (bg.polygonEnvelope poly).Contains p
  common_point : ∀ g poly, bg.intersects g poly = true → ∃ p ∈ points g, p ∈ polygonPoints poly
  query_perm : ∀ (hits : List (Box × ℕ)) (box : Box),
    (bg.query (hits.foldl bg.insert bg.empty) box).Perm (hits.filter fun h => h.1.meets box)

/-! ### Regions -/

/-- The index of the polygons' envelopes. -/
def Boost.rtreeOf (bg : Boost) (polygon : List Polygon) : bg.PolyRtree :=
  (polygon.zipIdx.map fun p => (bg.polygonEnvelope p.1, p.2)).foldl bg.insert bg.empty

/-- `Entry`, which nothing changes after `build`. -/
structure Entry (bg : Boost) where
  name : String
  min_x : Double
  min_y : Double
  max_x : Double
  max_y : Double
  polygon : List Polygon
  rtree : bg.PolyRtree
  rtree_eq : rtree = bg.rtreeOf polygon

variable {bg : Boost}

/-- `build`. -/
def build (name : String) (min_x min_y max_x max_y : Double) (polygon : List Polygon) :
    Entry bg where
  name := name
  min_x := min_x
  min_y := min_y
  max_x := max_x
  max_y := max_y
  polygon := polygon
  rtree := bg.rtreeOf polygon
  rtree_eq := rfl

/-- `IntersectsVisitor`, of a hit of the index. -/
def intersectsVisitor (region : Entry bg) (candidate : GeomVariant) (h : Box × ℕ) : Bool :=
  match region.polygon[h.2]? with
  | some poly => bg.intersects candidate poly
  | none => false

/-- `matches`, with what is left in `scratch`; `none` is a null geometry. -/
def matchesRegion (region : Entry bg) (candidate : Option GeomVariant)
    (scratch : List (Box × ℕ)) : Bool × List (Box × ℕ) :=
  match candidate with
  | none => (false, scratch)
  | some g =>
      let candidate_box := bg.envelope g
      let lo_pt := candidate_box.min_corner
      let hi_pt := candidate_box.max_corner
      if !rangesOverlap region.min_x region.max_x lo_pt.lon_m hi_pt.lon_m then (false, scratch)
      else if !(Double.le region.min_y hi_pt.lat_m && Double.le lo_pt.lat_m region.max_y) then
        (false, scratch)
      else
        let hits := bg.query region.rtree candidate_box
        (hits.any (intersectsVisitor region g), hits)

/-- All of the region's polygons lie in its box, which may wrap around. -/
def Entry.InBbox (polygonPoints : Polygon → Set (ℚ × ℚ)) (region : Entry bg) : Prop :=
  ∀ poly ∈ region.polygon, ∀ p ∈ polygonPoints poly,
    InRange p.1 region.min_x region.max_x ∧ region.min_y.Below p.2 ∧ region.max_y.Above p.2

/-! ### The filters -/

section Filters

variable {points : GeomVariant → Set (ℚ × ℚ)} {polygonPoints : Polygon → Set (ℚ × ℚ)}
  {region : Entry bg} {g : GeomVariant}

/-- A polygon with a point of the candidate is among the hits of the index. -/
lemma mem_query (hlaw : bg.Lawful points polygonPoints) {i : ℕ} {poly : Polygon}
    (hpoly : region.polygon[i]? = some poly) {p : ℚ × ℚ} (hg : p ∈ points g)
    (hp : p ∈ polygonPoints poly) :
    (bg.polygonEnvelope poly, i) ∈ bg.query region.rtree (bg.envelope g) := by
  rw [region.rtree_eq, Boost.rtreeOf, (hlaw.query_perm _ _).mem_iff, List.mem_filter]
  refine ⟨List.mem_map.mpr ⟨(poly, i), List.mem_zipIdx_iff_getElem?.mpr hpoly, rfl⟩, ?_⟩
  exact Box.meets_of_contains (hlaw.polygonEnvelope_contains poly p hp)
    (hlaw.envelope_contains g p hg)

/-- What a hit leads to is a polygon of the region. -/
lemma any_of_intersectsVisitor {h : Box × ℕ} (hvisit : intersectsVisitor region g h = true) :
    region.polygon.any (bg.intersects g) = true := by
  rw [intersectsVisitor] at hvisit
  split at hvisit
  · rename_i poly hpoly
    exact List.any_eq_true.mpr ⟨poly, List.mem_of_getElem? hpoly, hvisit⟩
  · exact absurd hvisit Bool.false_ne_true

/-- **The filters reject no match**, whatever is in `scratch`. -/
lemma matchesRegion_eq_any (hlaw : bg.Lawful points polygonPoints)
    (hbox : region.InBbox polygonPoints) (g : GeomVariant) (scratch : List (Box × ℕ)) :
    (matchesRegion region (some g) scratch).1 = region.polygon.any (bg.intersects g) := by
  rw [Bool.eq_iff_iff]
  constructor
  · intro h
    simp only [matchesRegion] at h
    split_ifs at h
    obtain ⟨hit, -, hvisit⟩ := List.any_eq_true.mp h
    exact any_of_intersectsVisitor hvisit
  · intro h
    obtain ⟨poly, hmem, hintersects⟩ := List.any_eq_true.mp h
    obtain ⟨p, hg, hp⟩ := hlaw.common_point g poly hintersects
    obtain ⟨hx, hmin, hmax⟩ := hbox poly hmem p hp
    obtain ⟨⟨hlo, hhi⟩, hlow, hhigh⟩ := hlaw.envelope_contains g p hg
    obtain ⟨i, hi⟩ := List.mem_iff_getElem?.mp hmem
    simp only [matchesRegion, rangesOverlap_of_inRange hlo hhi hx,
      Double.le_of_below_above hmin hhigh, Double.le_of_below_above hlow hmax]
    refine List.any_eq_true.mpr ⟨_, mem_query hlaw hi hg hp, ?_⟩
    rw [intersectsVisitor]
    simp only [hi, hintersects]

/-- **The index and the naive test.**  A geometry matches a region, whose polygons lie in
its box, exactly if some polygon of the region intersects it. -/
theorem matchesRegion_iff (hlaw : bg.Lawful points polygonPoints)
    (hbox : region.InBbox polygonPoints) (candidate : GeomVariant) (scratch : List (Box × ℕ)) :
    (matchesRegion region (some candidate) scratch).1 = true
      ↔ ∃ poly ∈ region.polygon, bg.intersects candidate poly = true := by
  rw [matchesRegion_eq_any hlaw hbox, List.any_eq_true]

end Filters

/-! ### The regions of an export -/

/-- A region, as the exports use it. -/
def Entry.toRegionEntry (region : Entry bg) : RegionEntry GeomVariant where
  name := region.name
  isMatch g := (matchesRegion region (some g) []).1

/-- **The regions of a node** are those with a polygon that intersects it. -/
theorem nodeMatches_iff {points : GeomVariant → Set (ℚ × ℚ)}
    {polygonPoints : Polygon → Set (ℚ × ℚ)} (hlaw : bg.Lawful points polygonPoints)
    {regions : List (Entry bg)} (hbox : ∀ region ∈ regions, region.InBbox polygonPoints)
    {cfg : NodeExport GeomVariant} (hregions : cfg.regions = regions.map Entry.toRegionEntry)
    (hpoint : cfg.ofPoint = .point) (c : Coord) (ri : ℕ) :
    cfg.nodeMatches c ri = true
      ↔ ∃ region, regions[ri]? = some region
        ∧ ∃ poly ∈ region.polygon, bg.intersects (.point c) poly = true := by
  rw [NodeExport.nodeMatches, hregions, List.getElem?_map, hpoint]
  cases hri : regions[ri]? with
  | none => simp
  | some region =>
      have hany := matchesRegion_eq_any hlaw (hbox region (List.mem_of_getElem? hri)) (.point c) []
      rw [Option.map_some]
      simp [Entry.toRegionEntry, hany]

/-! ### A region across the antimeridian -/

/-- The box of some vertices; that of none is upside down. -/
def boundingBox : List Coord → Box
  | [] => ⟨⟨0x7FEFFFFFFFFFFFFF, 0x7FEFFFFFFFFFFFFF⟩, ⟨0xFFEFFFFFFFFFFFFF, 0xFFEFFFFFFFFFFFFF⟩⟩
  | v :: vs =>
      ⟨⟨vs.foldl (fun m w => Double.min m w.lon_m) v.lon_m,
          vs.foldl (fun m w => Double.min m w.lat_m) v.lat_m⟩,
        ⟨vs.foldl (fun m w => Double.max m w.lon_m) v.lon_m,
          vs.foldl (fun m w => Double.max m w.lat_m) v.lat_m⟩⟩

/-- The vertices of a geometry. -/
def verticesOf : GeomVariant → List Coord
  | .point p => [p]
  | .lineString ls => ls
  | .polygon poly => poly.outer ++ poly.inners.flatten
  | .multiLineString mls => mls.flatten
  | .multiPolygon mp => mp.flatMap fun poly => poly.outer ++ poly.inners.flatten

/-- The lower left corner of what two boxes share. -/
def Box.corner (a b : Box) : ℚ × ℚ :=
  (max (doubleValue (Double.key a.min_corner.lon_m)) (doubleValue (Double.key b.min_corner.lon_m)),
    max (doubleValue (Double.key a.min_corner.lat_m)) (doubleValue (Double.key b.min_corner.lat_m)))

/-- A library for points, level and upright lines, and upright rectangles: each of them is
its own envelope. -/
def boxes : Boost where
  envelope g := boundingBox (verticesOf g)
  polygonEnvelope poly := boundingBox poly.outer
  intersects g poly :=
    let a := boundingBox (verticesOf g)
    let b := boundingBox poly.outer
    decide (a.Contains (a.corner b)) && decide (b.Contains (a.corner b))
  PolyRtree := List (Box × ℕ)
  empty := []
  insert hits h := hits ++ [h]
  query hits box := hits.filter fun h => h.1.meets box

lemma lawful_boxes : boxes.Lawful (fun g => {p | (boundingBox (verticesOf g)).Contains p})
    fun poly => {p | (boundingBox poly.outer).Contains p} where
  envelope_contains _ _ hp := hp
  polygonEnvelope_contains _ _ hp := hp
  common_point g poly h := by
    obtain ⟨hg, hpoly⟩ := Bool.and_eq_true_iff.mp h
    exact ⟨_, of_decide_eq_true hg, of_decide_eq_true hpoly⟩
  query_perm hits box := by
    have hinsert : hits.foldl (fun t h => t ++ [h]) [] = hits := by
      rw [List.foldl_append_eq_append, List.nil_append, ← List.flatMap_def, List.flatMap_singleton']
    change ((hits.foldl (fun t h => t ++ [h]) []).filter fun h => h.1.meets box).Perm _
    rw [hinsert]

/-- A rectangle of ten degrees north and south. -/
def rectangle (west east : Double) : Polygon where
  outer := [⟨west, 0xC024000000000000⟩, ⟨east, 0xC024000000000000⟩, ⟨east, 0x4024000000000000⟩,
    ⟨west, 0x4024000000000000⟩, ⟨west, 0xC024000000000000⟩]
  inners := []

/-- From 170 over the antimeridian to -170, as two rectangles. -/
def pacific : Entry boxes :=
  build "pacific" 0x4065400000000000 0xC024000000000000 0xC065400000000000 0x4024000000000000
    [rectangle 0x4065400000000000 0x4066800000000000,
      rectangle 0xC066800000000000 0xC065400000000000]

/-- A line from 175 to -175 leaves the region and comes back to it. -/
theorem matchesRegion_pacific :
    (matchesRegion pacific (some (.lineString [⟨0x4065E00000000000, 0⟩, ⟨0xC065E00000000000, 0⟩]))
      []).1 = true := by
  have hbox : pacific.InBbox fun poly => {p | (boundingBox poly.outer).Contains p} := by
    have hwrap : ¬ Double.le pacific.min_x pacific.max_x = true := by decide +kernel
    have heast : boundingBox (rectangle 0x4065400000000000 0x4066800000000000).outer
        = ⟨⟨pacific.min_x, pacific.min_y⟩, ⟨0x4066800000000000, pacific.max_y⟩⟩ := by
      decide +kernel
    have hwest : boundingBox (rectangle 0xC066800000000000 0xC065400000000000).outer
        = ⟨⟨0xC066800000000000, pacific.min_y⟩, ⟨pacific.max_x, pacific.max_y⟩⟩ := by
      decide +kernel
    refine List.forall_mem_cons.mpr ⟨fun p hp => ?_, List.forall_mem_singleton.mpr fun p hp => ?_⟩
    · change (boundingBox _).Contains p at hp
      rw [heast] at hp
      rw [InRange, if_neg hwrap]
      exact ⟨.inl hp.1.1, hp.2⟩
    · change (boundingBox _).Contains p at hp
      rw [hwest] at hp
      rw [InRange, if_neg hwrap]
      exact ⟨.inr hp.1.2, hp.2⟩
  refine (matchesRegion_iff lawful_boxes hbox _ []).mpr ?_
  exact ⟨_, List.mem_cons_self, by decide +kernel⟩

end RegionIndex

end Gpsxdb
