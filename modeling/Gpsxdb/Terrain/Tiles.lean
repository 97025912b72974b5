import Mathlib.Tactic
import Gpsxdb.Reload.WMMLoader

/-!
The elevation tiles of a bounding box (`tilesForBBox` of `TerrainLoader.cpp`).

* `tileName`, `tileUrl`: the names of both sources; `tileName_inj`: **a name is of one
  cell**;
* `lonCells`, `tilesForBBox`: the cells of a box, wrapped or not, after its bounds have
  been rounded outward;
* `Box`, `Box.Contains`, `Tile.Contains`: points, with longitudes modulo 360;
* `tileCover_iff`: **when the tiles cover the box**; `narrow_gap_not_covered`;
* `kGlobalRegions`: the boxes of a global load, all of which are covered.

Bounds are rationals: every finite double is one, and its floor and ceiling are exact.
-/

namespace Gpsxdb

namespace TerrainLoader

open WMMLoader (padded)

/-! ### Names -/

/-- `TerrainSource`. -/
inductive TerrainSource where
  | USGS3DEP
  | CopernicusGLO30
deriving DecidableEq

/-- `%0<width>d`: a sign counts as one of the places. -/
def zeroPadded (width : ℕ) (n : ℤ) : List Char :=
  if n < 0 then '-' :: padded (width - 1) n.natAbs else padded width n.natAbs

/-- The name of a tile: `n40w105` by its northwest corner, `N39_00_W105_00` by its
southwest corner. -/
def tileName (source : TerrainSource) (lat lon : ℤ) : String :=
  String.ofList <|
    match source with
    | .USGS3DEP => 'n' :: (zeroPadded 2 (lat + 1) ++ 'w' :: zeroPadded 3 (-lon))
    | .CopernicusGLO30 =>
        (if 0 ≤ lat then 'N' else 'S') :: (padded 2 lat.natAbs ++ '_' :: '0' :: '0' :: '_'
          :: (if 0 ≤ lon then 'E' else 'W') :: (padded 3 lon.natAbs ++ ['_', '0', '0']))

/-- Where a tile is downloaded from. -/
def tileUrl (source : TerrainSource) (name : String) : String :=
  match source with
  | .USGS3DEP =>
      "https://prd-tnm.s3.amazonaws.com/StagedProducts/Elevation/1/TIFF/current/"
        ++ name ++ "/USGS_1_" ++ name ++ ".tif"
  | .CopernicusGLO30 =>
      let folder := "Copernicus_DSM_COG_10_" ++ name ++ "_DEM"
      "https://copernicus-dem-30m.s3.amazonaws.com/" ++ folder ++ "/" ++ folder ++ ".tif"

lemma mem_zeroPadded {width : ℕ} {n : ℤ} {c : Char} (h : c ∈ zeroPadded width n) :
    (c.isDigit || c == '-') = true := by
  rw [zeroPadded] at h
  split at h
  · rcases List.mem_cons.mp h with rfl | h
    · rfl
    · rw [WMMLoader.isDigit_of_mem_padded h, Bool.true_or]
  · rw [WMMLoader.isDigit_of_mem_padded h, Bool.true_or]

lemma minus_not_mem_padded (width n : ℕ) : '-' ∉ padded width n := fun h =>
  absurd (WMMLoader.isDigit_of_mem_padded h) (by decide)

lemma zeroPadded_inj {width : ℕ} {n n' : ℤ} (h : zeroPadded width n = zeroPadded width n') :
    n = n' := by
  rw [zeroPadded, zeroPadded] at h
  split_ifs at h with hn hn'
  · have habs := WMMLoader.padded_inj (List.cons.inj h).2
    omega
  · exact absurd (h ▸ List.mem_cons_self ..) (minus_not_mem_padded width n'.natAbs)
  · exact absurd (h ▸ List.mem_cons_self ..) (minus_not_mem_padded width n.natAbs)
  · have habs := WMMLoader.padded_inj h
    omega

/-- **A name is of one cell.** -/
lemma tileName_inj {source : TerrainSource} {lat lon lat' lon' : ℤ}
    (h : tileName source lat lon = tileName source lat' lon') : lat = lat' ∧ lon = lon' := by
  have hlist := String.ofList_injective h
  cases source with
  | USGS3DEP =>
      obtain ⟨hlat, -, hlon⟩ := WMMLoader.append_cons_inj
        (p := fun c => c.isDigit || c == '-') (fun _ => mem_zeroPadded) (fun _ => mem_zeroPadded)
        rfl rfl (List.cons.inj hlist).2
      have hlats := zeroPadded_inj hlat
      have hlons := zeroPadded_inj hlon
      omega
  | CopernicusGLO30 =>
      obtain ⟨hns, hrest⟩ := List.cons.inj hlist
      have hdigits : ∀ {width n : ℕ}, ∀ c ∈ padded width n, c.isDigit = true :=
        fun _ => WMMLoader.isDigit_of_mem_padded
      obtain ⟨hlat, -, hrest⟩ := WMMLoader.append_cons_inj hdigits hdigits rfl rfl hrest
      simp only [List.cons.injEq, true_and] at hrest
      obtain ⟨hew, hrest⟩ := hrest
      obtain ⟨hlon, -⟩ := WMMLoader.append_cons_inj hdigits hdigits rfl rfl hrest
      exact ⟨WMMLoader.eq_of_natAbs_eq (WMMLoader.padded_inj hlat)
          (WMMLoader.sign_iff (by decide) hns),
        WMMLoader.eq_of_natAbs_eq (WMMLoader.padded_inj hlon)
          (WMMLoader.sign_iff (by decide) hew)⟩

/-! ### The tiles of a box -/

/-- `Tile`. -/
structure Tile where
  lat : ℤ
  lon : ℤ
  name : String
  url : String
deriving DecidableEq

/-- `addTile`. -/
def addTile (source : TerrainSource) (lat lon : ℤ) : Tile where
  lat := lat
  lon := lon
  name := tileName source lat lon
  url := tileUrl source (tileName source lat lon)

/-- The columns of a row: the test for a wrapped box is made after the rounding. -/
def lonCells (lon0 lon1 : ℤ) : List ℤ :=
  if lon0 ≤ lon1 then Int.range lon0 lon1 else Int.range lon0 180 ++ Int.range (-180) lon1

/-- `tilesForBBox`. -/
def tilesForBBox (source : TerrainSource) (min_lon min_lat max_lon max_lat : ℚ) : List Tile :=
  (Int.range ⌊min_lat⌋ ⌈max_lat⌉).flatMap fun lat =>
    (lonCells ⌊min_lon⌋ ⌈max_lon⌉).map fun lon => addTile source lat lon

lemma mem_tilesForBBox {source : TerrainSource} {min_lon min_lat max_lon max_lat : ℚ} {t : Tile} :
    t ∈ tilesForBBox source min_lon min_lat max_lon max_lat
      ↔ t = addTile source t.lat t.lon ∧ t.lat ∈ Int.range ⌊min_lat⌋ ⌈max_lat⌉
        ∧ t.lon ∈ lonCells ⌊min_lon⌋ ⌈max_lon⌉ := by
  rw [tilesForBBox, List.mem_flatMap]
  constructor
  · rintro ⟨lat, hlat, ht⟩
    obtain ⟨lon, hlon, rfl⟩ := List.mem_map.mp ht
    exact ⟨rfl, hlat, hlon⟩
  · rintro ⟨ht, hlat, hlon⟩
    exact ⟨t.lat, hlat, List.mem_map.mpr ⟨t.lon, hlon, ht.symm⟩⟩

lemma nodup_range (lo hi : ℤ) : (Int.range lo hi).Nodup :=
  List.nodup_range.map fun i j hij => by omega

lemma nodup_lonCells (lon0 lon1 : ℤ) : (lonCells lon0 lon1).Nodup := by
  rw [lonCells]
  split
  · exact nodup_range ..
  · refine (nodup_range ..).append (nodup_range ..) fun lon hwest heast => ?_
    rw [Int.mem_range_iff] at hwest heast
    omega

/-- **No cell comes twice.** -/
lemma nodup_tilesForBBox (source : TerrainSource) (min_lon min_lat max_lon max_lat : ℚ) :
    ((tilesForBBox source min_lon min_lat max_lon max_lat).map fun t => (t.lat, t.lon)).Nodup := by
  rw [tilesForBBox, List.map_flatMap, List.nodup_flatMap]
  refine ⟨fun lat _ => ?_, (nodup_range ..).imp fun {lat lat'} hne => ?_⟩
  · rw [List.map_map]
    exact (nodup_lonCells ..).map fun lon lon' heq => congrArg Prod.snd heq
  · rw [Function.onFun, List.disjoint_left]
    intro cell hcell hcell'
    rw [List.map_map] at hcell hcell'
    obtain ⟨lon, -, rfl⟩ := List.mem_map.mp hcell
    obtain ⟨lon', -, heq⟩ := List.mem_map.mp hcell'
    exact hne (congrArg Prod.fst heq).symm

/-! ### Points -/

/-- A bounding box: ordinary, or around the antimeridian with its western bound above its
eastern one. -/
structure Box where
  min_lon : ℚ
  min_lat : ℚ
  max_lon : ℚ
  max_lat : ℚ
  south : -90 ≤ min_lat
  lat_lt : min_lat < max_lat
  north : max_lat ≤ 90
  lon_ne : min_lon ≠ max_lon
  lon_sub_lt : min_lon - max_lon < 360
  min_lon_mem : -180 ≤ min_lon ∧ min_lon ≤ 180
  max_lon_mem : -180 ≤ max_lon ∧ max_lon ≤ 180

/-- The tiles of a box. -/
def Box.tiles (source : TerrainSource) (b : Box) : List Tile :=
  tilesForBBox source b.min_lon b.min_lat b.max_lon b.max_lat

/-- A longitude between the bounds of a box. -/
def Box.ContainsLon (b : Box) (lon : ℝ) : Prop :=
  if b.min_lon < b.max_lon then b.min_lon ≤ lon ∧ lon ≤ b.max_lon
  else (b.min_lon ≤ lon ∧ lon ≤ 180) ∨ (-180 ≤ lon ∧ lon ≤ b.max_lon)

/-- A point of a box, with its longitude modulo 360. -/
def Box.Contains (b : Box) (lon lat : ℝ) : Prop :=
  (b.min_lat ≤ lat ∧ lat ≤ b.max_lat) ∧ ∃ k : ℤ, b.ContainsLon (lon + 360 * k)

/-- A point of the closed cell of a tile, with its longitude modulo 360. -/
def Tile.Contains (t : Tile) (lon lat : ℝ) : Prop :=
  (t.lat ≤ lat ∧ lat ≤ t.lat + 1) ∧ ∃ k : ℤ, t.lon ≤ lon + 360 * k ∧ lon + 360 * k ≤ t.lon + 1

/-- What the tiles of a box are for: no cell twice, each point of the box in some cell,
and a name for each cell. -/
structure TileCover (source : TerrainSource) (b : Box) : Prop where
  nodup : ((b.tiles source).map fun t => (t.lat, t.lon)).Nodup
  covered : ∀ lon lat : ℝ, b.Contains lon lat → ∃ t ∈ b.tiles source, t.Contains lon lat
  named : ∀ lat lon lat' lon' : ℤ, tileName source lat lon = tileName source lat' lon' →
    lat = lat' ∧ lon = lon'

/-- **A range of cells covers its interval**, with the upper end. -/
lemma exists_cell {lo hi : ℚ} (h : lo < hi) {x : ℝ} (hlo : lo ≤ x) (hhi : x ≤ hi) :
    ∃ i ∈ Int.range ⌊lo⌋ ⌈hi⌉, (i : ℝ) ≤ x ∧ x ≤ i + 1 := by
  have hfloor : ⌊lo⌋ ≤ ⌊x⌋ := by
    rw [← Rat.floor_cast (α := ℝ)]
    exact Int.floor_mono hlo
  have hne : ⌊lo⌋ < ⌈hi⌉ := Int.lt_ceil.mpr ((Int.floor_le lo).trans_lt h)
  have hceil : x ≤ ⌈hi⌉ := hhi.trans (by exact_mod_cast Int.le_ceil hi)
  rcases lt_or_ge ⌊x⌋ ⌈hi⌉ with hlt | hge
  · exact ⟨⌊x⌋, Int.mem_range_iff.mpr ⟨hfloor, hlt⟩, Int.floor_le x, (Int.lt_floor_add_one x).le⟩
  · -- the upper end of the last cell
    refine ⟨⌈hi⌉ - 1, Int.mem_range_iff.mpr ⟨by omega, by omega⟩, ?_, ?_⟩
    · have hfloor' : ((⌈hi⌉ : ℤ) : ℝ) ≤ x := (Int.cast_le.mpr hge).trans (Int.floor_le x)
      push_cast
      linarith
    · push_cast
      linarith

/-- A column covers a longitude, modulo 360. -/
def LonCovered (cells : List ℤ) (lon : ℝ) : Prop :=
  ∃ i ∈ cells, ∃ k : ℤ, (i : ℝ) ≤ lon + 360 * k ∧ lon + 360 * k ≤ i + 1

variable {source : TerrainSource} {b : Box}

/-- The rows cover the latitudes, so that the columns decide. -/
lemma exists_tile_iff {lon lat : ℝ} (hlat : b.min_lat ≤ lat ∧ lat ≤ b.max_lat) :
    (∃ t ∈ b.tiles source, t.Contains lon lat)
      ↔ LonCovered (lonCells ⌊b.min_lon⌋ ⌈b.max_lon⌉) lon := by
  constructor
  · rintro ⟨t, ht, -, hlon⟩
    exact ⟨t.lon, (mem_tilesForBBox.mp ht).2.2, hlon⟩
  · rintro ⟨i, hi, hlon⟩
    obtain ⟨j, hj, hcell⟩ := exists_cell b.lat_lt hlat.1 hlat.2
    exact ⟨addTile source j i, mem_tilesForBBox.mpr ⟨rfl, hj, hi⟩, hcell, hlon⟩

/-- **An ordinary box** is covered. -/
lemma lonCovered_of_lt (h : b.min_lon < b.max_lon) {lon : ℝ} (hlon : b.ContainsLon lon) :
    LonCovered (lonCells ⌊b.min_lon⌋ ⌈b.max_lon⌉) lon := by
  rw [Box.ContainsLon, if_pos h] at hlon
  obtain ⟨i, hi, hcell⟩ := exists_cell h hlon.1 hlon.2
  have hle : ⌊b.min_lon⌋ ≤ ⌈b.max_lon⌉ := (Int.lt_ceil.mpr ((Int.floor_le _).trans_lt h)).le
  rw [lonCells, if_pos hle]
  exact ⟨i, hi, 0, by simpa using hcell⟩

/-- **A wrapped box** whose rounded bounds are still wrapped is covered; where it only
touches the antimeridian from one side, the cell on the other side is taken. -/
lemma lonCovered_of_gap (h : b.max_lon < b.min_lon) (hgap : ⌈b.max_lon⌉ < ⌊b.min_lon⌋) {lon : ℝ}
    (hlon : b.ContainsLon lon) : LonCovered (lonCells ⌊b.min_lon⌋ ⌈b.max_lon⌉) lon := by
  have hsub := b.lon_sub_lt
  rw [Box.ContainsLon, if_neg (not_lt.mpr h.le)] at hlon
  rw [lonCells, if_neg (not_le.mpr hgap)]
  obtain ⟨hlo, hhi⟩ | ⟨hlo, hhi⟩ := hlon
  · rcases lt_or_eq_of_le b.min_lon_mem.2 with hlt | heq
    · obtain ⟨i, hi, hcell⟩ := exists_cell hlt hlo (by exact_mod_cast hhi)
      have hceil : ⌈(180 : ℚ)⌉ = 180 := Int.ceil_ofNat 180
      rw [hceil] at hi
      exact ⟨i, List.mem_append_left _ hi, 0, by simpa using hcell⟩
    · rw [heq] at hlo
      push_cast at hlo
      have hlt : (-180 : ℤ) < ⌈b.max_lon⌉ := Int.lt_ceil.mpr (by push_cast; linarith)
      refine ⟨-180, List.mem_append_right _ (Int.mem_range_iff.mpr ⟨le_rfl, hlt⟩), -1, ?_, ?_⟩
      · push_cast
        linarith
      · push_cast
        linarith
  · rcases lt_or_eq_of_le b.max_lon_mem.1 with hlt | heq
    · obtain ⟨i, hi, hcell⟩ := exists_cell hlt (by exact_mod_cast hlo) hhi
      have hfloor : ⌊(-180 : ℚ)⌋ = -180 := by
        exact_mod_cast Int.floor_intCast (R := ℚ) (-180)
      rw [hfloor] at hi
      exact ⟨i, List.mem_append_right _ hi, 0, by simpa using hcell⟩
    · rw [← heq] at hhi
      push_cast at hhi
      have hlt : ⌊b.min_lon⌋ < 180 := Int.floor_lt.mpr (by push_cast; linarith)
      refine ⟨179, List.mem_append_left _ (Int.mem_range_iff.mpr ⟨by omega, by omega⟩), 1, ?_, ?_⟩
      · push_cast
        linarith
      · push_cast
        linarith

/-- **A wrapped box** whose rounded bounds meet has at most the one cell of its western
bound, and a longitude on the far side of the globe is not covered. -/
lemma exists_not_covered (h : b.max_lon < b.min_lon) (hmeet : ⌊b.min_lon⌋ ≤ ⌈b.max_lon⌉) :
    ∃ lon : ℝ, b.ContainsLon lon ∧ ¬ LonCovered (lonCells ⌊b.min_lon⌋ ⌈b.max_lon⌉) lon := by
  have hone : ∀ i ∈ lonCells ⌊b.min_lon⌋ ⌈b.max_lon⌉, i = ⌊b.min_lon⌋ := by
    intro i hi
    have hceil : ⌈b.max_lon⌉ ≤ ⌊b.min_lon⌋ + 1 :=
      Int.ceil_le.mpr (by push_cast; linarith [Int.lt_floor_add_one b.min_lon])
    rw [lonCells, if_pos hmeet, Int.mem_range_iff] at hi
    omega
  -- a whole number that is no bound of that cell is outside of it, modulo 360
  have houtside : ∀ m : ℤ, (m = ⌊b.min_lon⌋ + 2 ∨ m = ⌊b.min_lon⌋ - 1) →
      ¬ LonCovered (lonCells ⌊b.min_lon⌋ ⌈b.max_lon⌉) m := by
    rintro m hm ⟨i, hi, k, hlo, hhi⟩
    rw [hone i hi] at hlo hhi
    norm_cast at hlo hhi
    omega
  have hwest : b.min_lon < ⌊b.min_lon⌋ + 1 := Int.lt_floor_add_one b.min_lon
  have heast : (⌊b.min_lon⌋ : ℚ) - 1 < b.max_lon := by
    have hmeet' : (⌊b.min_lon⌋ : ℚ) ≤ ⌈b.max_lon⌉ := by exact_mod_cast hmeet
    linarith [Int.ceil_lt_add_one b.max_lon]
  have hlower : (-180 : ℤ) ≤ ⌊b.min_lon⌋ := Int.le_floor.mpr (by exact_mod_cast b.min_lon_mem.1)
  rcases le_or_gt ⌊b.min_lon⌋ 0 with hneg | hpos
  · refine ⟨(⌊b.min_lon⌋ + 2 : ℤ), ?_, houtside _ (Or.inl rfl)⟩
    rw [Box.ContainsLon, if_neg (not_lt.mpr h.le)]
    have hwest' : (b.min_lon : ℝ) < ⌊b.min_lon⌋ + 1 := by exact_mod_cast hwest
    have hneg' : (⌊b.min_lon⌋ : ℝ) ≤ 0 := by exact_mod_cast hneg
    refine Or.inl ⟨?_, ?_⟩
    · push_cast
      linarith
    · push_cast
      linarith
  · refine ⟨(⌊b.min_lon⌋ - 1 : ℤ), ?_, houtside _ (Or.inr rfl)⟩
    rw [Box.ContainsLon, if_neg (not_lt.mpr h.le)]
    have heast' : (⌊b.min_lon⌋ : ℝ) - 1 < b.max_lon := by exact_mod_cast heast
    have hpos' : (0 : ℝ) < ⌊b.min_lon⌋ := by exact_mod_cast hpos
    refine Or.inr ⟨?_, ?_⟩
    · push_cast
      linarith
    · push_cast
      linarith

/-- A whole degree between the bounds of a wrapped box. -/
lemma gap_iff {x y : ℚ} : (∃ n : ℤ, x ≤ n ∧ n + 1 ≤ y) ↔ ⌈x⌉ < ⌊y⌋ := by
  constructor
  · rintro ⟨n, hx, hy⟩
    have hceil : ⌈x⌉ ≤ n := Int.ceil_le.mpr hx
    have hfloor : n + 1 ≤ ⌊y⌋ := Int.le_floor.mpr (by exact_mod_cast hy)
    omega
  · intro h
    refine ⟨⌈x⌉, Int.le_ceil x, ?_⟩
    have hfloor : ((⌈x⌉ + 1 : ℤ) : ℚ) ≤ y := Int.le_floor.mp h
    exact_mod_cast hfloor

/-- **The tiles cover** an ordinary box, and a wrapped one with a whole cell in its gap. -/
lemma tileCover_of_gap (source : TerrainSource)
    (h : b.min_lon < b.max_lon ∨ ⌈b.max_lon⌉ < ⌊b.min_lon⌋) : TileCover source b := by
  refine ⟨nodup_tilesForBBox .., ?_, fun _ _ _ _ => tileName_inj⟩
  rintro lon lat ⟨hlat, k, hlon⟩
  have hcovered : LonCovered (lonCells ⌊b.min_lon⌋ ⌈b.max_lon⌉) (lon + 360 * k) := by
    rcases lt_or_gt_of_ne b.lon_ne with hlt | hgt
    · exact lonCovered_of_lt hlt hlon
    · exact lonCovered_of_gap hgt (h.resolve_left (not_lt.mpr hgt.le)) hlon
  obtain ⟨i, hi, k', hcell⟩ := hcovered
  refine (exists_tile_iff hlat).mpr ⟨i, hi, k + k', ?_⟩
  have heq : lon + 360 * ((k + k' : ℤ) : ℝ) = lon + 360 * k + 360 * k' := by
    push_cast
    ring
  rwa [heq]

/-- **When the tiles cover the box**: it is ordinary, or there is a whole cell between its
eastern and its western bound. -/
theorem tileCover_iff (source : TerrainSource) (b : Box) : TileCover source b
    ↔ b.min_lon < b.max_lon ∨ ∃ n : ℤ, b.max_lon ≤ n ∧ n + 1 ≤ b.min_lon := by
  rw [gap_iff]
  refine ⟨fun hcover => ?_, tileCover_of_gap source⟩
  by_contra hnone
  rw [not_or, not_lt, not_lt] at hnone
  obtain ⟨hwrap, hmeet⟩ := hnone
  obtain ⟨lon, hlon, hnot⟩ :=
    exists_not_covered (lt_of_le_of_ne hwrap (Ne.symm b.lon_ne)) hmeet
  have hlat : (b.min_lat : ℝ) ≤ b.min_lat ∧ (b.min_lat : ℝ) ≤ b.max_lat :=
    ⟨le_rfl, by exact_mod_cast b.lat_lt.le⟩
  exact hnot ((exists_tile_iff hlat).mp
    (hcover.covered lon b.min_lat ⟨hlat, 0, by simpa using hlon⟩))

/-- Around the globe but for half a degree. -/
def narrowGap : Box where
  min_lon := 107 / 10
  min_lat := 0
  max_lon := 102 / 10
  max_lat := 1
  south := by norm_num
  lat_lt := by norm_num
  north := by norm_num
  lon_ne := by norm_num
  lon_sub_lt := by norm_num
  min_lon_mem := by norm_num
  max_lon_mem := by norm_num

/-- **A gap inside of one cell**: only that cell is returned. -/
theorem narrow_gap_not_covered : ¬ TileCover .CopernicusGLO30 narrowGap := by
  intro hcover
  obtain ⟨t, ht, -, k, hlo, hhi⟩ := hcover.covered 180 0
    ⟨by norm_num [narrowGap], 0, by norm_num [Box.ContainsLon, narrowGap]⟩
  have hfloor : ⌊narrowGap.min_lon⌋ = 10 := by norm_num [narrowGap, Int.floor_eq_iff]
  have hceil : ⌈narrowGap.max_lon⌉ = 11 := by norm_num [narrowGap, Int.ceil_eq_iff]
  have hlon := (mem_tilesForBBox.mp ht).2.2
  rw [hfloor, hceil, lonCells, if_pos (by norm_num), Int.mem_range_iff] at hlon
  norm_cast at hlo hhi
  omega

/-! ### The regions of a global load -/

/-- `GlobalRegion`. -/
structure GlobalRegion where
  name : String
  min_lon : ℚ
  min_lat : ℚ
  max_lon : ℚ
  max_lat : ℚ

/-- `kGlobalRegions`: the last one wraps around the antimeridian. -/
def kGlobalRegions : List GlobalRegion :=
  [⟨"north_america", -180, -2, -5, 836 / 10⟩,
    ⟨"south_america", -8134 / 100, -5849 / 100, -2626 / 100, 1133 / 100⟩,
    ⟨"europe", -511 / 100, 34, 65, 8185 / 100⟩,
    ⟨"africa", -1629 / 100, -3479 / 100, 55, 38⟩,
    ⟨"west_asia", 2505 / 100, 10, 80, 47⟩,
    ⟨"south_asia", 6102 / 100, 3, 100, 40⟩,
    ⟨"east_asia", 74, 15, 150, 50⟩,
    ⟨"southeast_asia", 925 / 10, -12, 141, 29⟩,
    ⟨"north_asia", 3512 / 100, 4179 / 100, 180, 8128 / 100⟩,
    ⟨"oceania", 110, -47, -150, 2222 / 100⟩]

/-- **The tiles of every region** cover it: the gap of the wrapped one is wide enough. -/
theorem tileCover_of_mem_kGlobalRegions {r : GlobalRegion} (hr : r ∈ kGlobalRegions)
    (source : TerrainSource) :
    ∃ b : Box, b.tiles source = tilesForBBox source r.min_lon r.min_lat r.max_lon r.max_lat
      ∧ TileCover source b := by
  have hbounds : ∀ r ∈ kGlobalRegions,
      (-90 ≤ r.min_lat ∧ r.min_lat < r.max_lat ∧ r.max_lat ≤ 90)
        ∧ (-180 ≤ r.min_lon ∧ r.min_lon ≤ 180) ∧ (-180 ≤ r.max_lon ∧ r.max_lon ≤ 180)
        ∧ r.min_lon ≠ r.max_lon ∧ r.min_lon - r.max_lon < 360
        ∧ (r.min_lon < r.max_lon ∨ r.max_lon ≤ 0 ∧ 1 ≤ r.min_lon) := by
    simp only [kGlobalRegions, List.forall_mem_cons]
    norm_num
  obtain ⟨⟨hsouth, hlat, hnorth⟩, hmin, hmax, hne, hsub, hform⟩ := hbounds r hr
  refine ⟨⟨r.min_lon, r.min_lat, r.max_lon, r.max_lat, hsouth, hlat, hnorth, hne, hsub, hmin,
    hmax⟩, rfl, tileCover_of_gap source (hform.imp_right fun h => gap_iff.mp ⟨0, ?_⟩)⟩
  simpa using h

end TerrainLoader

end Gpsxdb
