import Mathlib.Tactic
import Gpsxdb.Library.WorkPool

/-!
The magnetic declination: `WMMLoader::load` and `Replicator::checkWMMRefresh`.

* `Cell`, `Cell.name`, `cellsForBBox`: the cells of ten degrees;
  `mem_cellsForBBox`: **they are the cells that reach into the box**;
* `WMMModel`, `Raster`, `cellRaster`: a row of `wmm`;
* `LoadArgs`, `LoadRun`, `load`: a call, and how the server and the threads go;
* `WMMState`, `checkWMMRefresh`.

Degrees and years are rationals, with exact arithmetic.  A worker that throws makes no
step after it.  The bands, which are made from the rows of `wmm`, are left out.
-/

namespace Gpsxdb

namespace WMMLoader

/-! ### Cells -/

def kCellDeg : ℤ := 10

/-- A cell, by its southwest corner. -/
structure Cell where
  lat : ℤ
  lon : ℤ
deriving DecidableEq

/-- `%0<width>d` of a number that is not negative. -/
def padded (width n : ℕ) : List Char :=
  List.replicate (width - (Nat.toDigits 10 n).length) '0' ++ Nat.toDigits 10 n

/-- The name of a cell, such as `N40W080`. -/
def Cell.name (c : Cell) : String :=
  String.ofList ((if 0 ≤ c.lat then 'N' else 'S') :: padded 2 c.lat.natAbs
    ++ (if 0 ≤ c.lon then 'E' else 'W') :: padded 3 c.lon.natAbs)

/-- The values of `for (x = lo; x < hi; x += kCellDeg)`. -/
def cellSteps (lo hi : ℤ) : List ℤ :=
  (List.range ((hi - lo + (kCellDeg - 1)) / kCellDeg).toNat).map fun i : ℕ => lo + i * kCellDeg

def cellsForBBox (min_lon min_lat max_lon max_lat : ℚ) : List Cell :=
  let lat0 := ⌊min_lat / kCellDeg⌋ * kCellDeg
  let lat1 := ⌈max_lat / kCellDeg⌉ * kCellDeg
  let lon0 := ⌊min_lon / kCellDeg⌋ * kCellDeg
  let lon1 := ⌈max_lon / kCellDeg⌉ * kCellDeg
  (cellSteps lat0 lat1).flatMap fun lat => (cellSteps lon0 lon1).map fun lon => ⟨lat, lon⟩

/-! ### Names -/

lemma isDigit_of_mem_padded {width n : ℕ} {c : Char} (h : c ∈ padded width n) :
    c.isDigit = true := by
  rcases List.mem_append.mp h with h | h
  · rw [List.eq_of_mem_replicate h]
    rfl
  · exact Nat.isDigit_of_mem_toDigits (by decide) (by decide) h

/-- Padding does not change the number. -/
lemma ofDigitChars_padded (width n : ℕ) : Nat.ofDigitChars 10 (padded width n) 0 = n := by
  rw [padded, Nat.ofDigitChars_append, Nat.ofDigitChars_replicate_zero, Nat.mul_zero,
    Nat.ofDigitChars_ten_toDigits]

lemma padded_inj {width n n' : ℕ} (h : padded width n = padded width n') : n = n' := by
  rw [← ofDigitChars_padded width n, h, ofDigitChars_padded]

/-- Where characters of one kind end, the first of another kind decides. -/
lemma append_cons_inj {p : Char → Bool} {l l' r r' : List Char} {x x' : Char}
    (hl : ∀ c ∈ l, p c = true) (hl' : ∀ c ∈ l', p c = true) (hx : p x = false)
    (hx' : p x' = false) (h : l ++ x :: r = l' ++ x' :: r') : l = l' ∧ x = x' ∧ r = r' := by
  have htake : ∀ {l r : List Char} {x : Char}, (∀ c ∈ l, p c = true) → p x = false →
      (l ++ x :: r).takeWhile p = l := by
    intro l r x hl hx
    rw [List.takeWhile_append_of_pos hl, List.takeWhile_cons_of_neg (by simp [hx]),
      List.append_nil]
  have hsame : l = l' := by rw [← htake hl hx, h, htake hl' hx']
  subst hsame
  exact ⟨rfl, List.cons.inj (List.append_cancel_left h)⟩

/-- A sign and a distance. -/
lemma eq_of_natAbs_eq {a b : ℤ} (habs : a.natAbs = b.natAbs) (hsign : 0 ≤ a ↔ 0 ≤ b) : a = b := by
  omega

lemma sign_iff {a b : ℤ} {x y : Char} (hxy : x ≠ y)
    (h : (if 0 ≤ a then x else y) = if 0 ≤ b then x else y) : 0 ≤ a ↔ 0 ≤ b := by
  by_cases ha : 0 ≤ a <;> by_cases hb : 0 ≤ b
  · exact iff_of_true ha hb
  · rw [if_pos ha, if_neg hb] at h
    exact absurd h hxy
  · rw [if_neg ha, if_pos hb] at h
    exact absurd h.symm hxy
  · exact iff_of_false ha hb

/-- **A name is of one cell.** -/
theorem Cell.name_inj {c c' : Cell} (h : c.name = c'.name) : c = c' := by
  obtain ⟨lat, lon⟩ := c
  obtain ⟨lat', lon'⟩ := c'
  have hlist := String.ofList_injective h
  obtain ⟨hns, hrest⟩ := List.cons.inj hlist
  have hletter : ∀ a : ℤ, (if 0 ≤ a then 'E' else 'W').isDigit = false := by
    intro a
    split <;> rfl
  obtain ⟨hlat, hew, hlon⟩ := append_cons_inj (fun _ => isDigit_of_mem_padded)
    (fun _ => isDigit_of_mem_padded) (hletter lon) (hletter lon') hrest
  have hlats : lat = lat' := eq_of_natAbs_eq (padded_inj hlat) (sign_iff (by decide) hns)
  have hlons : lon = lon' := eq_of_natAbs_eq (padded_inj hlon) (sign_iff (by decide) hew)
  rw [hlats, hlons]

/-! ### Which cells -/

lemma mem_cellSteps {a b x : ℤ} : x ∈ cellSteps (a * kCellDeg) (b * kCellDeg)
    ↔ ∃ i, x = i * kCellDeg ∧ a ≤ i ∧ i < b := by
  simp only [cellSteps, List.mem_map, List.mem_range, kCellDeg]
  constructor
  · rintro ⟨i, hi, rfl⟩
    exact ⟨a + i, by ring, by omega, by omega⟩
  · rintro ⟨i, rfl, ha, hb⟩
    exact ⟨(i - a).toNat, by omega, by omega⟩

lemma nodup_cellSteps (lo hi : ℤ) : (cellSteps lo hi).Nodup := by
  refine List.nodup_range.map fun i j hij => ?_
  simp only [kCellDeg] at hij
  omega

/-- The loops over one coordinate reach the steps of ten degrees that are in the open
range, its ends moved out. -/
lemma mem_cellSteps_floor_ceil {lo hi : ℚ} {x : ℤ} :
    x ∈ cellSteps (⌊lo / kCellDeg⌋ * kCellDeg) (⌈hi / kCellDeg⌉ * kCellDeg)
      ↔ kCellDeg ∣ x ∧ lo < x + kCellDeg ∧ x < hi := by
  have hpos : (0 : ℚ) < kCellDeg := by norm_num [kCellDeg]
  rw [mem_cellSteps]
  constructor
  · rintro ⟨i, rfl, hlo, hhi⟩
    rw [← Int.lt_add_one_iff, Int.floor_lt, div_lt_iff₀ hpos] at hlo
    rw [Int.lt_ceil, lt_div_iff₀ hpos] at hhi
    push_cast at hlo hhi ⊢
    exact ⟨Dvd.intro_left i rfl, by linarith, hhi⟩
  · rintro ⟨⟨i, rfl⟩, hlo, hhi⟩
    refine ⟨i, mul_comm .., ?_, ?_⟩
    · rw [← Int.lt_add_one_iff, Int.floor_lt, div_lt_iff₀ hpos]
      push_cast at hlo ⊢
      linarith
    · rw [Int.lt_ceil, lt_div_iff₀ hpos]
      push_cast at hhi
      linarith

/-- A cell reaches into a box: its corner is at steps of ten degrees, and its interior
meets the box. -/
structure Cell.Covers (min_lon min_lat max_lon max_lat : ℚ) (c : Cell) : Prop where
  dvd_lat : kCellDeg ∣ c.lat
  dvd_lon : kCellDeg ∣ c.lon
  south : min_lat < c.lat + kCellDeg
  north : c.lat < max_lat
  west : min_lon < c.lon + kCellDeg
  east : c.lon < max_lon

/-- **The cells of a box are the cells that cover it.** -/
theorem mem_cellsForBBox {min_lon min_lat max_lon max_lat : ℚ} {c : Cell} :
    c ∈ cellsForBBox min_lon min_lat max_lon max_lat
      ↔ c.Covers min_lon min_lat max_lon max_lat := by
  rw [cellsForBBox, List.mem_flatMap]
  constructor
  · rintro ⟨lat, hlat, hc⟩
    obtain ⟨lon, hlon, rfl⟩ := List.mem_map.mp hc
    obtain ⟨hdlat, hsouth, hnorth⟩ := mem_cellSteps_floor_ceil.mp hlat
    obtain ⟨hdlon, hwest, heast⟩ := mem_cellSteps_floor_ceil.mp hlon
    exact ⟨hdlat, hdlon, hsouth, hnorth, hwest, heast⟩
  · rintro ⟨hdlat, hdlon, hsouth, hnorth, hwest, heast⟩
    exact ⟨c.lat, mem_cellSteps_floor_ceil.mpr ⟨hdlat, hsouth, hnorth⟩,
      List.mem_map.mpr ⟨c.lon, mem_cellSteps_floor_ceil.mpr ⟨hdlon, hwest, heast⟩, rfl⟩⟩

lemma nodup_cellsForBBox (min_lon min_lat max_lon max_lat : ℚ) :
    (cellsForBBox min_lon min_lat max_lon max_lat).Nodup := by
  rw [cellsForBBox, List.nodup_flatMap]
  refine ⟨fun lat _ => (nodup_cellSteps _ _).map fun _ _ h => congrArg Cell.lon h, ?_⟩
  refine (nodup_cellSteps _ _).imp fun {lat lat'} hne => ?_
  rw [Function.onFun, List.disjoint_left]
  intro c hc hc'
  obtain ⟨lon, -, rfl⟩ := List.mem_map.mp hc
  obtain ⟨lon', -, heq⟩ := List.mem_map.mp hc'
  exact hne (congrArg Cell.lat heq).symm

/-! ### Rows -/

/-- `WMMModel`, and what a pixel keeps of a value that is written with four decimals. -/
structure WMMModel (P : Type) where
  declinationDeg : ℚ → ℚ → ℚ → ℚ → ℚ
  pixel : ℚ → P

/-- A raster of one band in degrees: `ST_MakeEmptyRaster` with `ST_SetValues`. -/
structure Raster (P : Type) where
  width : ℤ
  height : ℤ
  upperleftx : ℚ
  upperlefty : ℚ
  scalex : ℚ
  scaley : ℚ
  values : List (List P)

/-- `std::llround`: halves away from zero. -/
def llround (x : ℚ) : ℤ := if 0 ≤ x then ⌊x + 1 / 2⌋ else ⌈x - 1 / 2⌉

variable {P : Type} (M : WMMModel P)

/-- The values of a cell at the centres of its pixels. -/
def cellValues (grid_deg year : ℚ) (c : Cell) : List (List P) :=
  let grid_n := (llround (kCellDeg / grid_deg)).toNat
  let north : ℚ := c.lat + kCellDeg
  (List.range grid_n).map fun row : ℕ => (List.range grid_n).map fun col : ℕ =>
    M.pixel (M.declinationDeg (north - (row + 1 / 2) * grid_deg)
      (c.lon + (col + 1 / 2) * grid_deg) 0 year)

/-- The raster that a worker inserts for a cell. -/
def cellRaster (grid_deg year : ℚ) (c : Cell) : Raster P where
  width := llround (kCellDeg / grid_deg)
  height := llround (kCellDeg / grid_deg)
  upperleftx := c.lon
  upperlefty := c.lat + kCellDeg
  scalex := grid_deg
  scaley := -grid_deg
  values := cellValues M grid_deg year c

/-! ### Loads -/

/-- The tables `wmm` and `wmm_cells`. -/
structure Tables (P : Type) where
  wmm : List (Raster P)
  wmm_cells : List String

/-- The arguments of `load`, with its defaults. -/
structure LoadArgs where
  year : ℚ
  min_lon : ℚ := -180
  min_lat : ℚ := -90
  max_lon : ℚ := 180
  max_lat : ℚ := 90
  grid_deg : ℚ := 1 / 4
  threads : ℤ := 4

def LoadArgs.cells (a : LoadArgs) : List Cell :=
  cellsForBBox a.min_lon a.min_lat a.max_lon a.max_lat

/-- How a transaction goes: a commit may be carried out although it throws. -/
inductive Fate where
  | committed
  | inDoubt
  | failed
deriving DecidableEq

/-- How a load goes: whether the connection and the statements before the workers
succeed, the turns of the workers, how the transaction of each cell goes, and whether
what follows the workers returns. -/
structure LoadRun where
  connects : Bool
  prepares : Bool
  schedule : ∀ nthreads, List (Fin nthreads)
  fate : Cell → Fate
  finishes : Bool

/-- The statements of the transaction of a cell. -/
def Tables.insertCell (a : LoadArgs) (t : Tables P) (c : Cell) : Tables P where
  wmm := t.wmm ++ [cellRaster M a.grid_deg a.year c]
  wmm_cells := if c.name ∈ t.wmm_cells then t.wmm_cells else t.wmm_cells ++ [c.name]

/-- What the workers share: the tables, and how many cells they have counted. -/
structure Progress (P : Type) where
  tables : Tables P
  total_loaded : ℕ

/-- A worker with the cell it has claimed. -/
def worker (a : LoadArgs) (fate : Cell → Fate) (p : Progress P) (c : Cell) : Progress P :=
  match fate c with
  | .committed => ⟨p.tables.insertCell M a c, p.total_loaded + 1⟩
  | .inDoubt => ⟨p.tables.insertCell M a c, p.total_loaded⟩
  | .failed => p

/-- The cells that are not in `wmm_cells`. -/
def LoadArgs.to_load (a : LoadArgs) (t : Tables P) : List Cell :=
  a.cells.filter fun c => c.name ∉ t.wmm_cells

def LoadArgs.nthreads (a : LoadArgs) (t : Tables P) : ℕ :=
  (max 1 (min a.threads (a.to_load t).length)).toNat

/-- The workers under their schedule. -/
def runWorkers (a : LoadArgs) (r : LoadRun) (t : Tables P) : Progress P :=
  ((WorkPool.start (a.nthreads t) ⟨t, 0⟩).run (worker M a r.fate) (a.to_load t).length
    (WorkPool.actionAt (a.to_load t)) (r.schedule _)).shared

/-- `load`: the tables, and what it returns; `none` for an exception. -/
def load (a : LoadArgs) (r : LoadRun) (t : Tables P) : Tables P × Option Bool :=
  let returned := if r.finishes then some true else none
  if !r.connects then (t, none)
  else if a.cells.isEmpty then (t, some false)
  else if !r.prepares then (t, none)
  else if (a.to_load t).isEmpty then (t, returned)
  else
    let p := runWorkers M a r t
    (p.tables, if p.total_loaded = 0 then some false else returned)

end WMMLoader

/-! ### The refresh -/

open WMMLoader

/-- The tables, and the stamp of `wmm` in `external_data_state`. -/
structure WMMState (P : Type) where
  tables : Tables P
  stamp : Option ℤ

namespace Replicator

variable {P : Type} (M : WMMModel P)

def kWMMRefreshSeconds : ℤ := 90 * 24 * 3600

/-- How a refresh goes: whether the stamp can be read, the year of `currentDecimalYear`,
the load, and how the transaction of the stamp goes. -/
structure RefreshRun where
  readable : Bool
  year : ℚ
  load : LoadRun
  store : Fate

/-- What a refresh reports. -/
inductive Report where
  | notDue
  | complete
  | failed
deriving DecidableEq

/-- `getExternalDataTimestamp`: an error is no stamp. -/
def getExternalDataTimestamp (readable : Bool) (stamp : Option ℤ) : ℤ :=
  if readable then stamp.getD (-1) else -1

/-- `setExternalDataTimestamp`: the stamp after it, and whether it returns. -/
def setExternalDataTimestamp (fate : Fate) (epoch_seconds : ℤ) (stamp : Option ℤ) :
    Option ℤ × Bool :=
  match fate with
  | .committed => (some epoch_seconds, true)
  | .inDoubt => (some epoch_seconds, false)
  | .failed => (stamp, false)

/-- The last refresh is less than the interval ago. -/
def notDue (now : ℤ) (r : RefreshRun) (s : WMMState P) : Bool :=
  let last := getExternalDataTimestamp r.readable s.stamp
  0 ≤ last && now - last < kWMMRefreshSeconds

/-- `checkWMMRefresh`: a load of the globe, and the stamp if it returns true. -/
def checkWMMRefresh (now : ℤ) (r : RefreshRun) (s : WMMState P) : WMMState P × Report :=
  if notDue now r s then (s, .notDue)
  else
    match WMMLoader.load M { year := r.year } r.load s.tables with
    | (tables, some true) =>
        let stored := setExternalDataTimestamp r.store now s.stamp
        (⟨tables, stored.1⟩, if stored.2 then .complete else .failed)
    | (tables, _) => (⟨tables, s.stamp⟩, .failed)

/-- `seedWMMTimestamp`, at the end of an import. -/
def seedWMMTimestamp (now : ℤ) (fate : Fate) (s : WMMState P) : WMMState P :=
  ⟨s.tables, (setExternalDataTimestamp fate now s.stamp).1⟩

end Replicator

end Gpsxdb
