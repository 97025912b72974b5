import Mathlib.Tactic
import Gpsxdb.Reload.WMMLoader

/-!
What is left of a refresh of the magnetic declination.

* `inserted`, `load_tables`: the cells a load inserts, each once, none that is in
  `wmm_cells`;
* `Insertion`, `Accounts`, `Op`, `run`, `insertions`: the tables are the insertions of a
  run, **a cell is inserted once in a run**;
* `HoldsYear`: each cell of a box is present once, with the values of a year;
* `checkWMMRefresh_real_iff`: **when a refresh that reports success is one**;
  `refresh_keeps_old_year`.
-/

namespace Gpsxdb

namespace WMMLoader

variable {P : Type} {M : WMMModel P} {a : LoadArgs} {r : LoadRun} {t : Tables P}

/-! ### What a load inserts -/

/-- The transaction is carried out, whatever the worker hears of it. -/
def Fate.kept : Fate → Bool
  | .failed => false
  | _ => true

/-- The cells whose transactions are carried out, in their order. -/
def inserted (a : LoadArgs) (r : LoadRun) (t : Tables P) : List Cell :=
  if r.connects && r.prepares then
    (WorkPool.journal (a.to_load t).length (WorkPool.actionAt (a.to_load t))
      (r.schedule (a.nthreads t))).filter fun c => (r.fate c).kept
  else []

lemma nthreads_pos (a : LoadArgs) (t : Tables P) : 0 < a.nthreads t := by
  rw [LoadArgs.nthreads]
  omega

lemma inserted_subperm (a : LoadArgs) (r : LoadRun) (t : Tables P) :
    (inserted a r t).Subperm (a.to_load t) := by
  rw [inserted]
  split
  · exact List.filter_sublist.subperm.trans (WorkPool.journal_subperm (nthreads_pos a t) _ _)
  · exact List.nil_subperm

lemma nodup_to_load (a : LoadArgs) (t : Tables P) : (a.to_load t).Nodup :=
  (nodup_cellsForBBox ..).filter _

lemma nodup_inserted (a : LoadArgs) (r : LoadRun) (t : Tables P) : (inserted a r t).Nodup := by
  obtain ⟨l, hperm, hsub⟩ := inserted_subperm a r t
  exact hperm.nodup_iff.mp (hsub.nodup (nodup_to_load a t))

/-- A cell that is inserted is one of the box, and is not in `wmm_cells`. -/
lemma mem_of_mem_inserted {c : Cell} (h : c ∈ inserted a r t) :
    c ∈ a.cells ∧ c.name ∉ t.wmm_cells := by
  have hload := List.mem_filter.mp ((inserted_subperm a r t).subset h)
  exact ⟨hload.1, of_decide_eq_true hload.2⟩

/-- The workers one after the other. -/
lemma tables_foldl_worker (fate : Cell → Fate) (l : List Cell) (p : Progress P) :
    (l.foldl (worker M a fate) p).tables
      = (l.filter fun c => (fate c).kept).foldl (Tables.insertCell M a) p.tables := by
  induction l generalizing p with
  | nil => rfl
  | cons c l ih =>
      rw [List.foldl_cons, ih, worker, List.filter_cons]
      cases fate c with
      | committed => rfl
      | inDoubt => rfl
      | failed => rfl

lemma total_loaded_foldl_worker (fate : Cell → Fate) (l : List Cell) (p : Progress P) :
    (l.foldl (worker M a fate) p).total_loaded
      = p.total_loaded + l.countP fun c => fate c = .committed := by
  induction l generalizing p with
  | nil => rfl
  | cons c l ih =>
      rw [List.foldl_cons, ih, worker, List.countP_cons]
      cases fate c with
      | committed =>
          simp only [decide_true, if_true]
          omega
      | inDoubt => rfl
      | failed => rfl

lemma runWorkers_eq (a : LoadArgs) (r : LoadRun) (t : Tables P) : runWorkers M a r t
    = (WorkPool.journal (a.to_load t).length (WorkPool.actionAt (a.to_load t))
      (r.schedule (a.nthreads t))).foldl (worker M a r.fate) ⟨t, 0⟩ :=
  WorkPool.shared_run _

/-- **The tables after a load**, whatever it returns. -/
lemma load_tables (a : LoadArgs) (r : LoadRun) (t : Tables P) :
    (load M a r t).1 = (inserted a r t).foldl (Tables.insertCell M a) t := by
  have hnone : a.to_load t = [] → inserted a r t = [] := fun h =>
    List.subperm_nil.mp (h ▸ inserted_subperm a r t)
  rw [load]
  by_cases hconnects : r.connects = true
  · by_cases hcells : a.cells.isEmpty = true
    · have hload : a.to_load t = [] := by
        rw [LoadArgs.to_load, List.isEmpty_iff.mp hcells, List.filter_nil]
      simp [hconnects, hcells, hnone hload]
    · by_cases hprepares : r.prepares = true
      · by_cases hload : (a.to_load t).isEmpty = true
        · simp [hconnects, hcells, hprepares, hload, hnone (List.isEmpty_iff.mp hload)]
        · simp only [hconnects, hcells, hprepares, hload, Bool.not_true, Bool.false_eq_true,
            if_false]
          rw [runWorkers_eq, tables_foldl_worker, inserted, hconnects, hprepares]
          rfl
      · simp [hconnects, hcells, hprepares, inserted]
  · simp [hconnects, inserted]

/-- A load with nothing left to load returns true. -/
lemma load_of_to_load_eq_nil (hcells : a.cells ≠ []) (hload : a.to_load t = [])
    (hconnects : r.connects = true) (hprepares : r.prepares = true)
    (hfinishes : r.finishes = true) : load M a r t = (t, some true) := by
  simp [load, hcells, hload, hconnects, hprepares, hfinishes]

/-- New cells are appended to both tables. -/
lemma foldl_insertCell {l : List Cell} (hl : l.Nodup) (hnew : ∀ c ∈ l, c.name ∉ t.wmm_cells) :
    l.foldl (Tables.insertCell M a) t = ⟨t.wmm ++ l.map (cellRaster M a.grid_deg a.year),
      t.wmm_cells ++ l.map Cell.name⟩ := by
  induction l generalizing t with
  | nil => simp
  | cons c l ih =>
      obtain ⟨hc, hl⟩ := List.nodup_cons.mp hl
      have hinsert : t.insertCell M a c
          = ⟨t.wmm ++ [cellRaster M a.grid_deg a.year c], t.wmm_cells ++ [c.name]⟩ := by
        rw [Tables.insertCell, if_neg (hnew c (List.mem_cons_self ..))]
      have hrest : ∀ d ∈ l, d.name ∉ (t.insertCell M a c).wmm_cells := by
        intro d hd hmem
        rw [hinsert] at hmem
        rcases List.mem_append.mp hmem with hmem | hmem
        · exact hnew d (List.mem_cons_of_mem _ hd) hmem
        · exact hc (Cell.name_inj (List.mem_singleton.mp hmem) ▸ hd)
      rw [List.foldl_cons, ih hl hrest, hinsert]
      simp

/-! ### The log of the insertions -/

/-- A cell, and what its values were computed for. -/
structure Insertion where
  cell : Cell
  grid_deg : ℚ
  year : ℚ

/-- What a load adds to the log. -/
def logged (a : LoadArgs) (r : LoadRun) (t : Tables P) : List Insertion :=
  (inserted a r t).map fun c => ⟨c, a.grid_deg, a.year⟩

variable (M) in
/-- **The invariant**: the tables are the insertions of a log, one for each cell. -/
structure Accounts (log : List Insertion) (t : Tables P) : Prop where
  wmm : t.wmm = log.map fun i => cellRaster M i.grid_deg i.year i.cell
  wmm_cells : t.wmm_cells = log.map fun i => i.cell.name
  nodup : (log.map Insertion.cell).Nodup

namespace Accounts

variable {log : List Insertion}

lemma mem_wmm_cells (h : Accounts M log t) {c : Cell} :
    c.name ∈ t.wmm_cells ↔ ∃ i ∈ log, i.cell = c := by
  rw [h.wmm_cells, List.mem_map]
  exact exists_congr fun i => and_congr_right fun _ => ⟨Cell.name_inj, congrArg Cell.name⟩

/-- A load keeps the invariant. -/
lemma load (h : Accounts M log t) (a : LoadArgs) (r : LoadRun) :
    Accounts M (log ++ logged a r t) (WMMLoader.load M a r t).1 := by
  have hnew : ∀ c ∈ inserted a r t, c.name ∉ t.wmm_cells := fun c hc => (mem_of_mem_inserted hc).2
  rw [load_tables, foldl_insertCell (nodup_inserted a r t) hnew]
  have hcells : (logged a r t).map Insertion.cell = inserted a r t := by
    rw [logged, List.map_map]
    exact List.map_id _
  refine ⟨?_, ?_, ?_⟩
  · rw [h.wmm, List.map_append, logged, List.map_map]
    rfl
  · rw [h.wmm_cells, List.map_append, logged, List.map_map]
    rfl
  · rw [List.map_append, hcells]
    refine h.nodup.append (nodup_inserted a r t) fun c hold hc => ?_
    obtain ⟨i, hi, rfl⟩ := List.mem_map.mp hold
    exact hnew _ hc (h.mem_wmm_cells.mpr ⟨i, hi, rfl⟩)

end Accounts

/-! ### Values of a year -/

/-- The raster of a cell, by its upper left corner. -/
def Raster.isOf (c : Cell) (raster : Raster P) : Bool :=
  raster.upperleftx = c.lon && raster.upperlefty = c.lat + kCellDeg

variable (M) in
/-- Each pixel has the value of the model at its centre, in a year. -/
def Raster.ComputedFor (year : ℚ) (raster : Raster P) : Prop :=
  raster.values = (List.range raster.height.toNat).map fun row : ℕ =>
    (List.range raster.width.toNat).map fun col : ℕ =>
      M.pixel (M.declinationDeg (raster.upperlefty + (row + 1 / 2) * raster.scaley)
        (raster.upperleftx + (col + 1 / 2) * raster.scalex) 0 year)

variable (M) in
/-- Each cell that covers the box is present once, with values of the year. -/
def HoldsYear (a : LoadArgs) (t : Tables P) : Prop :=
  ∀ c : Cell, c.Covers a.min_lon a.min_lat a.max_lon a.max_lat →
    t.wmm.countP (Raster.isOf c) = 1
      ∧ ∀ raster ∈ t.wmm, raster.isOf c = true → raster.ComputedFor M a.year

lemma isOf_cellRaster {c d : Cell} {grid_deg year : ℚ} :
    (cellRaster M grid_deg year d).isOf c = true ↔ d = c := by
  obtain ⟨lat, lon⟩ := c
  obtain ⟨lat', lon'⟩ := d
  simp only [Raster.isOf, cellRaster, Bool.and_eq_true, decide_eq_true_eq, add_left_inj,
    Int.cast_inj, Cell.mk.injEq]
  exact and_comm

/-- A raster has the values of another year where the years do not differ. -/
lemma computedFor_cellRaster {c : Cell} {grid_deg year year' : ℚ} :
    (cellRaster M grid_deg year c).ComputedFor M year'
      ↔ cellValues M grid_deg year c = cellValues M grid_deg year' c := by
  have hsame : ((List.range (cellRaster M grid_deg year c).height.toNat).map fun row : ℕ =>
      (List.range (cellRaster M grid_deg year c).width.toNat).map fun col : ℕ =>
        M.pixel (M.declinationDeg
          ((cellRaster M grid_deg year c).upperlefty
            + (row + 1 / 2) * (cellRaster M grid_deg year c).scaley)
          ((cellRaster M grid_deg year c).upperleftx
            + (col + 1 / 2) * (cellRaster M grid_deg year c).scalex) 0 year'))
      = cellValues M grid_deg year' c := by
    refine List.map_congr_left fun row _ => List.map_congr_left fun col _ => ?_
    simp only [cellRaster]
    rw [mul_neg, ← sub_eq_add_neg]
  rw [Raster.ComputedFor, hsame]
  rfl

namespace Accounts

variable {log : List Insertion}

/-- A cell is present as often as it is in the log. -/
lemma countP_isOf (h : Accounts M log t) (c : Cell) :
    t.wmm.countP (Raster.isOf c) = (log.map Insertion.cell).count c := by
  rw [h.wmm, List.countP_map, List.count, List.countP_map]
  refine List.countP_congr fun i _ => ?_
  rw [Function.comp_apply, Function.comp_apply, isOf_cellRaster, beq_iff_eq]

/-- **A log holds the year** where it has each cell, with the values of the year. -/
lemma holdsYear_iff (h : Accounts M log t) : HoldsYear M a t ↔ ∀ c ∈ a.cells,
    ∃ i ∈ log, i.cell = c
      ∧ cellValues M i.grid_deg i.year c = cellValues M i.grid_deg a.year c := by
  refine forall_congr' fun c => ?_
  rw [LoadArgs.cells, mem_cellsForBBox, h.countP_isOf]
  refine imp_congr_right fun _ => ?_
  constructor
  · rintro ⟨hone, hyear⟩
    have hmem : c ∈ log.map Insertion.cell := List.count_pos_iff.mp (by omega)
    obtain ⟨i, hi, rfl⟩ := List.mem_map.mp hmem
    refine ⟨i, hi, rfl, computedFor_cellRaster.mp (hyear _ ?_ (isOf_cellRaster.mpr rfl))⟩
    rw [h.wmm]
    exact List.mem_map.mpr ⟨i, hi, rfl⟩
  · rintro ⟨i, hi, rfl, hvalues⟩
    refine ⟨List.count_eq_one_of_mem h.nodup (List.mem_map.mpr ⟨i, hi, rfl⟩), ?_⟩
    intro raster hraster hof
    rw [h.wmm] at hraster
    obtain ⟨j, hj, rfl⟩ := List.mem_map.mp hraster
    -- the row of the cell is the insertion of the cell, since there is no second
    have hij : j = i := List.inj_on_of_nodup_map h.nodup hj hi (isOf_cellRaster.mp hof)
    rw [hij]
    exact computedFor_cellRaster.mpr hvalues

end Accounts

end WMMLoader

/-! ### Runs -/

open WMMLoader

namespace Replicator

variable {P : Type} {M : WMMModel P} {s : WMMState P}

/-- A call, with its date: a load with its arguments, the stamp at the end of an import,
and a refresh. -/
inductive Op where
  | load (now : ℤ) (a : LoadArgs) (r : LoadRun)
  | seed (now : ℤ) (fate : Fate)
  | refresh (now : ℤ) (r : RefreshRun)

def Op.date : Op → ℤ
  | .load now _ _ => now
  | .seed now _ => now
  | .refresh now _ => now

variable (M) in
def step (s : WMMState P) : Op → WMMState P
  | .load _ a r => ⟨(WMMLoader.load M a r s.tables).1, s.stamp⟩
  | .seed now fate => seedWMMTimestamp now fate s
  | .refresh now r => (checkWMMRefresh M now r s).1

/-- The arguments of the load of a refresh. -/
def RefreshRun.args (r : RefreshRun) : LoadArgs := { year := r.year }

/-- What a call adds to the log of insertions. -/
def insertions (s : WMMState P) : Op → List Insertion
  | .load _ a r => logged a r s.tables
  | .seed _ _ => []
  | .refresh now r => if notDue now r s then [] else logged r.args r.load s.tables

/-- Empty tables and no stamp. -/
def fresh : WMMState P := ⟨⟨[], []⟩, none⟩

variable (M) in
/-- A run, with its log. -/
def run (ops : List Op) : WMMState P × List Insertion :=
  ops.foldl (fun x op => (step M x.1 op, x.2 ++ insertions x.1 op)) (fresh, [])

/-- **The tables after a refresh.** -/
lemma checkWMMRefresh_tables (now : ℤ) (r : RefreshRun) (s : WMMState P) :
    (checkWMMRefresh M now r s).1.tables
      = if notDue now r s then s.tables else (WMMLoader.load M r.args r.load s.tables).1 := by
  rw [checkWMMRefresh]
  split
  · rfl
  · rw [RefreshRun.args]
    split <;> rename_i hload <;> rw [hload]

/-- **When a refresh reports success**: it was due, the load returned true, and the stamp
was stored. -/
lemma checkWMMRefresh_complete_iff {now : ℤ} {r : RefreshRun} :
    (checkWMMRefresh M now r s).2 = .complete ↔ notDue now r s = false
      ∧ (WMMLoader.load M r.args r.load s.tables).2 = some true ∧ r.store = .committed := by
  rw [checkWMMRefresh, RefreshRun.args]
  by_cases hdue : notDue now r s = true
  · rw [if_pos hdue, hdue]
    simp
  · rw [if_neg hdue, Bool.eq_false_iff.mpr hdue]
    split
    · rename_i tables hload
      rw [hload]
      cases r.store <;> simp [setExternalDataTimestamp]
    · rename_i tables returned hne hload
      rw [hload]
      simp only [true_and, reduceCtorEq, false_iff, not_and]
      intro hreturned
      exact absurd hreturned hne

lemma accounts_step {log : List Insertion} (h : Accounts M log s.tables) (op : Op) :
    Accounts M (log ++ insertions s op) (step M s op).tables := by
  cases op with
  | load now a r => exact h.load a r
  | seed now fate =>
      rw [insertions, List.append_nil]
      exact h
  | refresh now r =>
      rw [insertions, step, checkWMMRefresh_tables]
      by_cases hdue : notDue now r s = true
      · rw [if_pos hdue, if_pos hdue, List.append_nil]
        exact h
      · rw [if_neg hdue, if_neg hdue]
        exact h.load r.args r.load

/-- **In every run a cell is inserted once**, and the tables are what was inserted. -/
theorem accounts_run (ops : List Op) : Accounts M (run M ops).2 (run M ops).1.tables := by
  induction ops using List.reverseRecOn with
  | nil => exact ⟨rfl, rfl, List.nodup_nil⟩
  | append_singleton ops op ih =>
      rw [run, List.foldl_append, List.foldl_cons, List.foldl_nil]
      exact accounts_step ih op

/-! ### When a refresh is one -/

variable (M) in
/-- Each cell of the globe is inserted by this refresh, or was inserted by a call whose
year gives it the same values. -/
def Renews (ops : List Op) (r : RefreshRun) : Prop :=
  ∀ c ∈ r.args.cells, match (run M ops).2.find? fun i => i.cell = c with
    | some i => cellValues M i.grid_deg i.year c = cellValues M i.grid_deg r.year c
    | none => c ∈ inserted r.args r.load (run M ops).1.tables

/-- **A refresh that reports success leaves the values of its year** on the globe exactly
when no cell was inserted before for other values, and none of the rest fails. -/
theorem checkWMMRefresh_real_iff (ops : List Op) (now : ℤ) (r : RefreshRun)
    (h : (checkWMMRefresh M now r (run M ops).1).2 = .complete) :
    HoldsYear M r.args (checkWMMRefresh M now r (run M ops).1).1.tables ↔ Renews M ops r := by
  have hold := accounts_run (M := M) ops
  have hdue := (checkWMMRefresh_complete_iff.mp h).1
  have hafter := accounts_step hold (.refresh now r)
  rw [insertions, hdue, if_neg Bool.false_ne_true] at hafter
  refine hafter.holdsYear_iff.trans (forall₂_congr fun c _ => ?_)
  cases hfind : (run M ops).2.find? (fun i => i.cell = c) with
  | some i =>
      have hi := List.mem_of_find?_eq_some hfind
      have hcell : i.cell = c := by simpa using List.find?_some hfind
      constructor
      · rintro ⟨j, hj, hjc, hvalues⟩
        have hij : j = i :=
          List.inj_on_of_nodup_map hafter.nodup hj (List.mem_append_left _ hi)
            (hjc.trans hcell.symm)
        rw [← hij]
        exact hvalues
      · exact fun hvalues => ⟨i, List.mem_append_left _ hi, hcell, hvalues⟩
  | none =>
      have hnone : ∀ i ∈ (run M ops).2, i.cell ≠ c := by
        intro i hi hic
        exact absurd (decide_eq_true hic) (List.find?_eq_none.mp hfind i hi)
      constructor
      · rintro ⟨i, hi, rfl, -⟩
        rcases List.mem_append.mp hi with hi | hi
        · exact absurd rfl (hnone i hi)
        · obtain ⟨c, hc, rfl⟩ := List.mem_map.mp hi
          exact hc
      · intro hc
        exact ⟨⟨c, r.args.grid_deg, r.year⟩,
          List.mem_append_right _ (List.mem_map.mpr ⟨c, hc, rfl⟩), rfl, rfl⟩

/-! ### A run -/

/-- A load can insert all cells that are not there. -/
lemma exists_load_all (a : LoadArgs) (t : Tables P) :
    ∃ r : LoadRun, (inserted a r t).Perm (a.to_load t)
      ∧ (a.cells ≠ [] → (WMMLoader.load M a r t).2 = some true) := by
  choose schedule hfinished using fun k => WorkPool.exists_finished (k := k)
    (fun done c => done ++ [c]) (a.to_load t).length (WorkPool.actionAt (a.to_load t))
    (WorkPool.start k [])
  have hall := WorkPool.journal_perm (nthreads_pos a t) (hfinished (a.nthreads t))
  refine ⟨⟨true, true, schedule, fun _ => .committed, true⟩, ?_, fun hcells => ?_⟩
  · rw [inserted]
    simpa [Fate.kept] using hall
  · rw [WMMLoader.load]
    by_cases hload : a.to_load t = []
    · simp [hcells, hload]
    · have htotal : (runWorkers M a ⟨true, true, schedule, fun _ => .committed, true⟩
          t).total_loaded ≠ 0 := by
        rw [runWorkers_eq, total_loaded_foldl_worker, hall.countP_eq]
        simpa using hload
      simp [hcells, hload, htotal]

/-- Every refresh that reports success, in every run at increasing dates, leaves the
values of its year. -/
def RefreshIsReal (M : WMMModel P) : Prop :=
  ∀ (ops : List Op) (now : ℤ) (r : RefreshRun), (ops.map Op.date ++ [now]).Pairwise (· < ·) →
    (checkWMMRefresh M now r (run M ops).1).2 = .complete →
      HoldsYear M r.args (checkWMMRefresh M now r (run M ops).1).1.tables

/-- A declination that grows by a degree a year. -/
def drift : WMMModel ℚ := ⟨fun _ _ _ year => year, id⟩

lemma zero_mem_cells (r : RefreshRun) : (⟨0, 0⟩ : WMMLoader.Cell) ∈ r.args.cells := by
  rw [LoadArgs.cells, mem_cellsForBBox]
  constructor <;> norm_num [RefreshRun.args, kCellDeg]

lemma cells_ne_nil (r : RefreshRun) : r.args.cells ≠ [] :=
  List.ne_nil_of_mem (zero_mem_cells r)

/-- In that model the values of a cell are of one year. -/
lemma eq_of_cellValues_drift {year year' : ℚ} {c : WMMLoader.Cell}
    (h : cellValues drift (1 / 4) year c = cellValues drift (1 / 4) year' c) : year = year' := by
  have hgrid : (llround (kCellDeg / (1 / 4))).toNat ≠ 0 := by norm_num [llround, kCellDeg]
  simp only [cellValues, drift, List.map_const', List.length_range, id] at h
  have hrows := ((List.replicate_inj.mp h).2.resolve_left hgrid)
  exact (List.replicate_inj.mp hrows).2.resolve_left hgrid

/-- A box of four cells. -/
def fourCells : LoadArgs :=
  { year := 2026, min_lon := 0, min_lat := 0, max_lon := 20, max_lat := 20 }

/-- The cells of a box are loaded, and an hour later those of the globe. -/
theorem checkWMMRefresh_real_later : ∃ (load : LoadRun) (r : RefreshRun),
    let ops : List Op := [.load 1767225600 fourCells load]
    (∃ i ∈ (run drift ops).2, i.cell = ⟨0, 0⟩)
      ∧ (checkWMMRefresh drift 1767229200 r (run drift ops).1).2 = .complete
      ∧ HoldsYear drift r.args (checkWMMRefresh drift 1767229200 r (run drift ops).1).1.tables := by
  obtain ⟨first, hfirst, -⟩ := exists_load_all (M := drift) fourCells (fresh (P := ℚ)).tables
  let ops : List Op := [.load 1767225600 fourCells first]
  obtain ⟨load, hall, hreturns⟩ :=
    exists_load_all (M := drift) { year := 2026 } (run drift ops).1.tables
  let refresh : RefreshRun := ⟨true, 2026, load, .committed⟩
  have hlog : (run drift ops).2 = logged fourCells first (fresh (P := ℚ)).tables := rfl
  have hcomplete : (checkWMMRefresh drift 1767229200 refresh (run drift ops).1).2 = .complete :=
    checkWMMRefresh_complete_iff.mpr ⟨rfl, hreturns (cells_ne_nil refresh), rfl⟩
  refine ⟨first, refresh, ?_, hcomplete,
    (checkWMMRefresh_real_iff ops 1767229200 refresh hcomplete).mpr fun c hc => ?_⟩
  · have hzero : (⟨0, 0⟩ : WMMLoader.Cell) ∈ fourCells.cells := by decide +kernel
    have hin := hfirst.mem_iff.mpr (List.mem_filter.mpr ⟨hzero, rfl⟩)
    exact ⟨⟨⟨0, 0⟩, 1 / 4, 2026⟩, hlog ▸ List.mem_map.mpr ⟨_, hin, rfl⟩, rfl⟩
  · cases hfind : (run drift ops).2.find? fun i => i.cell = c with
    | some i =>
        have hi := List.mem_of_find?_eq_some hfind
        rw [hlog] at hi
        obtain ⟨c', -, rfl⟩ := List.mem_map.mp hi
        rfl
    | none =>
        refine hall.mem_iff.mpr (List.mem_filter.mpr ⟨hc, decide_eq_true fun hname => ?_⟩)
        obtain ⟨i, hi, hic⟩ := (accounts_run (M := drift) ops).mem_wmm_cells.mp hname
        exact absurd (decide_eq_true hic) (List.find?_eq_none.mp hfind i hi)

/-- **A refresh that reports success and renews nothing**: the globe is loaded at the
start of 2026, and a year later every cell is skipped. -/
theorem refresh_keeps_old_year : ¬ RefreshIsReal drift := by
  intro hreal
  obtain ⟨load, hall, -⟩ := exists_load_all (M := drift) { year := 2026 } (fresh (P := ℚ)).tables
  let ops : List Op := [.load 1767225600 { year := 2026 } load]
  let refresh : RefreshRun :=
    ⟨true, 2027, ⟨true, true, fun _ => [], fun _ => .committed, true⟩, .committed⟩
  have haccounts := accounts_run (M := drift) ops
  have hlog : (run drift ops).2 = logged { year := 2026 } load (fresh (P := ℚ)).tables := rfl
  -- nothing is left to load
  have hnothing : refresh.args.to_load (run drift ops).1.tables = [] := by
    refine List.filter_eq_nil_iff.mpr fun c hc => ?_
    rw [decide_eq_true_eq, not_not, haccounts.mem_wmm_cells, hlog]
    have hin := hall.mem_iff.mpr (List.mem_filter.mpr ⟨hc, rfl⟩)
    exact ⟨⟨c, 1 / 4, 2026⟩, List.mem_map.mpr ⟨c, hin, rfl⟩, rfl⟩
  have hloaded : WMMLoader.load drift refresh.args refresh.load (run drift ops).1.tables
      = ((run drift ops).1.tables, some true) :=
    load_of_to_load_eq_nil (cells_ne_nil refresh) hnothing rfl rfl rfl
  have hdue : notDue 1798761600 refresh (run drift ops).1 = false := rfl
  have hcomplete := checkWMMRefresh_complete_iff.mpr
    ⟨hdue, congrArg Prod.snd hloaded, rfl⟩
  have hholds := hreal ops 1798761600 refresh (by simp [ops, Op.date]) hcomplete
  rw [checkWMMRefresh_tables, hdue, if_neg Bool.false_ne_true, hloaded, haccounts.holdsYear_iff]
    at hholds
  obtain ⟨i, hi, -, hvalues⟩ := hholds ⟨0, 0⟩ (zero_mem_cells refresh)
  rw [hlog] at hi
  obtain ⟨c, -, rfl⟩ := List.mem_map.mp hi
  have hyear : (2026 : ℚ) = 2027 := eq_of_cellValues_drift hvalues
  norm_num at hyear

end Replicator

end Gpsxdb
