import Mathlib.Tactic
import Gpsxdb.Reload.AirspaceAtomicity
import Gpsxdb.Reload.WMMLoader

/-!
When a load of the international airspaces that returns true has gone through the whole
listing, and what `Replicator::checkAirspaceRefresh` makes of it.

* `pageOf`, `Lists`: the listing of the server, and answers that may fail on any page;
* `handledItems`, `Answered`, `handledItems_eq_iff`: the items the loop goes through, and when
  these are all;
* `Stores`, `returned_true_iff`, `rows_of_returned`: when the load returns true, and with what;
* `loadInternationalAirspace_complete_iff`: **when true means complete**;
* `unfetched_page_returns_true`; `checkAirspaceRefresh`, `refresh_complete`: the refresh that
  relies on the load.

The loop ends in the same way behind the last page, behind a page that was not fetched or not
understood, and behind the last page it allows.
-/

namespace Gpsxdb

namespace AirspaceLoader

open Json

/-! ### The listing -/

/-- The items of a page. -/
def pageOf (items : List Json) (page : ℕ) : List Json :=
  (items.drop ((page - 1) * kPageLimit)).take kPageLimit

/-- A server that lists these items: what it answers, if it can be used, is the page. -/
def Lists (items : List Json) (src : OpenAipSource) : Prop :=
  ∀ page l, 1 ≤ page → src.page page = .items l → l = pageOf items page

/-- The items the loop goes through, with so many pages still allowed. -/
def handledItems (src : OpenAipSource) : ℕ → ℕ → List Json
  | 0, _ => []
  | pages + 1, page =>
      match src.page page with
      | .stop => []
      | .throws => []
      | .items items =>
          if items.length < kPageLimit then items
          else items ++ handledItems src pages (page + 1)

/-- Every page with items is answered, and there are not too many. -/
def Answered (items : List Json) (src : OpenAipSource) : Prop :=
  ∀ page, 1 ≤ page → pageOf items page ≠ [] →
    page ≤ kMaxPages ∧ src.page page = .items (pageOf items page)

variable {items : List Json} {src : OpenAipSource}

lemma pageOf_succ (items : List Json) (page : ℕ) :
    pageOf items (page + 1) = (items.drop (page * kPageLimit)).take kPageLimit := rfl

/-- A page is empty where the listing is at its end. -/
lemma pageOf_eq_nil_iff {page : ℕ} :
    pageOf items (page + 1) = [] ↔ items.length ≤ page * kPageLimit := by
  rw [pageOf_succ, List.take_eq_nil_iff, List.drop_eq_nil_iff]
  exact or_iff_right (by decide)

/-- Behind the end all pages are empty. -/
lemma pageOf_eq_nil {page page' : ℕ} (h : items.length ≤ page * kPageLimit) (hle : page < page') :
    pageOf items page' = [] := by
  obtain ⟨later, rfl⟩ : ∃ later, page' = later + 1 := ⟨page' - 1, by omega⟩
  exact pageOf_eq_nil_iff.mpr (h.trans (Nat.mul_le_mul_right _ (by omega)))

/-- **When the loop goes through the rest of the listing.** -/
lemma handledItems_eq_iff (h : Lists items src) {pages page : ℕ} :
    handledItems src pages (page + 1) = items.drop (page * kPageLimit)
      ↔ ∀ page', page < page' → pageOf items page' ≠ [] →
        page' ≤ page + pages ∧ src.page page' = .items (pageOf items page') := by
  -- a loop that ends without an item is right only at the end of the listing
  have hend : ∀ {pages page : ℕ}, (pages = 0 ∨ ∀ l, src.page (page + 1) = .items l → l = []) →
      ([] = items.drop (page * kPageLimit) ↔ ∀ page', page < page' → pageOf items page' ≠ [] →
        page' ≤ page + pages ∧ src.page page' = .items (pageOf items page')) := by
    intro pages page hnone
    rw [eq_comm, List.drop_eq_nil_iff]
    refine ⟨fun hle page' hlt hne => absurd (pageOf_eq_nil hle hlt) hne, fun hall => ?_⟩
    by_contra hgt
    have hne : pageOf items (page + 1) ≠ [] := fun hnil => hgt (pageOf_eq_nil_iff.mp hnil)
    obtain ⟨hpages, hitems⟩ := hall (page + 1) (Nat.lt_succ_self page) hne
    rcases hnone with rfl | hnone
    · omega
    · exact hne (hnone _ hitems)
  induction pages generalizing page with
  | zero => exact hend (Or.inl rfl)
  | succ pages ih =>
      rw [handledItems]
      rcases hpage : src.page (page + 1) with _ | _ | l
      · exact hend (Or.inr (by simp [hpage]))
      · exact hend (Or.inr (by simp [hpage]))
      · obtain rfl := h (page + 1) l (by omega) hpage
        dsimp only
        split
        · rename_i hshort
          rw [pageOf_succ, List.length_take, List.length_drop] at hshort
          refine iff_of_true ?_ fun page' hlt hne => ?_
          · rw [pageOf_succ]
            exact List.take_of_length_le (by rw [List.length_drop]; omega)
          · have hlast : items.length ≤ (page + 1) * kPageLimit := by
              rw [Nat.succ_mul]
              omega
            have hle : page' ≤ page + 1 := by
              by_contra hgt
              exact hne (pageOf_eq_nil hlast (not_le.mp hgt))
            obtain rfl : page' = page + 1 := by omega
            exact ⟨by omega, hpage⟩
        · have hsplit : items.drop (page * kPageLimit)
              = pageOf items (page + 1) ++ items.drop ((page + 1) * kPageLimit) := by
            rw [pageOf_succ, Nat.succ_mul, ← List.drop_drop, List.take_append_drop]
          rw [hsplit, List.append_cancel_left_eq]
          refine ih.trans ?_
          constructor
          · intro hall page' hlt hne
            rcases Nat.eq_or_lt_of_le hlt with rfl | hlt
            · exact ⟨by omega, hpage⟩
            · obtain ⟨hpages, hitems⟩ := hall page' hlt hne
              exact ⟨by omega, hitems⟩
          · intro hall page' hlt hne
            obtain ⟨hpages, hitems⟩ := hall page' (by omega) hne
            exact ⟨by omega, hitems⟩

lemma handledItems_eq_iff_answered (h : Lists items src) :
    handledItems src kMaxPages 1 = items ↔ Answered items src := by
  have hiff := @handledItems_eq_iff items src h kMaxPages 0
  rw [Nat.zero_mul, List.drop_zero, Nat.zero_add] at hiff
  exact hiff

/-! ### The load -/

variable {ops : FloatOps} {g_srid : UInt32} {s : AirspaceTable}

/-- The rows the loop gets to see are those of the items it goes through. -/
lemma rowsFrom_handledItems {pages page : ℕ} {rows : List Record}
    (h : fetchedRows ops g_srid src pages page = some rows) :
    rowsFrom (internationalRow ops g_srid) (handledItems src pages page) = some rows := by
  induction pages generalizing page rows with
  | zero => exact h
  | succ pages ih =>
      rw [fetchedRows] at h
      rw [handledItems]
      rcases hpage : src.page page with _ | _ | (_ | ⟨item, l⟩)
      · rw [hpage] at h
        exact h
      · rw [hpage] at h
        cases h
      · rw [hpage] at h
        exact h
      · rw [hpage] at h
        dsimp only at h ⊢
        rcases hrows : rowsFrom (internationalRow ops g_srid) (item :: l) with _ | page_rows
        · rw [hrows] at h
          cases h
        · rw [hrows] at h
          dsimp only at h
          split at h
          · rename_i hshort
            rw [if_pos hshort, hrows]
            exact h
          · rename_i hfull
            obtain ⟨rest, hrest, rfl⟩ := Option.map_eq_some_iff.mp h
            rw [if_neg hfull]
            exact rowsFrom_append hrows (ih hrest)

/-- The load gets to its commit with a row, and behind it to its end. -/
def Stores (ops : FloatOps) (g_srid : UInt32) (src : OpenAipSource) : Prop :=
  src.api_key ≠ [] ∧ src.ddl = false ∧ src.truncate = false
    ∧ src.query_functions = false
    ∧ ∃ rows, fetchedRows ops g_srid src kMaxPages 1 = some rows ∧ rows ≠ []
      ∧ src.copy.Accepts rows.length

/-- The table once the load has returned true. -/
lemma table_of_returned (h : (loadInternationalAirspace ops g_srid src s).1 = .returned true) :
    src.api_key ≠ [] ∧ src.ddl = false ∧ src.truncate = false ∧ src.query_functions = false
      ∧ ∃ rows, copyPages ops g_srid src = some rows ∧ rows ≠ []
        ∧ (loadInternationalAirspace ops g_srid src s).2 = ↑rows := by
  rw [loadInternationalAirspace] at h ⊢
  split at h
  · exact absurd (Exit.returned.inj h) (by decide)
  · rename_i hkey
    rw [if_neg hkey]
    refine ⟨hkey, ?_⟩
    cases hddl : src.ddl
    · cases htruncate : src.truncate
      · rcases hcopied : copyPages ops g_srid src with _ | rows
        · simp [hddl, htruncate, hcopied, prepare, truncate, runTxns, Txn.ofOption] at h
        · cases hquery : src.query_functions
          · refine ⟨rfl, rfl, rfl, rows, rfl, ?_, ?_⟩
            · rintro rfl
              simp [hddl, htruncate, hcopied, hquery, prepare, truncate, createQueryFunctions,
                runTxns, Txn.ofOption] at h
            · simp [prepare, truncate, createQueryFunctions, runTxns, Txn.ofOption, addTo]
          · simp [hddl, htruncate, hcopied, hquery, prepare, truncate, createQueryFunctions,
              runTxns, Txn.ofOption] at h
      · simp [hddl, htruncate, prepare, truncate, runTxns] at h
    · simp [hddl, prepare, runTxns] at h

lemma rows_of_returned (h : (loadInternationalAirspace ops g_srid src s).1 = .returned true) :
    ∃ rows, rowsFrom (internationalRow ops g_srid) (handledItems src kMaxPages 1) = some rows
      ∧ (loadInternationalAirspace ops g_srid src s).2 = ↑rows := by
  obtain ⟨-, -, -, -, rows, hcopied, -, htable⟩ := table_of_returned h
  exact ⟨rows, rowsFrom_handledItems (copyPages_eq_some.mp hcopied).1, htable⟩

/-- **When the load returns true.** -/
lemma returned_true_iff : (loadInternationalAirspace ops g_srid src s).1 = .returned true
    ↔ Stores ops g_srid src := by
  constructor
  · intro h
    obtain ⟨hkey, hddl, htruncate, hquery, rows, hcopied, hne, -⟩ := table_of_returned h
    obtain ⟨hfetched, haccepts⟩ := copyPages_eq_some.mp hcopied
    exact ⟨hkey, hddl, htruncate, hquery, rows, hfetched, hne, haccepts⟩
  · rintro ⟨hkey, hddl, htruncate, hquery, rows, hfetched, hne, haccepts⟩
    have hcopied := copyPages_eq_some.mpr ⟨hfetched, haccepts⟩
    rw [loadInternationalAirspace, if_neg hkey]
    simp [hddl, htruncate, hcopied, hquery, prepare, truncate, createQueryFunctions, runTxns,
      Txn.ofOption, List.length_pos_iff.mpr hne]

/-- Returning true means that every item was processed, and that the table has the rows of
all of them. -/
def TrueMeansComplete (ops : FloatOps) (g_srid : UInt32) (items : List Json)
    (src : OpenAipSource) (s : AirspaceTable) : Prop :=
  (loadInternationalAirspace ops g_srid src s).1 = .returned true →
    handledItems src kMaxPages 1 = items
      ∧ ∃ rows, rowsFrom (internationalRow ops g_srid) items = some rows
        ∧ (loadInternationalAirspace ops g_srid src s).2 = ↑rows

/-! ### Two sources -/

/-- An item with a row, and one without. -/
def plainItem : Json :=
  .object [(ascii "geometry",
    .object [(ascii "type", .string (ascii "Polygon")), (ascii "coordinates", .array [])])]

def bareItem : Json := .object []

/-- A source whose first page has these items, and whose other pages cannot be fetched. -/
def onePage (items : List Json) : OpenAipSource where
  api_key := ascii "key"
  attempts page _ := page = 1
  doc _ := some (.object [(ascii "items", .array items)])
  ddl := false
  truncate := false
  copy := .none
  query_functions := false

lemma page_onePage (l : List Json) (page : ℕ) :
    (onePage l).page page = if page = 1 then .items l else .stop := by
  rw [OpenAipSource.page]
  by_cases hpage : page = 1
  · subst hpage
    rfl
  · rw [if_neg hpage]
    simp [onePage, downloadRetry, hpage]

lemma lists_onePage {l later : List Json} (h : l.length ≤ kPageLimit)
    (hlater : later ≠ [] → l.length = kPageLimit) : Lists (l ++ later) (onePage l) := by
  intro page l' _ hpage
  rw [page_onePage] at hpage
  split at hpage
  · rename_i hone
    obtain rfl := Page.items.inj hpage
    subst hone
    rw [pageOf_succ, Nat.zero_mul, List.drop_zero]
    rcases later with _ | ⟨item, later⟩
    · rw [List.append_nil, List.take_of_length_le h]
    · rw [← hlater nofun, List.take_left]
  · exact nomatch hpage

/-- Items without a row behind one with a row. -/
lemma rowsFrom_plainItem (n : ℕ) : ∃ row, rowsFrom (internationalRow noFloats 3857)
    (plainItem :: List.replicate n bareItem) = some [row] := by
  have hbare : rowsFrom (internationalRow noFloats 3857) (List.replicate n bareItem) = some [] := by
    induction n with
    | zero => rfl
    | succ n ih => exact ih
  have hplain : ∃ row, internationalRow noFloats 3857 plainItem = some (some row) := ⟨_, rfl⟩
  obtain ⟨row, hrow⟩ := hplain
  refine ⟨row, ?_⟩
  rw [rowsFrom, hrow]
  dsimp only
  rw [hbare]
  rfl

/-- A full page. -/
def fullPage : List Json := plainItem :: List.replicate 999 bareItem

lemma length_fullPage : fullPage.length = kPageLimit := by
  rw [fullPage, List.length_cons, List.length_replicate, kPageLimit]

/-- The second page cannot be fetched, and the load goes on to its commit. -/
lemma stores_fullPage : Stores noFloats 3857 (onePage fullPage)
    ∧ handledItems (onePage fullPage) kMaxPages 1 = fullPage := by
  have hfull : ¬ fullPage.length < kPageLimit := length_fullPage.not_lt
  have hfirst : (onePage fullPage).page 1 = .items fullPage := page_onePage fullPage 1
  have hsecond : (onePage fullPage).page 2 = .stop := page_onePage fullPage 2
  have hpages : kMaxPages = 998 + 1 + 1 := rfl
  obtain ⟨row, hrow⟩ := rowsFrom_plainItem 999
  constructor
  · refine ⟨by decide, rfl, rfl, rfl, [row], ?_, by simp, rfl, fun _ _ => rfl, rfl, rfl⟩
    rw [hpages, fetchedRows, hfirst, fullPage]
    dsimp only
    rw [hrow]
    dsimp only
    rw [← fullPage, if_neg hfull, fetchedRows, hsecond]
    rfl
  · rw [hpages, handledItems, hfirst]
    dsimp only
    rw [if_neg hfull, handledItems, hsecond]
    exact List.append_nil _

/-- **When true means complete**: every page with items is answered and there are not too
many, or the load stores nothing anyway. -/
theorem loadInternationalAirspace_complete_iff (h : Lists items src) :
    TrueMeansComplete ops g_srid items src s ↔ Answered items src ∨ ¬ Stores ops g_srid src := by
  rw [TrueMeansComplete, ← returned_true_iff (s := s), ← handledItems_eq_iff_answered h]
  constructor
  · intro hcomplete
    by_cases htrue : (loadInternationalAirspace ops g_srid src s).1 = .returned true
    · exact Or.inl (hcomplete htrue).1
    · exact Or.inr htrue
  · rintro (hitems | hfalse) htrue
    · exact ⟨hitems, hitems ▸ rows_of_returned htrue⟩
    · exact absurd htrue hfalse

/-- A source that answers two pages, the first of them full. -/
def twoPages : OpenAipSource where
  api_key := ascii "key"
  attempts page _ := page ≤ 2
  doc page := some (.object [(ascii "items", .array (if page = 1 then fullPage else [plainItem]))])
  ddl := false
  truncate := false
  copy := .none
  query_functions := false

/-- Both pages are stored, the load returns true, and it is complete. -/
theorem complete_two_pages :
    (loadInternationalAirspace noFloats 3857 twoPages 0).1 = .returned true
      ∧ TrueMeansComplete noFloats 3857 (fullPage ++ [plainItem]) twoPages 0 := by
  have hpage : ∀ page, twoPages.page page
      = if page ≤ 2 then .items (if page = 1 then fullPage else [plainItem]) else .stop := by
    intro page
    rw [OpenAipSource.page]
    by_cases hle : page ≤ 2
    · have hfetched : downloadRetry (twoPages.attempts page) = true := by
        simp [twoPages, downloadRetry, kAttempts, List.range_succ, hle]
      rw [if_pos hle, hfetched]
      rfl
    · rw [if_neg hle]
      simp [twoPages, downloadRetry, hle]
  have hfirst : pageOf (fullPage ++ [plainItem]) 1 = fullPage := by
    rw [pageOf_succ, Nat.zero_mul, List.drop_zero, ← length_fullPage, List.take_left]
  have hsecond : pageOf (fullPage ++ [plainItem]) 2 = [plainItem] := by
    rw [pageOf_succ, Nat.one_mul, ← length_fullPage, List.drop_left]
    exact List.take_of_length_le (by rw [length_fullPage]; decide)
  have hlater : ∀ page, 2 < page → pageOf (fullPage ++ [plainItem]) page = [] := by
    refine fun page hlt => pageOf_eq_nil ?_ hlt
    rw [List.length_append, length_fullPage]
    decide
  have hlists : Lists (fullPage ++ [plainItem]) twoPages := by
    intro page l hone hl
    rw [hpage] at hl
    split at hl
    · obtain rfl := Page.items.inj hl
      obtain rfl | rfl : page = 1 ∨ page = 2 := by omega
      · exact hfirst.symm
      · exact hsecond.symm
    · exact nomatch hl
  refine ⟨returned_true_iff.mpr ?_, (loadInternationalAirspace_complete_iff hlists).mpr
    (Or.inl fun page hone hne => ?_)⟩
  · have hfull : ¬ fullPage.length < kPageLimit := length_fullPage.not_lt
    have hpages : kMaxPages = 998 + 1 + 1 := rfl
    obtain ⟨row, hrow⟩ := rowsFrom_plainItem 999
    obtain ⟨row', hrow'⟩ := rowsFrom_plainItem 0
    refine ⟨by decide, rfl, rfl, rfl, [row, row'], ?_, by simp, rfl, fun _ _ => rfl, rfl, rfl⟩
    rw [hpages, fetchedRows, hpage, if_pos (by norm_num), if_pos rfl, fullPage]
    dsimp only
    rw [hrow]
    dsimp only
    rw [← fullPage, if_neg hfull, fetchedRows, hpage, if_pos (by norm_num), if_neg (by norm_num)]
    dsimp only
    rw [show [plainItem] = plainItem :: List.replicate 0 bareItem from rfl, hrow']
    rfl
  · by_cases hle : page ≤ 2
    · obtain rfl | rfl : page = 1 ∨ page = 2 := by omega
      · exact ⟨by decide, (hpage 1).trans (congrArg Page.items hfirst.symm)⟩
      · exact ⟨by decide, (hpage 2).trans (congrArg Page.items hsecond.symm)⟩
    · exact absurd (hlater page (not_le.mp hle)) hne

/-- **A page that cannot be fetched** ends the load, which still returns true. -/
theorem unfetched_page_returns_true : Lists (fullPage ++ [plainItem]) (onePage fullPage)
    ∧ ¬ TrueMeansComplete noFloats 3857 (fullPage ++ [plainItem]) (onePage fullPage) 0 := by
  refine ⟨lists_onePage length_fullPage.le fun _ => length_fullPage, fun h => ?_⟩
  obtain ⟨hstores, hhandled⟩ := stores_fullPage
  obtain ⟨hall, -⟩ := h (returned_true_iff.mpr hstores)
  have hlength := congrArg List.length (hhandled.symm.trans hall)
  simp at hlength

end AirspaceLoader

/-! ### The refresh -/

namespace Replicator

open AirspaceLoader

def kAirspaceRefreshSeconds : ℤ := 30 * 24 * 3600

/-- The tables of the five loads. -/
structure AirspaceTables where
  class_airspace : AirspaceTable
  special_use_airspace : AirspaceTable
  international_airspace : AirspaceTable
  military_training_routes : AirspaceTable
  national_defense_tfrs : AirspaceTable

/-- The tables with the stamp of the last refresh. -/
structure AirspaceState where
  tables : AirspaceTables
  stamp : Option ℤ

/-- How a refresh goes: whether the stamp can be read, what the loads meet, and how the
transaction of the stamp goes. -/
structure AirspaceRefresh where
  readable : Bool
  class_airspace : GeoJsonSource
  special_use_airspace : GeoJsonSource
  international : OpenAipSource
  military_training_routes : GeoJsonSource
  national_defense_tfrs : GeoJsonSource
  store : WMMLoader.Fate

variable (ops : FloatOps) (g_srid : UInt32)

/-- The loads: that of the international airspaces is left out without a key. -/
def AirspaceRefresh.loads (r : AirspaceRefresh) : List (AirspaceTables → Exit × AirspaceTables) :=
  [fun t => (loadClassAirspace ops g_srid r.class_airspace t.class_airspace).map id
      fun rows => { t with class_airspace := rows },
    fun t => (loadSpecialUseAirspace ops g_srid r.special_use_airspace
      t.special_use_airspace).map id fun rows => { t with special_use_airspace := rows }]
  ++ (if r.international.api_key = [] then [] else
      [fun t => (loadInternationalAirspace ops g_srid r.international
        t.international_airspace).map id fun rows => { t with international_airspace := rows }])
  ++ [fun t => (loadMilitaryTrainingRoutes ops g_srid r.military_training_routes
      t.military_training_routes).map id fun rows => { t with military_training_routes := rows },
    fun t => (loadNationalDefenseTFRs ops g_srid r.national_defense_tfrs
      t.national_defense_tfrs).map id fun rows => { t with national_defense_tfrs := rows }]

/-- The loads in turn: one that returns false does not keep the next from running, one that
throws does. -/
def runLoads : List (AirspaceTables → Exit × AirspaceTables) → Bool → AirspaceTables →
    Exit × AirspaceTables
  | [], ok, t => (.returned ok, t)
  | load :: loads, ok, t =>
      match load t with
      | (.threw, t) => (.threw, t)
      | (.returned returned, t) => runLoads loads (returned && ok) t

/-- `checkAirspaceRefresh`. -/
def checkAirspaceRefresh (now : ℤ) (r : AirspaceRefresh) (s : AirspaceState) :
    AirspaceState × Report :=
  let last := getExternalDataTimestamp r.readable s.stamp
  if 0 ≤ last && now - last < kAirspaceRefreshSeconds then (s, .notDue)
  else
    match runLoads (r.loads ops g_srid) true s.tables with
    | (.returned true, tables) =>
        let stored := setExternalDataTimestamp r.store now s.stamp
        (⟨tables, stored.1⟩, if stored.2 then .complete else .failed)
    | (_, tables) => (⟨tables, s.stamp⟩, .failed)

variable {ops g_srid}

/-- A load that has returned false is not made up for. -/
lemma ok_of_runLoads {loads : List (AirspaceTables → Exit × AirspaceTables)} {ok : Bool}
    {t t' : AirspaceTables} (h : runLoads loads ok t = (.returned true, t')) : ok = true := by
  induction loads generalizing ok t with
  | nil => exact Exit.returned.inj (Prod.mk.inj h).1
  | cons load loads ih =>
      rw [runLoads] at h
      split at h
      · exact nomatch (Prod.mk.inj h).1
      · exact (Bool.and_eq_true_iff.mp (ih h)).2

lemma of_runLoads {load : AirspaceTables → Exit × AirspaceTables}
    {loads : List (AirspaceTables → Exit × AirspaceTables)} {ok : Bool} {t t' : AirspaceTables}
    (h : runLoads (load :: loads) ok t = (.returned true, t')) :
    (load t).1 = .returned true ∧ runLoads loads true (load t).2 = (.returned true, t') := by
  rw [runLoads] at h
  split at h
  · exact nomatch (Prod.mk.inj h).1
  · rename_i returned u hload
    have hboth := ok_of_runLoads h
    obtain ⟨rfl, rfl⟩ := Bool.and_eq_true_iff.mp hboth
    rw [hload]
    exact ⟨rfl, h⟩

/-- **A refresh that is complete** has the whole listing of the international airspaces, if
every page was answered. -/
theorem refresh_complete {now : ℤ} {r : AirspaceRefresh} {s : AirspaceState} {items : List Json}
    (hkey : r.international.api_key ≠ []) (h : Lists items r.international)
    (hanswered : Answered items r.international)
    (hreport : (checkAirspaceRefresh ops g_srid now r s).2 = .complete) :
    ∃ rows, rowsFrom (internationalRow ops g_srid) items = some rows
      ∧ (checkAirspaceRefresh ops g_srid now r s).1.tables.international_airspace = ↑rows := by
  rw [checkAirspaceRefresh] at hreport ⊢
  dsimp only at hreport ⊢
  split at hreport
  · exact nomatch hreport
  · rename_i hdue
    rw [if_neg hdue]
    split at hreport
    · rename_i tables hloads
      rw [AirspaceRefresh.loads, if_neg hkey] at hloads
      obtain ⟨-, hloads⟩ := of_runLoads hloads
      obtain ⟨-, hloads⟩ := of_runLoads hloads
      obtain ⟨htrue, hloads⟩ := of_runLoads hloads
      obtain ⟨-, hloads⟩ := of_runLoads hloads
      obtain ⟨-, hloads⟩ := of_runLoads hloads
      obtain rfl := (Prod.mk.inj hloads).2
      obtain ⟨rows, hrows, htable⟩ := rows_of_returned htrue
      rw [(handledItems_eq_iff_answered h).mpr hanswered] at hrows
      exact ⟨rows, hrows, htable⟩
    · exact nomatch hreport

end Replicator

end Gpsxdb
