import Mathlib.Data.List.TakeWhile
import Mathlib.Tactic
import Gpsxdb.Reload.AirportsLoader
import Gpsxdb.Reload.AirspaceAtomicity
import Gpsxdb.Reload.FAAObstacleLoader

/-!
When a reload leaves the new data set or what was there before.

* `FAAObstacleLoader.load_atomic_iff`: the obstacles, with a table like those of the
  airspaces;
* `storeStream_eq_some`, `loadedFrom`, `AirportsLoader.load_atomic_iff`: the airports,
  whose eight streams are committed one by one;
* `reload_atomic_iff`: **for all seven loaders**; `error_body_empties_table`.
-/

namespace Gpsxdb

/-! ### Obstacles -/

namespace FAAObstacleLoader

variable {ops : FloatOps} {g_srid : UInt32} {src : ObstacleSource} {s : Multiset Record}

/-- The new contents: the rows of the lines of the file. -/
def ObstacleSource.rows (ops : FloatOps) (g_srid : UInt32) (src : ObstacleSource) :
    Option (List Record) := do rowsFrom (obstacleRow ops g_srid) (getlines (← src.csv)).tail

/-- The table holds the new contents. -/
def ObstacleSource.Dataset (ops : FloatOps) (g_srid : UInt32) (src : ObstacleSource)
    (s : Multiset Record) : Prop := ∃ rows, src.rows ops g_srid = some rows ∧ s = ↑rows

/-- When the load of the obstacles is atomic. -/
def ObstacleSource.Safe (ops : FloatOps) (g_srid : UInt32) (src : ObstacleSource)
    (s : Multiset Record) : Prop :=
  src.download = false ∨ src.unzip = false ∨ src.csv.isNone ∨ src.ddl = true ∨ src.truncate = true
    ∨ (∃ rows, src.rows ops g_srid = some rows ∧ src.copy.Accepts rows.length) ∨ s = 0

/-- **The load of the obstacles** is atomic if it fails before the table is cleared, or
not at all, or if the table was empty. -/
theorem load_atomic_iff :
    Atomic (src.Dataset ops g_srid) s (load ops g_srid src s) ↔ src.Safe ops g_srid s := by
  rw [load, ObstacleSource.Safe]
  by_cases hdownload : src.download = true
  · by_cases hunzip : src.unzip = true
    · rw [hdownload, hunzip]
      rcases hcsv : src.csv with _ | csv
      · exact iff_of_true (atomic_of_unchanged _) (by simp)
      · have hrows : src.rows ops g_srid
            = rowsFrom (obstacleRow ops g_srid) (getlines csv).tail := by
          simp [ObstacleSource.rows, hcsv]
        simp only [Bool.not_true, Bool.false_eq_true, if_false, Option.isNone_some, false_or,
          Bool.true_eq_false]
        refine (atomic_load_iff (fills_ofOption _) []).trans
          (or_congr_right (or_congr_right ?_))
        have hstored := fun rows => @copyRows_eq_some _ src.copy (obstacleRow ops g_srid)
          (getlines csv).tail rows
        rw [← hrows] at hstored
        rcases hcopied : copyRows src.copy (obstacleRow ops g_srid) (getlines csv).tail
          with _ | rows
        · have hnone : ¬ ∃ rows, src.rows ops g_srid = some rows
              ∧ src.copy.Accepts rows.length := by
            rintro ⟨rows, h⟩
            exact nomatch hcopied.symm.trans ((hstored rows).mpr h)
          simp [hnone]
        · have hsome := (hstored rows).mp hcopied
          exact iff_of_true (Or.inl ⟨rows, rfl, List.forall_mem_nil _, rfl, rows, hsome.1, rfl⟩)
            (Or.inl ⟨rows, hsome⟩)
    · rw [hdownload, Bool.eq_false_iff.mpr hunzip]
      exact iff_of_true (atomic_of_unchanged _) (Or.inr (Or.inl rfl))
  · rw [Bool.eq_false_iff.mpr hdownload]
    exact iff_of_true (atomic_of_unchanged _) (Or.inl rfl)

end FAAObstacleLoader

/-! ### Airports -/

namespace AirportsLoader

variable {ops : FloatOps} {src : AirportSource} {s : AirportTables} {st : AirportStream}

lemma rowsFrom_all (rows : List Record) :
    rowsFrom (fun r => some (some r)) rows = some rows := by
  induction rows with
  | nil => rfl
  | cons r rows ih => simp [rowsFrom, ih]

lemma copyAll_eq_some {fs : CopyFaults} {l rows : List Record} :
    copyAll fs l = some rows ↔ l = rows ∧ fs.Accepts rows.length := by
  rw [copyAll, copyRows_eq_some, rowsFrom_all, Option.some.injEq]

/-- **When a stream stores its rows.** -/
lemma storeStream_eq_some {rows : List Record} : storeStream ops src st = some rows
    ↔ streamRows ops src st = some rows ∧ (src.copy st).Accepts rows.length := by
  have hparsed : ((streamRows ops src st).bind (copyAll (src.copy st)) = some rows)
      ↔ streamRows ops src st = some rows ∧ (src.copy st).Accepts rows.length := by
    rw [Option.bind_eq_some_iff]
    constructor
    · rintro ⟨l, hl, hcopied⟩
      obtain ⟨rfl, haccepts⟩ := copyAll_eq_some.mp hcopied
      exact ⟨hl, haccepts⟩
    · rintro ⟨hl, haccepts⟩
      exact ⟨rows, hl, copyAll_eq_some.mpr ⟨rfl, haccepts⟩⟩
  cases st with
  | countries => exact copyRows_eq_some
  | regions => exact copyRows_eq_some
  | frequencies => exact copyRows_eq_some
  | runways => exact copyRows_eq_some
  | airports => exact hparsed
  | airportTags => exact hparsed
  | navaids => exact hparsed
  | navaidTags => exact hparsed

/-- The stream is stored: none of its lines throws, and the server takes its rows. -/
def AirportSource.Stored (ops : FloatOps) (src : AirportSource) (st : AirportStream) : Prop :=
  ∃ rows, streamRows ops src st = some rows ∧ (src.copy st).Accepts rows.length

/-- The tables filled from some streams. -/
def loadedFrom (ops : FloatOps) (src : AirportSource) (sts : List AirportStream) : AirportTables :=
  fun t => ((sts.filter fun st => st.table = t).flatMap fun st => (streamRows ops src st).getD [] :
    List Record)

/-- The tables hold the new contents of all files. -/
def AirportSource.Dataset (ops : FloatOps) (src : AirportSource) (s : AirportTables) : Prop :=
  (∀ st ∈ streams, (streamRows ops src st).isSome) ∧ s = loadedFrom ops src streams

/-- When the load of the airports is atomic. -/
def AirportSource.Safe (ops : FloatOps) (src : AirportSource) (s : AirportTables) : Prop :=
  (∃ file ∈ files, downloadRetry (src.attempts file) = false) ∨ src.set = true
    ∨ src.truncate = true ∨ (∀ st ∈ streams, src.Stored ops st)
    ∨ ∃ before st after, streams = before ++ st :: after ∧ (∀ u ∈ before, src.Stored ops u)
      ∧ ¬ src.Stored ops st ∧ s = loadedFrom ops src before

/-- What a stream does to the tables. -/
def effectOf (ops : FloatOps) (src : AirportSource) (st : AirportStream) :
    Option (AirportTables → AirportTables) := (storeStream ops src st).map (addRows st.table)

lemma effectOf_isSome : (effectOf ops src st).isSome = true ↔ src.Stored ops st := by
  rw [effectOf, Option.isSome_map, Option.isSome_iff_exists]
  exact exists_congr fun rows => storeStream_eq_some

/-- Streams that are stored fill the tables from their rows. -/
lemma applyAll_streams {sts : List AirportStream} (h : ∀ st ∈ sts, src.Stored ops st)
    (s : AirportTables) :
    applyAll (sts.filterMap (effectOf ops src)) s = fun t => s t + loadedFrom ops src sts t := by
  induction sts generalizing s with
  | nil => simp [loadedFrom]
  | cons st sts ih =>
      obtain ⟨⟨rows, hrows⟩, hrest⟩ := List.forall_mem_cons.mp h
      have heffect : effectOf ops src st = some (addRows st.table rows) := by
        rw [effectOf, storeStream_eq_some.mpr hrows, Option.map_some]
      rw [List.filterMap_cons_some heffect, applyAll_cons, ih hrest]
      funext t
      by_cases ht : st.table = t
      · subst ht
        simp [addRows, addTo, loadedFrom, hrows.1, add_assoc]
      · have hne : t ≠ st.table := fun h => ht h.symm
        simp [addRows, loadedFrom, ht, hne]

/-- The streams before the first that fails. -/
lemma takeWhile_stored {before after : List AirportStream}
    (hbefore : ∀ u ∈ before, src.Stored ops u) (hst : ¬ src.Stored ops st) :
    ((before ++ st :: after).takeWhile fun u => (effectOf ops src u).isSome) = before := by
  rw [List.takeWhile_append_of_pos fun u hu => effectOf_isSome.mpr (hbefore u hu),
    List.takeWhile_cons, if_neg fun h => hst (effectOf_isSome.mp h), List.append_nil]

/-- **The load of the airports** is atomic if it fails before the tables are cleared,
or not at all, or if the tables held what the streams before the first failure store. -/
theorem load_atomic_iff : Atomic (src.Dataset ops) s (load ops src s) ↔ src.Safe ops s := by
  rw [load, AirportSource.Safe]
  by_cases hdownload : (files.all fun file => downloadRetry (src.attempts file)) = true
  · have hfiles : ¬ ∃ file ∈ files, downloadRetry (src.attempts file) = false := by
      rintro ⟨file, hmem, hfile⟩
      exact absurd ((List.all_eq_true.mp hdownload file hmem).symm.trans hfile) (by decide)
    have hfail : ∀ e, .fail e ∈ streams.map (fun st => Txn.ofOption (effectOf ops src st)) →
        e ≠ .returned true := by
      intro e he
      obtain ⟨st, -, hst⟩ := List.mem_map.mp he
      cases heffect : effectOf ops src st with
      | none =>
          rw [heffect, Txn.ofOption] at hst
          rw [← Txn.fail.inj hst]
          intro hexit
          cases hexit
      | some f =>
          rw [heffect, Txn.ofOption] at hst
          cases hst
    have hset : ∀ f : AirportTables → AirportTables,
        (if src.set then Txn.fail .threw else .commit id) = .commit f → f = id :=
      fun f hf => effect_of_fault hf
    have htruncate : ∀ f : AirportTables → AirportTables,
        (if src.truncate then Txn.fail .threw else .commit fun _ _ => 0) = .commit f
          → ∀ s, f s = fun _ => 0 :=
      fun f hf s => congrFun (effect_of_fault hf) s
    have hiff := atomic_replace_iff (src.Dataset ops) s (.returned true) hset htruncate hfail
    rw [hdownload]
    simp only [Bool.not_true, Bool.false_eq_true, if_false, hfiles, false_or]
    rw [clean_of_fault, clean_of_fault, Bool.not_eq_false, Bool.not_eq_false, committed_map] at hiff
    refine hiff.trans (or_congr_right (or_congr_right ?_))
    have hclean : (∀ t ∈ streams.map (fun st => Txn.ofOption (effectOf ops src st)), t.Clean)
        ↔ ∀ st ∈ streams, src.Stored ops st := by
      simp only [List.forall_mem_map, Txn.clean_ofOption, effectOf_isSome]
    by_cases hall : ∀ st ∈ streams, src.Stored ops st
    · have hwhile : (streams.takeWhile fun st => (effectOf ops src st).isSome) = streams :=
        List.takeWhile_eq_self_iff.mpr fun st hst => effectOf_isSome.mpr (hall st hst)
      refine iff_of_true (Or.inl ⟨hclean.mpr hall, rfl, fun st hst => ?_, ?_⟩) (Or.inl hall)
      · obtain ⟨rows, hrows, -⟩ := hall st hst
        rw [hrows]
        rfl
      · rw [hwhile, applyAll_streams hall]
        funext t
        exact zero_add _
    · simp only [hclean, hall, false_and, false_or]
      constructor
      · intro hleft
        -- the streams up to the first failure, and that one
        have hsplit := List.takeWhile_append_dropWhile (p := fun st => (effectOf ops src st).isSome)
          (l := streams)
        rcases hdrop : streams.dropWhile (fun st => (effectOf ops src st).isSome)
          with _ | ⟨st, after⟩
        · exact absurd (fun st hst => effectOf_isSome.mp
            (List.dropWhile_eq_nil_iff.mp hdrop st hst)) hall
        · have hbefore : ∀ u ∈ streams.takeWhile (fun st => (effectOf ops src st).isSome),
              src.Stored ops u := fun u hu => effectOf_isSome.mp
            (List.mem_takeWhile_imp (p := fun st => (effectOf ops src st).isSome) hu)
          have hst : ¬ src.Stored ops st := by
            have hhead := List.head?_dropWhile_not (fun st => (effectOf ops src st).isSome) streams
            rw [hdrop] at hhead
            simpa [← effectOf_isSome] using hhead
          refine ⟨_, st, after, (hdrop ▸ hsplit).symm, hbefore, hst, ?_⟩
          rw [← hleft, applyAll_streams hbefore]
          funext t
          exact (zero_add _).symm
      · rintro ⟨before, st, after, hsplit, hbefore, hst, rfl⟩
        rw [hsplit, takeWhile_stored hbefore hst, applyAll_streams hbefore]
        funext t
        exact zero_add _
  · rw [Bool.eq_false_iff.mpr hdownload]
    have hfile : ∃ file ∈ files, downloadRetry (src.attempts file) = false := by
      simpa using hdownload
    exact iff_of_true (atomic_of_unchanged _) (Or.inl hfile)

end AirportsLoader

/-! ### All loaders -/

open AirspaceLoader

/-- **When a reload is atomic**, for each of the seven loaders, whatever was in the
tables and whatever fails. -/
theorem reload_atomic_iff (ops : FloatOps) (g_srid : UInt32) :
    (∀ src s, Atomic (AirportsLoader.AirportSource.Dataset ops src) s
        (AirportsLoader.load ops src s) ↔ src.Safe ops s)
    ∧ (∀ src s, Atomic (FAAObstacleLoader.ObstacleSource.Dataset ops g_srid src) s
        (FAAObstacleLoader.load ops g_srid src s) ↔ src.Safe ops g_srid s)
    ∧ (∀ src s, Atomic (src.Dataset (classAirspaceRow ops g_srid)) s
        (loadClassAirspace ops g_srid src s) ↔ src.Safe (classAirspaceRow ops g_srid) s)
    ∧ (∀ src s, Atomic (src.Dataset (specialUseAirspaceRow ops g_srid)) s
        (loadSpecialUseAirspace ops g_srid src s) ↔ src.Safe (specialUseAirspaceRow ops g_srid) s)
    ∧ (∀ src s, Atomic (OpenAipSource.Dataset ops g_srid src) s
        (loadInternationalAirspace ops g_srid src s) ↔ src.Safe ops g_srid s)
    ∧ (∀ src s, Atomic (src.Dataset (militaryTrainingRouteRow ops g_srid)) s
        (loadMilitaryTrainingRoutes ops g_srid src s)
        ↔ src.Safe (militaryTrainingRouteRow ops g_srid) s)
    ∧ ∀ src s, Atomic (src.Dataset (nationalDefenseTFRRow ops g_srid)) s
        (loadNationalDefenseTFRs ops g_srid src s)
        ↔ src.Safe (nationalDefenseTFRRow ops g_srid) s :=
  ⟨fun _ _ => AirportsLoader.load_atomic_iff, fun _ _ => FAAObstacleLoader.load_atomic_iff,
    fun _ _ => loadGeoJson_atomic_iff, fun _ _ => loadGeoJson_atomic_iff,
    fun _ _ => loadInternationalAirspace_atomic_iff, fun _ _ => loadGeoJson_atomic_iff,
    fun _ _ => loadGeoJson_atomic_iff⟩

/-! ### An error for a document -/

/-- A download that is a message in JSON, and no error of the server. -/
def errorBody : GeoJsonSource where
  attempts _ := true
  doc := some (.object [(ascii "message", .string (ascii "Downloads are not supported"))])
  ddl := false
  truncate := false
  copy := .none
  query_functions := false

/-- The load of a message returns false and leaves an empty table. -/
theorem error_body_empties_table :
    loadClassAirspace noFloats 3857 errorBody {[.text (ascii "SFO")]} = (.returned false, 0)
    ∧ ¬ Atomic (errorBody.Dataset (classAirspaceRow noFloats 3857)) {[.text (ascii "SFO")]}
      (loadClassAirspace noFloats 3857 errorBody {[.text (ascii "SFO")]}) := by
  have hload : loadClassAirspace noFloats 3857 errorBody {[.text (ascii "SFO")]}
      = (.returned false, 0) := rfl
  refine ⟨hload, ?_⟩
  rw [hload]
  rintro (⟨hret, -⟩ | hprior)
  · exact absurd hret (by decide)
  · exact absurd hprior.symm (Multiset.singleton_ne_zero _)

end Gpsxdb
