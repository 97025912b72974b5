import Mathlib.Tactic
import Gpsxdb.Reload.AirspaceLoader

/-!
When the load of an airspace table leaves the new contents or what was there before.

* `Fills`, `atomic_load_iff`: a table that is prepared, cleared and filled, each in a
  transaction of its own, with transactions behind that touch no table;
* `loadGeoJson_atomic_iff`: the loads from a file;
* `Listing`, `fetchedRows`, `Listing.first_rows`: the whole listing of OpenAIP, and what of
  it the loop gets to see; `pageLoop_eq_some`, `copyPages_eq_some`;
* `loadInternationalAirspace_atomic_iff`.

The `TRUNCATE` is committed before the transaction of the rows is opened, so every
failure after that leaves an empty table; a page that cannot be fetched ends the loop
but not the load; and an error behind the commit of the rows leaves them, but no true.
-/

namespace Gpsxdb

/-! ### One table -/

/-- A step that may fail has no other effect than it says. -/
lemma effect_of_fault {S : Type} {fault : Bool} {f g : S → S}
    (h : (if fault then Txn.fail .threw else .commit f) = .commit g) : g = f := by
  cases fault with
  | true => exact nomatch h
  | false => exact (Txn.commit.inj h).symm

lemma clean_of_fault {S : Type} {fault : Bool} {f : S → S} :
    (if fault then Txn.fail .threw else .commit f).Clean ↔ fault = false := by
  cases fault <;> simp

/-- The transaction of some rows, or a failure where there are none. -/
def Fills (t : Txn (Multiset Record)) : Option (List Record) → Prop
  | none => ∃ e, e ≠ .returned true ∧ t = .fail e
  | some rows => t = .commit (addTo rows)

lemma fills_ofOption (rows : Option (List Record)) : Fills (.ofOption (rows.map addTo)) rows := by
  cases rows with
  | none => exact ⟨.threw, nofun, rfl⟩
  | some l => rfl

/-- Transactions that touch no table, each with its error. -/
def touchNothing (faults : List Bool) : List (Txn (Multiset Record)) :=
  faults.map fun fault => if fault then .fail .threw else .commit id

lemma applyAll_touchNothing (faults : List Bool) (s : Multiset Record) :
    applyAll (committed (touchNothing faults)) s = s := by
  induction faults with
  | nil => rfl
  | cons fault faults ih =>
      cases fault with
      | true => rfl
      | false => exact ih

lemma fail_of_touchNothing {faults : List Bool} {e : Exit} (h : .fail e ∈ touchNothing faults) :
    e = .threw := by
  obtain ⟨fault, -, h⟩ := List.mem_map.mp h
  cases fault with
  | true => exact (Txn.fail.inj h).symm
  | false => exact nomatch h

lemma clean_touchNothing {faults : List Bool} :
    (∀ t ∈ touchNothing faults, t.Clean) ↔ ∀ fault ∈ faults, fault = false :=
  List.forall_mem_map.trans (forall₂_congr fun _ _ => clean_of_fault)

/-- **The load of one table**, prepared, cleared and filled: it is atomic exactly if
one of the first two fails, or the rows are stored, are the new contents and nothing fails
behind them, or what is left is what was there. -/
lemma atomic_load_iff {dataset : Multiset Record → Prop} {s : Multiset Record}
    {ddl truncate : Bool} {last : Exit} {t : Txn (Multiset Record)} {rows : Option (List Record)}
    (hfills : Fills t rows) (faults : List Bool) :
    Atomic dataset s (runTxns last
        ((if ddl then .fail .threw else .commit id)
          :: (if truncate then .fail .threw else .commit fun _ => 0) :: t :: touchNothing faults) s)
      ↔ ddl = true ∨ truncate = true
        ∨ (∃ l, rows = some l ∧ (∀ fault ∈ faults, fault = false) ∧ last = .returned true
          ∧ dataset l) ∨ s = ↑(rows.getD []) := by
  have hfail : ∀ e, .fail e ∈ t :: touchNothing faults → e ≠ .returned true := by
    intro e he
    rcases List.mem_cons.mp he with rfl | he
    · cases rows with
      | none =>
          obtain ⟨e', hne, heq⟩ := hfills
          rwa [Txn.fail.inj heq]
      | some l => exact nomatch hfills
    · rw [fail_of_touchNothing he]
      exact nofun
  rw [atomic_replace_iff _ _ _ (fun f => effect_of_fault)
    (fun f hf s => congrFun (effect_of_fault hf) s) hfail, clean_of_fault, clean_of_fault,
    Bool.not_eq_false, Bool.not_eq_false, List.forall_mem_cons, clean_touchNothing]
  cases rows with
  | none =>
      obtain ⟨e, -, rfl⟩ := hfills
      simp [committed, eq_comm]
  | some l =>
      obtain rfl := hfills
      simp [committed, addTo, applyAll_touchNothing, eq_comm]

/-- What the last transactions leave, told by the rows the source gives and whether the
server accepts them. -/
lemma complete_or_left_iff {s : Multiset Record} {copied given : Option (List Record)}
    {accepts : List Record → Prop}
    (hcopied : ∀ rows, copied = some rows ↔ given = some rows ∧ accepts rows)
    (complete : List Record → Prop) :
    (∃ rows, copied = some rows ∧ complete rows) ∨ s = ↑(copied.getD [])
      ↔ (∃ rows, given = some rows ∧ accepts rows ∧ (complete rows ∨ s = ↑rows))
        ∨ (∀ rows, given = some rows → ¬ accepts rows) ∧ s = 0 := by
  rcases copied with _ | copied
  · -- the transaction of the rows fails
    have hnone : ∀ rows, given = some rows → ¬ accepts rows := fun rows hgiven haccepts =>
      absurd ((hcopied rows).mpr ⟨hgiven, haccepts⟩) (by simp)
    constructor
    · rintro (⟨rows, hrows, -⟩ | hs)
      · simp at hrows
      · exact Or.inr ⟨hnone, hs⟩
    · rintro (⟨rows, hgiven, haccepts, -⟩ | ⟨-, hs⟩)
      · exact absurd haccepts (hnone rows hgiven)
      · exact Or.inr hs
  · obtain ⟨hgiven, haccepts⟩ := (hcopied copied).mp rfl
    constructor
    · rintro (⟨rows, hrows, hcomplete⟩ | hs)
      · obtain rfl := Option.some.inj hrows
        exact Or.inl ⟨copied, hgiven, haccepts, Or.inl hcomplete⟩
      · exact Or.inl ⟨copied, hgiven, haccepts, Or.inr hs⟩
    · rintro (⟨rows, hrows, -, hleft⟩ | ⟨hnone, -⟩)
      · obtain rfl := Option.some.inj (hgiven.symm.trans hrows)
        exact hleft.imp (fun hcomplete => ⟨copied, rfl, hcomplete⟩) id
      · exact absurd haccepts (hnone copied hgiven)

/-! ### GeoJSON files -/

namespace AirspaceLoader

open Json

variable {rowOf : Json → Option (Option Record)} {src : GeoJsonSource} {s : AirspaceTable}

/-- The new contents: the rows of the features of the document. -/
def GeoJsonSource.rows (src : GeoJsonSource) (rowOf : Json → Option (Option Record)) :
    Option (List Record) := do rowsFrom rowOf (← featuresOf (← src.doc))

/-- The table holds the new contents. -/
def GeoJsonSource.Dataset (src : GeoJsonSource) (rowOf : Json → Option (Option Record))
    (s : AirspaceTable) : Prop := ∃ rows, src.rows rowOf = some rows ∧ s = ↑rows

lemma fills_copyFeatures (rowOf : Json → Option (Option Record)) (fs : CopyFaults) (doc : Json) :
    Fills (copyFeatures rowOf fs doc) ((featuresOf doc).bind (copyRows fs rowOf)) := by
  rw [copyFeatures]
  by_cases hopened : fs.opened = true
  · rw [if_pos hopened]
    rcases featuresOf doc with _ | feats
    · exact ⟨.threw, nofun, rfl⟩
    · rw [Option.bind_some, copyRows, if_pos hopened]
      exact ⟨.threw, nofun, rfl⟩
  · rw [if_neg hopened]
    rcases featuresOf doc with _ | feats
    · exact ⟨.returned false, by decide, rfl⟩
    · exact fills_ofOption _

/-- When the load of a file is atomic. -/
def GeoJsonSource.Safe (src : GeoJsonSource) (rowOf : Json → Option (Option Record))
    (s : AirspaceTable) : Prop :=
  downloadRetry src.attempts = false ∨ src.doc.isNone ∨ src.ddl = true ∨ src.truncate = true
    ∨ (∃ rows, src.rows rowOf = some rows ∧ src.copy.Accepts rows.length
      ∧ (src.query_functions = false ∨ s = ↑rows))
    ∨ (∀ rows, src.rows rowOf = some rows → ¬ src.copy.Accepts rows.length) ∧ s = 0

/-- **The load of a file** is atomic if it fails before the table is cleared, or not at
all, or if the table held what is left. -/
theorem loadGeoJson_atomic_iff :
    Atomic (src.Dataset rowOf) s (loadGeoJson rowOf src s) ↔ src.Safe rowOf s := by
  rw [loadGeoJson, GeoJsonSource.Safe]
  by_cases hdownload : downloadRetry src.attempts = true
  · rw [hdownload]
    rcases hdoc : src.doc with _ | doc
    · exact iff_of_true (atomic_of_unchanged _) (by simp)
    · have hrows : src.rows rowOf = (featuresOf doc).bind (rowsFrom rowOf) := by
        simp [GeoJsonSource.rows, hdoc]
      have hstored : ∀ rows, (featuresOf doc).bind (copyRows src.copy rowOf) = some rows
          ↔ src.rows rowOf = some rows ∧ src.copy.Accepts rows.length := by
        intro rows
        rw [hrows]
        rcases featuresOf doc with _ | feats
        · simp
        · exact copyRows_eq_some
      simp only [Bool.not_true, Bool.false_eq_true, if_false, Option.isNone_some, false_or,
        Bool.true_eq_false]
      rw [prepare, truncate]
      refine (atomic_load_iff (fills_copyFeatures rowOf src.copy doc)
        [src.query_functions]).trans (or_congr_right (or_congr_right ?_))
      refine (complete_or_left_iff hstored _).trans (or_congr_left ?_)
      refine exists_congr fun rows => and_congr_right fun hgiven => and_congr_right fun _ =>
        or_congr_left ?_
      rw [List.forall_mem_singleton]
      exact and_iff_left ⟨rfl, rows, hgiven, rfl⟩
  · rw [Bool.eq_false_iff.mpr hdownload]
    exact iff_of_true (atomic_of_unchanged _) (Or.inl rfl)

/-! ### OpenAIP -/

section OpenAip

variable (ops : FloatOps) (g_srid : UInt32)

/-- The listing from a page on: every page but the last is full. -/
inductive Listing (src : OpenAipSource) : ℕ → List Record → Prop
  | last {page : ℕ} {items : List Json} {rows : List Record} :
      src.page page = .items items → items.length < kPageLimit →
      rowsFrom (internationalRow ops g_srid) items = some rows → Listing src page rows
  | more {page : ℕ} {items : List Json} {rows rest : List Record} :
      src.page page = .items items → kPageLimit ≤ items.length →
      rowsFrom (internationalRow ops g_srid) items = some rows →
      Listing src (page + 1) rest → Listing src page (rows ++ rest)

/-- The rows of the pages the loop gets to see, if none of them throws. -/
def fetchedRows (src : OpenAipSource) : ℕ → ℕ → Option (List Record)
  | 0, _ => some []
  | pages + 1, page =>
      match src.page page with
      | .stop => some []
      | .throws => none
      | .items [] => some []
      | .items items =>
          match rowsFrom (internationalRow ops g_srid) items with
          | none => none
          | some rows =>
              if items.length < kPageLimit then some rows
              else (fetchedRows src pages (page + 1)).map fun rest => rows ++ rest

variable {ops g_srid} {src : OpenAipSource} {s : AirspaceTable}

/-- The loop writes the rows of the pages, if the server takes each. -/
lemma pageLoop_eq_some {pages page n : ℕ} {rows : List Record} :
    pageLoop ops g_srid src pages page n = some rows
      ↔ fetchedRows ops g_srid src pages page = some rows
        ∧ ∀ i, n ≤ i → i < n + rows.length → src.copy.row i = false := by
  have hempty : ∀ (n : ℕ) (rows : List Record), (some [] : Option (List Record)) = some rows
      ↔ some [] = some rows ∧ ∀ i, n ≤ i → i < n + rows.length → src.copy.row i = false := by
    intro n rows
    refine ⟨fun h => ⟨h, fun i h1 h2 => ?_⟩, fun h => h.1⟩
    obtain rfl := Option.some.inj h
    rw [List.length_nil] at h2
    omega
  induction pages generalizing page n rows with
  | zero => exact hempty n rows
  | succ pages ih =>
      rw [pageLoop, fetchedRows]
      rcases src.page page with _ | _ | (_ | ⟨item, items⟩)
      · exact hempty n rows
      · exact iff_of_false nofun fun h => nomatch h.1
      · exact hempty n rows
      · dsimp only
        rcases hwritten : writeRows src.copy.row (internationalRow ops g_srid) n (item :: items)
          with _ | written
        · -- a row throws, or the server rejects one of this page
          refine iff_of_false nofun ?_
          rintro ⟨hrows, hfault⟩
          rcases hrecords : rowsFrom (internationalRow ops g_srid) (item :: items)
            with _ | page_rows
          · rw [hrecords] at hrows
            exact nomatch hrows
          · rw [hrecords] at hrows
            have hstart : page_rows.length ≤ rows.length := by
              dsimp only at hrows
              split at hrows
              · rw [Option.some.inj hrows]
              · obtain ⟨rest, -, rfl⟩ := Option.map_eq_some_iff.mp hrows
                rw [List.length_append]
                omega
            have hsome := writeRows_eq_some.mpr
              ⟨hrecords, fun i h1 h2 => hfault i h1 (by omega)⟩
            exact nomatch hwritten.symm.trans hsome
        · obtain ⟨hrecords, hfault⟩ := writeRows_eq_some.mp hwritten
          rw [hrecords]
          dsimp only
          split
          · constructor
            · intro h
              obtain rfl := Option.some.inj h
              exact ⟨rfl, hfault⟩
            · exact fun h => h.1
          · rw [Option.map_eq_some_iff, Option.map_eq_some_iff]
            constructor
            · rintro ⟨rest, hrest, rfl⟩
              obtain ⟨hfetched, hlater⟩ := ih.mp hrest
              refine ⟨⟨rest, hfetched, rfl⟩, fun i h1 h2 => ?_⟩
              rw [List.length_append] at h2
              rcases Nat.lt_or_ge i (n + written.length) with hlt | hge
              · exact hfault i h1 hlt
              · exact hlater i hge (by omega)
            · rintro ⟨⟨rest, hfetched, rfl⟩, hall⟩
              refine ⟨rest, ih.mpr ⟨hfetched, fun i h1 h2 => ?_⟩, rfl⟩
              exact hall i (by omega) (by rw [List.length_append]; omega)

/-- **When the pages are stored.** -/
lemma copyPages_eq_some {rows : List Record} : copyPages ops g_srid src = some rows
    ↔ fetchedRows ops g_srid src kMaxPages 1 = some rows ∧ src.copy.Accepts rows.length := by
  have hloop := @pageLoop_eq_some ops g_srid src kMaxPages 1 0
  rw [copyPages, CopyFaults.Accepts]
  generalize pageLoop ops g_srid src kMaxPages 1 0 = looped at hloop
  generalize fetchedRows ops g_srid src kMaxPages 1 = fetched at hloop
  by_cases hopened : src.copy.opened = true
  · simp [hopened]
  · rw [if_neg hopened]
    constructor
    · intro h
      split at h
      · cases h
      · rename_i written
        obtain ⟨hrecords, hfault⟩ := hloop.mp rfl
        split at h
        · cases h
        · split at h
          · cases h
          · obtain rfl := Option.some.inj h
            exact ⟨hrecords, by simpa using hopened,
              fun i hi => hfault i (Nat.zero_le i) (by omega),
              by simpa using ‹¬ src.copy.complete = true›,
              by simpa using ‹¬ src.copy.commit = true›⟩
    · rintro ⟨hrecords, -, hfault, hcomplete, hcommit⟩
      rw [hloop.mpr ⟨hrecords, fun i _ hi => hfault i (by omega)⟩]
      simp [hcomplete, hcommit]

/-- What the loop gets to see is the beginning of the listing. -/
lemma Listing.first_rows {page : ℕ} {all : List Record} (h : Listing ops g_srid src page all)
    {pages : ℕ} {rows : List Record}
    (hfetched : fetchedRows ops g_srid src pages page = some rows) : rows <+: all := by
  induction h generalizing pages rows with
  | @last page items all hpage hlen hrecords =>
      cases pages with
      | zero =>
          obtain rfl := Option.some.inj hfetched
          exact List.nil_prefix
      | succ pages =>
          rw [fetchedRows, hpage] at hfetched
          cases items with
          | nil =>
              obtain rfl := Option.some.inj hfetched
              exact List.nil_prefix
          | cons item items =>
              dsimp only at hfetched
              rw [hrecords] at hfetched
              dsimp only at hfetched
              rw [if_pos hlen] at hfetched
              rw [Option.some.inj hfetched]
  | @more page items page_rows rest hpage hlen hrecords _ ih =>
      cases pages with
      | zero =>
          obtain rfl := Option.some.inj hfetched
          exact List.nil_prefix
      | succ pages =>
          rw [fetchedRows, hpage] at hfetched
          cases items with
          | nil =>
              rw [List.length_nil, kPageLimit] at hlen
              omega
          | cons item items =>
              dsimp only at hfetched
              rw [hrecords] at hfetched
              dsimp only at hfetched
              rw [if_neg (by omega)] at hfetched
              obtain ⟨later, hlater, rfl⟩ := Option.map_eq_some_iff.mp hfetched
              exact (List.prefix_append_right_inj page_rows).mpr (ih hlater)

/-- The table holds the new contents: the rows of the whole listing. -/
def OpenAipSource.Dataset (ops : FloatOps) (g_srid : UInt32) (src : OpenAipSource)
    (s : AirspaceTable) : Prop := ∃ rows, Listing ops g_srid src 1 rows ∧ s = ↑rows

/-- When the load of the international airspaces is atomic. -/
def OpenAipSource.Safe (ops : FloatOps) (g_srid : UInt32) (src : OpenAipSource)
    (s : AirspaceTable) : Prop :=
  src.api_key = [] ∨ src.ddl = true ∨ src.truncate = true
    ∨ (∃ rows, fetchedRows ops g_srid src kMaxPages 1 = some rows ∧ src.copy.Accepts rows.length
      ∧ ((src.query_functions = false ∧ rows ≠ [] ∧ Listing ops g_srid src 1 rows) ∨ s = ↑rows))
    ∨ (∀ rows, fetchedRows ops g_srid src kMaxPages 1 = some rows →
        ¬ src.copy.Accepts rows.length) ∧ s = 0

/-- **The load of the international airspaces** is atomic if it fails before the table
is cleared, or stores the whole listing, that is not empty and nothing fails behind it, or if
the table held what it stores. -/
theorem loadInternationalAirspace_atomic_iff :
    Atomic (src.Dataset ops g_srid) s (loadInternationalAirspace ops g_srid src s)
      ↔ src.Safe ops g_srid s := by
  rw [loadInternationalAirspace, OpenAipSource.Safe]
  by_cases hkey : src.api_key = []
  · rw [if_pos hkey]
    exact iff_of_true (atomic_of_unchanged _) (Or.inl hkey)
  · rw [if_neg hkey]
    dsimp only
    rw [prepare, truncate]
    simp only [hkey, false_or]
    refine (atomic_load_iff (fills_ofOption (copyPages ops g_srid src))
      [src.query_functions]).trans (or_congr_right (or_congr_right ?_))
    refine (complete_or_left_iff (fun _ => copyPages_eq_some) _).trans (or_congr_left ?_)
    refine exists_congr fun rows => and_congr_right fun hfetched => and_congr_right
      fun haccepts => or_congr_left ?_
    rw [List.forall_mem_singleton, copyPages_eq_some.mpr ⟨hfetched, haccepts⟩, Option.getD_some]
    refine and_congr_right fun _ => ?_
    constructor
    · rintro ⟨hret, all, hall, heq⟩
      have hperm : rows.Perm all := Multiset.coe_eq_coe.mp heq
      obtain rfl := (hall.first_rows hfetched).eq_of_length hperm.length_eq
      refine ⟨?_, hall⟩
      rintro rfl
      simp at hret
    · rintro ⟨hne, hall⟩
      refine ⟨?_, rows, hall, rfl⟩
      simpa using List.length_pos_iff.mpr hne

end OpenAip

end AirspaceLoader

end Gpsxdb
