import Mathlib.Tactic
import Gpsxdb.Import.Members
import Gpsxdb.Import.Termination

/-!
Resuming a killed import (`-R ways`, `-R relations`).

* `Phase`, `fullImport`, `resumedImport`: an import from empty tables, and one on
  what `truncateForResume` leaves of the tables of a killed one;
* `WaysCommitted`: all that the ways give rise to is in the tables;
* `ResumeClean`: the tag tables the resumed phases write to, and
  `truncateForResume` leaves alone, hold no row of a relation;
* `resume_same_iff`: the resumed import ends with the tables of an uninterrupted
  one exactly when `ResumeClean` holds.  Rows left over do no harm, as the
  retries of `tryCopyBatch` take them out; the tag tables have no key.
-/

namespace Gpsxdb

/-- The phases an import is resumed in. -/
inductive Phase where
  | ways
  | relations
deriving DecidableEq

/-- The name `truncateForResume` is given. -/
def Phase.table : Phase → Table
  | .ways => .ways
  | .relations => .relations

/-- Equal as multisets of rows. -/
def SameTables (d e : Database) : Prop :=
  ∀ s, (d.rows s).Perm (e.rows s) ∧ (d.tags s).Perm (e.tags s)

/-- The tables hold all that the ways give rise to. -/
def WaysCommitted (f : OsmFile) (select : ℤ → Option Coord) (d : Database) : Prop :=
  ∀ s, keptItems (f.waysKept select) s ≤ d.items s

/-- No tag row of a relation stands where `truncateForResume` does not reach. -/
def ResumeClean (phase : Phase) (d : Database) : Prop :=
  match phase with
  | .ways => d.tags .relations = [] ∧ d.tags .roads = []
  | .relations => ∀ g ∈ d.tags .areas, 0 < g.id

/-! ### The tag rows of ways and of relations -/

lemma inr_mem_keptItems {ks : List Kept} {s : Table} {g : TagRecord} :
    Sum.inr g ∈ keptItems ks s ↔ ∃ k ∈ ks, k.table = s ∧ g ∈ k.tags := by
  rw [mem_keptItems]
  simp

namespace OsmFile

variable {f : OsmFile} {select : ℤ → Option Coord} {s : Table} {g : TagRecord}

/-- The tag rows of ways stand under positive ids. -/
lemma tag_of_waysKept (h : Sum.inr g ∈ keptItems (f.waysKept select) s) :
    (s = .ways ∨ s = .areas) ∧ 0 < g.id := by
  obtain ⟨k, hk, rfl, hg⟩ := inr_mem_keptItems.mp h
  obtain ⟨w, hw, hk⟩ := mem_waysKept.mp hk
  obtain ⟨-, htable, htags⟩ := mem_wayKept hk
  rw [htags] at hg
  rw [id_of_mem_keptTags hg]
  exact ⟨htable, f.way_pos w hw⟩

/-- The tag rows of relations stand under negative ids in `area_tags`, and
otherwise in tables of their own. -/
lemma tag_of_relationsKept (h : Sum.inr g ∈ keptItems (f.relationsKept select) s) :
    s = .relations ∨ s = .roads ∨ s = .areas ∧ g.id < 0 := by
  obtain ⟨k, hk, rfl, hg⟩ := inr_mem_keptItems.mp h
  obtain ⟨r, hr, hk⟩ := mem_relationsKept.mp hk
  have hpos := f.relation_pos r hr
  rcases mem_relationKept hk with ⟨htable, -, htags⟩ | ⟨htable, -, -⟩
  · rw [htags] at hg
    rw [id_of_mem_keptTags hg]
    exact Or.inr (Or.inr ⟨htable, by omega⟩)
  · rcases htable with htable | htable
    · exact Or.inl htable
    · exact Or.inr (Or.inl htable)

end OsmFile

namespace ImportState

variable {T : ℕ} {f : OsmFile} {select : ℤ → Option Coord}

/-- The surroundings of a full import. -/
def fullEnv (select : ℤ → Option Coord) (node_threads : ℕ) : ImportEnv :=
  ⟨select, node_threads, false⟩

/-- An import from empty tables. -/
def fullImport (f : OsmFile) (select : ℤ → Option Coord) (node_threads : ℕ) : ImportState T :=
  start (fullEnv select node_threads) .empty f.entries

/-- The surroundings of an import under `-R`. -/
def resumeEnv (select : ℤ → Option Coord) (node_threads : ℕ) (phase : Phase) : ImportEnv :=
  ⟨select, node_threads, phase = .relations⟩

/-- An import under `-R` on the tables of a killed one. -/
def resumedImport (f : OsmFile) (select : ℤ → Option Coord) (node_threads : ℕ) (phase : Phase)
    (d : Database) : ImportState T :=
  start (resumeEnv select node_threads phase) (d.truncateForResume phase.table)
    (queueOf f (phase = .relations))

/-! ### What a killed import leaves -/

variable {env : ImportEnv} {n : Table → TagRecord → ℕ} {σ : ImportState T}

/-- `truncateForResume` empties a table or leaves it alone. -/
lemma rows_truncateForResume (d : Database) (t s : Table) :
    (d.truncateForResume t).rows s = [] ∨ (d.truncateForResume t).rows s = d.rows s := by
  rw [Database.truncateForResume]
  exact ite_eq_or_eq ..

/-- What `truncateForResume` leaves is a start for the resumed import. -/
lemma startable_truncate {node_threads : ℕ} {phase : Phase} (hselect : env.select = select)
    (hs : Stored f env n σ) (hways : phase = .relations → WaysCommitted f select σ.db) :
    Startable f (resumeEnv select node_threads phase) (σ.db.truncateForResume phase.table) := by
  subst hselect
  refine ⟨fun s r hr => ?_, fun s => ?_, fun hskip k hk => ?_⟩
  · rcases rows_truncateForResume σ.db phase.table s with hrows | hrows
    · simp [hrows] at hr
    · rw [hrows] at hr
      exact (hs.rows s r).mp (Multiset.mem_add.mpr (Or.inl (inl_mem_itemsOf.mpr hr)))
  · rcases rows_truncateForResume σ.db phase.table s with hrows | hrows
    · rw [hrows]
      exact List.nodup_nil
    · rw [hrows]
      exact hs.nodup s
  · have hphase : phase = .relations := by simpa [resumeEnv] using hskip
    obtain ⟨w, -, hw⟩ := OsmFile.mem_waysKept.mp hk
    have hmem : Sum.inl k.row ∈ σ.db.items k.table :=
      Multiset.mem_of_le (hways hphase k.table) (inl_mem_keptItems.mpr ⟨k, hk, rfl, rfl⟩)
    have hrow := inl_mem_itemsOf.mp hmem
    subst hphase
    rcases (mem_wayKept hw).2.1 with ht | ht <;> rw [ht] at hrow ⊢ <;> exact hrow

/-- The tag rows in the tables are among those the import ends with. -/
lemma count_tags_le (hs : Stored f env n σ) (s : Table) (g : TagRecord) :
    (σ.db.tags s).count g ≤ n s g := by
  rw [← hs.tags s g, items, Multiset.count_add, count_items]
  exact Nat.le_add_right ..

/-! ### The tables at the end -/

/-- The tag rows a resumed import ends with are those of an uninterrupted one
exactly when what `truncateForResume` leaves is clean. -/
lemma tags_same_iff {node_threads n₁ : ℕ} {phase : Phase}
    (hs : Stored f (fullEnv select n₁) (tagsAfter f (fullEnv select n₁) .empty) σ)
    (hways : phase = .relations → WaysCommitted f select σ.db) :
    (∀ s g, ((σ.db.truncateForResume phase.table).tags s).count g
        + (keptItems (todo f (resumeEnv select node_threads phase)) s).count (Sum.inr g)
      = (keptItems (f.kept select) s).count (Sum.inr g)) ↔ ResumeClean phase σ.db := by
  have hupper : ∀ s g, (σ.db.tags s).count g
      ≤ (keptItems (f.waysKept select) s).count (Sum.inr g)
        + (keptItems (f.relationsKept select) s).count (Sum.inr g) := by
    intro s g
    refine (count_tags_le hs s g).trans_eq ?_
    rw [tagsAfter, Multiset.count_add, count_items, ← Multiset.count_add, ← keptItems_append]
    simp [Database.empty, todo, fullEnv, OsmFile.kept]
  cases phase with
  | ways =>
      have htodo : todo f (resumeEnv select node_threads .ways) = f.kept select := rfl
      rw [htodo]
      constructor
      · intro h
        have hnil : ∀ s, (σ.db.truncateForResume .ways).tags s = [] := by
          intro s
          refine List.eq_nil_iff_forall_not_mem.mpr fun g hg => ?_
          have hpos := List.count_pos_iff.mpr hg
          have hsg := h s g
          simp only [Phase.table] at hsg
          omega
        exact ⟨hnil .relations, hnil .roads⟩
      · rintro ⟨hrel, hroads⟩ s g
        have hnil : (σ.db.truncateForResume .ways).tags s = [] := by
          cases s
          · rfl
          · rfl
          · exact hroads
          · exact hrel
        simp [Phase.table, hnil]
  | relations =>
      have hlower : ∀ s g, (keptItems (f.waysKept select) s).count (Sum.inr g)
          ≤ (σ.db.tags s).count g := by
        intro s g
        rw [← count_items]
        exact Multiset.count_le_of_le _ (hways rfl s)
      have htodo : todo f (resumeEnv select node_threads .relations)
          = f.relationsKept select := rfl
      rw [htodo]
      have hnoway : ∀ {s g}, ¬ ((s = .ways ∨ s = .areas) ∧ 0 < g.id) →
          (keptItems (f.waysKept select) s).count (Sum.inr g) = 0 := fun hno =>
        Multiset.count_eq_zero.mpr fun hmem => hno (OsmFile.tag_of_waysKept hmem)
      have hnorel : ∀ {s g}, ¬ (s = .relations ∨ s = .roads ∨ s = .areas ∧ g.id < 0) →
          (keptItems (f.relationsKept select) s).count (Sum.inr g) = 0 := fun hno =>
        Multiset.count_eq_zero.mpr fun hmem => hno (OsmFile.tag_of_relationsKept hmem)
      have hkept : ∀ s g, (keptItems (f.kept select) s).count (Sum.inr g)
          = (keptItems (f.waysKept select) s).count (Sum.inr g)
            + (keptItems (f.relationsKept select) s).count (Sum.inr g) := fun s g => by
        rw [OsmFile.kept, keptItems_append, Multiset.count_add]
      simp only [hkept, Nat.add_right_cancel_iff]
      constructor
      · intro h g hg
        by_contra hid
        have hpos := List.count_pos_iff.mpr hg
        have harea : (σ.db.tags .areas).count g
            = (keptItems (f.waysKept select) .areas).count (Sum.inr g) := h .areas g
        rw [harea, hnoway fun hw => hid hw.2] at hpos
        omega
      · intro hclean s g
        cases s with
        | ways =>
            have h1 := hlower .ways g
            have h2 := hupper .ways g
            rw [hnorel (by simp)] at h2
            exact le_antisymm h2 h1
        | areas =>
            by_cases hg : 0 < g.id
            · have h1 := hlower .areas g
              have h2 := hupper .areas g
              rw [hnorel (by simp; omega)] at h2
              exact le_antisymm h2 h1
            · rw [hnoway fun hw => hg hw.2]
              exact List.count_eq_zero.mpr fun hmem => hg (hclean g hmem)
        | roads => exact (hnoway (by simp)).symm
        | relations => exact (hnoway (by simp)).symm

/-- **When a resumed import equals an uninterrupted one.** -/
theorem resume_same_iff {T₁ T₂ T₃ n₁ n₂ n₃ : ℕ} (hT₂ : 0 < T₂) (hT₃ : 0 < T₃)
    {killed : List (Fin T₁)} {σ : ImportState T₁}
    (hσ : (fullImport f select n₁).run (fullEnv select n₁) killed = some σ)
    {whole : List (Fin T₃)} {φ : ImportState T₃}
    (hφ : (fullImport f select n₃).run (fullEnv select n₃) whole = some φ)
    (hend : φ.Halted (fullEnv select n₃)) (phase : Phase)
    (hways : phase = .relations → WaysCommitted f select σ.db) :
    (∃ bound, ∀ (moves : List (Fin T₂)) (ρ : ImportState T₂),
      (resumedImport f select n₂ phase σ.db).run (resumeEnv select n₂ phase) moves = some ρ →
        moves.length ≤ bound) ∧
    ∀ (moves : List (Fin T₂)) (ρ : ImportState T₂),
      (resumedImport f select n₂ phase σ.db).run (resumeEnv select n₂ phase) moves = some ρ →
        ρ.Halted (resumeEnv select n₂ phase) →
        (SameTables ρ.db φ.db ↔ ResumeClean phase σ.db) := by
  refine ⟨⟨_, fun moves ρ h => run_length_le h⟩, fun moves ρ hρ hhalt => ?_⟩
  obtain ⟨-, hs⟩ := invariant_of_import (startable_empty rfl) hσ
  have hstart : Startable f (resumeEnv select n₂ phase) (σ.db.truncateForResume phase.table) :=
    startable_truncate rfl hs hways
  have hstart' : Startable f (fullEnv select n₃) .empty := startable_empty rfl
  have hdone := done_of_import hT₂ hstart hρ hhalt
  have hdone' := done_of_import hT₃ hstart' hφ hend
  have hrows : ∀ s, (ρ.db.rows s).Perm (φ.db.rows s) := by
    intro s
    obtain ⟨hnd, hmem⟩ := rows_of_done hstart hρ hdone s
    obtain ⟨hnd', hmem'⟩ := rows_of_done hstart' hφ hdone' s
    exact (List.perm_ext_iff_of_nodup hnd hnd').mpr fun r => (hmem r).trans (hmem' r).symm
  have htags : ∀ s, (ρ.db.tags s).Perm (φ.db.tags s) ↔ ∀ g,
      ((σ.db.truncateForResume phase.table).tags s).count g
        + (keptItems (todo f (resumeEnv select n₂ phase)) s).count (Sum.inr g)
      = (keptItems (f.kept select) s).count (Sum.inr g) := by
    intro s
    rw [List.perm_iff_count]
    refine forall_congr' fun g => ?_
    rw [tags_of_done hstart hρ hdone, tags_of_done hstart' hφ hdone', Database.empty,
      List.count_nil, zero_add]
    rfl
  rw [← tags_same_iff hs hways, SameTables]
  exact forall_congr' fun s => (and_iff_right (hrows s)).trans (htags s)

/-! ### A road -/

/-- A road of one way. -/
def roadFile : OsmFile where
  ways := [⟨1, [], .single (ascii "highway") (ascii "primary"), [1, 2, 3]⟩]
  relations := [⟨1, [], .single (ascii "route") (ascii "road"), [⟨1, []⟩]⟩]
  way_nodup := by simp
  way_pos := by simp
  relation_nodup := by simp
  relation_pos := by simp
  member_pos := by simp

/-- Killed with the row and the tag row of the way committed, and none of the road, an import
is resumed under `-R ways` and under `-R relations`. -/
theorem resume_same_iff_committed : ∃ σ φ ρ₁ ρ₂ : ImportState 1,
    (fullImport roadFile squareNodes 1).run (fullEnv squareNodes 1) (List.replicate 8 0) = some σ
      ∧ (σ.db.rows .ways).length = 1 ∧ (σ.db.tags .ways).length = 1
      ∧ (fullImport roadFile squareNodes 1).run (fullEnv squareNodes 1) (List.replicate 13 0)
        = some φ
      ∧ (resumedImport roadFile squareNodes 1 .ways σ.db).run (resumeEnv squareNodes 1 .ways)
        (List.replicate 13 0) = some ρ₁
      ∧ (resumedImport roadFile squareNodes 1 .relations σ.db).run
        (resumeEnv squareNodes 1 .relations) (List.replicate 8 0) = some ρ₂
      ∧ SameTables ρ₁.db φ.db ∧ SameTables ρ₂.db φ.db := by
  have hex : ∃ σ φ ρ₁ ρ₂ : ImportState 1,
      (fullImport roadFile squareNodes 1).run (fullEnv squareNodes 1) (List.replicate 8 0) = some σ
        ∧ ((σ.db.rows .ways).length = 1 ∧ (σ.db.tags .ways).length = 1)
        ∧ (ResumeClean .ways σ.db ∧ ResumeClean .relations σ.db
          ∧ WaysCommitted roadFile squareNodes σ.db)
        ∧ ((fullImport roadFile squareNodes 1).run (fullEnv squareNodes 1) (List.replicate 13 0)
            = some φ
          ∧ φ.Halted (fullEnv squareNodes 1))
        ∧ ((resumedImport roadFile squareNodes 1 .ways σ.db).run (resumeEnv squareNodes 1 .ways)
            (List.replicate 13 0) = some ρ₁
          ∧ ρ₁.Halted (resumeEnv squareNodes 1 .ways))
        ∧ (resumedImport roadFile squareNodes 1 .relations σ.db).run
            (resumeEnv squareNodes 1 .relations) (List.replicate 8 0) = some ρ₂
          ∧ ρ₂.Halted (resumeEnv squareNodes 1 .relations) := by
    refine ⟨_, _, _, _, rfl, ⟨rfl, rfl⟩, ⟨⟨rfl, rfl⟩, List.forall_mem_nil _, fun s => ?_⟩,
      ⟨rfl, Fin.forall_fin_one.mpr rfl⟩, ⟨rfl, Fin.forall_fin_one.mpr rfl⟩, rfl,
      Fin.forall_fin_one.mpr rfl⟩
    cases s <;> decide +kernel
  obtain ⟨σ, φ, ρ₁, ρ₂, hσ, ⟨hrow, htag⟩, ⟨hclean, hclean', hways⟩, ⟨hφ, hend⟩, ⟨hρ₁, hhalt₁⟩,
    hρ₂, hhalt₂⟩ := hex
  refine ⟨σ, φ, ρ₁, ρ₂, hσ, hrow, htag, hφ, hρ₁, hρ₂, ?_, ?_⟩
  · exact ((resume_same_iff Nat.one_pos Nat.one_pos hσ hφ hend .ways nofun).2 _ ρ₁ hρ₁
      hhalt₁).mpr hclean
  · exact ((resume_same_iff Nat.one_pos Nat.one_pos hσ hφ hend .relations fun _ => hways).2 _ ρ₂
      hρ₂ hhalt₂).mpr hclean'

/-- **Killed once the road is committed**, an import resumed under `-R ways` ends
with the tag rows of the road twice. -/
theorem resume_doubles_road_tags : ∃ σ ρ φ : ImportState 1,
    (fullImport roadFile squareNodes 1).run (fullEnv squareNodes 1) (List.replicate 10 0) = some σ
      ∧ (resumedImport roadFile squareNodes 1 .ways σ.db).run (resumeEnv squareNodes 1 .ways)
        (List.replicate 14 0) = some ρ
      ∧ ρ.Halted (resumeEnv squareNodes 1 .ways)
      ∧ (fullImport roadFile squareNodes 1).run (fullEnv squareNodes 1) (List.replicate 13 0)
        = some φ
      ∧ φ.Halted (fullEnv squareNodes 1)
      ∧ (φ.db.tags .roads).length = 1 ∧ (ρ.db.tags .roads).length = 2
      ∧ ¬ SameTables ρ.db φ.db := by
  refine ⟨_, _, _, rfl, rfl, Fin.forall_fin_one.mpr rfl, rfl,
    Fin.forall_fin_one.mpr rfl, rfl, rfl, fun h => ?_⟩
  have hlen := (h .roads).2.length_eq
  exact absurd hlen (by decide)

end ImportState

end Gpsxdb
