import Mathlib.Tactic
import Gpsxdb.Regional.InstallRun

/-!
What holds at each stage of an install, whatever was killed before.

* `InstallStage.bundle`, `isLoaded`, `isIndexed`, `isPlaced`, `isRegistered`: how far a
  process has come;
* `Progress`, `progress_step`: what is done is placed, and what is placed is loaded;
* `holds_step`: **the tables hold what was loaded**, however often;
* `Indexed`, `indexed_step`: the indexes behind `createGistIndexes`;
* `Registered`, `registered_step`: the rows of `installed_regions`.
-/

namespace Gpsxdb

variable {C : Type}

/-! ### How far a process has come -/

namespace InstallStage

/-- The bundle at hand. -/
def bundle : InstallStage C → Option (InstallBundle C)
  | stopped => none
  | extracted b => b
  | prepared b => b
  | indexing b _ _ => b
  | indexed b => b
  | copying b _ => b
  | merging b _ _ => b
  | merged b _ _ => b
  | placed b => b
  | registered b => b
  | done b => b

/-- Its tables are installed. -/
def isLoaded : InstallStage C → Bool
  | stopped | extracted _ | prepared _ => false
  | _ => true

/-- So are the indexes. -/
def isIndexed : InstallStage C → Bool
  | indexing .. => false
  | stage => stage.isLoaded

/-- Its nodes are in place. -/
def isPlaced : InstallStage C → Bool
  | placed _ | registered _ | done _ => true
  | _ => false

/-- Its region is registered. -/
def isRegistered : InstallStage C → Bool
  | registered _ | done _ => true
  | _ => false

/-- A node file is being written. -/
def isWriting : InstallStage C → Bool
  | copying .. | merging .. | merged .. => true
  | _ => false

/-- The first node file is being copied. -/
def isCopying : InstallStage C → Bool
  | copying .. => true
  | _ => false

lemma not_isCopying_of_idle {stage : InstallStage C} (h : stage.idle) :
    stage.isCopying = false := by
  cases stage with
  | copying b region_nodes => exact absurd h Bool.false_ne_true
  | _ => rfl

end InstallStage

def InstallEvent.isKill : InstallEvent C → Bool
  | kill _ => true
  | _ => false

namespace InstallRun

variable {columns : AirportColumns C} {σ σ' : InstallRun C} {e : InstallEvent C}
  {bs : List (InstallBundle C)}

/-- What is done is placed, what is placed is loaded, and what is loaded was started. -/
structure Progress (bs : List (InstallBundle C)) (σ : InstallRun C) : Prop where
  mem : ∀ b, σ.stage.bundle = some b → b ∈ bs
  loaded : ∀ b, σ.stage.bundle = some b → σ.stage.isLoaded → b ∈ σ.loaded
  placed : ∀ b, σ.stage.bundle = some b → σ.stage.isPlaced → b ∈ σ.placed
  loaded_mem : ∀ b ∈ σ.loaded, b ∈ bs
  placed_loaded : ∀ b ∈ σ.placed, b ∈ σ.loaded
  finished_placed : ∀ b ∈ σ.finished, b ∈ σ.placed

/-- A step that announces nothing. -/
lemma Progress.quiet (h : Progress bs σ) (hloaded : σ'.loaded = σ.loaded)
    (hplaced : σ'.placed = σ.placed) (hfinished : σ'.finished = σ.finished)
    (hbundle : ∀ b, σ'.stage.bundle = some b → σ.stage.bundle = some b)
    (hisLoaded : σ'.stage.isLoaded → σ.stage.isLoaded)
    (hisPlaced : σ'.stage.isPlaced → σ.stage.isPlaced) : Progress bs σ' := by
  refine ⟨fun b hb => h.mem b (hbundle b hb), fun b hb hstage => ?_, fun b hb hstage => ?_,
    ?_, ?_, ?_⟩
  · rw [hloaded]
    exact h.loaded b (hbundle b hb) (hisLoaded hstage)
  · rw [hplaced]
    exact h.placed b (hbundle b hb) (hisPlaced hstage)
  · rw [hloaded]
    exact h.loaded_mem
  · rw [hplaced, hloaded]
    exact h.placed_loaded
  · rw [hfinished, hplaced]
    exact h.finished_placed

/-- A process that ends early. -/
lemma Progress.stopped (h : Progress bs σ) (host : InstallHost C) :
    Progress bs { σ.stop with host := host } :=
  h.quiet rfl rfl rfl (fun _ hb => absurd hb (by simp [stop, InstallStage.bundle]))
    (fun hno => absurd hno Bool.false_ne_true) fun hno => absurd hno Bool.false_ne_true

/-- The nodes of a bundle are in place. -/
lemma Progress.place {b : InstallBundle C} (h : Progress bs σ) (hb : σ.stage.bundle = some b)
    (hstage : σ.stage.isLoaded) (host : InstallHost C) :
    Progress bs { σ with host := host, stage := .placed b, placed := σ.placed ++ [b] } := by
  have hmem : ∀ b', InstallStage.bundle (.placed b) = some b' → b = b' := fun b' hb' =>
    Option.some.inj hb'
  refine ⟨fun b' hb' => ?_, fun b' hb' _ => ?_, fun b' hb' _ => ?_, h.loaded_mem, fun b' hb' => ?_,
    fun b' hb' => List.mem_append_left _ (h.finished_placed b' hb')⟩
  · obtain rfl := hmem b' hb'
    exact h.mem b hb
  · obtain rfl := hmem b' hb'
    exact h.loaded b hb hstage
  · obtain rfl := hmem b' hb'
    exact List.mem_append_right _ (List.mem_singleton_self b)
  · rcases List.mem_append.mp hb' with hb' | hb'
    · exact h.placed_loaded b' hb'
    · obtain rfl := List.mem_singleton.mp hb'
      exact h.loaded b' hb hstage

lemma progress_start : Progress bs (start : InstallRun C) :=
  ⟨fun _ hb => absurd hb (by simp [start, InstallStage.bundle]),
    fun _ _ h => absurd h Bool.false_ne_true,
    fun _ _ h => absurd h Bool.false_ne_true, List.forall_mem_nil _, List.forall_mem_nil _,
    List.forall_mem_nil _⟩

/-- **Every step keeps the order of the announcements.** -/
lemma progress_step (h : Progress bs σ) (hstart : ∀ b, e = .start b → b ∈ bs)
    (hstep : σ.step columns e = some σ') : Progress bs σ' := by
  cases took_of_step hstep with
  | @start b hidle =>
      refine ⟨fun b' hb' => ?_, fun _ _ hno => absurd hno Bool.false_ne_true,
        fun _ _ hno => absurd hno Bool.false_ne_true, h.loaded_mem, h.placed_loaded,
        h.finished_placed⟩
      obtain rfl : b = b' := Option.some.inj hb'
      exact hstart b rfl
  | dropGistIndexes hstage =>
      exact h.quiet rfl rfl rfl (fun b hb => by rw [hstage]; exact hb)
        (fun hno => absurd hno Bool.false_ne_true) fun hno => absurd hno Bool.false_ne_true
  | @script b hstage =>
      rw [script]
      split
      · exact h.stopped _
      · have hb : b ∈ bs := h.mem b (by rw [hstage]; rfl)
        refine ⟨fun b' hb' => ?_, fun b' hb' _ => ?_, fun _ _ hno => absurd hno Bool.false_ne_true,
          List.forall_mem_append.mpr ⟨h.loaded_mem, List.forall_mem_singleton.mpr hb⟩,
          fun b' hb' => List.mem_append_left _ (h.placed_loaded b' hb'), h.finished_placed⟩
        · obtain rfl : b = b' := Option.some.inj hb'
          exact hb
        · obtain rfl : b = b' := Option.some.inj hb'
          exact List.mem_append_right _ (List.mem_singleton_self b)
  | createIndex hstage ht =>
      exact h.quiet rfl rfl rfl (fun b hb => by rw [hstage]; exact hb)
        (fun _ => by rw [hstage]; rfl) fun hno => absurd hno Bool.false_ne_true
  | join hstage =>
      split
      · exact h.stopped _
      · exact h.quiet rfl rfl rfl (fun b hb => by rw [hstage]; exact hb)
          (fun _ => by rw [hstage]; rfl) fun hno => absurd hno Bool.false_ne_true
  | openNodes hstage =>
      rw [openNodes]
      split
      · exact h.place (by rw [hstage]; rfl) (by rw [hstage]; rfl) _
      · exact h.quiet rfl rfl rfl (fun b hb => by rw [hstage]; exact hb)
          (fun _ => by rw [hstage]; rfl) fun hno => absurd hno Bool.false_ne_true
      · exact h.quiet rfl rfl rfl (fun b hb => by rw [hstage]; exact hb)
          (fun _ => by rw [hstage]; rfl) fun hno => absurd hno Bool.false_ne_true
  | copied hstage => exact h.place (by rw [hstage]; rfl) (by rw [hstage]; rfl) _
  | merged hstage =>
      rw [merge]
      split
      · exact h.stopped _
      · exact h.quiet rfl rfl rfl (fun b hb => by rw [hstage]; exact hb)
          (fun _ => by rw [hstage]; rfl) fun hno => absurd hno Bool.false_ne_true
  | rename hstage => exact h.place (by rw [hstage]; rfl) (by rw [hstage]; rfl) _
  | register hstage =>
      exact h.quiet rfl rfl rfl (fun b hb => by rw [hstage]; exact hb)
        (fun _ => by rw [hstage]; rfl) (fun _ => by rw [hstage]; rfl)
  | @seed b state hstage =>
      have hb : σ.stage.bundle = some b := by rw [hstage]; rfl
      have hplaced : b ∈ σ.placed := h.placed b hb (by rw [hstage]; rfl)
      refine ⟨fun b' hb' => ?_, fun b' hb' _ => ?_, fun b' hb' _ => ?_, h.loaded_mem,
        h.placed_loaded,
        List.forall_mem_append.mpr ⟨h.finished_placed, List.forall_mem_singleton.mpr hplaced⟩⟩
      · obtain rfl : b = b' := Option.some.inj hb'
        exact h.mem b hb
      · obtain rfl : b = b' := Option.some.inj hb'
        exact h.placed_loaded b hplaced
      · obtain rfl : b = b' := Option.some.inj hb'
        exact hplaced
  | killCopy hstage hw => exact h.stopped _
  | killMerge hstage => exact h.stopped _
  | kill hidle hcopy => exact h.stopped _

/-! ### Tables, indexes and regions -/

variable {s : Snapshot C}

/-- **The tables hold the bundles that were loaded**, however often. -/
lemma holds_step (h : Progress bs σ) (hcut : ∀ b ∈ bs, s.Cut b.tables)
    (hholds : s.Holds (σ.loaded.map InstallBundle.tables) σ.host.tables)
    (hstep : σ.step s.columns e = some σ') :
    s.Holds (σ'.loaded.map InstallBundle.tables) σ'.host.tables := by
  cases took_of_step hstep with
  | @script b hstage =>
      rw [script]
      split
      · exact hholds
      · rename_i d hrun
        have hb : b ∈ bs := h.mem b (by rw [hstage]; rfl)
        have hloaded : ∀ t ∈ σ.loaded.map InstallBundle.tables, s.Cut t :=
          List.forall_mem_map.mpr fun b' hb' => hcut b' (h.loaded_mem b' hb')
        rw [List.map_append]
        exact Snapshot.holds_run hholds hloaded (hcut b hb) hrun
  | join hstage => split <;> exact hholds
  | openNodes hstage =>
      rw [openNodes]
      split <;> exact hholds
  | merged hstage =>
      rw [merge]
      split <;> exact hholds
  | _ => exact hholds

/-- The indexes of a process behind `createGistIndexes`, and those of its workers that are
through. -/
structure Indexed (σ : InstallRun C) : Prop where
  whole : σ.stage.isIndexed → ∀ t, σ.host.gist t = true
  part : ∀ b left, σ.stage = .indexing b left false → ∀ t ∉ left, σ.host.gist t = true

lemma Indexed.quiet (h : Indexed σ) (hgist : σ'.host.gist = σ.host.gist)
    (hbefore : σ.stage.isIndexed) (hafter : σ'.stage.isIndexed) : Indexed σ' := by
  refine ⟨fun _ t => hgist ▸ h.whole hbefore t, fun b left hstage => ?_⟩
  rw [hstage] at hafter
  exact absurd hafter Bool.false_ne_true

lemma Indexed.of_not_isLoaded (hno : σ.stage.isLoaded = false) : Indexed σ := by
  constructor
  · intro hyes
    cases hstage : σ.stage <;> simp_all [InstallStage.isLoaded, InstallStage.isIndexed]
  · intro b left hstage
    rw [hstage] at hno
    exact absurd hno.symm Bool.false_ne_true

/-- **Who gets behind `createGistIndexes` has all indexes.** -/
lemma indexed_step (h : Indexed σ) (hstep : σ.step columns e = some σ') : Indexed σ' := by
  cases took_of_step hstep with
  | @script b hstage =>
      rw [script]
      split
      · exact .of_not_isLoaded rfl
      · refine ⟨fun hyes => absurd hyes Bool.false_ne_true, fun b' left hindexing t ht => ?_⟩
        obtain ⟨-, rfl, -⟩ := InstallStage.indexing.inj hindexing
        exact absurd (by cases t <;> decide) ht
  | @createIndex b left failed t goes hstage ht =>
      refine ⟨fun hyes => absurd hyes Bool.false_ne_true, fun b' left' hindexing u hu => ?_⟩
      obtain ⟨-, rfl, hfailed⟩ := InstallStage.indexing.inj hindexing
      obtain ⟨rfl, hgoes⟩ := Bool.or_eq_false_iff.mp hfailed
      have hgoes : goes = true := by simpa using hgoes
      subst hgoes
      show Function.update σ.host.gist t true u = true
      by_cases hut : u = t
      · rw [hut, Function.update_self]
      · rw [Function.update_of_ne hut]
        exact h.part b left hstage u fun hmem => hu ((List.mem_erase_of_ne hut).mpr hmem)
  | @join b failed hstage =>
      cases failed with
      | true => exact .of_not_isLoaded rfl
      | false =>
          refine ⟨fun _ t => h.part b [] hstage t List.not_mem_nil, fun b' left hindexing => ?_⟩
          exact absurd hindexing (by simp)
  | openNodes hstage =>
      have hall : σ.stage.isIndexed := by rw [hstage]; rfl
      rw [openNodes]
      split <;> exact h.quiet rfl hall rfl
  | merged hstage =>
      rw [merge]
      split
      · exact .of_not_isLoaded rfl
      · exact h.quiet rfl (by rw [hstage]; rfl) rfl
  | copied hstage | rename hstage | register hstage | seed hstage =>
      exact h.quiet rfl (by rw [hstage]; rfl) rfl
  | start hidle | dropGistIndexes hstage | killCopy hstage hw | killMerge hstage
  | kill hidle hcopy => exact .of_not_isLoaded rfl

/-- A registered region is that of a bundle, and each bundle behind the registration has
one, if it brings one. -/
structure Registered (bs : List (InstallBundle C)) (σ : InstallRun C) : Prop where
  rows : ∀ name r, σ.host.installed_regions name = some r →
    ∃ b ∈ bs, b.region = name ∧ b.registration = some r
  finished : ∀ b ∈ σ.finished, b.registration.isSome →
    (σ.host.installed_regions b.region).isSome
  stage : ∀ b, σ.stage.bundle = some b → σ.stage.isRegistered → b.registration.isSome →
    (σ.host.installed_regions b.region).isSome

lemma Registered.quiet (h : Registered bs σ)
    (hregions : σ'.host.installed_regions = σ.host.installed_regions)
    (hfinished : σ'.finished = σ.finished) (hno : σ'.stage.isRegistered = false) :
    Registered bs σ' := by
  refine ⟨?_, ?_, fun b _ hyes => absurd (hno.symm.trans hyes) Bool.false_ne_true⟩
  · rw [hregions]
    exact h.rows
  · rw [hfinished, hregions]
    exact h.finished

/-- **A registration is only ever replaced by another one.** -/
lemma registered_step (h : Registered bs σ) (hp : Progress bs σ)
    (hstep : σ.step columns e = some σ') : Registered bs σ' := by
  cases took_of_step hstep with
  | @register b hstage =>
      have hb : b ∈ bs := hp.mem b (by rw [hstage]; rfl)
      rw [InstallRun.register]
      cases hr : b.registration with
      | none =>
          refine ⟨h.rows, h.finished, fun b' hb' _ hsome => ?_⟩
          obtain rfl : b = b' := Option.some.inj hb'
          rw [hr] at hsome
          exact absurd hsome Bool.false_ne_true
      | some r =>
          refine ⟨fun name r' hrow => ?_, fun b' hb' hsome => ?_, fun b' hb' _ hsome => ?_⟩
          · by_cases hname : name = b.region
            · subst hname
              have hrr : r = r' := by simpa using hrow
              exact ⟨b, hb, rfl, hrr ▸ hr⟩
            · have hold : σ.host.installed_regions name = some r' := by
                simpa [Function.update_of_ne hname] using hrow
              exact h.rows name r' hold
          · have hold := h.finished b' hb' hsome
            by_cases hname : b'.region = b.region
            · simp [hname]
            · simpa [Function.update_of_ne hname] using hold
          · obtain rfl : b = b' := Option.some.inj hb'
            simp
  | @seed b state hstage =>
      have hstage' : b.registration.isSome → (σ.host.installed_regions b.region).isSome :=
        h.stage b (by rw [hstage]; rfl) (by rw [hstage]; rfl)
      refine ⟨h.rows, List.forall_mem_append.mpr ⟨h.finished, fun b' hb' => ?_⟩,
        fun b' hb' _ => ?_⟩
      · obtain rfl := List.mem_singleton.mp hb'
        exact hstage'
      · obtain rfl : b = b' := Option.some.inj hb'
        exact hstage'
  | script hstage =>
      rw [script]
      split <;> exact h.quiet rfl rfl rfl
  | join hstage => split <;> exact h.quiet rfl rfl rfl
  | openNodes hstage =>
      rw [openNodes]
      split <;> exact h.quiet rfl rfl rfl
  | merged hstage =>
      rw [merge]
      split <;> exact h.quiet rfl rfl rfl
  | _ => exact h.quiet rfl rfl rfl

end InstallRun

end Gpsxdb
