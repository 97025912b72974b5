import Mathlib.Tactic
import Gpsxdb.Regional.InstallStages

/-!
Installs that are killed and run again.

* `SortedFile.length_le`: how long a node file can be;
  `SortedFile.openNodeMap_of_prefix`: a part of one is refused;
* `FromMaster`: bundles of one snapshot, and of one node map;
* `NodesOf`, `Nodes`, `nodes_step`: the node file at each stage;
* `copiesWhole`: no process is killed inside the copy of the first node file;
* `installs_recover`: **once every bundle is done, the kills have left no trace**;
* `Blocked`, `killed_copy_blocks`: **a copy that was killed blocks every later install**.
-/

namespace Gpsxdb

variable {C : Type}

/-! ### Node files -/

/-- A lookup reads a record. -/
lemma select_eq_some_iff_mem {m : OpenNodeMap} (h : m.Ascending) {id : ℤ} {c : Coord} :
    m.select id = some c ↔ ⟨id, c⟩ ∈ m.records := by
  rw [← OpenNodeMap.select_toRegional h, RegionalNodeMap.select_eq_some_iff]
  rfl

/-- **How long a node file can be**: it has a record for each id at most. -/
lemma SortedFile.length_le {bytes : List UInt8} (h : SortedFile bytes) {max_id : ℕ}
    (hrange : ∀ id c, lookup bytes id = some c → 0 ≤ id ∧ id ≤ max_id) :
    bytes.length ≤ 64 + 24 * (max_id + 1) := by
  obtain ⟨m, hopen, hasc, hlen⟩ := h
  have hnodup : (m.records.map NodeRecord.id).Nodup :=
    (List.pairwise_map.mpr hasc).imp fun hlt => hlt.ne
  have hsub : (m.records.map NodeRecord.id).toFinset ⊆ Finset.Icc 0 (max_id : ℤ) := by
    intro id hid
    obtain ⟨r, hr, rfl⟩ := List.mem_map.mp (List.mem_toFinset.mp hid)
    have hselect : lookup bytes r.id = some r.coord := by
      rw [lookup_eq hopen, select_eq_some_iff_mem hasc]
      exact hr
    exact Finset.mem_Icc.mpr (hrange _ _ hselect)
  have hcount : m.record_count ≤ max_id + 1 :=
    calc m.record_count = (m.records.map NodeRecord.id).length := by
          rw [List.length_map, OpenNodeMap.length_records]
      _ = (m.records.map NodeRecord.id).toFinset.card :=
          (List.toFinset_card_of_nodup hnodup).symm
      _ ≤ (Finset.Icc 0 (max_id : ℤ)).card := Finset.card_le_card hsub
      _ = max_id + 1 := by
          rw [Int.card_Icc]
          omega
  have hheader : kHeaderSize = 64 := rfl
  have hwidth : nodeRecordFormat.width = 24 := rfl
  rw [hlen, hheader, hwidth]
  omega

/-- **A part of a sorted file is refused.** -/
lemma SortedFile.openNodeMap_of_prefix {bytes p : List UInt8} (h : SortedFile bytes)
    (hlt : bytes.length < 2 ^ 63) (hp : p <+: bytes) (hne : p ≠ bytes) : openNodeMap p = none := by
  obtain ⟨m, hopen, -, hlen⟩ := h
  obtain ⟨hdata, hcount, -⟩ := OpenNodeMap.of_openNodeMap hopen
  have hshort : p.length < bytes.length := by
    refine lt_of_le_of_ne hp.length_le fun heq => hne (hp.eq_of_length heq)
  by_contra hsome
  obtain ⟨m', hopen'⟩ := Option.ne_none_iff_exists'.mp hsome
  obtain ⟨hdata', hcount', hle'⟩ := OpenNodeMap.of_openNodeMap hopen'
  have hheader : ¬ p.length < kHeaderSize := by
    intro hlt
    rw [openNodeMap, if_pos hlt] at hopen'
    exact absurd hopen'.symm (Option.some_ne_none _)
  have hsize : kHeaderSize = 64 := rfl
  have hwidth : nodeRecordFormat.width = 24 := rfl
  -- the count lies in the header, which is there
  have hsame : (p.drop 12).take 8 = (bytes.drop 12).take 8 := by
    obtain ⟨more, rfl⟩ := hp
    rw [List.drop_append_of_le_length (by omega), List.take_append_of_le_length]
    rw [List.length_drop]
    omega
  rw [hcount', hsame, ← hcount, wrapSize_of_lt (by omega)] at hle'
  omega

namespace InstallRun

variable {columns : AirportColumns C} {σ σ' : InstallRun C} {e : InstallEvent C}
  {bs : List (InstallBundle C)} {s : Snapshot C}

/-! ### The node file -/

/-- The node file has the nodes of the bundles that are placed, and no others. -/
structure NodesOf (placed : List (InstallBundle C)) (file : Option (List UInt8)) : Prop where
  there : ∀ nodes, file = some nodes → SortedFile nodes ∧ ∀ id c, lookup nodes id = some c ↔
    ∃ b ∈ placed, ∃ region_nodes, b.nodes = some region_nodes ∧ lookup region_nodes id = some c
  missing : file = none → ∀ b ∈ placed, b.nodes = none

namespace NodesOf

variable {placed : List (InstallBundle C)} {b : InstallBundle C} {nodes region_nodes : List UInt8}

/-- A bundle without nodes. -/
lemma place_none {file : Option (List UInt8)} (h : NodesOf placed file) (hb : b.nodes = none) :
    NodesOf (placed ++ [b]) file := by
  refine ⟨fun nodes hfile => ?_, fun hfile => ?_⟩
  · obtain ⟨hsorted, hlookup⟩ := h.there nodes hfile
    refine ⟨hsorted, fun id c => (hlookup id c).trans ?_⟩
    simp [or_and_right, exists_or, hb]
  · exact List.forall_mem_append.mpr
      ⟨h.missing hfile, List.forall_mem_singleton.mpr hb⟩

/-- The first nodes. -/
lemma place_first (h : ∀ b' ∈ placed, b'.nodes = none) (hb : b.nodes = some region_nodes)
    (hsorted : SortedFile region_nodes) : NodesOf (placed ++ [b]) (some region_nodes) := by
  refine ⟨fun nodes hfile => ?_, fun hfile => absurd hfile (Option.some_ne_none _)⟩
  obtain rfl := Option.some.inj hfile
  refine ⟨hsorted, fun id c => ⟨fun hc => ?_, ?_⟩⟩
  · exact ⟨b, List.mem_append_right _ (List.mem_singleton_self b), region_nodes, hb, hc⟩
  · rintro ⟨b', hb', region_nodes', hnodes, hc⟩
    rcases List.mem_append.mp hb' with hb' | hb'
    · exact absurd ((h b' hb').symm.trans hnodes) (Option.some_ne_none _).symm
    · obtain rfl := List.mem_singleton.mp hb'
      obtain rfl := Option.some.inj (hb.symm.trans hnodes)
      exact hc

/-- More nodes: where the files agree, the merged one has those of both. -/
lemma place_merged (h : NodesOf placed (some nodes)) (hb : b.nodes = some region_nodes)
    {out : List UInt8} (hsorted : SortedFile out)
    (hlookup : ∀ id, lookup out id = (lookup nodes id).or (lookup region_nodes id))
    (hagree : Agree nodes region_nodes) : NodesOf (placed ++ [b]) (some out) := by
  refine ⟨fun file hfile => ?_, fun hfile => absurd hfile (Option.some_ne_none _)⟩
  obtain rfl := Option.some.inj hfile
  have hold := (h.there nodes rfl).2
  have hor : ∀ id c, lookup out id = some c
      ↔ lookup nodes id = some c ∨ lookup region_nodes id = some c := by
    intro id c
    rw [hlookup id]
    cases hc : lookup nodes id with
    | none => simp
    | some c' =>
        refine ⟨fun hc' => Or.inl hc', ?_⟩
        rintro (hc' | hregion)
        · exact hc'
        · rw [Option.some_or, hagree id c' c hc hregion]
  refine ⟨hsorted, fun id c => ?_⟩
  rw [hor, hold]
  constructor
  · rintro (⟨b', hb', hfound⟩ | hc)
    · exact ⟨b', List.mem_append_left _ hb', hfound⟩
    · exact ⟨b, List.mem_append_right _ (List.mem_singleton_self b), region_nodes, hb, hc⟩
  · rintro ⟨b', hb', region_nodes', hnodes, hc⟩
    rcases List.mem_append.mp hb' with hb' | hb'
    · exact Or.inl ⟨b', hb', region_nodes', hnodes, hc⟩
    · obtain rfl := List.mem_singleton.mp hb'
      obtain rfl := Option.some.inj (hb.symm.trans hnodes)
      exact Or.inr hc

end NodesOf

/-- Bundles that are cut from one master: from one snapshot of its tables, and from its node
map, with one polygon for each region. -/
structure FromMaster (s : Snapshot C) (master : ℤ → Option Coord) (bs : List (InstallBundle C)) :
    Prop where
  cut : ∀ b ∈ bs, s.Cut b.tables
  sorted : ∀ b ∈ bs, ∀ region_nodes, b.nodes = some region_nodes → SortedFile region_nodes
  nodes : ∀ b ∈ bs, ∀ region_nodes, b.nodes = some region_nodes →
    ∀ id c, lookup region_nodes id = some c → master id = some c
  registration : ∀ b ∈ bs, ∀ b' ∈ bs, b.region = b'.region → b.registration = b'.registration

/-- The node file at each stage. -/
structure Nodes (σ : InstallRun C) : Prop where
  placed : σ.stage.isCopying = false → NodesOf σ.placed σ.host.nodes_file
  copying : ∀ b region_nodes, σ.stage = .copying b region_nodes →
    (∀ b' ∈ σ.placed, b'.nodes = none) ∧ b.nodes = some region_nodes
  merging : ∀ b nodes region_nodes, σ.stage = .merging b nodes region_nodes →
    σ.host.nodes_file = some nodes ∧ b.nodes = some region_nodes
  merged : ∀ b nodes region_nodes, σ.stage = .merged b nodes region_nodes →
    (σ.host.nodes_file = some nodes ∧ b.nodes = some region_nodes)
      ∧ ∃ created_at out, mergeFiles nodes region_nodes created_at = .ok out
        ∧ σ.host.merging = some out

/-- Stages that write no node file. -/
lemma Nodes.of_placed (h : NodesOf σ.placed σ.host.nodes_file)
    (hno : σ.stage.isWriting = false) : Nodes σ := by
  refine ⟨fun _ => h, fun b r hs => ?_, fun b n r hs => ?_, fun b n r hs => ?_⟩ <;>
  · rw [hs] at hno
    exact absurd hno.symm Bool.false_ne_true

/-- **Every step keeps the node file**, but for a kill inside the first copy. -/
lemma nodes_step {master : ℤ → Option Coord} {max_id : ℕ} (hbs : FromMaster s master bs)
    (hrange : ∀ id c, master id = some c → 0 ≤ id ∧ id ≤ max_id)
    (hmax : 64 + 24 * (max_id + 1) < 2 ^ 63) (h : Nodes σ) (hp : Progress bs σ)
    (hkill : e.isKill → σ.stage.isCopying = false) (hstep : σ.step columns e = some σ') :
    Nodes σ' := by
  have hplaced_mem : ∀ b ∈ σ.placed, b ∈ bs := fun b hb => hp.loaded_mem b (hp.placed_loaded b hb)
  -- what the node file has, the master has
  have hmaster : ∀ nodes, NodesOf σ.placed (some nodes) →
      ∀ id c, lookup nodes id = some c → master id = some c := by
    intro nodes hnodes id c hc
    obtain ⟨b, hb, region_nodes, hregion, hc⟩ := ((hnodes.there nodes rfl).2 id c).mp hc
    exact hbs.nodes b (hplaced_mem b hb) region_nodes hregion id c hc
  have hfile : ∀ file, SortedFile file → (∀ id c, lookup file id = some c → master id = some c) →
      RegionalFile file := fun file hsorted hlookup =>
    hsorted.regionalFile ((hsorted.length_le fun id c hc =>
      hrange id c (hlookup id c hc)).trans_lt hmax)
  cases took_of_step hstep with
  | @start b hidle =>
      exact .of_placed (h.placed (InstallStage.not_isCopying_of_idle hidle)) rfl
  | dropGistIndexes hstage =>
      exact .of_placed (h.placed (by rw [hstage]; rfl)) rfl
  | script hstage =>
      have hplaced := h.placed (by rw [hstage]; rfl)
      rw [script]
      split
      · exact .of_placed hplaced rfl
      · exact .of_placed hplaced rfl
  | createIndex hstage ht =>
      exact .of_placed (h.placed (by rw [hstage]; rfl)) rfl
  | join hstage =>
      have hplaced := h.placed (by rw [hstage]; rfl)
      split
      · exact .of_placed hplaced rfl
      · exact .of_placed hplaced rfl
  | @openNodes b hstage =>
      have hplaced := h.placed (by rw [hstage]; rfl)
      rw [openNodes]
      split
      · rename_i hnone
        exact .of_placed (hplaced.place_none hnone) rfl
      · rename_i region_nodes hregion hmissing
        refine ⟨fun hno => absurd hno.symm Bool.false_ne_true, fun b' r hs => ?_,
          fun b' n r hs => absurd hs (by simp), fun b' n r hs => absurd hs (by simp)⟩
        obtain ⟨rfl, rfl⟩ := InstallStage.copying.inj hs
        exact ⟨hplaced.missing hmissing, hregion⟩
      · rename_i region_nodes nodes hregion hthere
        refine ⟨fun _ => hplaced, fun b' r hs => absurd hs (by simp), fun b' n r hs => ?_,
          fun b' n r hs => absurd hs (by simp)⟩
        obtain ⟨rfl, rfl, rfl⟩ := InstallStage.merging.inj hs
        exact ⟨hthere, hregion⟩
  | @copied b region_nodes hstage =>
      obtain ⟨hfirst, hregion⟩ := h.copying b region_nodes hstage
      have hb : b ∈ bs := hp.mem b (by rw [hstage]; rfl)
      exact .of_placed (.place_first hfirst hregion (hbs.sorted b hb region_nodes hregion))
        rfl
  | @merged b nodes region_nodes created_at hstage =>
      have hplaced := h.placed (by rw [hstage]; rfl)
      rw [merge]
      split
      · exact .of_placed hplaced rfl
      · rename_i out hout
        refine ⟨fun _ => hplaced, fun b' r hs => absurd hs (by simp),
          fun b' n r hs => absurd hs (by simp), fun b' n r hs => ?_⟩
        obtain ⟨rfl, rfl, rfl⟩ := InstallStage.merged.inj hs
        exact ⟨h.merging _ _ _ hstage, created_at, out, hout, rfl⟩
  | @rename b nodes region_nodes hstage =>
      obtain ⟨⟨hnodes, hregion⟩, created_at, out, hout, hmerging⟩ :=
        h.merged b nodes region_nodes hstage
      have hplaced := h.placed (by rw [hstage]; rfl)
      rw [hnodes] at hplaced
      have hb : b ∈ bs := hp.mem b (by rw [hstage]; rfl)
      have hold := hmaster nodes hplaced
      have hnew := hbs.nodes b hb region_nodes hregion
      obtain ⟨hsorted, hlookup⟩ := lookup_mergeFiles
        (hfile nodes (hplaced.there nodes rfl).1 hold)
        (hfile region_nodes (hbs.sorted b hb region_nodes hregion) hnew) hout
      have hagree : Agree nodes region_nodes := fun id c c' hc hc' =>
        Option.some.inj ((hold id c hc).symm.trans (hnew id c' hc'))
      have hafter := hplaced.place_merged hregion hsorted hlookup hagree
      rw [← hmerging] at hafter
      exact .of_placed hafter rfl
  | register hstage =>
      exact .of_placed (h.placed (by rw [hstage]; rfl)) rfl
  | seed hstage =>
      exact .of_placed (h.placed (by rw [hstage]; rfl)) rfl
  | killCopy hstage hw =>
      have hno := hkill rfl
      rw [hstage] at hno
      exact absurd hno.symm Bool.false_ne_true
  | killMerge hstage =>
      exact .of_placed (h.placed (by rw [hstage]; rfl)) rfl
  | kill hidle hcopy =>
      exact .of_placed (h.placed (hkill rfl)) rfl

/-! ### Whole runs -/

/-- No process is killed inside the copy of the first node file. -/
def copiesWhole (columns : AirportColumns C) : InstallRun C → List (InstallEvent C) → Bool
  | _, [] => true
  | σ, e :: evs => !(e.isKill && σ.stage.isCopying)
      && (σ.step columns e).all fun σ' => copiesWhole columns σ' evs

/-- What any run keeps. -/
structure Sound (s : Snapshot C) (bs : List (InstallBundle C)) (σ : InstallRun C) : Prop where
  progress : Progress bs σ
  tables : s.Holds (σ.loaded.map InstallBundle.tables) σ.host.tables
  indexed : Indexed σ
  registered : Registered bs σ

lemma sound_start (s : Snapshot C) (bs : List (InstallBundle C)) : Sound s bs start := by
  refine ⟨progress_start, s.holds_empty, .of_not_isLoaded rfl, ?_, List.forall_mem_nil _, ?_⟩
  · exact fun _ _ h => absurd h (Option.some_ne_none _).symm
  · exact fun _ h => absurd h (Option.some_ne_none _).symm

lemma nodes_start : Nodes (start : InstallRun C) :=
  .of_placed ⟨fun _ h => absurd h (Option.some_ne_none _).symm, fun _ => List.forall_mem_nil _⟩ rfl

lemma sound_step (h : Sound s bs σ) (hcut : ∀ b ∈ bs, s.Cut b.tables)
    (hstart : ∀ b, e = .start b → b ∈ bs) (hstep : σ.step s.columns e = some σ') :
    Sound s bs σ' :=
  ⟨progress_step h.progress hstart hstep, holds_step h.progress hcut h.tables hstep,
    indexed_step h.indexed hstep, registered_step h.registered h.progress hstep⟩

section Runs

variable {master : ℤ → Option Coord} {max_id : ℕ} {evs : List (InstallEvent C)}

lemma sound_run (hcut : ∀ b ∈ bs, s.Cut b.tables) (h : Sound s bs σ)
    (hstarts : ∀ b, .start b ∈ evs → b ∈ bs) (hrun : σ.run s.columns evs = some σ') :
    Sound s bs σ' := by
  induction evs generalizing σ with
  | nil =>
      obtain rfl := Option.some.inj hrun
      exact h
  | cons e evs ih =>
      obtain ⟨τ, hstep, hrest⟩ := foldlM_cons_eq_some.mp hrun
      refine ih (sound_step h hcut (fun b he => ?_) hstep)
        (fun b hb => hstarts b (List.mem_cons_of_mem _ hb)) hrest
      exact hstarts b (he ▸ List.mem_cons_self ..)

lemma nodes_run (hbs : FromMaster s master bs)
    (hrange : ∀ id c, master id = some c → 0 ≤ id ∧ id ≤ max_id)
    (hmax : 64 + 24 * (max_id + 1) < 2 ^ 63) (h : Sound s bs σ) (hnodes : Nodes σ)
    (hstarts : ∀ b, .start b ∈ evs → b ∈ bs) (hwhole : copiesWhole s.columns σ evs)
    (hrun : σ.run s.columns evs = some σ') : Nodes σ' := by
  induction evs generalizing σ with
  | nil =>
      obtain rfl := Option.some.inj hrun
      exact hnodes
  | cons e evs ih =>
      obtain ⟨τ, hstep, hrest⟩ := foldlM_cons_eq_some.mp hrun
      rw [copiesWhole, hstep, Option.all_some, Bool.and_eq_true] at hwhole
      have hkill : e.isKill → σ.stage.isCopying = false := fun hyes => by
        simpa [hyes] using hwhole.1
      refine ih (sound_step h hbs.cut (fun b he => ?_) hstep)
        (nodes_step hbs hrange hmax hnodes h.progress hkill hstep)
        (fun b hb => hstarts b (List.mem_cons_of_mem _ hb)) hwhole.2 hrest
      exact hstarts b (he ▸ List.mem_cons_self ..)

/-- **Kills leave no trace.**  Bundles of one master are installed by processes that may be
killed at any moment and are run again, in any order.  Once each bundle has been done, the
tables hold what uninterrupted installs would have left, and every region has its polygon;
if the last process is done, all indexes are there.  If none was killed inside the copy of
the first node file, the node file has the nodes of the bundles and no others. -/
theorem installs_recover (hbs : FromMaster s master bs)
    (hrange : ∀ id c, master id = some c → 0 ≤ id ∧ id ≤ max_id)
    (hmax : 64 + 24 * (max_id + 1) < 2 ^ 63) (hstarts : ∀ b, .start b ∈ evs → b ∈ bs)
    (hrun : start.run s.columns evs = some σ) (hdone : ∀ b ∈ bs, b ∈ σ.finished) :
    (∃ d, installAll s.columns (bs.map InstallBundle.tables) .empty = some d
      ∧ σ.host.tables.Same d)
    ∧ (∀ b ∈ bs, ∀ r, b.registration = some r → σ.host.installed_regions b.region = some r)
    ∧ (∀ b, σ.stage = .done b → ∀ t, σ.host.gist t = true)
    ∧ (copiesWhole s.columns start evs → ∀ id c,
      (∃ nodes, σ.host.nodes_file = some nodes ∧ lookup nodes id = some c)
        ↔ ∃ b ∈ bs, ∃ region_nodes, b.nodes = some region_nodes
          ∧ lookup region_nodes id = some c) := by
  have hsound := sound_run hbs.cut (sound_start s bs) hstarts hrun
  have hplaced : ∀ b, b ∈ σ.placed ↔ b ∈ bs := fun b =>
    ⟨fun hb => hsound.progress.loaded_mem b (hsound.progress.placed_loaded b hb),
      fun hb => hsound.progress.finished_placed b (hdone b hb)⟩
  have hloaded : ∀ b, b ∈ σ.loaded ↔ b ∈ bs := fun b =>
    ⟨hsound.progress.loaded_mem b, fun hb =>
      hsound.progress.placed_loaded b ((hplaced b).mpr hb)⟩
  refine ⟨?_, fun b hb r hr => ?_, fun b hstage => ?_, fun hwhole id c => ?_⟩
  · obtain ⟨d, hd, hholds⟩ := Snapshot.holds_installAll s.holds_empty (List.forall_mem_nil _)
      (List.forall_mem_map.mpr hbs.cut)
    refine ⟨d, hd, hholds.same hsound.tables fun t => ?_⟩
    rw [List.nil_append, List.mem_map, List.mem_map]
    exact exists_congr fun b => and_congr_left fun _ => hloaded b
  · have hsome := hsound.registered.finished b (hdone b hb) (by rw [hr]; rfl)
    obtain ⟨r', hr'⟩ := Option.isSome_iff_exists.mp hsome
    obtain ⟨b', hb', hregion, hregistration⟩ := hsound.registered.rows b.region r' hr'
    rw [hr', ← hregistration, hbs.registration b' hb' b hb hregion, hr]
  · exact hsound.indexed.whole (by rw [hstage]; rfl)
  · have hnodes := nodes_run hbs hrange hmax (sound_start s bs) nodes_start hstarts hwhole hrun
    have hmem : (∃ b ∈ σ.placed, ∃ region_nodes, b.nodes = some region_nodes
        ∧ lookup region_nodes id = some c) ↔ ∃ b ∈ bs, ∃ region_nodes,
          b.nodes = some region_nodes ∧ lookup region_nodes id = some c :=
      exists_congr fun b => and_congr_left fun _ => hplaced b
    -- the copy of a bundle that has been done before is over
    have hno : σ.stage.isCopying = false := by
      cases hstage : σ.stage with
      | copying b region_nodes =>
          obtain ⟨hnone, hsome⟩ := hnodes.copying b region_nodes hstage
          have hb : b ∈ bs := hsound.progress.mem b (by rw [hstage]; rfl)
          exact absurd ((hnone b ((hplaced b).mpr hb)).symm.trans hsome)
            (Option.some_ne_none _).symm
      | _ => rfl
    have hof := hnodes.placed hno
    constructor
    · rintro ⟨nodes, hfile, hc⟩
      exact hmem.mp (((hof.there nodes hfile).2 id c).mp hc)
    · intro hc
      cases hfile : σ.host.nodes_file with
      | none =>
          obtain ⟨b, hb, region_nodes, hregion, -⟩ := hc
          exact absurd ((hof.missing hfile b ((hplaced b).mpr hb)).symm.trans hregion)
            (Option.some_ne_none _).symm
      | some nodes =>
          exact ⟨nodes, rfl, ((hof.there nodes hfile).2 id c).mpr (hmem.mpr hc)⟩

end Runs

/-! ### A copy that was killed -/

/-- A node file is there, and nothing announced since has brought nodes. -/
structure Blocked (nodes : List UInt8) (placed finished : List (InstallBundle C))
    (σ : InstallRun C) : Prop where
  file : σ.host.nodes_file = some nodes
  placed : ∃ bs, σ.placed = placed ++ bs ∧ ∀ b ∈ bs, b.nodes = none
  finished : ∃ bs, σ.finished = finished ++ bs ∧ ∀ b ∈ bs, b.nodes = none
  stage : ∀ b, σ.stage.bundle = some b → σ.stage.isPlaced → b.nodes = none
  merging : ∀ b nodes' region_nodes, σ.stage = .merging b nodes' region_nodes → nodes' = nodes
  copying : σ.stage.isCopying = false
  merged : ∀ b nodes' region_nodes, σ.stage ≠ .merged b nodes' region_nodes

section Blocked

variable {nodes : List UInt8} {placed finished : List (InstallBundle C)}

/-- A step that announces nothing, and leaves the node file alone. -/
lemma Blocked.quiet (h : Blocked nodes placed finished σ)
    (hfile : σ'.host.nodes_file = σ.host.nodes_file) (hplaced : σ'.placed = σ.placed)
    (hfinished : σ'.finished = σ.finished)
    (hstage : ∀ b, σ'.stage.bundle = some b → σ'.stage.isPlaced → b.nodes = none)
    (hwriting : σ'.stage.isWriting = false) : Blocked nodes placed finished σ' := by
  refine ⟨hfile.trans h.file, hplaced ▸ h.placed, hfinished ▸ h.finished, hstage,
    fun b n r hs => ?_, ?_, fun b n r hs => ?_⟩
  · rw [hs] at hwriting
    exact absurd hwriting.symm Bool.false_ne_true
  · cases hs : σ'.stage with
    | copying b r =>
        rw [hs] at hwriting
        exact absurd hwriting.symm Bool.false_ne_true
    | _ => rfl
  · rw [hs] at hwriting
    exact absurd hwriting.symm Bool.false_ne_true

/-- A process that ends early. -/
lemma Blocked.stopped (h : Blocked nodes placed finished σ) {host : InstallHost C}
    (hfile : host.nodes_file = σ.host.nodes_file) :
    Blocked nodes placed finished { σ.stop with host := host } :=
  h.quiet hfile rfl rfl (fun _ _ hno => absurd hno Bool.false_ne_true) rfl

/-- **Every step is stopped by a file that cannot be opened.** -/
lemma blocked_step (hrefused : openNodeMap nodes = none) (h : Blocked nodes placed finished σ)
    (hstep : σ.step columns e = some σ') : Blocked nodes placed finished σ' := by
  have hnone : ∀ σ' : InstallRun C, σ'.stage.isPlaced = false →
      ∀ b, σ'.stage.bundle = some b → σ'.stage.isPlaced → b.nodes = none := fun _ hno _ _ hyes =>
    absurd (hno.symm.trans hyes) Bool.false_ne_true
  cases took_of_step hstep with
  | start hidle => exact h.quiet rfl rfl rfl (hnone _ rfl) rfl
  | dropGistIndexes hstage => exact h.quiet rfl rfl rfl (hnone _ rfl) rfl
  | script hstage =>
      rw [script]
      split
      · exact h.stopped rfl
      · exact h.quiet rfl rfl rfl (hnone _ rfl) rfl
  | createIndex hstage ht => exact h.quiet rfl rfl rfl (hnone _ rfl) rfl
  | join hstage =>
      split
      · exact h.stopped rfl
      · exact h.quiet rfl rfl rfl (hnone _ rfl) rfl
  | @openNodes b hstage =>
      rw [openNodes]
      split
      · rename_i hb
        obtain ⟨bs, hplaced, hbs⟩ := h.placed
        refine ⟨h.file, ⟨bs ++ [b], ?_, ?_⟩, h.finished, fun b' hb' _ => ?_, ?_, rfl, ?_⟩
        · show σ.placed ++ [b] = placed ++ (bs ++ [b])
          rw [hplaced, List.append_assoc]
        · exact List.forall_mem_append.mpr ⟨hbs, List.forall_mem_singleton.mpr hb⟩
        · obtain rfl : b = b' := Option.some.inj hb'
          exact hb
        · exact fun _ _ _ hs => absurd hs (by simp)
        · exact fun _ _ _ hs => absurd hs (by simp)
      · rename_i hmissing
        exact absurd (hmissing.symm.trans h.file) (Option.some_ne_none _).symm
      · rename_i region_nodes nodes' hregion hthere
        refine ⟨h.file, h.placed, h.finished, hnone _ rfl, fun b' n r hs => ?_, rfl,
          fun _ _ _ hs => absurd hs (by simp)⟩
        obtain ⟨-, rfl, -⟩ := InstallStage.merging.inj hs
        exact Option.some.inj (hthere.symm.trans h.file)
  | copied hstage =>
      have hno := h.copying
      rw [hstage] at hno
      exact absurd hno.symm Bool.false_ne_true
  | @merged b nodes' region_nodes created_at hstage =>
      obtain rfl := h.merging b nodes' region_nodes hstage
      have hfails : mergeFiles nodes' region_nodes created_at = .error .thrown := by
        rw [mergeFiles, openInput, hrefused]
        rfl
      rw [merge, hfails]
      exact h.stopped rfl
  | rename hstage => exact absurd hstage (h.merged _ _ _)
  | @register b hstage =>
      have hb : b.nodes = none := h.stage b (by rw [hstage]; rfl) (by rw [hstage]; rfl)
      refine h.quiet rfl rfl rfl (fun b' hb' _ => ?_) rfl
      obtain rfl : b = b' := Option.some.inj hb'
      exact hb
  | @seed b state hstage =>
      have hb : b.nodes = none := h.stage b (by rw [hstage]; rfl) (by rw [hstage]; rfl)
      obtain ⟨bs, hfinished, hbs⟩ := h.finished
      refine ⟨h.file, h.placed, ⟨bs ++ [b], ?_, ?_⟩, fun b' hb' _ => ?_, ?_, rfl, ?_⟩
      · show σ.finished ++ [b] = finished ++ (bs ++ [b])
        rw [hfinished, List.append_assoc]
      · exact List.forall_mem_append.mpr ⟨hbs, List.forall_mem_singleton.mpr hb⟩
      · obtain rfl : b = b' := Option.some.inj hb'
        exact hb
      · exact fun _ _ _ hs => absurd hs (by simp [InstallRun.seed])
      · exact fun _ _ _ hs => absurd hs (by simp [InstallRun.seed])
  | killCopy hstage hw =>
      have hno := h.copying
      rw [hstage] at hno
      exact absurd hno.symm Bool.false_ne_true
  | killMerge hstage => exact h.stopped rfl
  | kill hidle hcopy => exact h.stopped rfl

/-- **A copy that was killed blocks every later install.**  A process is killed inside the
copy of the first node file.  In any run from there on the node file stays the part that was
written, and no bundle with nodes is ever put in place or done. -/
theorem killed_copy_blocks {b : InstallBundle C} {region_nodes written : List UInt8}
    (hstage : σ.stage = .copying b region_nodes) (hsorted : SortedFile region_nodes)
    (hlt : region_nodes.length < 2 ^ 63) (hne : written ≠ region_nodes)
    {evs : List (InstallEvent C)}
    (hrun : σ.run columns (.kill (some written) :: evs) = some σ') :
    σ'.host.nodes_file = some written
      ∧ (∃ bs, σ'.placed = σ.placed ++ bs ∧ ∀ b ∈ bs, b.nodes = none)
      ∧ ∃ bs, σ'.finished = σ.finished ++ bs ∧ ∀ b ∈ bs, b.nodes = none := by
  obtain ⟨τ, hkill, hrest⟩ := foldlM_cons_eq_some.mp hrun
  have hblocked : written <+: region_nodes ∧ Blocked written σ.placed σ.finished τ := by
    cases took_of_step hkill with
    | killCopy h hw =>
        obtain ⟨rfl, rfl⟩ := InstallStage.copying.inj (hstage.symm.trans h)
        refine ⟨hw, rfl, ⟨[], (List.append_nil _).symm, List.forall_mem_nil _⟩,
          ⟨[], (List.append_nil _).symm, List.forall_mem_nil _⟩, ?_, ?_, rfl, ?_⟩
        · exact fun _ _ hno => absurd hno Bool.false_ne_true
        · exact fun _ _ _ hs => absurd hs (by simp [stop])
        · exact fun _ _ _ hs => absurd hs (by simp [stop])
    | killMerge h => exact absurd (hstage.symm.trans h) (by simp)
    | kill hidle hcopy => exact absurd hstage (hcopy b region_nodes)
  have hrefused := hsorted.openNodeMap_of_prefix hlt hblocked.1 hne
  have hafter := foldlM_invariant (I := Blocked written σ.placed σ.finished)
    (fun _ _ _ h hs => blocked_step hrefused h hs) hblocked.2 hrest
  exact ⟨hafter.file, hafter.placed, hafter.finished⟩

end Blocked

/-! ### Two regions, four processes -/

/-- The node file of the first region. -/
def oddFile : List UInt8 := writeNodeFile [] ⟨0, 0, 0, 0⟩ 0 odd_nodes

/-- A region with a node file, and one without. -/
def westRegion : InstallBundle Text where
  region := ascii "west"
  tables := (Snapshot.exportOf (· ≤ 2)).files
  nodes := some oddFile
  registration := some ⟨ascii "POLYGON", 0, 0, 1, 1⟩
  exported_at := none

/-- See `westRegion`. -/
def eastRegion : InstallBundle Text where
  region := ascii "east"
  tables := (Snapshot.exportOf (2 ≤ ·)).files
  nodes := none
  registration := none
  exported_at := none

/-- A process up to the node file. -/
def upToNodes (b : InstallBundle Text) : List (InstallEvent Text) :=
  let indexes := kGistIndexes.map fun t => InstallEvent.createIndex t true
  .start b :: .dropGistIndexes :: .script :: (indexes ++ [.join, .openNodes])

/-- One process is killed inside the indexes, two are done, and one is killed inside the
merge. -/
def fourProcesses : List (InstallEvent Text) :=
  let parts : List (List (InstallEvent Text)) :=
    [(upToNodes westRegion).take 5, [.kill none],
      upToNodes westRegion, [.copied, .register, .seed none],
      upToNodes eastRegion, [.register, .seed none],
      upToNodes westRegion, [.kill (some [1, 2])]]
  parts.flatten

/-- The second region is installed, and the first one is tried again. -/
def afterTheCopy : List (InstallEvent Text) :=
  let parts : List (List (InstallEvent Text)) :=
    [upToNodes eastRegion, [.register, .seed none], upToNodes westRegion, [.merged 0]]
  parts.flatten

lemma sortedFile_oddFile : SortedFile oddFile :=
  ⟨_, openNodeMap_writeNodeFile (by decide), by
    rw [OpenNodeMap.Ascending, records_writeNodeFile (by decide)]
    decide, length_writeNodeFile⟩

lemma fromMaster_regions : FromMaster Snapshot.threeAirports (lookup oddFile)
    [westRegion, eastRegion] := by
  refine ⟨List.forall_mem_cons.mpr ⟨?_, List.forall_mem_singleton.mpr ?_⟩,
    List.forall_mem_cons.mpr ⟨?_, List.forall_mem_singleton.mpr ?_⟩,
    List.forall_mem_cons.mpr ⟨?_, List.forall_mem_singleton.mpr ?_⟩, ?_⟩
  · exact Snapshot.cut_of_export rfl rfl (.refl _)
  · exact Snapshot.cut_of_export rfl rfl (.refl _)
  · intro region_nodes h
    exact Option.some.inj h ▸ sortedFile_oddFile
  · exact fun region_nodes h => absurd h.symm (Option.some_ne_none _)
  · intro region_nodes h id c hc
    exact (Option.some.inj h).symm ▸ hc
  · exact fun region_nodes h => absurd h.symm (Option.some_ne_none _)
  · intro b hb b' hb' hregion
    have hne : westRegion.region ≠ eastRegion.region := by decide
    rcases List.mem_pair.mp hb with rfl | rfl <;> rcases List.mem_pair.mp hb' with rfl | rfl
    · rfl
    · exact absurd hregion hne
    · exact absurd hregion.symm hne
    · rfl

lemma lookup_oddFile_range (id : ℤ) (c : Coord) (h : lookup oddFile id = some c) :
    0 ≤ id ∧ id ≤ (3 : ℕ) := by
  have hopen : openNodeMap oddFile = some ⟨oddFile, odd_nodes.length⟩ :=
    openNodeMap_writeNodeFile (by decide)
  have hrecords : (OpenNodeMap.mk oddFile odd_nodes.length).records = odd_nodes :=
    records_writeNodeFile (by decide)
  have hasc : (OpenNodeMap.mk oddFile odd_nodes.length).Ascending := by
    rw [OpenNodeMap.Ascending, hrecords]
    decide
  rw [lookup_eq hopen, select_eq_some_iff_mem hasc, hrecords] at h
  rcases List.mem_pair.mp h with h | h
  · rw [(NodeRecord.mk.inj h).1]
    decide
  · rw [(NodeRecord.mk.inj h).1]
    decide

lemma start_mem_fourProcesses {b : InstallBundle Text} (hb : .start b ∈ fourProcesses) :
    b ∈ [westRegion, eastRegion] := by
  rcases (by simpa [fourProcesses, upToNodes, kGistIndexes] using hb :
    b = westRegion ∨ b = eastRegion ∨ b = westRegion) with rfl | rfl | rfl <;> simp

/-- The regions that are done are both of them. -/
lemma mem_finished_of_regions {σ : InstallRun Text}
    (h : Sound Snapshot.threeAirports [westRegion, eastRegion] σ)
    (hregions : σ.finished.map InstallBundle.region = [ascii "west", ascii "east"]) :
    ∀ b ∈ [westRegion, eastRegion], b ∈ σ.finished := by
  have hmem : ∀ b ∈ [westRegion, eastRegion], ∃ b' ∈ σ.finished, b'.region = b.region := by
    intro b hb
    have hregion : b.region ∈ σ.finished.map InstallBundle.region := by
      rw [hregions]
      rcases List.mem_pair.mp hb with rfl | rfl <;> simp [westRegion, eastRegion]
    exact List.mem_map.mp hregion
  intro b hb
  obtain ⟨b', hb', hsame⟩ := hmem b hb
  have hin := h.progress.loaded_mem b'
    (h.progress.placed_loaded b' (h.progress.finished_placed b' hb'))
  have hne : westRegion.region ≠ eastRegion.region := by decide
  rcases List.mem_pair.mp hb with rfl | rfl <;> rcases List.mem_pair.mp hin with rfl | rfl
  · exact hb'
  · exact absurd hsame.symm hne
  · exact absurd hsame hne
  · exact hb'

theorem installs_recover_regions : ∃ σ,
    start.run Snapshot.threeAirports.columns fourProcesses = some σ
      ∧ σ.host.installed_regions (ascii "west") = some ⟨ascii "POLYGON", 0, 0, 1, 1⟩
      ∧ ∃ nodes, σ.host.nodes_file = some nodes ∧ lookup nodes 3 = some ⟨300, 400⟩ := by
  have heval : (start.run Snapshot.threeAirports.columns fourProcesses).map (fun σ =>
      σ.finished.map InstallBundle.region) = some [ascii "west", ascii "east"] := by
    decide +kernel
  obtain ⟨σ, hrun, hfinished⟩ := Option.map_eq_some_iff.mp heval
  have hsound := sound_run fromMaster_regions.cut (sound_start _ _)
    (fun _ hb => start_mem_fourProcesses hb) hrun
  obtain ⟨-, hregions, -, hnodes⟩ := installs_recover fromMaster_regions lookup_oddFile_range
    (by decide) (fun _ hb => start_mem_fourProcesses hb) hrun
    (mem_finished_of_regions hsound hfinished)
  refine ⟨σ, hrun, hregions westRegion (List.mem_cons_self ..) _ rfl, ?_⟩
  exact (hnodes (by decide +kernel) 3 ⟨300, 400⟩).mpr
    ⟨westRegion, List.mem_cons_self .., oddFile, rfl, by decide⟩

/-- The process of the first region is killed inside its copy; then the second region is
installed, and the first one is tried again. -/
theorem killed_copy_blocks_west : ∃ σ σ',
    start.run Snapshot.threeAirports.columns (upToNodes westRegion) = some σ
      ∧ σ.run Snapshot.threeAirports.columns (.kill (some (oddFile.take 70)) :: afterTheCopy)
        = some σ'
      ∧ σ'.host.nodes_file = some (oddFile.take 70) ∧ ∀ b ∈ σ'.finished, b.nodes = none := by
  obtain ⟨σ, hσ, hstage, hnil⟩ : ∃ σ,
      start.run Snapshot.threeAirports.columns (upToNodes westRegion) = some σ
        ∧ σ.stage = .copying westRegion oddFile ∧ σ.finished = [] := ⟨_, rfl, rfl, rfl⟩
  obtain ⟨σ', hrun⟩ : ∃ σ', σ.run Snapshot.threeAirports.columns
      (.kill (some (oddFile.take 70)) :: afterTheCopy) = some σ' := by
    obtain rfl := Option.some.inj hσ
    exact ⟨_, rfl⟩
  have hlength : oddFile.length = 112 := rfl
  obtain ⟨hfile, -, bs, hfinished, hbs⟩ := killed_copy_blocks hstage sortedFile_oddFile
    (by omega) (by decide) hrun
  refine ⟨σ, σ', hσ, hrun, hfile, ?_⟩
  rw [hfinished, hnil, List.nil_append]
  exact hbs

end InstallRun

end Gpsxdb
