import Mathlib.Tactic
import Gpsxdb.Terrain.TerrainLoader

/-!
When no elevation tile is loaded twice.

* `TerrainRun.Ready`: what holds of a load under way, kept by what a worker does:
  `Ready.idle`, `Ready.take`, `Ready.psql`, `Ready.drop`;
* `Fits`, `FitAll`: the steps between `psql` and the bookkeeping that go well;
* `Sound`, `sound_step`, `sound_of_run`: **the invariant of both tables**; `loaded_once`;
* `run_batchEvents`, `run_cellEvents`: a tile that is not recorded is loaded, whether it has
  rows or not, and so `stop_before_bookkeeping`.
-/

namespace Gpsxdb

namespace TerrainLoader

/-! ### Tiles are loaded once -/

namespace TerrainRun

/-- A batch is not dealt with yet. -/
def Open (r : TerrainRun) (b : ℕ) : Prop :=
  b < r.next_batch → ∃ i, (r.workers i).batch? = some b

/-- **What holds of a load under way**: its tiles have different names, each worker has a
batch of its own, no tile of a batch that is not dealt with is recorded, and none has rows
until its batch is through `psql`. -/
structure Ready (r : TerrainRun) (rows terrain_tiles : List String) : Prop where
  named : ∀ t ∈ r.to_load, ∃ source lat lon, t = addTile source lat lon
  nodup : (r.to_load.map Tile.name).Nodup
  claimed : ∀ i b, (r.workers i).batch? = some b → b < r.next_batch
  own : ∀ i j b, (r.workers i).batch? = some b → (r.workers j).batch? = some b → i = j
  loading : ∀ i b retried tiles, r.workers i = .loading b retried tiles →
    tiles ≠ [] ∧ tiles.Sublist (r.batch b)
  recording : ∀ i b tiles, r.workers i = .recording b tiles →
    tiles ≠ [] ∧ tiles.Sublist (r.batch b)
  unrecorded : ∀ b, r.Open b → ∀ t ∈ r.batch b, t.name ∉ terrain_tiles
  unloaded : ∀ b, r.Open b → (∀ i tiles, r.workers i ≠ .recording b tiles) →
    ∀ t ∈ r.batch b, t.name ∉ rows

variable {r : TerrainRun} {rows terrain_tiles : List String} {i b b' : ℕ} {t t' : Tile}
  {tiles : List Tile}

lemma mem_batch_iff : t ∈ r.batch b ↔ ∃ j, j / kBatchSize = b ∧ r.to_load[j]? = some t := by
  rw [batch, List.mem_iff_getElem?]
  constructor
  · rintro ⟨k, hk⟩
    rw [List.getElem?_take] at hk
    split at hk
    · rename_i hlt
      rw [List.getElem?_drop] at hk
      refine ⟨b * kBatchSize + k, ?_, hk⟩
      rw [Nat.mul_comm, Nat.mul_add_div (by decide), Nat.div_eq_of_lt hlt, Nat.add_zero]
    · exact nomatch hk
  · rintro ⟨j, rfl, hj⟩
    refine ⟨j % kBatchSize, ?_⟩
    rw [List.getElem?_take, if_pos (Nat.mod_lt _ (by decide)), List.getElem?_drop,
      Nat.div_add_mod' j kBatchSize, hj]

lemma mem_of_mem_batch (h : t ∈ r.batch b) : t ∈ r.to_load :=
  List.mem_of_mem_drop (List.mem_of_mem_take h)

/-- A name is in one batch. -/
lemma batch_inj (hnodup : (r.to_load.map Tile.name).Nodup) (h : t ∈ r.batch b)
    (h' : t' ∈ r.batch b') (hname : t.name = t'.name) : b = b' := by
  obtain ⟨j, rfl, hj⟩ := mem_batch_iff.mp h
  obtain ⟨j', rfl, hj'⟩ := mem_batch_iff.mp h'
  have hsame : j = j' := by
    refine (List.getElem?_inj ?_ hnodup).mp ?_
    · rw [List.length_map]
      exact (List.getElem?_eq_some_iff.mp hj).1
    · rw [List.getElem?_map, List.getElem?_map, hj, hj', Option.map_some, Option.map_some, hname]
  rw [hsame]

lemma Ready.nodup_names (h : r.Ready rows terrain_tiles) (hsub : tiles.Sublist (r.batch b)) :
    (tiles.map Tile.name).Nodup :=
  h.nodup.sublist
    ((hsub.trans ((List.take_sublist ..).trans (List.drop_sublist ..))).map Tile.name)

/-- The worker that holds a batch is the one it was, if that is not the one that moves. -/
lemma batch_of_put {w : Stage} {j : ℕ} (hw : w.batch? = none ∨ w.batch? = (r.workers i).batch?)
    (h : ((r.put i w).workers j).batch? = some b) : (r.workers j).batch? = some b := by
  by_cases hji : j = i
  · subst hji
    rw [put_self] at h
    rcases hw with hw | hw
    · exact nomatch hw.symm.trans h
    · exact hw.symm.trans h
  · rwa [put_of_ne hji] at h

lemma open_of_put {w : Stage} (hw : w.batch? = none ∨ w.batch? = (r.workers i).batch?)
    (h : (r.put i w).Open b) : r.Open b := fun hlt =>
  (h hlt).imp fun _ hj => batch_of_put hw hj

/-- A worker that goes on with its batch or drops it, short of `psql`. -/
lemma Ready.idle (h : r.Ready rows terrain_tiles) {w : Stage} (hw : r.Idles i w) :
    (r.put i w).Ready rows terrain_tiles where
  named := h.named
  nodup := h.nodup
  claimed j b hj := h.claimed j b (batch_of_put hw.batch hj)
  own j k b hj hk := h.own j k b (batch_of_put hw.batch hj) (batch_of_put hw.batch hk)
  loading j b retried tiles hj := by
    by_cases hji : j = i
    · subst hji
      rw [put_self] at hj
      exact hw.loading b retried tiles hj
    · rw [put_of_ne hji] at hj
      exact h.loading j b retried tiles hj
  recording j b tiles hj := h.recording j b tiles (workers_of_put hj (hw.after _ _)).2
  unrecorded b hb := h.unrecorded b (open_of_put hw.batch hb)
  unloaded b hb hnone := by
    refine h.unloaded b (open_of_put hw.batch hb) fun j tiles hj => ?_
    have hji : j ≠ i := by
      rintro rfl
      exact hw.before b tiles hj
    exact hnone j tiles ((put_of_ne hji ..).trans hj)

/-- A worker takes the next batch. -/
lemma Ready.take (h : r.Ready rows terrain_tiles) (hi : r.workers i = .idle) :
    TerrainRun.Ready { r.put i (.downloading r.next_batch false) with
      next_batch := r.next_batch + 1 } rows terrain_tiles := by
  have hbatch : ∀ j b, ((r.put i (.downloading r.next_batch false)).workers j).batch? = some b →
      (j = i ∧ b = r.next_batch) ∨ (j ≠ i ∧ (r.workers j).batch? = some b) := by
    intro j b hj
    by_cases hji : j = i
    · subst hji
      rw [put_self] at hj
      exact Or.inl ⟨rfl, (Option.some.inj hj).symm⟩
    · rw [put_of_ne hji] at hj
      exact Or.inr ⟨hji, hj⟩
  have hopen : ∀ b, (b < r.next_batch + 1 →
      ∃ j, ((r.put i (.downloading r.next_batch false)).workers j).batch? = some b) → r.Open b := by
    intro b hb hlt
    obtain ⟨j, hj⟩ := hb (by omega)
    rcases hbatch j b hj with ⟨-, rfl⟩ | ⟨-, hj⟩
    · exact absurd hlt (lt_irrefl _)
    · exact ⟨j, hj⟩
  refine ⟨h.named, h.nodup, fun j b hj => ?_, fun j k b hj hk => ?_, fun j b retried tiles hj => ?_,
    fun j b tiles hj => ?_, fun b hb => h.unrecorded b (hopen b hb), fun b hb hnone => ?_⟩
  · change b < r.next_batch + 1
    rcases hbatch j b hj with ⟨-, rfl⟩ | ⟨-, hj⟩
    · omega
    · exact (h.claimed j b hj).trans (Nat.lt_succ_self _)
  · rcases hbatch j b hj with ⟨hji, hb⟩ | ⟨-, hold⟩ <;>
      rcases hbatch k b hk with ⟨hki, hb'⟩ | ⟨-, hold'⟩
    · exact hji.trans hki.symm
    · exact absurd (hb ▸ h.claimed k b hold') (lt_irrefl _)
    · exact absurd (hb' ▸ h.claimed j b hold) (lt_irrefl _)
    · exact h.own j k b hold hold'
  · exact h.loading j b retried tiles (workers_of_put hj nofun).2
  · exact h.recording j b tiles (workers_of_put hj nofun).2
  · refine h.unloaded b (hopen b hb) fun j tiles hj => ?_
    have hji : j ≠ i := by
      rintro rfl
      exact nomatch hi.symm.trans hj
    exact hnone j tiles ((put_of_ne hji ..).trans hj)

/-- The batch before `psql` has no rows yet. -/
lemma Ready.unloaded_loading (h : r.Ready rows terrain_tiles) {retried : Bool}
    (hi : r.workers i = .loading b retried tiles) : ∀ t ∈ r.batch b, t.name ∉ rows := by
  have hbatch : (r.workers i).batch? = some b := by rw [hi]; rfl
  refine h.unloaded b (fun _ => ⟨i, hbatch⟩) fun j tiles' hj => ?_
  obtain rfl := h.own i j b hbatch (by rw [hj]; rfl)
  exact nomatch hi.symm.trans hj

/-- `psql` commits the rows of a batch. -/
lemma Ready.psql (h : r.Ready rows terrain_tiles) {retried : Bool}
    (hi : r.workers i = .loading b retried tiles) :
    (r.put i (.recording b tiles)).Ready (rows ++ tiles.map Tile.name) terrain_tiles := by
  have hsame : (Stage.recording b tiles).batch? = none
      ∨ (Stage.recording b tiles).batch? = (r.workers i).batch? := Or.inr (by rw [hi]; rfl)
  refine ⟨h.named, h.nodup, fun j b hj => h.claimed j b (batch_of_put hsame hj),
    fun j k b hj hk => h.own j k b (batch_of_put hsame hj) (batch_of_put hsame hk),
    fun j b retried tiles hj => ?_, fun j b' tiles' hj => ?_,
    fun b hb => h.unrecorded b (open_of_put hsame hb), fun b' hb hnone t ht hmem => ?_⟩
  · exact h.loading j b retried tiles (workers_of_put hj nofun).2
  · by_cases hji : j = i
    · rw [hji, put_self] at hj
      obtain ⟨rfl, rfl⟩ := Stage.recording.inj hj
      exact h.loading i b retried tiles hi
    · rw [put_of_ne hji] at hj
      exact h.recording j b' tiles' hj
  · have hne : b ≠ b' := by
      rintro rfl
      exact hnone i tiles (put_self ..)
    rcases List.mem_append.mp hmem with hmem | hmem
    · refine h.unloaded b' (open_of_put hsame hb) (fun j tiles' hj => ?_) t ht hmem
      have hji : j ≠ i := by
        rintro rfl
        exact nomatch hi.symm.trans hj
      exact hnone j tiles' ((put_of_ne hji ..).trans hj)
    · obtain ⟨u, hu, hname⟩ := List.mem_map.mp hmem
      exact hne (batch_inj h.nodup ((h.loading i b retried tiles hi).2.subset hu) ht hname)

/-- A batch is recorded. -/
lemma Ready.drop (h : r.Ready rows terrain_tiles) (hi : r.workers i = .recording b tiles)
    {load : Option TerrainRun} (hload : r.Drops i load) {r' : TerrainRun} (hr' : load = some r')
    {recorded : List String}
    (hrecorded : ∀ name ∈ recorded, name ∈ terrain_tiles ∨ ∃ t ∈ tiles, t.name = name) :
    r'.Ready rows recorded := by
  have hbatch : (r.workers i).batch? = some b := by rw [hi]; rfl
  obtain ⟨w, boot, hw, rfl⟩ := hload r' hr'
  have hopen : ∀ b', (r.put i w).Open b' → r.Open b' ∧ b' ≠ b := by
    refine fun b' hb => ⟨open_of_put (Or.inl hw) hb, ?_⟩
    rintro rfl
    -- nobody holds the batch any more
    obtain ⟨j, hj⟩ := hb (h.claimed i b' hbatch)
    obtain rfl := h.own i j b' hbatch (batch_of_put (Or.inl hw) hj)
    rw [put_self, hw] at hj
    exact nomatch hj
  refine ⟨h.named, h.nodup, fun j b hj => h.claimed j b (batch_of_put (Or.inl hw) hj),
    fun j k b hj hk => h.own j k b (batch_of_put (Or.inl hw) hj) (batch_of_put (Or.inl hw) hk),
    fun j b retried tiles hj => ?_, fun j b tiles hj => ?_, fun b' hb t ht hmem => ?_,
    fun b' hb hnone => ?_⟩
  · exact h.loading j b retried tiles (workers_of_put hj (Stage.ne_of_batch hw rfl)).2
  · exact h.recording j b tiles (workers_of_put hj (Stage.ne_of_batch hw rfl)).2
  · obtain ⟨hb, hne⟩ := hopen b' hb
    rcases hrecorded t.name hmem with hmem | ⟨u, hu, hname⟩
    · exact h.unrecorded b' hb t ht hmem
    · exact hne (batch_inj h.nodup ht ((h.recording i b tiles hi).2.subset hu) hname.symm)
  · obtain ⟨hb, hne⟩ := hopen b' hb
    refine h.unloaded b' hb fun j tiles' hj => ?_
    have hji : j ≠ i := by
      rintro rfl
      exact hne (Stage.recording.inj (hj.symm.trans hi)).1
    exact hnone j tiles' ((put_of_ne hji ..).trans hj)

end TerrainRun

/-- The tiles of a call are tiles, each with a name of its own. -/
lemma named_tiles {c : LoadCall} : ∀ t ∈ c.tiles, ∃ source lat lon, t = addTile source lat lon :=
  fun t ht => ⟨c.source, t.lat, t.lon, (mem_tilesForBBox.mp (List.mem_filter.mp ht).1).1⟩

lemma nodup_names_tiles (c : LoadCall) : (c.tiles.map Tile.name).Nodup := by
  refine List.Nodup.sublist (List.filter_sublist.map _) (List.Nodup.map_on ?_
    (List.Nodup.of_map _ (nodup_tilesForBBox c.source c.box.min_lon c.box.min_lat c.box.max_lon
      c.box.max_lat)))
  intro t ht t' ht' hname
  have heq := (mem_tilesForBBox.mp ht).1
  have heq' := (mem_tilesForBBox.mp ht').1
  rw [heq, heq'] at hname
  obtain ⟨hlat, hlon⟩ := tileName_inj hname
  rw [heq, heq', hlat, hlon]

namespace TerrainState

variable {s s' : TerrainState} {e : Event}

/-- No batch is between `psql` and its bookkeeping, but one that this step records. -/
def Settled (s : TerrainState) (e : Event) : Prop :=
  ∀ r j b tiles, s.load = some r → r.workers j = .recording b tiles →
    ∃ fate, e = .worker j (.record fate)

/-- **A step that fits**: a `psql` that commits the rows of a batch reports so, its
bookkeeping is carried out, and the process does not end in between. -/
def Fits (s : TerrainState) : Event → Prop
  | .worker _ (.psql .inDoubt) => False
  | .worker _ (.record .failed) => False
  | e => ∀ s', s.step e = some s' → s'.load = none → s.Settled e

/-- The steps of a run all fit. -/
def FitAll (s : TerrainState) : List Event → Prop
  | [] => True
  | e :: es => s.Fits e ∧ ∀ s', s.step e = some s' → s'.FitAll es

/-- **The invariant**: rows are there once, and for the tiles that are recorded or about to
be. -/
structure Sound (s : TerrainState) : Prop where
  nodup : s.rows.Nodup
  loaded : Loaded s
  accounted : ∀ name ∈ s.rows, name ∈ s.terrain_tiles ∨ s.Pending name
  ready : ∀ r, s.load = some r → r.Ready s.rows s.terrain_tiles

lemma sound_of_new (h : New s) : Sound s :=
  ⟨by simp [h.rows], loaded_of_new h, by simp [h.rows], by simp [h.load]⟩

/-- A step that fits is not one of the two that lose the bookkeeping, and ends the process
only where nothing is left to record. -/
lemma fits_iff : s.Fits e ↔ (∀ i, e ≠ .worker i (.psql .inDoubt))
    ∧ (∀ i, e ≠ .worker i (.record .failed))
    ∧ ∀ s', s.step e = some s' → s'.load = none → s.Settled e := by
  match e with
  | .start _ | .stop | .worker _ .take | .worker _ (.download _ _) | .worker _ (.psql .committed)
  | .worker _ (.psql .failed) | .worker _ (.record .committed) | .worker _ (.record .inDoubt) =>
      exact ⟨fun h => ⟨nofun, nofun, h⟩, fun h => h.2.2⟩
  | .worker i (.psql .inDoubt) => exact iff_of_false id fun h => h.1 i rfl
  | .worker i (.record .failed) => exact iff_of_false id fun h => h.2.1 i rfl

/-- A step after which the process goes on. -/
lemma settled_of_load {u : TerrainState} {r : TerrainRun} (hstep : s.step e = some u)
    (hload : u.load = some r) : ∀ s', s.step e = some s' → s'.load = none → s.Settled e := by
  intro s' hs' hnone
  obtain rfl := Option.some.inj (hstep.symm.trans hs')
  exact absurd (hload.symm.trans hnone) (Option.some_ne_none r)

/-- A step that fits and ends the process leaves nothing unrecorded. -/
lemma Fits.settled (hfits : s.Fits e) (hstep : s.step e = some s') (hload : s'.load = none) :
    s.Settled e := (fits_iff.mp hfits).2.2 s' hstep hload

lemma fitAll_cons {u : TerrainState} {es : List Event} (hstep : s.step e = some u) :
    s.FitAll (e :: es) ↔ s.Fits e ∧ u.FitAll es := by
  refine and_congr_right fun _ => ⟨fun h => h u hstep, fun h s' hs' => ?_⟩
  obtain rfl := Option.some.inj (hstep.symm.trans hs')
  exact h

lemma Settled.not_pending (h : s.Settled e) (he : ∀ i fate, e ≠ .worker i (.record fate))
    (name : String) : ¬ s.Pending name := by
  rintro ⟨r, i, b, tiles, hr, hi, -⟩
  obtain ⟨fate, heq⟩ := h r i b tiles hr hi
  exact he i fate heq

/-- Another worker still has its batch to record. -/
lemma pending_of_other (u : TerrainState) {r r' : TerrainRun} {i : ℕ} (hr : s.load = some r)
    (hr' : u.load = some r') (hother : ∀ j, j ≠ i → r'.workers j = r.workers j) {name : String}
    (h : s.Pending name) : u.Pending name
      ∨ ∃ b tiles, r.workers i = .recording b tiles ∧ ∃ t ∈ tiles, t.name = name := by
  obtain ⟨r₀, j, b, tiles, hr₀, hj, ht⟩ := h
  obtain rfl := Option.some.inj (hr.symm.trans hr₀)
  by_cases hji : j = i
  · exact Or.inr ⟨b, tiles, hji ▸ hj, ht⟩
  · exact Or.inl ⟨r', j, b, tiles, hr', (hother j hji).trans hj, ht⟩

lemma pending_of_idle {r r' : TerrainRun} {i : ℕ} (hr : s.load = some r)
    (hr' : s'.load = some r') (hi : ∀ b tiles, r.workers i ≠ .recording b tiles)
    (hother : ∀ j, j ≠ i → r'.workers j = r.workers j) {name : String} (h : s.Pending name) :
    s'.Pending name := by
  rcases pending_of_other s' hr hr' hother h with h | ⟨b, tiles, hrec, -⟩
  · exact h
  · exact absurd hrec (hi b tiles)

/-- **A step that fits keeps the invariant.** -/
lemma sound_step (h : Sound s) (hfits : s.Fits e) (hstep : s.step e = some s') : Sound s' := by
  have hmoved := moved_of_step hstep
  have hloaded := h.loaded.moved hmoved
  cases hmoved with
  | skip hload => exact h
  | @start c hload =>
      have hnone : ∀ name, ¬ s.Pending name := by
        rintro name ⟨r, i, b, tiles, hr, -⟩
        exact nomatch hload.symm.trans hr
      refine ⟨h.nodup, hloaded,
        fun name hname => (h.accounted name hname).imp_right fun hp => absurd hp (hnone name), ?_⟩
      rintro r ⟨⟩
      have hnew : ∀ b, ∀ t ∈ TerrainRun.batch ⟨c.tiles.filter fun t => t.name ∉ s.terrain_tiles,
          c.threads, 0, s.terrain.isNone, fun _ => .idle⟩ b, t.name ∉ s.terrain_tiles :=
        fun b t ht => of_decide_eq_true (List.mem_filter.mp (TerrainRun.mem_of_mem_batch ht)).2
      exact ⟨fun t ht => named_tiles t (List.mem_filter.mp ht).1,
        (nodup_names_tiles c).sublist (List.filter_sublist.map _), nofun, nofun, nofun, nofun,
        fun b _ => hnew b, fun b _ _ t ht hmem =>
          (h.accounted t.name hmem).elim (hnew b t ht) (hnone t.name)⟩
  | stop =>
      have hnone := (hfits.settled hstep rfl).not_pending nofun
      exact ⟨h.nodup, hloaded,
        fun name hname => (h.accounted name hname).imp_right fun hp => absurd hp (hnone name),
        nofun⟩
  | @exit i a ha =>
      have hnone := (hfits.settled hstep rfl).not_pending (by rintro j fate ⟨⟩; exact ha fate rfl)
      exact ⟨h.nodup, hloaded,
        fun name hname => (h.accounted name hname).imp_right fun hp => absurd hp (hnone name),
        nofun⟩
  | @take r i hr hi =>
      refine ⟨h.nodup, hloaded,
        fun name hname => (h.accounted name hname).imp_right fun hp => ?_, ?_⟩
      · refine pending_of_idle (i := i) hr rfl (by simp [hi]) ?_ hp
        exact fun j hj => TerrainRun.put_of_ne hj ..
      · rintro r' ⟨⟩
        exact (h.ready r hr).take hi
  | @idle r i a w hr hw =>
      refine ⟨h.nodup, hloaded, fun name hname => (h.accounted name hname).imp_right
        (pending_of_idle hr rfl hw.before fun j hj => TerrainRun.put_of_ne hj ..), ?_⟩
      rintro r' ⟨⟩
      exact (h.ready r hr).idle hw
  | @psql r i b retried tiles hr hi =>
      have hready := h.ready r hr
      obtain ⟨-, hsub⟩ := hready.loading i b retried tiles hi
      refine ⟨?_, hloaded, fun name hname => ?_, ?_⟩
      · refine h.nodup.append (hready.nodup_names hsub) fun name hname hmem => ?_
        obtain ⟨t, ht, rfl⟩ := List.mem_map.mp hmem
        exact hready.unloaded_loading hi t (hsub.subset ht) hname
      · rcases List.mem_append.mp hname with hname | hname
        · exact (h.accounted name hname).imp_right (pending_of_idle hr rfl (by simp [hi])
            fun j hj => TerrainRun.put_of_ne hj ..)
        · obtain ⟨t, ht, rfl⟩ := List.mem_map.mp hname
          exact Or.inr ⟨_, i, b, tiles, rfl, TerrainRun.put_self .., t, ht, rfl⟩
      · rintro r' ⟨⟩
        exact hready.psql hi
  | doubt hr hi => exact hfits.elim
  | @record r i b tiles fate load hr hi hload hfate =>
      refine ⟨h.nodup, hloaded, fun name hname => ?_, fun r' hr' => ?_⟩
      · rcases h.accounted name hname with hname | hpending
        · exact Or.inl (mem_addTiles.mpr (Or.inl hname))
        · cases load with
          | none =>
              -- the process ends with this batch recorded, and there is no other one
              obtain ⟨u, j, b', tiles', hu, hj, ht⟩ := hpending
              obtain rfl := Option.some.inj (hr.symm.trans hu)
              obtain ⟨fate', heq⟩ := hfits.settled hstep rfl r j b' tiles' hr hj
              obtain ⟨rfl, -⟩ := Event.worker.inj heq
              obtain ⟨-, rfl⟩ := Stage.recording.inj (hi.symm.trans hj)
              exact Or.inl (mem_addTiles.mpr (Or.inr ht))
          | some r' =>
              obtain ⟨w, boot, hw, rfl⟩ := hload r' rfl
              have hother : ∀ j, j ≠ i → (r.put i w).workers j = r.workers j :=
                fun j hj => TerrainRun.put_of_ne hj ..
              rcases pending_of_other { s.addTiles tiles with
                load := some { r.put i w with boot := boot } } hr rfl hother hpending
                with hpending | ⟨b', tiles', hrec, ht⟩
              · exact Or.inr hpending
              · obtain ⟨-, rfl⟩ := Stage.recording.inj (hi.symm.trans hrec)
                exact Or.inl (mem_addTiles.mpr (Or.inr ht))
      · exact (h.ready r hr).drop hi hload hr' fun name hname => mem_addTiles.mp hname
  | lose hr hi hload => exact hfits.elim

/-- A run whose steps all fit keeps the invariant. -/
lemma sound_of_run {es : List Event} (hs : Sound s) (hfits : s.FitAll es)
    (h : s.run es = some s') : Sound s' := by
  induction es generalizing s with
  | nil =>
      obtain rfl := Option.some.inj h
      exact hs
  | cons e es ih =>
      obtain ⟨u, hu, h⟩ := foldlM_cons_eq_some.mp h
      exact ih (sound_step hs hfits.1 hu) (hfits.2 u hu) h

/-! ### The load of a batch -/

/-- A call for one cell. -/
def cellCall (source : TerrainSource) (lat lon : ℤ) : LoadCall where
  box := ⟨lon, lat, lon + 1, lat + 1⟩
  source := source
  threads := 4
  skip_bbox := none

lemma tiles_cellCall (source : TerrainSource) (lat lon : ℤ) :
    (cellCall source lat lon).tiles = [addTile source lat lon] := by
  have hfloor : ∀ n : ℤ, ⌊(n : ℚ)⌋ = n := Int.floor_intCast
  have hceil : ∀ n : ℤ, ⌈(n : ℚ) + 1⌉ = n + 1 := by
    intro n
    exact_mod_cast Int.ceil_intCast (R := ℚ) (n + 1)
  have hrange : ∀ n : ℤ, Int.range n (n + 1) = [n] := by
    intro n
    simp [Int.range]
  rw [LoadCall.tiles, cellCall, tilesForBBox, hfloor, hfloor, hceil, hceil, hrange, lonCells,
    if_pos (by omega), hrange]
  simp

lemma step_worker {r : TerrainRun} {i : ℕ} {a : Action} (hr : s.load = some r) (hi : r.Runs i) :
    s.step (.worker i a) = s.workerStep r i (r.workers i) a := by
  rw [step, hr, Option.bind_eq_bind, Option.bind_some, if_pos hi]

/-- The steps of a worker that loads a batch, up to the bookkeeping. -/
def batchEvents (i : ℕ) : List Event :=
  [.worker i .take, .worker i (.download (fun _ => true) true), .worker i (.psql .committed)]

/-- A worker loads the next batch. -/
lemma run_batchEvents {r : TerrainRun} {i : ℕ} (hr : s.load = some r) (hi : r.Runs i)
    (hw : r.workers i = .idle) (hlt : r.next_batch < r.n_batches)
    (hne : r.batch r.next_batch ≠ []) (hboot : s.terrain.isNone = r.boot) :
    ∃ r', s.run (batchEvents i)
      = some { s.addRows (r.batch r.next_batch) with load := some r' } := by
  set b := r.next_batch
  set r₁ : TerrainRun := { r.put i (.downloading b false) with next_batch := b + 1 }
  have htake : s.step (.worker i .take) = some { s with load := some r₁ } := by
    rw [step_worker hr hi, hw, workerStep, if_pos hlt]
  set r₂ := r₁.put i (.loading b false (r.batch b))
  have hdownload : step { s with load := some r₁ } (.worker i (.download (fun _ => true) true))
      = some { s with load := some r₂ } := by
    have htiles : (r₁.batch b).filter (fun _ => true) = r.batch b :=
      List.filter_eq_self.mpr fun _ _ => rfl
    rw [step_worker (r := r₁) rfl hi,
      show r₁.workers i = .downloading b false from TerrainRun.put_self .., workerStep, htiles,
      if_neg hne, if_pos rfl]
  set r₃ := r₂.put i (.recording b (r.batch b))
  have hpsql : step { s with load := some r₂ } (.worker i (.psql .committed))
      = some { s.addRows (r.batch b) with load := some r₃ } := by
    rw [step_worker (r := r₂) rfl hi,
      show r₂.workers i = .loading b false (r.batch b) from TerrainRun.put_self .., workerStep,
      if_neg (by decide : ¬ WMMLoader.Fate.committed = .failed),
      if_neg (by exact not_not_intro hboot), if_pos rfl]
    rfl
  refine ⟨r₃, ?_⟩
  rw [run, batchEvents, foldlM_cons_of_step htake, foldlM_cons_of_step hdownload,
    foldlM_cons_of_step hpsql]
  rfl

/-- The steps of a call for one cell, up to the bookkeeping. -/
def cellEvents (source : TerrainSource) (lat lon : ℤ) : List Event :=
  .start (cellCall source lat lon) :: batchEvents 0

/-- **A tile that is not recorded is loaded**, whether it has rows or not. -/
lemma run_cellEvents (source : TerrainSource) (lat lon : ℤ) (hload : s.load = none)
    (hname : tileName source lat lon ∉ s.terrain_tiles) :
    ∃ r, s.run (cellEvents source lat lon)
      = some { s.addRows [addTile source lat lon] with load := some r } := by
  set r : TerrainRun := ⟨[addTile source lat lon], 4, 0, s.terrain.isNone, fun _ => .idle⟩
  have hbegin : s.begin (cellCall source lat lon) = { s with load := some r } := by
    have hfilter : (cellCall source lat lon).tiles.filter (fun t => t.name ∉ s.terrain_tiles)
        = [addTile source lat lon] := by
      rw [tiles_cellCall, List.filter_cons_of_pos (by exact decide_eq_true hname), List.filter_nil]
    rw [begin, hfilter]
    rfl
  have hruns : r.Runs 0 := by
    rw [TerrainRun.Runs]
    split <;> simp [r]
  have hstart : s.step (.start (cellCall source lat lon)) = some { s with load := some r } := by
    rw [step, if_pos (Option.isNone_iff_eq_none.mpr hload), hbegin]
  have hbatch : r.batch r.next_batch = [addTile source lat lon] := by
    rw [TerrainRun.batch, kBatchSize]
    rfl
  obtain ⟨r', hrun⟩ := run_batchEvents (s := { s with load := some r }) rfl hruns rfl
    (by simp [r, TerrainRun.n_batches, kBatchSize]) (hbatch ▸ List.cons_ne_nil _ _) rfl
  rw [hbatch] at hrun
  refine ⟨r', ?_⟩
  rw [run, cellEvents, foldlM_cons_of_step hstart]
  exact hrun

/-- **When no tile is loaded twice.**  In any run a tile in `terrain_tiles` has its rows;
in a run whose steps all fit no tile has them more than once. -/
theorem loaded_once {es : List Event} (hnew : New s) (h : s.run es = some s') :
    (∀ name ∈ s'.terrain_tiles, name ∈ s'.rows)
      ∧ (s.FitAll es → ∀ name, s'.rows.count name ≤ 1) :=
  ⟨recorded_of_run hnew h, fun hfits =>
    List.nodup_iff_count_le_one.mp (sound_of_run (sound_of_new hnew) hfits h).nodup⟩

/-- A process that ends while no batch is between `psql` and its bookkeeping. -/
lemma fits_stop {r : TerrainRun} (hload : s.load = some r)
    (hno : ∀ j b tiles, r.workers j ≠ .recording b tiles) : s.Fits .stop := by
  intro s' _ _ r' j b tiles hr hj
  obtain rfl := Option.some.inj (hload.symm.trans hr)
  exact absurd hj (hno j b tiles)

/-- The steps of a worker that loads a batch and records it. -/
def recordedEvents (i : ℕ) : List Event := batchEvents i ++ [.worker i (.record .committed)]

/-- A call for a cell, and one for it and the next. -/
def oneCellCall : LoadCall := ⟨⟨8, 47, 9, 48⟩, .CopernicusGLO30, 4, none⟩

def twoCellsCall : LoadCall := ⟨⟨8, 47, 10, 48⟩, .CopernicusGLO30, 4, none⟩

/-- A process that is stopped before `psql`, the same call again, and a call for a box around
its cell. -/
def revisits : List Event :=
  [.start oneCellCall, .worker 0 .take,
    .worker 0 (.download (fun _ => true) true), .stop]
  ++ (.start oneCellCall :: recordedEvents 0 ++ [.stop])
  ++ (.start twoCellsCall :: recordedEvents 2 ++ [.stop])

/-- Both cells are loaded, each of them once. -/
theorem loaded_once_revisits : ∃ s', run ⟨none, [], none⟩ revisits = some s'
    ∧ s'.rows = [tileName .CopernicusGLO30 47 8, tileName .CopernicusGLO30 47 9]
    ∧ (∀ name ∈ s'.terrain_tiles, name ∈ s'.rows) ∧ ∀ name, s'.rows.count name ≤ 1 := by
  have hfits : FitAll ⟨none, [], none⟩ revisits := by
    -- stopped before `psql`
    iterate 3 refine (fitAll_cons rfl).mpr ⟨settled_of_load rfl rfl, ?_⟩
    refine (fitAll_cons rfl).mpr ⟨fits_stop rfl fun j b tiles => ?_, ?_⟩
    · rcases j with _ | j <;> exact nofun
    -- the call again, and its end
    iterate 5 refine (fitAll_cons rfl).mpr ⟨settled_of_load rfl rfl, ?_⟩
    refine (fitAll_cons rfl).mpr ⟨fits_stop rfl fun j b tiles => ?_, ?_⟩
    · rcases j with _ | j <;> exact nofun
    -- the box
    iterate 5 refine (fitAll_cons rfl).mpr ⟨settled_of_load rfl rfl, ?_⟩
    refine (fitAll_cons rfl).mpr ⟨fits_stop rfl fun j b tiles => ?_, trivial⟩
    rcases j with _ | _ | _ | j <;> exact nofun
  have hrun : run ⟨none, [], none⟩ revisits = some ⟨some [tileName .CopernicusGLO30 47 8,
      tileName .CopernicusGLO30 47 9], [tileName .CopernicusGLO30 47 8,
      tileName .CopernicusGLO30 47 9], none⟩ := rfl
  have hall := loaded_once ⟨rfl, rfl, rfl⟩ hrun
  exact ⟨_, hrun, rfl, hall.1, hall.2 hfits⟩

/-- **A load that is stopped between `psql` and the bookkeeping** loads its tiles again when
it is run again. -/
theorem stop_before_bookkeeping : ∃ s', run ⟨none, [], none⟩ (cellEvents .CopernicusGLO30 47 8
      ++ .stop :: cellEvents .CopernicusGLO30 47 8) = some s'
    ∧ s'.rows.count (tileName .CopernicusGLO30 47 8) = 2 := by
  set s : TerrainState := addRows ⟨none, [], none⟩ [addTile .CopernicusGLO30 47 8]
  obtain ⟨r, hrun⟩ := run_cellEvents (s := ⟨none, [], none⟩) .CopernicusGLO30 47 8 rfl
    List.not_mem_nil
  obtain ⟨r', hagain⟩ := run_cellEvents (s := s) .CopernicusGLO30 47 8 rfl List.not_mem_nil
  have hstop : run { s with load := some r } [.stop] = some s := rfl
  refine ⟨_, (foldlM_append_of_run hrun _).trans ((foldlM_append_of_run hstop _).trans hagain), ?_⟩
  exact List.count_replicate_self (n := 2)

end TerrainState

end TerrainLoader

end Gpsxdb
