import Mathlib.Tactic
import Gpsxdb.Library.Cells
import Gpsxdb.Delta.Tables

/-!
What an upsert does to the tag rows of an entity, key by key.

* `valuesOf`: the values an entity has under a key; `perm_tags_iff`;
* `valuesFor`: the values of the tags of a change that clean to a key;
* `valuesOf_diffTag`, `DiffInv`: one turn of the loop of `diffTags`, and what it
  has done so far;
* `valuesOf_diffTags`: **the whole of it**: the values under a key are brought to
  the first one of the change, the others are added to it, and without any the
  rows are deleted.
-/

namespace Gpsxdb

/-- The values an entity has under a key. -/
def valuesOf (rows : List TagRecord) (id : ℤ) (key : Text) : List Text :=
  (rows.filter fun g => g.id == id && g.key == key).map TagRecord.value

/-- The values among cleaned tags that have a key. -/
def valuesUnder (tags : List (Text × Text)) (key : Text) : List Text :=
  (tags.filter fun kv => kv.1 == key).map Prod.snd

/-- The values of a change under a cleaned key. -/
def valuesFor (tags : Tags) (is_node : Bool) (key : Text) : List Text :=
  valuesUnder (survivingTags tags is_node) key

/-- What an upsert does under a key, from the values it brings. -/
def upsertOp : List Text → BagOp Text
  | [] => .clear
  | v :: rest => .put v rest

variable {rows : List TagRecord} {id i : ℤ} {key : Text}

/-! ### Rows -/

lemma valuesOf_append (rows' : List TagRecord) :
    valuesOf (rows ++ rows') i key = valuesOf rows i key ++ valuesOf rows' i key := by
  rw [valuesOf, List.filter_append, List.map_append]
  rfl

lemma valuesOf_singleton (g : TagRecord) :
    valuesOf [g] i key = if g.id = i ∧ g.key = key then [g.value] else [] := by
  by_cases h : g.id = i ∧ g.key = key
  · simp [valuesOf, h]
  · have hnot : ¬ (g.id == i && g.key == key) = true := by simpa using h
    simp [valuesOf, hnot, h]

lemma valuesOf_cons (g : TagRecord) : valuesOf (g :: rows) i key
    = (if g.id = i ∧ g.key = key then [g.value] else []) ++ valuesOf rows i key := by
  rw [← List.singleton_append, valuesOf_append, valuesOf_singleton]

lemma count_eq_count_valuesOf (rows : List TagRecord) (g : TagRecord) :
    rows.count g = (valuesOf rows g.id g.key).count g.value := by
  induction rows with
  | nil => rfl
  | cons b rows ih =>
      rw [List.count_cons, ih, valuesOf_cons, List.count_append, add_comm]
      congr 1
      by_cases hkey : b.id = g.id ∧ b.key = g.key
      · have hiff : b = g ↔ b.value = g.value := by
          rw [TagRecord.mk.injEq]
          simp [hkey]
        simp [hkey, hiff, List.count_singleton]
      · have hne : b ≠ g := by
          rintro rfl
          exact hkey ⟨rfl, rfl⟩
        simp [hkey, hne]

/-- Tag tables hold the same rows exactly if every entity has the same values
under every key. -/
lemma perm_tags_iff {rows rows' : List TagRecord} :
    rows.Perm rows' ↔ ∀ id key, (valuesOf rows id key).Perm (valuesOf rows' id key) := by
  constructor
  · exact fun h id key => (h.filter _).map _
  · intro h
    rw [List.perm_iff_count]
    intro g
    rw [count_eq_count_valuesOf, count_eq_count_valuesOf, (h g.id g.key).count_eq]

/-! ### The three statements -/

/-- `INSERT`. -/
lemma valuesOf_insert (g : TagRecord) : valuesOf (rows ++ [g]) i key
    = valuesOf rows i key ++ if g.id = i ∧ g.key = key then [g.value] else [] := by
  rw [valuesOf_append, valuesOf_singleton]

/-- `UPDATE`. -/
lemma valuesOf_update (id : ℤ) (k v : Text) :
    valuesOf (rows.map fun g => if g.id = id ∧ g.key = k then { g with value := v } else g) i key
      = if i = id ∧ key = k then (valuesOf rows i key).map fun _ => v else valuesOf rows i key := by
  induction rows with
  | nil => simp [valuesOf]
  | cons g rows ih =>
      rw [List.map_cons, valuesOf_cons, valuesOf_cons, ih]
      by_cases hg : g.id = id ∧ g.key = k
      · obtain ⟨rfl, rfl⟩ := hg
        by_cases hi : g.id = i ∧ g.key = key
        · obtain ⟨rfl, rfl⟩ := hi
          simp
        · have hne : ¬ (i = g.id ∧ key = g.key) := fun h => hi ⟨h.1.symm, h.2.symm⟩
          simp [hi, hne]
      · simp only [hg, if_false]
        by_cases hi : i = id ∧ key = k
        · obtain ⟨rfl, rfl⟩ := hi
          simp [hg]
        · simp [hi]

/-- `DELETE`. -/
lemma valuesOf_filter (p : ℤ → Text → Bool) :
    valuesOf (rows.filter fun g => p g.id g.key) i key
      = if p i key then valuesOf rows i key else [] := by
  rw [valuesOf, List.filter_filter]
  by_cases h : p i key = true
  · rw [if_pos h, valuesOf]
    refine congrArg _ (List.filter_congr fun g _ => ?_)
    by_cases hg : g.id = i ∧ g.key = key
    · obtain ⟨rfl, rfl⟩ := hg
      simp [h]
    · have hnot : (g.id == i && g.key == key) = false := by simpa using hg
      simp [hnot]
  · rw [if_neg h]
    refine List.map_eq_nil_iff.mpr (List.filter_eq_nil_iff.mpr fun g _ => ?_)
    intro hg
    simp only [Bool.and_eq_true, beq_iff_eq] at hg
    exact h (by rw [← hg.1.1, ← hg.1.2]; exact hg.2)

/-! ### The loop -/

/-- One turn of the loop. -/
lemma valuesOf_diffTag (s : List TagRecord × (Text → Option Text)) (tag : Text × Text) :
    valuesOf (diffTag id s tag).1 i key
      = if i = id ∧ key = tag.1 then
          match s.2 key with
          | none => valuesOf s.1 i key ++ [tag.2]
          | some value => if value = tag.2 then valuesOf s.1 i key
              else (valuesOf s.1 i key).map fun _ => tag.2
        else valuesOf s.1 i key := by
  rw [diffTag]
  dsimp only
  rcases hs : s.2 tag.1 with _ | value
  · rw [valuesOf_insert]
    by_cases h : i = id ∧ key = tag.1
    · obtain ⟨rfl, rfl⟩ := h
      simp [hs]
    · have hne : ¬ (id = i ∧ tag.1 = key) := fun h' => h ⟨h'.1.symm, h'.2.symm⟩
      simp [h, hne]
  · dsimp only
    split
    · rw [valuesOf_update]
      by_cases h : i = id ∧ key = tag.1
      · obtain ⟨rfl, rfl⟩ := h
        simp [hs, ‹value ≠ tag.2›]
      · simp [h]
    · rename_i heq
      obtain rfl : value = tag.2 := not_not.mp heq
      by_cases h : i = id ∧ key = tag.1
      · obtain ⟨rfl, rfl⟩ := h
        simp [hs]
      · simp [h]

/-- What the loop has done after some of the tags: the values of a key seen are
brought to its first value with the others added, and a key not seen is left for
the `DELETE`s if there are rows of it. -/
structure DiffInv (id : ℤ) (rows : List TagRecord) (seen : List (Text × Text))
    (s : List TagRecord × (Text → Option Text)) : Prop where
  other : ∀ i key, i ≠ id → valuesOf s.1 i key = valuesOf rows i key
  unseen : ∀ key, valuesUnder seen key = [] → valuesOf s.1 id key = valuesOf rows id key
    ∧ s.2 key = (valuesOf rows id key).getLast?
  seen : ∀ key v rest, valuesUnder seen key = v :: rest →
    valuesOf s.1 id key = setAll v (valuesOf rows id key) ++ rest ∧ s.2 key = none

lemma valuesUnder_concat (seen : List (Text × Text)) (tag : Text × Text) (key : Text) :
    valuesUnder (seen ++ [tag]) key
      = valuesUnder seen key ++ if key = tag.1 then [tag.2] else [] := by
  rw [valuesUnder, List.filter_append, List.map_append]
  by_cases h : key = tag.1
  · simp [valuesUnder, h]
  · have hne : ¬ tag.1 = key := fun h' => h h'.symm
    simp [valuesUnder, h, hne]

/-- **One turn** keeps the invariant. -/
lemma diffInv_step {seen : List (Text × Text)} {s : List TagRecord × (Text → Option Text)}
    (h : DiffInv id rows seen s) (tag : Text × Text) :
    DiffInv id rows (seen ++ [tag]) (diffTag id s tag) := by
  have hexisting : ∀ key, (diffTag id s tag).2 key = if key = tag.1 then none else s.2 key := by
    intro key
    rw [diffTag]
    by_cases hk : key = tag.1
    · rw [if_pos hk, hk]
      exact Function.update_self ..
    · rw [if_neg hk]
      exact Function.update_of_ne hk ..
  refine ⟨fun i key hi => ?_, fun key hkey => ?_, fun key v rest hkey => ?_⟩
  · rw [valuesOf_diffTag, if_neg (fun h' => hi h'.1), h.other i key hi]
  · rw [valuesUnder_concat, List.append_eq_nil_iff] at hkey
    have hne : ¬ key = tag.1 := by
      intro heq
      simp [heq] at hkey
    rw [valuesOf_diffTag, if_neg (fun h' => hne h'.2), hexisting, if_neg hne]
    exact h.unseen key hkey.1
  · rw [valuesUnder_concat] at hkey
    rw [valuesOf_diffTag, hexisting]
    by_cases heq : key = tag.1
    · rw [if_pos heq] at hkey
      rw [if_pos ⟨rfl, heq⟩, if_pos heq]
      refine ⟨?_, rfl⟩
      rcases hseen : valuesUnder seen key with _ | ⟨w, ws⟩
      · -- the first value of the key
        rw [hseen, List.nil_append] at hkey
        obtain ⟨rfl, rfl⟩ := List.cons.inj hkey
        obtain ⟨hrows, hex⟩ := h.unseen key hseen
        rw [hrows, hex, List.append_nil, setAll]
        rcases List.eq_nil_or_concat (valuesOf rows id key) with hnil | ⟨init, last, hcat⟩
        · simp [hnil]
        · rw [hcat]
          simp
      · -- a further one
        rw [hseen, List.cons_append] at hkey
        obtain ⟨rfl, rfl⟩ := List.cons.inj hkey
        obtain ⟨hrows, hex⟩ := h.seen key w ws hseen
        rw [hrows, hex]
        exact List.append_assoc ..
    · rw [if_neg heq, List.append_nil] at hkey
      rw [if_neg (fun h' => heq h'.2), if_neg heq]
      exact h.seen key v rest hkey

/-! ### The calls -/

/-- **What `diffTags` does** under each key. -/
theorem valuesOf_diffTags (id : ℤ) (tags : Tags) (is_node : Bool) (rows : List TagRecord) (i : ℤ)
    (key : Text) : valuesOf (diffTags id tags is_node rows) i key
      = if i = id then (upsertOp (valuesFor tags is_node key)).act (valuesOf rows i key)
        else valuesOf rows i key := by
  have hinv : ∀ seen, DiffInv id rows seen (seen.foldl (diffTag id) (rows, fun key =>
      ((rows.filter fun g => g.id == id && g.key == key).getLast?).map TagRecord.value)) := by
    intro seen
    induction seen using List.reverseRecOn with
    | nil => exact ⟨fun _ _ _ => rfl, fun _ _ => ⟨rfl, List.getLast?_map.symm⟩,
        fun _ _ _ hkey => by simp [valuesUnder] at hkey⟩
    | append_singleton seen tag ih =>
        rw [List.foldl_append]
        exact diffInv_step ih tag
  obtain ⟨hother, hunseen, hseen⟩ := hinv (survivingTags tags is_node)
  rw [diffTags]
  dsimp only
  generalize (survivingTags tags is_node).foldl (diffTag id) (rows, fun key =>
    ((rows.filter fun g => g.id == id && g.key == key).getLast?).map TagRecord.value) = s at *
  rw [valuesOf_filter (fun i key => !(i == id && (s.2 key).isSome))]
  by_cases hi : i = id
  · subst hi
    rw [if_pos rfl, valuesFor]
    rcases hvalues : valuesUnder (survivingTags tags is_node) key with _ | ⟨v, rest⟩
    · obtain ⟨hrows, hex⟩ := hunseen key hvalues
      rw [hex]
      rcases List.eq_nil_or_concat (valuesOf rows i key) with hnil | ⟨init, last, hcat⟩
      · simp [hnil, hrows, upsertOp, BagOp.act]
      · simp [hcat, upsertOp, BagOp.act]
    · obtain ⟨hrows, hex⟩ := hseen key v rest hvalues
      simp [hex, hrows, upsertOp, BagOp.act]
  · rw [if_neg hi, hother i key hi]
    simp [hi]

/-- What `deleteEntity` does under each key. -/
lemma valuesOf_filter_id (id : ℤ) (rows : List TagRecord) (i : ℤ) (key : Text) :
    valuesOf (rows.filter fun g => g.id != id) i key
      = if i = id then [] else valuesOf rows i key := by
  rw [valuesOf_filter (fun i _ => i != id)]
  by_cases hi : i = id <;> simp [hi]

end Gpsxdb
