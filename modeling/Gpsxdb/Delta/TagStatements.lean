import Mathlib.Tactic
import Gpsxdb.Delta.TagCells

/-!
The statements of `diffTags`, and what they leave.

* `TagStatement`: an `INSERT`, an `UPDATE` or a `DELETE` on the tag table;
* `diffStatements`: the statements of a call, those of the loop and then one
  `DELETE` for each key still in `existing`;
* `foldl_exec_diffStatements`: executed one after another, they do what
  `diffTags` does;
* `valuesOf_diffTags_of_nodup`: with distinct keys, the values under a key are
  the one the change brings, if it brings one;
* `tagsOf_diffTags_perm`, `other_diffTags`: the rows of the entity and those of
  the others;
* `diffStatements_of_settled`: where the rows are those of the tags, there is
  nothing to say;
* `diffTags_exact`: **the call is exact**.
-/

namespace Gpsxdb

/-! ### Statements -/

/-- A statement of `diffTags`, always for the id of the entity. -/
inductive TagStatement where
  | insert (key value : Text)
  | update (key value : Text)
  | delete (key : Text)
deriving DecidableEq

/-- What a statement does to the tag table. -/
def TagStatement.exec (id : ℤ) (rows : List TagRecord) : TagStatement → List TagRecord
  | insert key value => rows ++ [⟨id, key, value⟩]
  | update key value =>
      rows.map fun g => if g.id = id ∧ g.key = key then { g with value := value } else g
  | delete key => rows.filter fun g => !(g.id == id && g.key == key)

/-- `existing`: of rows with one key, the last. -/
def existingValue (id : ℤ) (rows : List TagRecord) (key : Text) : Option Text :=
  (valuesOf rows id key).getLast?

/-- The statement for one tag, from what `existing` has under its key. -/
def tagStatement (existing : Text → Option Text) (tag : Text × Text) : List TagStatement :=
  match existing tag.1 with
  | none => [.insert tag.1 tag.2]
  | some value => if value ≠ tag.2 then [.update tag.1 tag.2] else []

/-- The loop over the tags: its statements, and what it leaves in `existing`. -/
def loopStatements (existing : Text → Option Text) :
    List (Text × Text) → List TagStatement × (Text → Option Text)
  | [] => ([], existing)
  | tag :: tags =>
      let rest := loopStatements (Function.update existing tag.1 none) tags
      (tagStatement existing tag ++ rest.1, rest.2)

/-- The keys of an entity, each once. -/
def keysOf (id : ℤ) (rows : List TagRecord) : List Text :=
  ((rows.filter fun g => g.id == id).map TagRecord.key).dedup

/-- The statements of `diffTags`, in order. -/
def diffStatements (id : ℤ) (tags : Tags) (is_node : Bool) (rows : List TagRecord) :
    List TagStatement :=
  let loop := loopStatements (existingValue id rows) (survivingTags tags is_node)
  loop.1 ++ ((keysOf id rows).filter fun key => (loop.2 key).isSome).map .delete

section

variable {id : ℤ} {rows : List TagRecord} {tags : Tags} {is_node : Bool}

/-! ### The statements and the rows -/

/-- The statement for a tag does what a turn of the loop does. -/
lemma diffTag_eq (s : List TagRecord × (Text → Option Text)) (tag : Text × Text) :
    diffTag id s tag
      = ((tagStatement s.2 tag).foldl (TagStatement.exec id) s.1,
          Function.update s.2 tag.1 none) := by
  rw [diffTag, tagStatement]
  cases s.2 tag.1 with
  | none => rfl
  | some value =>
      dsimp only
      split <;> rfl

/-- The statements of the loop do what the loop does. -/
lemma foldl_diffTag_eq (ts : List (Text × Text)) (s : List TagRecord × (Text → Option Text)) :
    ts.foldl (diffTag id) s
      = ((loopStatements s.2 ts).1.foldl (TagStatement.exec id) s.1,
          (loopStatements s.2 ts).2) := by
  induction ts generalizing s with
  | nil => rfl
  | cons tag ts ih =>
      rw [List.foldl_cons, ih, diffTag_eq, loopStatements, List.foldl_append]

/-- A key without a row is not in `existing`, and the loop only takes keys out. -/
lemma mem_keysOf_of_isSome {key : Text} {ts : List (Text × Text)} {existing : Text → Option Text}
    (hex : ∀ key, (existing key).isSome → key ∈ keysOf id rows)
    (h : ((loopStatements existing ts).2 key).isSome) : key ∈ keysOf id rows := by
  induction ts generalizing existing with
  | nil => exact hex key h
  | cons tag ts ih =>
      refine ih (fun k hk => ?_) h
      by_cases heq : k = tag.1
      · rw [heq, Function.update_self] at hk
        cases hk
      · rw [Function.update_of_ne heq] at hk
        exact hex k hk

lemma mem_keysOf_iff {key : Text} : key ∈ keysOf id rows ↔ valuesOf rows id key ≠ [] := by
  simp only [keysOf, List.mem_dedup, List.mem_map, List.mem_filter, valuesOf, ne_eq,
    List.map_eq_nil_iff, List.filter_eq_nil_iff, not_forall, not_not, Bool.and_eq_true, beq_iff_eq]
  constructor
  · rintro ⟨g, ⟨hg, hid⟩, hkey⟩
    exact ⟨g, hg, hid, hkey⟩
  · rintro ⟨g, hg, hid, hkey⟩
    exact ⟨g, ⟨hg, hid⟩, hkey⟩

lemma mem_keysOf_of_existing {key : Text} (h : (existingValue id rows key).isSome) :
    key ∈ keysOf id rows := by
  rw [mem_keysOf_iff]
  intro hnil
  rw [existingValue, hnil] at h
  cases h

/-- The `DELETE`s for some keys, one after another. -/
lemma foldl_exec_delete (keys : List Text) (l : List TagRecord) :
    (keys.map TagStatement.delete).foldl (TagStatement.exec id) l
      = l.filter fun g => !(g.id == id && keys.contains g.key) := by
  induction keys generalizing l with
  | nil => simp
  | cons key keys ih =>
      rw [List.map_cons, List.foldl_cons, ih, TagStatement.exec, List.filter_filter]
      refine List.filter_congr fun g _ => ?_
      rw [List.contains_cons]
      cases g.id == id <;> cases g.key == key <;> simp

/-- **The statements do what the call does.** -/
theorem foldl_exec_diffStatements :
    (diffStatements id tags is_node rows).foldl (TagStatement.exec id) rows
      = diffTags id tags is_node rows := by
  have hex : (fun key =>
      ((rows.filter fun g => g.id == id && g.key == key).getLast?).map TagRecord.value)
        = existingValue id rows := by
    funext key
    rw [existingValue, valuesOf, List.getLast?_map]
  rw [diffStatements, diffTags]
  dsimp only
  rw [hex, foldl_diffTag_eq, List.foldl_append, foldl_exec_delete]
  refine List.filter_congr fun g _ => ?_
  have hmem : ((keysOf id rows).filter fun key =>
      ((loopStatements (existingValue id rows) (survivingTags tags is_node)).2 key).isSome).contains
        g.key = ((loopStatements (existingValue id rows) (survivingTags tags is_node)).2
          g.key).isSome := by
    rw [Bool.eq_iff_iff, List.contains_iff_mem, List.mem_filter]
    exact ⟨And.right, fun h => ⟨mem_keysOf_of_isSome (fun _ => mem_keysOf_of_existing) h, h⟩⟩
  rw [hmem]

/-! ### Distinct keys -/

/-- The rows of an entity have distinct keys. -/
def DistinctKeys (id : ℤ) (rows : List TagRecord) : Prop :=
  ((rows.filter fun g => g.id == id).map TagRecord.key).Nodup

instance : Decidable (DistinctKeys id rows) := inferInstanceAs (Decidable (List.Nodup _))

lemma length_valuesOf (id : ℤ) (rows : List TagRecord) (key : Text) :
    (valuesOf rows id key).length
      = ((rows.filter fun g => g.id == id).map TagRecord.key).count key := by
  rw [valuesOf, List.length_map, List.count_eq_countP, List.countP_map, List.countP_filter,
    List.countP_eq_length_filter]
  refine congrArg _ (List.filter_congr fun g _ => ?_)
  exact Bool.and_comm ..

lemma length_valuesUnder (ts : List (Text × Text)) (key : Text) :
    (valuesUnder ts key).length = (ts.map Prod.fst).count key := by
  rw [valuesUnder, List.length_map, List.count_eq_countP, List.countP_map,
    List.countP_eq_length_filter]
  rfl

/-- The rows that tags stand for. -/
def rowsFor (id : ℤ) (ts : List (Text × Text)) : List TagRecord :=
  ts.map fun kv => ⟨id, kv.1, kv.2⟩

lemma valuesOf_rowsFor (ts : List (Text × Text)) (i : ℤ) (key : Text) :
    valuesOf (rowsFor id ts) i key = if i = id then valuesUnder ts key else [] := by
  induction ts with
  | nil => simp [rowsFor, valuesOf, valuesUnder]
  | cons kv ts ih =>
      have hcons : rowsFor id (kv :: ts) = ⟨id, kv.1, kv.2⟩ :: rowsFor id ts := rfl
      rw [hcons, valuesOf_cons, ih]
      by_cases hi : i = id
      · subst hi
        by_cases hkey : kv.1 = key <;> simp [valuesUnder, hkey]
      · have hne : ¬ id = i := fun h => hi h.symm
        simp [hi, hne]

/-- **Under each key** there is the value the change brings, if it brings one. -/
lemma valuesOf_diffTags_of_nodup (hrows : DistinctKeys id rows)
    (htags : ((survivingTags tags is_node).map Prod.fst).Nodup) (key : Text) :
    valuesOf (diffTags id tags is_node rows) id key = valuesFor tags is_node key := by
  have hold : (valuesOf rows id key).length ≤ 1 := by
    rw [length_valuesOf]
    exact List.nodup_iff_count_le_one.mp hrows key
  have hnew : (valuesFor tags is_node key).length ≤ 1 := by
    rw [valuesFor, length_valuesUnder]
    exact List.nodup_iff_count_le_one.mp htags key
  rw [valuesOf_diffTags, if_pos rfl]
  cases hval : valuesFor tags is_node key with
  | nil => rfl
  | cons v rest =>
      have hrest : rest = [] := by
        rw [hval, List.length_cons] at hnew
        exact List.length_eq_zero_iff.mp (by omega)
      rw [hrest, upsertOp, BagOp.act, List.append_nil]
      cases hl : valuesOf rows id key with
      | nil => rfl
      | cons w l =>
          have hnil : l = [] := by
            rw [hl, List.length_cons] at hold
            exact List.length_eq_zero_iff.mp (by omega)
          rw [hnil, setAll]
          by_cases hw : w = v <;> simp [hw]

/-- **The rows of the entity** are those its tags stand for. -/
lemma tagsOf_diffTags_perm (hrows : DistinctKeys id rows)
    (htags : ((survivingTags tags is_node).map Prod.fst).Nodup) :
    ((diffTags id tags is_node rows).filter fun g => g.id == id).Perm
      (rowsFor id (survivingTags tags is_node)) := by
  rw [perm_tags_iff]
  intro i key
  rw [valuesOf_filter (fun i _ => i == id), valuesOf_rowsFor]
  by_cases hi : i = id
  · subst hi
    simp [valuesOf_diffTags_of_nodup hrows htags, valuesFor]
  · simp [hi]

/-- **The other rows** stay where they are. -/
lemma other_diffTags (id : ℤ) (tags : Tags) (is_node : Bool) (rows : List TagRecord) :
    (diffTags id tags is_node rows).filter (fun g => g.id != id)
      = rows.filter fun g => g.id != id := by
  have hexec : ∀ (l : List TagRecord) (st : TagStatement),
      (st.exec id l).filter (fun g => g.id != id) = l.filter fun g => g.id != id := by
    intro l st
    cases st with
    | insert key value => simp [TagStatement.exec, List.filter_append]
    | update key value =>
        rw [TagStatement.exec, List.filter_map]
        have hid : ((fun g : TagRecord => g.id != id) ∘ fun g =>
            if g.id = id ∧ g.key = key then { g with value := value } else g)
              = fun g => g.id != id := by
          funext g
          rw [Function.comp_apply]
          split <;> rfl
        rw [hid]
        refine (List.map_congr_left fun g hg => ?_).trans (List.map_id _)
        have hne : g.id ≠ id := by simpa using (List.mem_filter.mp hg).2
        simp [hne]
    | delete key =>
        rw [TagStatement.exec, List.filter_filter]
        refine List.filter_congr fun g _ => ?_
        by_cases hid : g.id = id <;> simp [hid]
  rw [← foldl_exec_diffStatements]
  induction diffStatements id tags is_node rows generalizing rows with
  | nil => rfl
  | cons st sts ih => rw [List.foldl_cons, ih, hexec]

/-! ### A second call -/

/-- What the loop leaves in `existing`. -/
lemma loopStatements_left (existing : Text → Option Text) (ts : List (Text × Text)) (key : Text) :
    (loopStatements existing ts).2 key
      = if key ∈ ts.map Prod.fst then none else existing key := by
  induction ts generalizing existing with
  | nil => simp [loopStatements]
  | cons tag ts ih =>
      rw [loopStatements, ih]
      by_cases hkey : key = tag.1
      · simp [hkey]
      · rw [Function.update_of_ne hkey, List.map_cons]
        simp only [List.mem_cons, hkey, false_or]

/-- Where `existing` has the tags already, the loop has nothing to say. -/
lemma loopStatements_of_settled {existing : Text → Option Text} {ts : List (Text × Text)}
    (hnodup : (ts.map Prod.fst).Nodup) (hex : ∀ tag ∈ ts, existing tag.1 = some tag.2) :
    (loopStatements existing ts).1 = [] := by
  induction ts generalizing existing with
  | nil => rfl
  | cons tag ts ih =>
      rw [List.map_cons, List.nodup_cons] at hnodup
      have hhead : tagStatement existing tag = [] := by
        simp [tagStatement, hex tag (List.mem_cons_self ..)]
      rw [loopStatements, hhead, List.nil_append]
      refine ih hnodup.2 fun kv hkv => ?_
      have hne : kv.1 ≠ tag.1 := by
        intro heq
        exact hnodup.1 (heq ▸ List.mem_map_of_mem hkv)
      rw [Function.update_of_ne hne]
      exact hex kv (List.mem_cons_of_mem _ hkv)

/-- A key without a value among tags is not among their keys. -/
lemma valuesUnder_eq_nil {ts : List (Text × Text)} {key : Text} :
    valuesUnder ts key = [] ↔ key ∉ ts.map Prod.fst := by
  rw [← List.length_eq_zero_iff, length_valuesUnder, List.count_eq_zero]

/-- The value under the key of a tag, where keys are distinct. -/
lemma valuesUnder_of_mem {ts : List (Text × Text)} (hnodup : (ts.map Prod.fst).Nodup)
    {tag : Text × Text} (htag : tag ∈ ts) : valuesUnder ts tag.1 = [tag.2] := by
  have hmem : tag.2 ∈ valuesUnder ts tag.1 :=
    List.mem_map.mpr ⟨tag, List.mem_filter.mpr ⟨htag, by simp⟩, rfl⟩
  have hlen : (valuesUnder ts tag.1).length ≤ 1 := by
    rw [length_valuesUnder]
    exact List.nodup_iff_count_le_one.mp hnodup tag.1
  cases hval : valuesUnder ts tag.1 with
  | nil => exact absurd (hval ▸ hmem) List.not_mem_nil
  | cons v rest =>
      rw [hval] at hmem hlen
      obtain rfl : rest = [] := List.length_eq_zero_iff.mp (by simpa using hlen)
      rw [List.mem_singleton.mp hmem]

/-- Rows that are those of the tags call for no statement. -/
lemma diffStatements_of_settled
    (htags : ((survivingTags tags is_node).map Prod.fst).Nodup)
    (hval : ∀ key, valuesOf rows id key = valuesFor tags is_node key) :
    diffStatements id tags is_node rows = [] := by
  have hex : ∀ key, existingValue id rows key = (valuesFor tags is_node key).getLast? :=
    fun key => by rw [existingValue, hval]
  have hloop : (loopStatements (existingValue id rows) (survivingTags tags is_node)).1 = [] :=
    loopStatements_of_settled htags fun tag htag => by
      rw [hex, valuesFor, valuesUnder_of_mem htags htag]
      rfl
  have hleft : ((keysOf id rows).filter fun key => ((loopStatements (existingValue id rows)
      (survivingTags tags is_node)).2 key).isSome) = [] := by
    refine List.filter_eq_nil_iff.mpr fun key hkey => ?_
    rw [mem_keysOf_iff, hval, valuesFor, ne_eq, valuesUnder_eq_nil, not_not] at hkey
    rw [loopStatements_left, if_pos hkey]
    exact Bool.false_ne_true
  rw [diffStatements, hloop, hleft]
  rfl

/-- **`diffTags` is exact**: the rows of the entity become those of the tags that
pass the filter, each key once, the rows of the others stay, and a second call
says nothing. -/
theorem diffTags_exact (id : ℤ) (tags : Tags) (is_node : Bool) (rows : List TagRecord)
    (hrows : DistinctKeys id rows) (htags : ((survivingTags tags is_node).map Prod.fst).Nodup) :
    (diffStatements id tags is_node rows).foldl (TagStatement.exec id) rows
        = diffTags id tags is_node rows ∧
      ((diffTags id tags is_node rows).filter fun g => g.id == id).Perm
        (rowsFor id (survivingTags tags is_node)) ∧
      DistinctKeys id (diffTags id tags is_node rows) ∧
      (diffTags id tags is_node rows).filter (fun g => g.id != id)
        = rows.filter (fun g => g.id != id) ∧
      diffStatements id tags is_node (diffTags id tags is_node rows) = [] := by
  have hperm := tagsOf_diffTags_perm hrows htags
  refine ⟨foldl_exec_diffStatements, hperm, ?_, other_diffTags id tags is_node rows,
    diffStatements_of_settled htags (valuesOf_diffTags_of_nodup hrows htags)⟩
  have hkeys : (rowsFor id (survivingTags tags is_node)).map TagRecord.key
      = (survivingTags tags is_node).map Prod.fst := by
    rw [rowsFor, List.map_map]
    rfl
  rw [DistinctKeys, (hperm.map TagRecord.key).nodup_iff, hkeys]
  exact htags

end

/-- A road that is renamed; its source is not stored any more. -/
def renamedTags : Tags where
  entries := [(ascii "source", ascii "gps"), (ascii "name", ascii "B"), (ascii "ref", ascii "7")]
  nodup := by decide

/-- The tag table before, with a row of another way. -/
def renamedRows : List TagRecord :=
  [⟨5, ascii "name", ascii "A"⟩, ⟨6, ascii "name", ascii "C"⟩, ⟨5, ascii "source", ascii "gps"⟩]

/-- An update, an insert and a delete. -/
example : diffStatements 5 renamedTags false renamedRows
    = [.update (ascii "name") (ascii "B"), .insert (ascii "ref") (ascii "7"),
      .delete (ascii "source")] := by decide

theorem diffTags_exact_renamed :
    ((diffTags 5 renamedTags false renamedRows).filter fun g => g.id == 5).Perm
        [⟨5, ascii "name", ascii "B"⟩, ⟨5, ascii "ref", ascii "7"⟩] ∧
      diffStatements 5 renamedTags false (diffTags 5 renamedTags false renamedRows) = [] :=
  have h := diffTags_exact 5 renamedTags false renamedRows (by decide) (by decide)
  ⟨h.2.1, h.2.2.2.2⟩

end Gpsxdb
