import Mathlib.Tactic

/-!
Tags and the filters of `NavDB.cpp` that decide which of them are stored.

* `Text`, `Tags`: byte strings, and a tag map with distinct keys in the order
  in which the hash map lists them;
* `sanitizeUtf8`, `sanitizeTag`: the bytes PostgreSQL accepts, cut to 256
  characters;
* `isExcludedTagKey` and the value filters;
* `hasSurvivingTag`: whether an entity is worth keeping at all, and
  `keptTags`: the rows `addTags` and its siblings buffer.

The two filters differ on one tag: a generic `building` value is stored with an
entity but is no reason to keep it.
-/

namespace Gpsxdb

/-! ### Byte strings and tag maps -/

/-- A `std::string`: its bytes. -/
abbrev Text := List UInt8

/-- The bytes of an ASCII literal. -/
def ascii (s : String) : Text := s.toList.map fun c => c.toNat.toUInt8

/-- A tag map: distinct keys, in the iteration order of the hash map. -/
structure Tags where
  entries : List (Text × Text)
  nodup : (entries.map Prod.fst).Nodup

namespace Tags

/-- `tags.find(key)`. -/
def find (tags : Tags) (key : Text) : Option Text :=
  (tags.entries.find? fun kv => kv.1 == key).map Prod.snd

/-- The empty map. -/
def empty : Tags := ⟨[], List.nodup_nil⟩

/-- A map of one tag. -/
def single (key value : Text) : Tags := ⟨[(key, value)], List.nodup_singleton _⟩

end Tags

/-! ### Sanitising -/

/-- The length a UTF-8 leading byte announces, `none` for an invalid one. -/
def sequenceLength (c : UInt8) : Option ℕ :=
  if c &&& 0x80 = 0x00 then some 1
  else if c &&& 0xE0 = 0xC0 then some 2
  else if c &&& 0xF0 = 0xE0 then some 3
  else if c &&& 0xF8 = 0xF0 then some 4
  else none

/-- The loop of `sanitizeUtf8` with `n` bytes still to look at. -/
def sanitizeLoop : ℕ → Text → Text
  | 0, _ => []
  | _, [] => []
  | n + 1, c :: s =>
      match sequenceLength c with
      | none => sanitizeLoop n s
      | some len =>
          if c = 0x00 then sanitizeLoop n s
          -- truncated sequence
          else if s.length + 1 < len then sanitizeLoop n s
          else if (s.take (len - 1)).all fun cc => cc &&& 0xC0 == 0x80 then
            c :: s.take (len - 1) ++ sanitizeLoop n (s.drop (len - 1))
          else sanitizeLoop n s

/-- `sanitizeUtf8`. -/
def sanitizeUtf8 (s : Text) : Text := sanitizeLoop s.length s

/-- The cut of `sanitizeTag`: the end of at most `count` characters. -/
def cutLoop : ℕ → Text → Text
  | 0, _ => []
  | _, [] => []
  | count + 1, c :: s =>
      let len := (sequenceLength c).getD 4
      c :: s.take (len - 1) ++ cutLoop count (s.drop (len - 1))

/-- `sanitizeTag`: at most 256 characters. -/
def sanitizeTag (s : Text) : Text := cutLoop 256 (sanitizeUtf8 s)

/-- `sanitizeUtf8` keeps text of single bytes. -/
lemma sanitizeLoop_of_single {s : Text} (h : ∀ c ∈ s, c ≠ 0x00 ∧ sequenceLength c = some 1)
    (n : ℕ) : sanitizeLoop n s = s.take n := by
  induction s generalizing n with
  | nil => cases n <;> rfl
  | cons c s ih =>
      obtain ⟨hc, hlen⟩ := h c (List.mem_cons_self ..)
      cases n with
      | zero => rfl
      | succ n =>
          simp [sanitizeLoop, hlen, hc, ih fun d hd => h d (List.mem_cons_of_mem _ hd)]

lemma cutLoop_of_single {s : Text} (h : ∀ c ∈ s, sequenceLength c = some 1) (count : ℕ) :
    cutLoop count s = s.take count := by
  induction s generalizing count with
  | nil => cases count <;> rfl
  | cons c s ih =>
      cases count with
      | zero => rfl
      | succ n =>
          have hrest := ih fun d hd => h d (List.mem_cons_of_mem _ hd)
          simp [cutLoop, h c (List.mem_cons_self ..), hrest]

/-- **A tag of single bytes** is cut to its first 256. -/
lemma sanitizeTag_of_single {s : Text} (h : ∀ c ∈ s, c ≠ 0x00 ∧ sequenceLength c = some 1) :
    sanitizeTag s = s.take 256 := by
  rw [sanitizeTag, sanitizeUtf8, sanitizeLoop_of_single h, List.take_length,
    cutLoop_of_single fun c hc => (h c hc).2]

/-! ### The filters -/

/-- `isExcludedTagKey`. -/
def isExcludedTagKey (key : Text) : Bool :=
  [ascii "source", ascii "created_by", ascii "attribution"].contains key
    || [ascii "addr:", ascii "building:", ascii "source:", ascii "tiger:"].any fun p =>
      p.isPrefixOf key

/-- `isAviationRelevantBuildingValue`. -/
def isAviationRelevantBuildingValue (value : Text) : Bool :=
  [ascii "hangar", ascii "terminal", ascii "control_tower"].contains value

/-- `isSignOrBarrierValue`. -/
def isSignOrBarrierValue (key value : Text) : Bool :=
  key == ascii "traffic_sign"
    || (key == ascii "highway"
      && [ascii "stop", ascii "give_way", ascii "traffic_signals", ascii "milestone",
        ascii "crossing", ascii "turning_circle", ascii "turning_loop",
        ascii "motorway_junction", ascii "street_lamp", ascii "bus_stop"].contains value)
    || (key == ascii "barrier"
      && [ascii "gate", ascii "bollard", ascii "kerb", ascii "lift_gate", ascii "block",
        ascii "cycle_barrier", ascii "swing_gate", ascii "stile"].contains value)

/-- `isDroppableNatureValue`. -/
def isDroppableNatureValue (key value : Text) : Bool :=
  key == ascii "natural" && [ascii "tree", ascii "shrub", ascii "rock"].contains value

/-- `hasElevationTag`. -/
def hasElevationTag (tags : Tags) : Bool :=
  let has (key : String) : Bool := ((tags.find (ascii key)).getD []) != []
  has "height" || has "ele"

/-- The tag filter common to every entity kind: `is_node` drops signs, barriers
and bare nature points. -/
def isDroppedTag (is_node has_elevation : Bool) (key value : Text) : Bool :=
  isExcludedTagKey key
    || (is_node && isSignOrBarrierValue key value)
    || (is_node && isDroppableNatureValue key value && !has_elevation)

/-- A key or a value of which nothing is left. -/
def isBlankTag (key value : Text) : Bool := sanitizeTag key == [] || sanitizeTag value == []

/-- `hasSurvivingTag`. -/
def hasSurvivingTag (tags : Tags) (is_node : Bool) : Bool :=
  let has_elevation := is_node && hasElevationTag tags
  tags.entries.any fun (k, v) =>
    !isDroppedTag is_node has_elevation k v
      && !(k == ascii "building" && !isAviationRelevantBuildingValue v)
      && !isBlankTag k v

/-- A row of a tag table. -/
structure TagRecord where
  id : ℤ
  key : Text
  value : Text
deriving DecidableEq

/-- The rows `addTags`, `addWayTags`, `addAreaTags` and `addRoadTags` buffer;
only `addTags` for a node sets `is_node`. -/
def keptTags (id : ℤ) (tags : Tags) (is_node : Bool) : List TagRecord :=
  let has_elevation := is_node && hasElevationTag tags
  tags.entries.filterMap fun (k, v) =>
    if isDroppedTag is_node has_elevation k v || isBlankTag k v then none
    else some ⟨id, sanitizeTag k, sanitizeTag v⟩

/-- Every buffered tag row carries the id of its entity. -/
lemma id_of_mem_keptTags {id : ℤ} {tags : Tags} {is_node : Bool} {r : TagRecord}
    (h : r ∈ keptTags id tags is_node) : r.id = id := by
  simp only [keptTags, List.mem_filterMap] at h
  obtain ⟨⟨k, v⟩, -, hr⟩ := h
  split at hr
  · simp at hr
  · rw [← Option.some.inj hr]

example : hasSurvivingTag (Tags.single (ascii "building") (ascii "yes")) false = false := by decide

example : keptTags 7 (Tags.single (ascii "building") (ascii "yes")) false
    = [⟨7, ascii "building", ascii "yes"⟩] := by decide

end Gpsxdb
