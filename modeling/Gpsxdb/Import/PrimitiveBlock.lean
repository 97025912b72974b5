import Mathlib.Tactic
import Gpsxdb.Delta.DeltaApplier
import Gpsxdb.Import.WayThread
import Gpsxdb.Library.DeltaCoding
import Gpsxdb.Library.Word

/-!
The blocks of a PBF file (`OSMReader.cpp`, `osmformat.proto`).

* `Tags.set`, `tagsOf`: a map of tags as it is filled; `find_tagsOf`: the last one counts;
* `PrimitiveBlock` and its parts: the messages;
* `parsePrimitiveBlock`: their entries, by running sums and one cursor over the tags of
  all dense nodes;
* `OsmGroup`, `encodeGroup`: entities, and the messages they are written as;
* `parsePrimitiveBlock_encode`: **what is written is read back**.

Protocol buffers are a parameter.  `none` stands for an index out of bounds, which
`Get` does not check.
-/

namespace Gpsxdb

/-! ### Maps of tags -/

namespace Tags

/-- `tags[key] = value`.  The order of a hash map is not known; what was set last comes
first. -/
def set (tags : Tags) (key value : Text) : Tags where
  entries := (key, value) :: tags.entries.filter fun kv => kv.1 ≠ key
  nodup := by
    rw [List.map_cons, List.nodup_cons]
    refine ⟨fun hmem => ?_, tags.nodup.sublist (List.filter_sublist.map _)⟩
    obtain ⟨kv, hkv, hkey⟩ := List.mem_map.mp hmem
    exact of_decide_eq_true (List.mem_filter.mp hkv).2 hkey

/-- What is set is found, and nothing else changes. -/
lemma find_set (tags : Tags) (key value key' : Text) :
    (tags.set key value).find key' = if key = key' then some value else tags.find key' := by
  rw [find, set, List.find?_cons, find]
  by_cases hkey : key = key'
  · simp [hkey]
  · have hne : (key == key') = false := by simpa using hkey
    have hpred : (fun kv : Text × Text => decide (decide (kv.1 ≠ key) = true
        ∧ (kv.1 == key') = true)) = fun kv => kv.1 == key' := by
      funext kv
      by_cases hkv : kv.1 = key'
      · simp [hkv, Ne.symm hkey]
      · simp [hkv]
    rw [hne, if_neg hkey, List.find?_filter, hpred]

/-- `tags.at("name")`, empty where there is none. -/
def name (tags : Tags) : Text := (tags.find (ascii "name")).getD []

end Tags

/-! ### Messages -/

/-- `DenseNodes`. -/
structure DenseNodes where
  id : List ℤ
  lat : List ℤ
  lon : List ℤ
  keys_vals : List ℤ

/-- `Node`. -/
structure NodeMessage where
  id : ℤ
  keys : List ℕ
  vals : List ℕ
  lat : ℤ
  lon : ℤ

/-- `Way`. -/
structure WayMessage where
  id : ℤ
  keys : List ℕ
  vals : List ℕ
  refs : List ℤ

/-- `Relation.MemberType`. -/
inductive MemberType where
  | node
  | way
  | relation
deriving DecidableEq

/-- `Relation`. -/
structure RelationMessage where
  id : ℤ
  keys : List ℕ
  vals : List ℕ
  roles_sid : List ℤ
  memids : List ℤ
  types : List MemberType

/-- `PrimitiveGroup`. -/
structure PrimitiveGroup where
  dense : Option DenseNodes
  nodes : List NodeMessage
  ways : List WayMessage
  relations : List RelationMessage

/-- `PrimitiveBlock`. -/
structure PrimitiveBlock where
  stringtable : List Text
  primitivegroup : List PrimitiveGroup
  granularity : ℤ
  lat_offset : ℤ
  lon_offset : ℤ

/-- `OSMEntry`, with the nodes, which the queue of the way threads leaves out. -/
inductive BlockEntry where
  | node (item : NodeEntry)
  | way (item : WayEntry)
  | relation (item : RelationEntry)

/-! ### The reader -/

/-- The arithmetic of `int64_t`. -/
def int64Code : DeltaCode ℤ where
  add x d := wrapInt64 (x + d)
  sub y x := wrapInt64 (y - x)
  Valid := IsInt64
  add_sub x y h := by
    rw [wrapInt64_add_wrapInt64, add_sub_cancel, wrapInt64_of_isInt64 h]

namespace OSMReader

/-- `strtable.Get`. -/
def strGet (strtable : List Text) (i : ℤ) : Option Text :=
  if 0 ≤ i then strtable[i.toNat]? else none

/-- `getTags`, from the tags so far. -/
def getTags (strtable : List Text) : List ℕ → List ℕ → Tags → Option Tags
  | [], _, tags => some tags
  | _ :: _, [], _ => none
  | k :: keys, v :: vals, tags =>
      (strGet strtable k).bind fun key => (strGet strtable v).bind fun value =>
        getTags strtable keys vals (tags.set key value)

/-- The tags of one dense node, and what is behind its delimiter: the cursor is the
numbers that are left. -/
def denseTags (strtable : List Text) : List ℤ → Tags → Option (Tags × List ℤ)
  | [], tags => some (tags, [])
  | [k], tags => if k = 0 then some (tags, []) else none
  | k :: v :: kv, tags =>
      if k = 0 then some (tags, v :: kv)
      else (strGet strtable k).bind fun key => (strGet strtable v).bind fun value =>
        denseTags strtable kv (tags.set key value)

/-- A coordinate, before it is scaled. -/
def nanodegrees (granularity offset v : ℤ) : ℤ :=
  wrapInt64 (offset + wrapInt64 (granularity * v))

/-- The role of a member. -/
def roleOf (strtable : List Text) (sid : ℤ) : Option Text :=
  if sid < strtable.length then strGet strtable sid else some []

/-- The loop over the members: the id runs on past members that are no ways. -/
def memberLoop (strtable : List Text) :
    ℤ → List ℤ → List MemberType → List ℤ → Option (List RelationMember)
  | _, [], _, _ => some []
  | _, _ :: _, [], _ => none
  | cur_memid, d :: memids, t :: types, roles_sid =>
      let cur_memid := int64Code.add cur_memid d
      if t = .way then
        roles_sid.head?.bind fun sid => (roleOf strtable sid).bind fun role =>
          (memberLoop strtable cur_memid memids types roles_sid.tail).map (⟨cur_memid, role⟩ :: ·)
      else memberLoop strtable cur_memid memids types roles_sid.tail

section Parse

variable (scale : ℤ → Double) (pb : PrimitiveBlock)

/-- A node out of its id, its coordinates and its tags; `scale` multiplies by `1e-9`. -/
def nodeEntry (id lat lon : ℤ) (tags : Tags) : NodeEntry where
  id := id
  name := tags.name
  tags := tags
  lon := scale (nanodegrees pb.granularity pb.lon_offset lon)
  lat := scale (nanodegrees pb.granularity pb.lat_offset lat)

/-- The loop over the dense nodes. -/
def denseLoop : ℤ → ℤ → ℤ → List ℤ → List ℤ → List ℤ → List ℤ → Option (List BlockEntry)
  | _, _, _, [], _, _, _ => some []
  | cur_id, cur_lat, cur_lon, id :: ids, lat :: lats, lon :: lons, kv =>
      let cur_id := int64Code.add cur_id id
      let cur_lat := int64Code.add cur_lat lat
      let cur_lon := int64Code.add cur_lon lon
      (denseTags pb.stringtable kv .empty).bind fun r =>
        (denseLoop cur_id cur_lat cur_lon ids lats lons r.2).map
          (.node (nodeEntry scale pb cur_id cur_lat cur_lon r.1) :: ·)
  | _, _, _, _ :: _, _, _, _ => none

/-- The dense nodes of a group. -/
def denseEntries (dense : DenseNodes) : Option (List BlockEntry) :=
  denseLoop scale pb 0 0 0 dense.id dense.lat dense.lon dense.keys_vals

/-- A node of a group. -/
def plainEntry (n : NodeMessage) : Option BlockEntry :=
  (getTags pb.stringtable n.keys n.vals .empty).map fun tags =>
    .node (nodeEntry scale pb n.id n.lat n.lon tags)

/-- A way of a group. -/
def wayEntry (w : WayMessage) : Option BlockEntry :=
  (getTags pb.stringtable w.keys w.vals .empty).map fun tags =>
    .way ⟨w.id, tags.name, tags, int64Code.running 0 w.refs⟩

/-- A relation of a group. -/
def relationEntry (r : RelationMessage) : Option BlockEntry :=
  (getTags pb.stringtable r.keys r.vals .empty).bind fun tags =>
    (memberLoop pb.stringtable 0 r.memids r.types r.roles_sid).map fun way_members =>
      .relation ⟨r.id, tags.name, tags, way_members⟩

/-- The entries of a group. -/
def groupEntries (group : PrimitiveGroup) : Option (List BlockEntry) :=
  (group.dense.elim (some []) (denseEntries scale pb)).bind fun dense =>
    (group.nodes.mapM (plainEntry scale pb)).bind fun nodes =>
      (group.ways.mapM (wayEntry pb)).bind fun ways =>
        (group.relations.mapM (relationEntry pb)).map fun relations =>
          dense ++ nodes ++ ways ++ relations

end Parse

/-- `parsePrimitiveBlock`, behind the entries there are. -/
def parsePrimitiveBlock (ParseFromArray : List UInt8 → Option PrimitiveBlock)
    (scale : ℤ → Double) (data : List UInt8) (out : List BlockEntry) :
    Option (Except String (List BlockEntry)) :=
  match ParseFromArray data with
  | none => some (.error "Failed to parse PrimitiveBlock")
  | some pb => (pb.primitivegroup.mapM (groupEntries scale pb)).map fun groups =>
      .ok (out ++ groups.flatten)

end OSMReader

/-! ### Entities -/

/-- Pairs of indices, set one after the other. -/
def tagsFrom (strtable : List Text) (m : Tags) (tags : List (ℕ × ℕ)) : Tags :=
  tags.foldl (fun m t => m.set (strtable.getD t.1 []) (strtable.getD t.2 [])) m

/-- The tags of pairs of indices. -/
def tagsOf (strtable : List Text) (tags : List (ℕ × ℕ)) : Tags := tagsFrom strtable .empty tags

/-- **The tags of pairs**: the last pair of a key counts. -/
theorem find_tagsOf (strtable : List Text) (tags : List (ℕ × ℕ)) (key : Text) :
    (tagsOf strtable tags).find key
      = (tags.reverse.find? fun t => strtable.getD t.1 [] == key).map
        fun t => strtable.getD t.2 [] := by
  induction tags using List.reverseRecOn with
  | nil => rfl
  | append_singleton tags t ih =>
      have hset : tagsOf strtable (tags ++ [t]) = (tagsOf strtable tags).set
          (strtable.getD t.1 []) (strtable.getD t.2 []) := List.foldl_concat ..
      rw [hset, Tags.find_set, List.reverse_append, List.reverse_singleton, List.singleton_append,
        List.find?_cons, ih]
      by_cases hkey : strtable.getD t.1 [] = key
      · rw [if_pos hkey, beq_iff_eq.mpr hkey]
        rfl
      · rw [if_neg hkey, beq_eq_false_iff_ne.mpr hkey]

/-- A node, in units of the granularity. -/
structure OsmNode where
  id : ℤ
  lat : ℤ
  lon : ℤ
  tags : List (ℕ × ℕ)

/-- A way. -/
structure OsmWay where
  id : ℤ
  tags : List (ℕ × ℕ)
  refs : List ℤ

/-- A member, with the index of its role. -/
structure OsmMember where
  memid : ℤ
  type : MemberType
  role : ℕ

/-- A relation. -/
structure OsmRelation where
  id : ℤ
  tags : List (ℕ × ℕ)
  members : List OsmMember

/-- The entities of a group: nodes to be written densely, with or without delimiters
where none has tags, nodes to be written one by one, ways and relations. -/
structure OsmGroup where
  dense : List OsmNode
  delimited : Bool
  nodes : List OsmNode
  ways : List OsmWay
  relations : List OsmRelation

/-- The entities of a block. -/
structure OsmBlock where
  stringtable : List Text
  granularity : ℤ
  lat_offset : ℤ
  lon_offset : ℤ
  groups : List OsmGroup

/-- Pairs of indices of the table, the key not zero. -/
def TagsIn (strtable : List Text) (tags : List (ℕ × ℕ)) : Prop :=
  ∀ t ∈ tags, t.1 ≠ 0 ∧ t.1 < strtable.length ∧ t.2 < strtable.length

section Entries

variable (b : OsmBlock)

/-- The numbers of a node, and its coordinates in nanodegrees, have 64 bits. -/
structure OsmNode.InRange (n : OsmNode) : Prop where
  id : IsInt64 n.id
  lat : IsInt64 n.lat
  lon : IsInt64 n.lon
  lat_nano : IsInt64 (b.lat_offset + b.granularity * n.lat)
  lon_nano : IsInt64 (b.lon_offset + b.granularity * n.lon)
  tags : TagsIn b.stringtable n.tags

structure OsmWay.InRange (w : OsmWay) : Prop where
  refs : ∀ ref ∈ w.refs, IsInt64 ref
  tags : TagsIn b.stringtable w.tags

structure OsmRelation.InRange (r : OsmRelation) : Prop where
  memids : ∀ m ∈ r.members, IsInt64 m.memid
  tags : TagsIn b.stringtable r.tags

structure OsmGroup.InRange (g : OsmGroup) : Prop where
  dense : ∀ n ∈ g.dense, n.InRange b
  nodes : ∀ n ∈ g.nodes, n.InRange b
  ways : ∀ w ∈ g.ways, w.InRange b
  relations : ∀ r ∈ g.relations, r.InRange b

/-- The entry of a node: its coordinates in nanodegrees, scaled. -/
def OsmNode.entry (scale : ℤ → Double) (n : OsmNode) : BlockEntry :=
  .node
    { id := n.id
      name := (tagsOf b.stringtable n.tags).name
      tags := tagsOf b.stringtable n.tags
      lon := scale (b.lon_offset + b.granularity * n.lon)
      lat := scale (b.lat_offset + b.granularity * n.lat) }

/-- The entry of a way. -/
def OsmWay.entry (w : OsmWay) : BlockEntry :=
  .way ⟨w.id, (tagsOf b.stringtable w.tags).name, tagsOf b.stringtable w.tags, w.refs⟩

/-- The entry of a relation, of its ways. -/
def OsmRelation.entry (r : OsmRelation) : BlockEntry :=
  .relation ⟨r.id, (tagsOf b.stringtable r.tags).name, tagsOf b.stringtable r.tags,
    (r.members.filter fun m => m.type = .way).map fun m => ⟨m.memid, b.stringtable.getD m.role []⟩⟩

/-- The entries of a group. -/
def OsmGroup.entries (scale : ℤ → Double) (g : OsmGroup) : List BlockEntry :=
  g.dense.map (OsmNode.entry b scale) ++ g.nodes.map (OsmNode.entry b scale)
    ++ g.ways.map (OsmWay.entry b) ++ g.relations.map (OsmRelation.entry b)

end Entries

namespace OsmBlock

def InRange (b : OsmBlock) : Prop := ∀ g ∈ b.groups, g.InRange b

def entries (scale : ℤ → Double) (b : OsmBlock) : List BlockEntry :=
  b.groups.flatMap (OsmGroup.entries b scale)

end OsmBlock

/-! ### The writer -/

/-- The numbers of some tags. -/
def keyVals (tags : List (ℕ × ℕ)) : List ℤ := tags.flatMap fun t => [(t.1 : ℤ), (t.2 : ℤ)]

/-- Dense nodes: differences, and the tags of each behind those of the one before. -/
def encodeDense (nodes : List OsmNode) (delimited : Bool) : DenseNodes where
  id := int64Code.deltas 0 (nodes.map OsmNode.id)
  lat := int64Code.deltas 0 (nodes.map OsmNode.lat)
  lon := int64Code.deltas 0 (nodes.map OsmNode.lon)
  keys_vals :=
    if !delimited && nodes.all (fun n => n.tags.isEmpty) then []
    else nodes.flatMap fun n => keyVals n.tags ++ [0]

/-- A node on its own. -/
def encodeNode (n : OsmNode) : NodeMessage :=
  ⟨n.id, n.tags.map Prod.fst, n.tags.map Prod.snd, n.lat, n.lon⟩

def encodeWay (w : OsmWay) : WayMessage :=
  ⟨w.id, w.tags.map Prod.fst, w.tags.map Prod.snd, int64Code.deltas 0 w.refs⟩

def encodeRelation (r : OsmRelation) : RelationMessage where
  id := r.id
  keys := r.tags.map Prod.fst
  vals := r.tags.map Prod.snd
  roles_sid := r.members.map fun m => (m.role : ℤ)
  memids := int64Code.deltas 0 (r.members.map OsmMember.memid)
  types := r.members.map OsmMember.type

def encodeGroup (g : OsmGroup) : PrimitiveGroup where
  dense := if g.dense = [] then none else some (encodeDense g.dense g.delimited)
  nodes := g.nodes.map encodeNode
  ways := g.ways.map encodeWay
  relations := g.relations.map encodeRelation

/-- The message of a block. -/
def encodeBlock (b : OsmBlock) : PrimitiveBlock where
  stringtable := b.stringtable
  primitivegroup := b.groups.map encodeGroup
  granularity := b.granularity
  lat_offset := b.lat_offset
  lon_offset := b.lon_offset

/-! ### What is written is read back -/

namespace OSMReader

/-- An index of the table. -/
lemma strGet_of_lt {strtable : List Text} {i : ℕ} (h : i < strtable.length) :
    strGet strtable i = some (strtable.getD i []) := by
  rw [strGet, if_pos (Int.natCast_nonneg i), Int.toNat_natCast, List.getD_eq_getElem?_getD,
    List.getElem?_eq_getElem h, Option.getD_some]

lemma roleOf_eq (strtable : List Text) (i : ℕ) :
    roleOf strtable i = some (strtable.getD i []) := by
  rw [roleOf]
  by_cases h : i < strtable.length
  · rw [if_pos (by exact_mod_cast h), strGet_of_lt h]
  · rw [if_neg (by exact_mod_cast h), List.getD_eq_getElem?_getD,
      List.getElem?_eq_none (not_lt.mp h), Option.getD_none]

lemma nanodegrees_eq {granularity offset v : ℤ} (h : IsInt64 (offset + granularity * v)) :
    nanodegrees granularity offset v = offset + granularity * v := by
  rw [nanodegrees, wrapInt64_add_wrapInt64, wrapInt64_of_isInt64 h]

section Tags

variable {strtable : List Text} {tags : List (ℕ × ℕ)}

/-- The tags of a message. -/
lemma getTags_map (h : TagsIn strtable tags) (m : Tags) :
    getTags strtable (tags.map Prod.fst) (tags.map Prod.snd) m
      = some (tagsFrom strtable m tags) := by
  induction tags generalizing m with
  | nil => rfl
  | cons t tags ih =>
      obtain ⟨⟨-, hkey, hval⟩, htags⟩ := List.forall_mem_cons.mp h
      rw [List.map_cons, List.map_cons, getTags, strGet_of_lt hkey, Option.bind_some,
        strGet_of_lt hval, Option.bind_some, ih htags]
      rfl

/-- The tags of a dense node, up to its delimiter. -/
lemma denseTags_keyVals (h : TagsIn strtable tags) (m : Tags) (kv : List ℤ) :
    denseTags strtable (keyVals tags ++ 0 :: kv) m = some (tagsFrom strtable m tags, kv) := by
  induction tags generalizing m with
  | nil => cases kv <;> rfl
  | cons t tags ih =>
      obtain ⟨⟨hne, hkey, hval⟩, htags⟩ := List.forall_mem_cons.mp h
      have hcons : keyVals (t :: tags) ++ 0 :: kv
          = (t.1 : ℤ) :: (t.2 : ℤ) :: (keyVals tags ++ 0 :: kv) := rfl
      rw [hcons, denseTags, if_neg (by exact_mod_cast hne), strGet_of_lt hkey, Option.bind_some,
        strGet_of_lt hval, Option.bind_some, ih htags]
      rfl

end Tags

/-- Where the cursor stands before some dense nodes: at their tags, or at the end where
none of them has any. -/
def AtTags (nodes : List OsmNode) (kv : List ℤ) : Prop :=
  kv = nodes.flatMap (fun n => keyVals n.tags ++ [0]) ∨ kv = [] ∧ ∀ n ∈ nodes, n.tags = []

lemma atTags_encodeDense (nodes : List OsmNode) (delimited : Bool) :
    AtTags nodes (encodeDense nodes delimited).keys_vals := by
  rw [encodeDense]
  split
  · rename_i h
    refine Or.inr ⟨rfl, fun n hn => ?_⟩
    have hall := List.all_eq_true.mp (Bool.and_eq_true_iff.mp h).2 n hn
    exact List.isEmpty_iff.mp hall
  · exact Or.inl rfl

/-- **One turn of the cursor**: it takes the tags of the first node, and stands before
those of the next. -/
lemma denseTags_of_atTags {strtable : List Text} {n : OsmNode} {nodes : List OsmNode}
    {kv : List ℤ} (htags : TagsIn strtable n.tags) (h : AtTags (n :: nodes) kv) :
    ∃ kv', denseTags strtable kv .empty = some (tagsOf strtable n.tags, kv')
      ∧ AtTags nodes kv' := by
  obtain rfl | ⟨rfl, hnone⟩ := h
  · refine ⟨nodes.flatMap fun n => keyVals n.tags ++ [0], ?_, Or.inl rfl⟩
    rw [List.flatMap_cons, List.append_assoc, List.singleton_append, denseTags_keyVals htags]
    rfl
  · obtain ⟨hn, hnodes⟩ := List.forall_mem_cons.mp hnone
    refine ⟨[], ?_, Or.inr ⟨rfl, hnodes⟩⟩
    rw [hn]
    rfl

section Block

variable {b : OsmBlock} (scale : ℤ → Double)

/-- A node as it is read. -/
lemma nodeEntry_eq {n : OsmNode} (h : n.InRange b) :
    .node (nodeEntry scale (encodeBlock b) n.id n.lat n.lon (tagsOf b.stringtable n.tags))
      = n.entry b scale := by
  have hlat : nanodegrees (encodeBlock b).granularity (encodeBlock b).lat_offset n.lat
      = b.lat_offset + b.granularity * n.lat := nanodegrees_eq h.lat_nano
  have hlon : nanodegrees (encodeBlock b).granularity (encodeBlock b).lon_offset n.lon
      = b.lon_offset + b.granularity * n.lon := nanodegrees_eq h.lon_nano
  rw [nodeEntry, hlat, hlon]
  rfl

/-- **Dense nodes are read back**, from wherever the three sums stand. -/
lemma denseLoop_deltas {nodes : List OsmNode} (h : ∀ n ∈ nodes, n.InRange b) {kv : List ℤ}
    (hkv : AtTags nodes kv) (cur_id cur_lat cur_lon : ℤ) :
    denseLoop scale (encodeBlock b) cur_id cur_lat cur_lon
        (int64Code.deltas cur_id (nodes.map OsmNode.id))
        (int64Code.deltas cur_lat (nodes.map OsmNode.lat))
        (int64Code.deltas cur_lon (nodes.map OsmNode.lon)) kv
      = some (nodes.map (OsmNode.entry b scale)) := by
  induction nodes generalizing kv cur_id cur_lat cur_lon with
  | nil => rfl
  | cons n nodes ih =>
      obtain ⟨hn, hnodes⟩ := List.forall_mem_cons.mp h
      obtain ⟨kv', hread, hkv'⟩ := denseTags_of_atTags hn.tags hkv
      have hread' : denseTags (encodeBlock b).stringtable kv .empty
          = some (tagsOf b.stringtable n.tags, kv') := hread
      simp only [List.map_cons, DeltaCode.deltas_cons, denseLoop]
      rw [int64Code.add_sub _ _ hn.id, int64Code.add_sub _ _ hn.lat, int64Code.add_sub _ _ hn.lon,
        hread', Option.bind_some, ih hnodes hkv', Option.map_some, nodeEntry_eq scale hn]

/-- **Members are read back**: the ways among them, with their roles. -/
lemma memberLoop_deltas {members : List OsmMember} (h : ∀ m ∈ members, IsInt64 m.memid)
    (cur_memid : ℤ) :
    memberLoop b.stringtable cur_memid
        (int64Code.deltas cur_memid (members.map OsmMember.memid))
        (members.map OsmMember.type) (members.map fun m => (m.role : ℤ))
      = some ((members.filter fun m => m.type = .way).map fun m =>
          ⟨m.memid, b.stringtable.getD m.role []⟩) := by
  induction members generalizing cur_memid with
  | nil => rfl
  | cons m members ih =>
      obtain ⟨hm, hmembers⟩ := List.forall_mem_cons.mp h
      simp only [List.map_cons, DeltaCode.deltas_cons, memberLoop, List.head?_cons, List.tail_cons]
      rw [int64Code.add_sub _ _ hm, ih hmembers]
      by_cases hway : m.type = .way
      · rw [if_pos hway, Option.bind_some, roleOf_eq, Option.bind_some, Option.map_some,
          List.filter_cons_of_pos (by simpa using hway), List.map_cons]
      · rw [if_neg hway, List.filter_cons_of_neg (by simpa using hway)]

/-- What is read one by one. -/
lemma mapM_map_of {α β γ : Type} {f : β → Option γ} {g : α → β} {k : α → γ} {l : List α}
    (h : ∀ a ∈ l, f (g a) = some (k a)) : (l.map g).mapM f = some (l.map k) := by
  induction l with
  | nil => rfl
  | cons a l ih =>
      obtain ⟨ha, hl⟩ := List.forall_mem_cons.mp h
      rw [List.map_cons, List.mapM_cons, ha, ih hl]
      rfl

lemma plainEntry_encodeNode {n : OsmNode} (h : n.InRange b) :
    plainEntry scale (encodeBlock b) (encodeNode n) = some (n.entry b scale) := by
  rw [← nodeEntry_eq scale h]
  exact congrArg (Option.map _) (getTags_map h.tags .empty)

lemma wayEntry_encodeWay {w : OsmWay} (h : w.InRange b) :
    wayEntry (encodeBlock b) (encodeWay w) = some (w.entry b) := by
  have htags : getTags (encodeBlock b).stringtable (encodeWay w).keys (encodeWay w).vals .empty
      = some (tagsOf b.stringtable w.tags) := getTags_map h.tags .empty
  have hrefs : int64Code.running 0 (encodeWay w).refs = w.refs :=
    int64Code.running_deltas h.refs 0
  rw [wayEntry, htags, hrefs]
  rfl

lemma relationEntry_encodeRelation {r : OsmRelation} (h : r.InRange b) :
    relationEntry (encodeBlock b) (encodeRelation r) = some (r.entry b) := by
  have htags : getTags (encodeBlock b).stringtable (encodeRelation r).keys
      (encodeRelation r).vals .empty = some (tagsOf b.stringtable r.tags) :=
    getTags_map h.tags .empty
  rw [relationEntry, htags, Option.bind_some]
  exact congrArg (Option.map _) (memberLoop_deltas h.memids 0)

lemma groupEntries_encodeGroup {g : OsmGroup} (h : g.InRange b) :
    groupEntries scale (encodeBlock b) (encodeGroup g) = some (g.entries b scale) := by
  have hdense : (encodeGroup g).dense.elim (some []) (denseEntries scale (encodeBlock b))
      = some (g.dense.map (OsmNode.entry b scale)) := by
    rw [encodeGroup]
    by_cases hnil : g.dense = []
    · simp [hnil]
    · simp only [if_neg hnil, Option.elim_some]
      exact denseLoop_deltas scale h.dense (atTags_encodeDense g.dense g.delimited) 0 0 0
  have hnodes : (encodeGroup g).nodes.mapM (plainEntry scale (encodeBlock b))
      = some (g.nodes.map (OsmNode.entry b scale)) :=
    mapM_map_of fun n hn => plainEntry_encodeNode scale (h.nodes n hn)
  have hways : (encodeGroup g).ways.mapM (wayEntry (encodeBlock b))
      = some (g.ways.map (OsmWay.entry b)) :=
    mapM_map_of fun w hw => wayEntry_encodeWay (h.ways w hw)
  have hrelations : (encodeGroup g).relations.mapM (relationEntry (encodeBlock b))
      = some (g.relations.map (OsmRelation.entry b)) :=
    mapM_map_of fun r hr => relationEntry_encodeRelation (h.relations r hr)
  rw [groupEntries, hdense, hnodes, hways, hrelations]
  rfl

end Block

/-- **What is written is read back.**  The message of a block, with dense nodes, refs and
members as differences, is read as the entries of the block in order, behind those there
are: ids, coordinates in nanodegrees up to the scaling, tags, refs, and the way members
with their roles. -/
theorem parsePrimitiveBlock_encode {b : OsmBlock} (h : b.InRange)
    {ParseFromArray : List UInt8 → Option PrimitiveBlock} {data : List UInt8}
    (hdata : ParseFromArray data = some (encodeBlock b)) (scale : ℤ → Double)
    (out : List BlockEntry) :
    parsePrimitiveBlock ParseFromArray scale data out = some (.ok (out ++ b.entries scale)) := by
  have hgroups : (encodeBlock b).primitivegroup.mapM (groupEntries scale (encodeBlock b))
      = some (b.groups.map (OsmGroup.entries b scale)) :=
    mapM_map_of fun g hg => groupEntries_encodeGroup scale (h g hg)
  rw [parsePrimitiveBlock, hdata]
  simp only [hgroups, Option.map_some, OsmBlock.entries, List.flatMap_def]

/-- Two nodes, one of them with a tag, a way, and a relation of a node and the way. -/
def smallBlock : OsmBlock where
  stringtable := [[], ascii "name", ascii "a"]
  granularity := 100
  lat_offset := 0
  lon_offset := 0
  groups :=
    [{ dense := [⟨1, 10000000, 10000000, [(1, 2)]⟩, ⟨3, 20000000, 10000000, []⟩]
       delimited := true
       nodes := []
       ways := [⟨7, [], [3, 1]⟩]
       relations := [⟨9, [(1, 2)], [⟨3, .node, 0⟩, ⟨7, .way, 2⟩]⟩] }]

/-- The bytes of its message. -/
def smallData : List UInt8 :=
  [0x0A, 0x0B, 0x0A, 0x00, 0x0A, 0x04, 0x6E, 0x61, 0x6D, 0x65, 0x0A, 0x01, 0x61, 0x12, 0x3B, 0x12,
    0x1B, 0x0A, 0x02, 0x02, 0x04, 0x42, 0x08, 0x80, 0xDA, 0xC4, 0x09, 0x80, 0xDA, 0xC4, 0x09, 0x4A,
    0x05, 0x80, 0xDA, 0xC4, 0x09, 0x00, 0x52, 0x04, 0x01, 0x02, 0x00, 0x00, 0x1A, 0x06, 0x08, 0x07,
    0x42, 0x02, 0x06, 0x03, 0x22, 0x14, 0x08, 0x09, 0x12, 0x01, 0x01, 0x1A, 0x01, 0x02, 0x42, 0x02,
    0x00, 0x02, 0x4A, 0x02, 0x06, 0x08, 0x52, 0x02, 0x00, 0x01]

/-- Protocol buffers for these bytes. -/
def parseSmall (data : List UInt8) : Option PrimitiveBlock :=
  if data = smallData then some (encodeBlock smallBlock) else none

/-- A billion of them is one. -/
def scaleSmall (n : ℤ) : Double := if n = 1000000000 then 0x3FF0000000000000 else 0x4000000000000000

lemma inRange_smallBlock : smallBlock.InRange := by
  have htags : TagsIn smallBlock.stringtable [(1, 2)] := by
    rintro t ht
    rw [List.mem_singleton.mp ht]
    decide
  have hnone : TagsIn smallBlock.stringtable [] := List.forall_mem_nil _
  refine List.forall_mem_singleton.mpr ⟨?_, List.forall_mem_nil _, ?_, ?_⟩
  · refine List.forall_mem_cons.mpr ⟨?_, List.forall_mem_singleton.mpr ?_⟩
    · exact ⟨by decide, by decide, by decide, by decide, by decide, htags⟩
    · exact ⟨by decide, by decide, by decide, by decide, by decide, hnone⟩
  · exact List.forall_mem_singleton.mpr ⟨by decide, hnone⟩
  · exact List.forall_mem_singleton.mpr ⟨by decide, htags⟩

/-- The two nodes, the way and the relation, whose first member is left out. -/
theorem parsePrimitiveBlock_small :
    parsePrimitiveBlock parseSmall scaleSmall smallData []
      = some (.ok
        [.node ⟨1, ascii "a", .single (ascii "name") (ascii "a"), 0x3FF0000000000000,
            0x3FF0000000000000⟩,
          .node ⟨3, [], .empty, 0x3FF0000000000000, 0x4000000000000000⟩,
          .way ⟨7, [], .empty, [3, 1]⟩,
          .relation ⟨9, ascii "a", .single (ascii "name") (ascii "a"), [⟨7, ascii "a"⟩]⟩]) := by
  have hdata : parseSmall smallData = some (encodeBlock smallBlock) := if_pos rfl
  rw [parsePrimitiveBlock_encode inRange_smallBlock hdata]
  rfl

end OSMReader

end Gpsxdb
