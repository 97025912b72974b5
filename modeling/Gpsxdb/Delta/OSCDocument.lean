import Mathlib.Tactic
import Gpsxdb.Delta.OSCReader

/-!
osmChange documents, and what `OSCReader` makes of them.

* `Attrs`: attributes in any order, among others that are not read;
* `OscNode`, `OscWay`, `OscRelation`, `OscBlock`, `OscDocument`: a list of changes as it is
  written, and its events;
* `OscElement.Reads`: an entry of the callback against the element it is from;
* `handleAll_element`, `handleAll_block`: the handlers over an element and over a block;
* `parse_preserves`: **the callback sees the list of changes**.

Text between the tags, comments and the like have no handler.
-/

namespace Gpsxdb

namespace OSCReader

/-! ### Attributes -/

/-- Of two lists with the same pairs of a key, the first without a key twice. -/
lemma find?_eq_of_mem_iff {l l' : List (Text × Text)} {key : Text}
    (hnodup : (l.map Prod.fst).Nodup) (hmem : ∀ x, x.1 = key → (x ∈ l ↔ x ∈ l')) :
    (l.find? fun x => x.1 == key) = l'.find? fun x => x.1 == key := by
  have hfound : ∀ {l : List (Text × Text)} {x : Text × Text},
      l.find? (fun x => x.1 == key) = some x → x.1 = key := by
    intro l x hx
    simpa using List.find?_some hx
  cases hl' : l'.find? fun x => x.1 == key with
  | none =>
      refine List.find?_eq_none.mpr fun x hx heq => ?_
      exact List.find?_eq_none.mp hl' x ((hmem x (beq_iff_eq.mp heq)).mp hx) heq
  | some x =>
      have hx := (hmem x (hfound hl')).mpr (List.mem_of_find?_eq_some hl')
      cases hl : l.find? fun x => x.1 == key with
      | none => exact absurd (beq_iff_eq.mpr (hfound hl')) (List.find?_eq_none.mp hl x hx)
      | some y =>
          exact congrArg some (List.inj_on_of_nodup_map hnodup (List.mem_of_find?_eq_some hl) hx
            ((hfound hl).trans (hfound hl').symm))

/-- The attributes of a start tag: no name twice, those required among them, and no other
that is read. -/
structure Attrs (read : List String) (required : List (Text × Text)) where
  list : List (Text × Text)
  nodup : (list.map Prod.fst).Nodup
  mem : ∀ a ∈ required, a ∈ list
  of_read : ∀ a ∈ list, ∀ key ∈ read, a.1 = ascii key → a ∈ required

/-- What is read is what is required. -/
lemma Attrs.getAttr_eq {read : List String} {required : List (Text × Text)}
    (a : Attrs read required) {key : String} (hkey : key ∈ read) :
    getAttr a.list key = getAttr required key :=
  congrArg (Option.map Prod.snd) (find?_eq_of_mem_iff a.nodup fun x hx =>
    ⟨fun hmem => a.of_read x hmem key hkey hx, a.mem x⟩)

/-! ### Documents -/

/-- A `tag` element. -/
structure OscTag where
  key : Text
  value : Text
  attrs : Attrs ["k", "v"] [(ascii "k", key), (ascii "v", value)]

/-- A `nd` element. -/
structure OscRef where
  ref : ℤ
  int64 : IsInt64 ref
  ne_zero : ref ≠ 0
  attrs : Attrs ["ref"] [(ascii "ref", decimal ref)]

/-- The `type` of a member. -/
def typeText : MemberType → Text
  | .node => ascii "node"
  | .way => ascii "way"
  | .relation => ascii "relation"

/-- A `member` element. -/
structure OscMemberRef where
  type : MemberType
  ref : ℤ
  role : Text
  int64 : IsInt64 ref
  ne_zero : ref ≠ 0
  attrs : Attrs ["type", "ref", "role"]
    [(ascii "type", typeText type), (ascii "ref", decimal ref), (ascii "role", role)]

/-- A coordinate as it is written, with its value. -/
structure Coordinate (ops : FloatOps) where
  text : Text
  value : Double
  reads : ops.stod text = some value

variable (ops : FloatOps)

/-- The attributes of the coordinates, which a delete may lack. -/
def coordAttrs {ops : FloatOps} : Option (Coordinate ops × Coordinate ops) → List (Text × Text)
  | none => []
  | some (lat, lon) => [(ascii "lat", lat.text), (ascii "lon", lon.text)]

/-- A `node` element. -/
structure OscNode where
  id : ℤ
  int64 : IsInt64 id
  coords : Option (Coordinate ops × Coordinate ops)
  attrs : Attrs ["id", "lat", "lon"] ((ascii "id", decimal id) :: coordAttrs coords)
  tags : List OscTag
  nodup : (tags.map OscTag.key).Nodup

/-- A `way` element: tags and nodes in any order. -/
structure OscWay where
  id : ℤ
  int64 : IsInt64 id
  attrs : Attrs ["id"] [(ascii "id", decimal id)]
  children : List (OscTag ⊕ OscRef)
  nodup : ((children.filterMap Sum.getLeft?).map OscTag.key).Nodup

/-- A `relation` element: tags and members in any order. -/
structure OscRelation where
  id : ℤ
  int64 : IsInt64 id
  attrs : Attrs ["id"] [(ascii "id", decimal id)]
  children : List (OscTag ⊕ OscMemberRef)
  nodup : ((children.filterMap Sum.getLeft?).map OscTag.key).Nodup

/-- A changed element. -/
inductive OscElement where
  | node (n : OscNode ops)
  | way (w : OscWay)
  | relation (r : OscRelation)

/-- A `create`, `modify` or `delete` element. -/
structure OscBlock where
  type : ChangeType
  attrs : List (Text × Text)
  elements : List (OscElement ops)

/-- An `osmChange` element. -/
structure OscDocument where
  attrs : List (Text × Text)
  blocks : List (OscBlock ops)

variable {ops}

/-- The changes, with the types of their blocks. -/
def OscDocument.changes (d : OscDocument ops) : List (ChangeType × OscElement ops) :=
  d.blocks.flatMap fun b => b.elements.map fun e => (b.type, e)

/-! ### Events -/

/-- An element around the events of its content. -/
def element (name : String) (attrs : List (Text × Text)) (content : List SaxEvent) :
    List SaxEvent :=
  .startElement (ascii name) attrs :: (content ++ [.endElement (ascii name)])

def OscTag.events (t : OscTag) : List SaxEvent := element "tag" t.attrs.list []

def OscRef.events (r : OscRef) : List SaxEvent := element "nd" r.attrs.list []

def OscMemberRef.events (m : OscMemberRef) : List SaxEvent := element "member" m.attrs.list []

def OscElement.events : OscElement ops → List SaxEvent
  | .node n => element "node" n.attrs.list (n.tags.flatMap OscTag.events)
  | .way w => element "way" w.attrs.list (w.children.flatMap (Sum.elim OscTag.events OscRef.events))
  | .relation r => element "relation" r.attrs.list
      (r.children.flatMap (Sum.elim OscTag.events OscMemberRef.events))

/-- The name of a block. -/
def typeName : ChangeType → String
  | .create => "create"
  | .modify => "modify"
  | .delete => "delete"

def OscBlock.events (b : OscBlock ops) : List SaxEvent :=
  element (typeName b.type) b.attrs (b.elements.flatMap OscElement.events)

def OscDocument.events (d : OscDocument ops) : List SaxEvent :=
  element "osmChange" d.attrs (d.blocks.flatMap OscBlock.events)

/-! ### What is to be read -/

/-- The tags of a list, read into a map. -/
structure TagsRead (tags : List OscTag) (read : Tags) (name : Text) : Prop where
  entries : read.entries.Perm (tags.map fun t => (t.key, t.value))
  name : name = ((tags.find? fun t => t.key == ascii "name").map OscTag.value).getD []

/-- The way members of a relation. -/
def OscRelation.wayMembers (r : OscRelation) : List RelationMember :=
  ((r.children.filterMap Sum.getRight?).filter fun m => m.type = .way).map fun m => ⟨m.ref, m.role⟩

/-- **A change as it was written**: its type, its id, its tags and its name, the coordinates
where there are any, the nodes and the way members. -/
def OscElement.Reads (type : ChangeType) : OscElement ops → OSCChange → Prop
  | .node n, .node type' n' => type' = type ∧ n'.id = n.id ∧ TagsRead n.tags n'.tags n'.name
      ∧ ∀ lat lon, n.coords = some (lat, lon) → n'.lat = lat.value ∧ n'.lon = lon.value
  | .way w, .way type' w' => type' = type ∧ w'.id = w.id
      ∧ TagsRead (w.children.filterMap Sum.getLeft?) w'.tags w'.name
      ∧ w'.node_refs = (w.children.filterMap Sum.getRight?).map OscRef.ref
  | .relation r, .relation type' r' => type' = type ∧ r'.id = r.id
      ∧ TagsRead (r.children.filterMap Sum.getLeft?) r'.tags r'.name
      ∧ r'.way_members = r.wayMembers
  | _, _ => False

/-! ### Tags -/

/-- The tags of a list, one after the other. -/
def setAll (tags : Tags) (ts : List OscTag) : Tags := ts.foldl (fun m t => m.set t.key t.value) tags

/-- Distinct keys are all kept. -/
lemma entries_setAll {ts : List OscTag} {tags : Tags} (h : (ts.map OscTag.key).Nodup)
    (hnew : ∀ t ∈ ts, ∀ kv ∈ tags.entries, kv.1 ≠ t.key) :
    (setAll tags ts).entries.Perm (tags.entries ++ ts.map fun t => (t.key, t.value)) := by
  induction ts generalizing tags with
  | nil => simp [setAll]
  | cons t ts ih =>
      rw [List.map_cons, List.nodup_cons] at h
      have hset : (tags.set t.key t.value).entries = (t.key, t.value) :: tags.entries :=
        congrArg (List.cons _) (List.filter_eq_self.mpr fun kv hkv =>
          decide_eq_true (hnew t (List.mem_cons_self ..) kv hkv))
      have hrest : ∀ u ∈ ts, ∀ kv ∈ (tags.set t.key t.value).entries, kv.1 ≠ u.key := by
        intro u hu kv hkv
        rw [hset] at hkv
        rcases List.mem_cons.mp hkv with rfl | hkv
        · exact fun heq => h.1 (List.mem_map.mpr ⟨u, hu, heq.symm⟩)
        · exact hnew u (List.mem_cons_of_mem _ hu) kv hkv
      have hperm := ih h.2 hrest
      rw [hset] at hperm
      exact hperm.trans List.perm_middle.symm

/-- **The tags are read.** -/
lemma tagsRead_setAll {ts : List OscTag} (h : (ts.map OscTag.key).Nodup) :
    TagsRead ts (setAll .empty ts) (ParseState.nameOr (setAll .empty ts) []) := by
  have hentries : (setAll .empty ts).entries.Perm (ts.map fun t => (t.key, t.value)) :=
    entries_setAll h nofun
  refine ⟨hentries, ?_⟩
  rw [ParseState.nameOr, Tags.find,
    find?_eq_of_mem_iff (setAll .empty ts).nodup fun x _ => hentries.mem_iff, List.find?_map,
    Option.map_map]
  rfl

/-! ### The handlers over a document -/

section Handlers

variable {moved : Moved}

open ParseState

/-- The children of an element, each of which adds to its entry. -/
lemma handleAll_children {α X : Type} {events : α → List SaxEvent} {child : X → α → X}
    (put : X → ParseState)
    (h : ∀ x a, (put x).handleAll ops moved (events a) = some (put (child x a))) (x : X)
    (as : List α) :
    (put x).handleAll ops moved (as.flatMap events) = some (put (as.foldl child x)) := by
  induction as generalizing x with
  | nil => rfl
  | cons a as ih =>
      rw [List.flatMap_cons, handleAll_append, h, Option.bind_some, List.foldl_cons]
      exact ih (child x a)

/-- An element around its content. -/
lemma handleAll_element {s t u : ParseState} {name : String} {attrs : List (Text × Text)}
    {content : List SaxEvent} (hstart : s.startElement ops (ascii name) attrs = some t)
    (hcontent : t.handleAll ops moved content = some u) :
    s.handleAll ops moved (element name attrs content)
      = some (u.endElement moved (ascii name)) := by
  rw [element, handleAll, List.foldlM_cons, handle, hstart, Option.bind_eq_bind, Option.bind_some,
    ← handleAll, handleAll_append, hcontent, Option.bind_some]
  rfl

/-- A tag. -/
lemma handleAll_tag (s : ParseState) (t : OscTag) :
    s.handleAll ops moved t.events = some (s.addTag t.key t.value) := by
  have hk : getAttr t.attrs.list "k" = some t.key := (t.attrs.getAttr_eq (by decide)).trans rfl
  have hv : getAttr t.attrs.list "v" = some t.value := (t.attrs.getAttr_eq (by decide)).trans rfl
  have hne : ∀ name ∈ ["create", "modify", "delete", "node", "way", "relation"],
      ascii "tag" ≠ ascii name := by decide
  have hstart : s.startElement ops (ascii "tag") t.attrs.list
      = some (s.addTag t.key t.value) := by
    simp only [List.forall_mem_cons] at hne
    simp only [startElement, hne, if_false, if_true, hk, hv]
  exact handleAll_element hstart rfl

/-- A number that is written is read. -/
lemma getInt64_eq {read : List String} {required : List (Text × Text)} (a : Attrs read required)
    {key : String} (hkey : key ∈ read) {n : ℤ} (hn : IsInt64 n)
    (hrequired : getAttr required key = some (decimal n)) : getInt64 a.list key = some n := by
  rw [getInt64, a.getAttr_eq hkey, hrequired]
  exact stoll_decimal hn

/-- Coordinates that are written are read. -/
lemma getDouble_coords (n : OscNode ops) :
    ∃ lat lon, getDouble ops n.attrs.list "lat" = some lat
      ∧ getDouble ops n.attrs.list "lon" = some lon
      ∧ ∀ lat' lon', n.coords = some (lat', lon') → lat = lat'.value ∧ lon = lon'.value := by
  have hlat := n.attrs.getAttr_eq (by decide : "lat" ∈ ["id", "lat", "lon"])
  have hlon := n.attrs.getAttr_eq (by decide : "lon" ∈ ["id", "lat", "lon"])
  rw [getDouble, getDouble, hlat, hlon]
  rcases hcoords : n.coords with _ | ⟨lat, lon⟩
  · exact ⟨0, 0, rfl, rfl, nofun⟩
  · refine ⟨lat.value, lon.value, lat.reads, lon.reads, ?_⟩
    rintro lat' lon' ⟨⟩
    exact ⟨rfl, rfl⟩

lemma startElement_node (s : ParseState) (n : OscNode ops) :
    ∃ lat lon, s.startElement ops (ascii "node") n.attrs.list = some { s with
        in_node := true, node := { emptyNode with id := n.id, lat := lat, lon := lon } }
      ∧ ∀ lat' lon', n.coords = some (lat', lon') → lat = lat'.value ∧ lon = lon'.value := by
  have hopen : s.startElement ops (ascii "node") n.attrs.list
      = (getInt64 n.attrs.list "id").bind fun id =>
        (getDouble ops n.attrs.list "lat").bind fun lat =>
          (getDouble ops n.attrs.list "lon").bind fun lon => some { s with
            in_node := true, node := { emptyNode with id := id, lat := lat, lon := lon } } := rfl
  obtain ⟨lat, lon, hlat, hlon, hcoords⟩ := getDouble_coords n
  refine ⟨lat, lon, ?_, hcoords⟩
  rw [hopen, getInt64_eq n.attrs (by decide) n.int64 rfl, hlat, hlon]
  rfl

lemma startElement_way (s : ParseState) (w : OscWay) :
    s.startElement ops (ascii "way") w.attrs.list
      = some { s with in_way := true, way := { emptyWay with id := w.id } } := by
  have hopen : s.startElement ops (ascii "way") w.attrs.list
      = (getInt64 w.attrs.list "id").bind fun id =>
        some { s with in_way := true, way := { emptyWay with id := id } } := rfl
  rw [hopen, getInt64_eq w.attrs (by decide) w.int64 rfl, Option.bind_some]

lemma startElement_relation (s : ParseState) (r : OscRelation) :
    s.startElement ops (ascii "relation") r.attrs.list
      = some { s with in_relation := true, relation := { emptyRelation with id := r.id } } := by
  have hopen : s.startElement ops (ascii "relation") r.attrs.list
      = (getInt64 r.attrs.list "id").bind fun id =>
        some { s with in_relation := true, relation := { emptyRelation with id := id } } := rfl
  rw [hopen, getInt64_eq r.attrs (by decide) r.int64 rfl, Option.bind_some]

/-- Which elements are open. -/
structure Open (node way relation : Bool) (s : ParseState) : Prop where
  node : s.in_node = node
  way : s.in_way = way
  relation : s.in_relation = relation

/-- What a child adds to a way. -/
def wayChild (w : WayEntry) : OscTag ⊕ OscRef → WayEntry
  | .inl t => { w with tags := w.tags.set t.key t.value }
  | .inr r => { w with node_refs := w.node_refs ++ [r.ref] }

lemma handleAll_wayChild {s : ParseState} (hs : Open false true false s) (c : OscTag ⊕ OscRef) :
    s.handleAll ops moved (Sum.elim OscTag.events OscRef.events c)
      = some { s with way := wayChild s.way c } := by
  obtain ⟨change, in_node, in_way, in_relation, node, way, relation, calls, count⟩ := s
  obtain ⟨rfl, rfl, rfl⟩ := hs
  cases c with
  | inl t => exact handleAll_tag _ t
  | inr r =>
      have href : getInt64 r.attrs.list "ref" = some r.ref :=
        getInt64_eq r.attrs (by decide) r.int64 rfl
      refine handleAll_element (t := ⟨change, false, true, false, node,
        { way with node_refs := way.node_refs ++ [r.ref] }, relation, calls, count⟩) ?_ rfl
      calc startElement ops _ (ascii "nd") r.attrs.list
          = (getInt64 r.attrs.list "ref").bind fun ref => some (if ref ≠ 0 then
              ⟨change, false, true, false, node, { way with node_refs := way.node_refs ++ [ref] },
                relation, calls, count⟩
            else ⟨change, false, true, false, node, way, relation, calls, count⟩) := rfl
        _ = _ := by rw [href, Option.bind_some, if_pos r.ne_zero]

/-- What a child adds to a relation. -/
def relationChild (r : RelationEntry) : OscTag ⊕ OscMemberRef → RelationEntry
  | .inl t => { r with tags := r.tags.set t.key t.value }
  | .inr m =>
      if m.type = .way then { r with way_members := r.way_members ++ [⟨m.ref, m.role⟩] } else r

lemma handleAll_relationChild {s : ParseState} (hs : Open false false true s)
    (c : OscTag ⊕ OscMemberRef) :
    s.handleAll ops moved (Sum.elim OscTag.events OscMemberRef.events c)
      = some { s with relation := relationChild s.relation c } := by
  obtain ⟨change, in_node, in_way, in_relation, node, way, relation, calls, count⟩ := s
  obtain ⟨rfl, rfl, rfl⟩ := hs
  cases c with
  | inl t => exact handleAll_tag _ t
  | inr m =>
      have htype : getAttr m.attrs.list "type" = some (typeText m.type) :=
        (m.attrs.getAttr_eq (by decide)).trans rfl
      have href : getInt64 m.attrs.list "ref" = some m.ref :=
        getInt64_eq m.attrs (by decide) m.int64 rfl
      have hrole : getAttr m.attrs.list "role" = some m.role :=
        (m.attrs.getAttr_eq (by decide)).trans rfl
      refine handleAll_element (t := ⟨change, false, false, true, node, way,
        relationChild relation (.inr m), calls, count⟩) ?_ rfl
      calc startElement ops _ (ascii "member") m.attrs.list
          = if getAttr m.attrs.list "type" = some (ascii "way") then
              (getInt64 m.attrs.list "ref").bind fun ref => some (if ref ≠ 0 then
                ⟨change, false, false, true, node, way, { relation with
                  way_members := relation.way_members
                    ++ [⟨ref, (getAttr m.attrs.list "role").getD []⟩] }, calls, count⟩
              else ⟨change, false, false, true, node, way, relation, calls, count⟩)
            else some ⟨change, false, false, true, node, way, relation, calls, count⟩ := rfl
        _ = _ := by
            rw [htype, href, hrole, Option.bind_some, if_pos m.ne_zero, relationChild]
            cases m.type <;> rfl

/-- What a tag adds to a node. -/
def nodeChild (n : NodeEntry) (t : OscTag) : NodeEntry :=
  { n with tags := n.tags.set t.key t.value }

lemma handleAll_nodeChild {s : ParseState} (hs : Open true false false s) (t : OscTag) :
    s.handleAll ops moved t.events = some { s with node := nodeChild s.node t } := by
  obtain ⟨change, in_node, in_way, in_relation, node, way, relation, calls, count⟩ := s
  obtain ⟨rfl, rfl, rfl⟩ := hs
  exact handleAll_tag _ t

/-! ### Entries -/

lemma foldl_nodeChild (n : NodeEntry) (ts : List OscTag) :
    ts.foldl nodeChild n = { n with tags := setAll n.tags ts } := by
  induction ts generalizing n with
  | nil => rfl
  | cons t ts ih => exact ih (nodeChild n t)

lemma foldl_wayChild (w : WayEntry) (cs : List (OscTag ⊕ OscRef)) :
    cs.foldl wayChild w = { w with
      tags := setAll w.tags (cs.filterMap Sum.getLeft?)
      node_refs := w.node_refs ++ (cs.filterMap Sum.getRight?).map OscRef.ref } := by
  induction cs generalizing w with
  | nil => simp [setAll]
  | cons c cs ih =>
      rw [List.foldl_cons, ih]
      cases c with
      | inl t => rfl
      | inr r => simp [wayChild, List.filterMap_cons]

lemma foldl_relationChild (r : RelationEntry) (cs : List (OscTag ⊕ OscMemberRef)) :
    cs.foldl relationChild r = { r with
      tags := setAll r.tags (cs.filterMap Sum.getLeft?)
      way_members := r.way_members ++ ((cs.filterMap Sum.getRight?).filter fun m =>
        m.type = .way).map fun m => ⟨m.ref, m.role⟩ } := by
  induction cs generalizing r with
  | nil => simp [setAll]
  | cons c cs ih =>
      rw [List.foldl_cons, ih]
      cases c with
      | inl t => rfl
      | inr m =>
          rw [relationChild]
          split
          · rename_i hway
            simp [hway, List.filterMap_cons]
          · rename_i hway
            simp [hway, List.filterMap_cons]

/-! ### Elements and blocks -/

/-- The handlers have gone over these changes. -/
structure After (s : ParseState) (cs : List (ChangeType × OscElement ops)) (s' : ParseState) :
    Prop where
  closed : Open false false false s'
  calls : ∃ os, s'.calls = s.calls ++ os ∧ List.Forall₂ (fun c o => c.2.Reads c.1 o) cs os
  count : s'.count = s.count + cs.length

lemma After.trans {s t u : ParseState} {cs cs' : List (ChangeType × OscElement ops)}
    (h : After s cs t) (h' : After t cs' u) : After s (cs ++ cs') u := by
  obtain ⟨os, hcalls, hreads⟩ := h.calls
  obtain ⟨os', hcalls', hreads'⟩ := h'.calls
  refine ⟨h'.closed, ⟨os ++ os', ?_, List.rel_append hreads hreads'⟩, ?_⟩
  · rw [hcalls', hcalls, List.append_assoc]
  · rw [h'.count, h.count, List.length_append, Nat.add_assoc]

lemma After.refl {s : ParseState} (hs : Open false false false s) :
    After s ([] : List (ChangeType × OscElement ops)) s :=
  ⟨hs, ⟨[], (List.append_nil _).symm, .nil⟩, rfl⟩

/-- **The handlers over an element.** -/
lemma handleAll_events (moved : Moved) {s : ParseState} (hs : Open false false false s)
    (e : OscElement ops) :
    ∃ s', s.handleAll ops moved e.events = some s' ∧ After s [(s.cur_change, e)] s'
      ∧ s'.cur_change = s.cur_change := by
  obtain ⟨change, in_node, in_way, in_relation, node, way, relation, calls, count⟩ := s
  obtain ⟨rfl, rfl, rfl⟩ := hs
  cases e with
  | node n =>
      obtain ⟨lat, lon, hstart, hcoords⟩ := startElement_node
        ⟨change, false, false, false, node, way, relation, calls, count⟩ n
      have hchildren : handleAll ops moved ⟨change, true, false, false,
          { emptyNode with id := n.id, lat := lat, lon := lon }, way, relation, calls, count⟩
          (n.tags.flatMap OscTag.events) = some _ :=
        handleAll_children (fun x => ⟨change, true, false, false, x, way, relation, calls, count⟩)
          (fun x t => handleAll_nodeChild ⟨rfl, rfl, rfl⟩ t) _ _
      rw [foldl_nodeChild] at hchildren
      refine ⟨_, handleAll_element hstart hchildren, ⟨⟨rfl, rfl, rfl⟩, ⟨[_], rfl, ?_⟩, rfl⟩, rfl⟩
      exact .cons ⟨rfl, rfl, tagsRead_setAll n.nodup, hcoords⟩ .nil
  | way w =>
      have hchildren : handleAll ops moved ⟨change, false, true, false, node,
          { emptyWay with id := w.id }, relation, calls, count⟩
          (w.children.flatMap (Sum.elim OscTag.events OscRef.events)) = some _ :=
        handleAll_children
          (fun x => ⟨change, false, true, false, node, x, relation, calls, count⟩)
          (fun x c => handleAll_wayChild ⟨rfl, rfl, rfl⟩ c) _ _
      rw [foldl_wayChild] at hchildren
      refine ⟨_, handleAll_element (startElement_way _ w) hchildren,
        ⟨⟨rfl, rfl, rfl⟩, ⟨[_], rfl, ?_⟩, rfl⟩, rfl⟩
      exact .cons ⟨rfl, rfl, tagsRead_setAll w.nodup, List.nil_append _⟩ .nil
  | relation r =>
      have hchildren : handleAll ops moved ⟨change, false, false, true, node, way,
          { emptyRelation with id := r.id }, calls, count⟩
          (r.children.flatMap (Sum.elim OscTag.events OscMemberRef.events)) = some _ :=
        handleAll_children
          (fun x => ⟨change, false, false, true, node, way, x, calls, count⟩)
          (fun x c => handleAll_relationChild ⟨rfl, rfl, rfl⟩ c) _ _
      rw [foldl_relationChild] at hchildren
      refine ⟨_, handleAll_element (startElement_relation _ r) hchildren,
        ⟨⟨rfl, rfl, rfl⟩, ⟨[_], rfl, ?_⟩, rfl⟩, rfl⟩
      exact .cons ⟨rfl, rfl, tagsRead_setAll r.nodup, List.nil_append _⟩ .nil

lemma handleAll_elements (moved : Moved) {s : ParseState} (hs : Open false false false s)
    (es : List (OscElement ops)) :
    ∃ s', s.handleAll ops moved (es.flatMap OscElement.events) = some s'
      ∧ After s (es.map fun e => (s.cur_change, e)) s' := by
  induction es generalizing s with
  | nil => exact ⟨s, rfl, .refl hs⟩
  | cons e es ih =>
      obtain ⟨t, ht, hafter, hchange⟩ := handleAll_events moved hs e
      obtain ⟨u, hu, hrest⟩ := ih hafter.closed
      refine ⟨u, ?_, ?_⟩
      · rw [List.flatMap_cons, handleAll_append, ht, Option.bind_some, hu]
      · rw [hchange] at hrest
        exact hafter.trans hrest

/-- A block gives its elements its type. -/
lemma handleAll_block (moved : Moved) {s : ParseState} (hs : Open false false false s)
    (b : OscBlock ops) : ∃ s', s.handleAll ops moved b.events = some s'
      ∧ After s (b.elements.map fun e => (b.type, e)) s' := by
  have hstart : s.startElement ops (ascii (typeName b.type)) b.attrs
      = some { s with cur_change := b.type } := by
    cases b.type <;> rfl
  obtain ⟨t, ht, hafter⟩ := handleAll_elements moved (s := { s with cur_change := b.type })
    ⟨hs.node, hs.way, hs.relation⟩ b.elements
  have hend : t.endElement moved (ascii (typeName b.type)) = t := by
    cases b.type <;> rfl
  refine ⟨t, ?_, hafter.closed, hafter.calls, hafter.count⟩
  rw [OscBlock.events, handleAll_element hstart ht, hend]

lemma handleAll_blocks (moved : Moved) {s : ParseState} (hs : Open false false false s)
    (bs : List (OscBlock ops)) :
    ∃ s', s.handleAll ops moved (bs.flatMap OscBlock.events) = some s'
      ∧ After s (bs.flatMap fun b => b.elements.map fun e => (b.type, e)) s' := by
  induction bs generalizing s with
  | nil => exact ⟨s, rfl, .refl hs⟩
  | cons b bs ih =>
      obtain ⟨t, ht, hafter⟩ := handleAll_block moved hs b
      obtain ⟨u, hu, hrest⟩ := ih hafter.closed
      refine ⟨u, ?_, ?_⟩
      · rw [List.flatMap_cons, handleAll_append, ht, Option.bind_some, hu]
      · exact hafter.trans hrest

end Handlers

/-! ### A document -/

/-- A parser of one document: its events come with the last piece. -/
def expatFor (content : List UInt8) (events : List SaxEvent) : Expat where
  State := List UInt8
  ParserCreate := []
  XML_Parse st buf done :=
    if done then if st ++ buf = content then some (st ++ buf, events) else none
    else some (st ++ buf, [])

lemma delivers_expatFor (content : List UInt8) (events : List SaxEvent) :
    (expatFor content events).Delivers content events := by
  have hfeed : ∀ (bufs : List (List UInt8)) (st : List UInt8), bufs ≠ [] →
      st ++ bufs.flatten = content → (expatFor content events).feed st bufs = some events := by
    intro bufs
    induction bufs with
    | nil => exact fun st hne _ => absurd rfl hne
    | cons buf bufs ih =>
        intro st _ hflat
        rw [List.flatten_cons, ← List.append_assoc] at hflat
        rcases bufs with _ | ⟨buf', bufs⟩
        · rw [List.flatten_nil, List.append_nil] at hflat
          simp [Expat.feed, expatFor, hflat]
        · have hrest := ih (st ++ buf) (List.cons_ne_nil _ _) hflat
          calc (expatFor content events).feed st (buf :: buf' :: bufs)
              = ((expatFor content events).feed (st ++ buf) (buf' :: bufs)).bind fun rest =>
                  some ([] ++ rest) := rfl
            _ = some events := by rw [hrest]; rfl
  exact fun bufs hne hflat => hfeed bufs [] hne hflat

/-- Attributes as they are required. -/
def Attrs.plain {read : List String} (required : List (Text × Text))
    (h : (required.map Prod.fst).Nodup) : Attrs read required :=
  ⟨required, h, fun _ ha => ha, fun _ ha _ _ _ => ha⟩

/-- A way that was modified and a node that was deleted. -/
def smallDocument : OscDocument noFloats where
  attrs := []
  blocks := [
    { type := .modify
      attrs := []
      elements := [.way {
        id := 42
        int64 := by decide
        attrs := .plain _ (by decide)
        children := [.inr ⟨7, by decide, by decide, .plain _ (by decide)⟩,
          .inl ⟨ascii "name", ascii "Main", .plain _ (by decide)⟩]
        nodup := by decide }] },
    { type := .delete
      attrs := []
      elements := [.node {
        id := -3
        int64 := by decide
        coords := none
        attrs := .plain _ (List.nodup_singleton _)
        tags := []
        nodup := by decide }] }]

def smallText : Text := ascii
  ("<osmChange><modify><way id=\"42\"><nd ref=\"7\"/><tag k=\"name\" v=\"Main\"/></way></modify>"
    ++ "<delete><node id=\"-3\"/></delete></osmChange>")

/-- **The callback sees the list of changes**: once each, in order, and their number is
returned, whatever is left of the entries moved out and wherever the reads cut the file. -/
theorem parse_preserves {ops : FloatOps} (moved : Moved) {e : Expat} {d : OscDocument ops}
    {content : List UInt8} (h : e.Delivers content d.events) :
    ∃ calls, parse ops moved e content = some (calls, d.changes.length)
      ∧ List.Forall₂ (fun c o => c.2.Reads c.1 o) d.changes calls := by
  have hstart : ParseState.start.startElement ops (ascii "osmChange") d.attrs
      = some ParseState.start := rfl
  obtain ⟨s, hs, hafter⟩ := handleAll_blocks moved (s := .start) ⟨rfl, rfl, rfl⟩
    d.blocks
  have hend : s.endElement moved (ascii "osmChange") = s := rfl
  obtain ⟨calls, hcalls, hreads⟩ := hafter.calls
  refine ⟨calls, ?_, hreads⟩
  rw [parse_eq_handleAll h, OscDocument.events, handleAll_element hstart hs, hend, Option.map_some,
    hcalls, hafter.count, OscDocument.changes]
  simp [ParseState.start]

theorem parse_preserves_small : ∃ calls,
    parse noFloats ⟨id, id, id⟩ (expatFor smallText smallDocument.events) smallText
        = some (calls, 2)
      ∧ List.Forall₂ (fun c o => c.2.Reads c.1 o) smallDocument.changes calls :=
  parse_preserves _ (delivers_expatFor smallText smallDocument.events)

end OSCReader

end Gpsxdb
