import Mathlib.Data.List.TakeWhile
import Mathlib.Tactic
import Gpsxdb.Import.PrimitiveBlock
import Gpsxdb.Reload.Csv

/-!
`OSCReader`: the changes of an osmChange file.

* `stoll`, `decimal`, `stoll_decimal`: numbers, and their text;
* `SaxEvent`, `ParseState`, `startElement`, `endElement`, `handleAll`: the handlers;
* `Expat`, `parseLoop`, `parse`: the file in pieces of `BUF_SIZE` bytes;
* `Expat.Delivers`, `parse_eq_handleAll`: **the pieces do not matter**.

Expat is a parameter, and so is what is left of an entry that was moved out.  `none` stands
for an exception.
-/

namespace Gpsxdb

namespace OSCReader

/-! ### Numbers -/

/-- `std::stoll`: nothing where it throws, without a digit or out of range. -/
def stoll (s : Text) : Option ℤ :=
  let (negative, rest) := splitSign (s.dropWhile isSpace)
  let digits := rest.takeWhile isDigit
  if digits = [] then none
  else
    let n : ℤ := digits.foldl (fun n c => 10 * n + (c.toNat - 0x30 : ℕ)) 0
    let n := if negative then -n else n
    if IsInt64 n then some n else none

/-- A number as it is written. -/
def decimal (n : ℤ) : Text :=
  (if n < 0 then [0x2D] else []) ++ (Nat.toDigits 10 n.natAbs).map fun c => c.toNat.toUInt8

/-- A digit as a byte. -/
lemma toNat_of_isDigit {c : Char} (h : c.isDigit = true) :
    c.toNat.toUInt8.toNat = c.toNat ∧ isDigit c.toNat.toUInt8 = true := by
  rw [Char.isDigit, Bool.and_eq_true, decide_eq_true_eq, decide_eq_true_eq] at h
  have hrange : 48 ≤ c.toNat ∧ c.toNat ≤ 57 :=
    ⟨UInt32.le_iff_toNat_le.mp h.1, UInt32.le_iff_toNat_le.mp h.2⟩
  have hbyte : c.toNat.toUInt8.toNat = c.toNat := by
    simp only [Nat.toUInt8, UInt8.toNat_ofNat']
    omega
  refine ⟨hbyte, ?_⟩
  simp only [isDigit, Bool.and_eq_true, decide_eq_true_eq, UInt8.le_iff_toNat_le, hbyte]
  exact hrange

/-- The value of digits. -/
lemma foldl_digits {cs : List Char} (h : ∀ c ∈ cs, c.isDigit = true) (n : ℕ) :
    (cs.map fun c => c.toNat.toUInt8).foldl (fun (n : ℤ) c => 10 * n + (c.toNat - 0x30 : ℕ)) n
      = Nat.ofDigitChars 10 cs n := by
  induction cs generalizing n with
  | nil => rfl
  | cons c cs ih =>
      obtain ⟨hbyte, -⟩ := toNat_of_isDigit (h c (List.mem_cons_self ..))
      rw [List.map_cons, List.foldl_cons, hbyte, Nat.ofDigitChars_cons,
        ← ih fun d hd => h d (List.mem_cons_of_mem _ hd)]
      rfl

/-- The sign and the digits decide. -/
lemma stoll_of_split {s digits : Text} {negative : Bool} {n : ℤ}
    (hsplit : splitSign (s.dropWhile isSpace) = (negative, digits))
    (hdigits : ∀ c ∈ digits, isDigit c = true) (hne : digits ≠ [])
    (hvalue : digits.foldl (fun (n : ℤ) c => 10 * n + (c.toNat - 0x30 : ℕ)) 0 = n.natAbs)
    (hsign : (if negative then -(n.natAbs : ℤ) else n.natAbs) = n) (h : IsInt64 n) :
    stoll s = some n := by
  rw [stoll, hsplit]
  dsimp only
  rw [List.takeWhile_eq_self_iff.mpr hdigits, if_neg hne, hvalue, hsign, if_pos h]

/-- A digit is neither blank nor a sign. -/
lemma splitSign_of_isDigit {d : UInt8} (hd : isDigit d = true) (ds : Text) :
    splitSign ((d :: ds).dropWhile isSpace) = (false, d :: ds) := by
  have hblank : isSpace d ≠ true := by
    intro hspace
    rw [isSpace, Bool.or_eq_true, beq_iff_eq, Bool.and_eq_true, decide_eq_true_eq,
      decide_eq_true_eq] at hspace
    rcases hspace with rfl | ⟨-, hle⟩
    · exact absurd hd (by decide)
    · have hge := (Bool.and_eq_true_iff.mp hd).1
      exact absurd (UInt8.le_trans (of_decide_eq_true hge) hle) (by decide)
  rw [List.dropWhile_cons_of_neg hblank, splitSign]
  · rintro s ⟨⟩
    exact absurd hd (by decide)
  · rintro s ⟨⟩
    exact absurd hd (by decide)

/-- **A number is read back.** -/
theorem stoll_decimal {n : ℤ} (h : IsInt64 n) : stoll (decimal n) = some n := by
  have hdigit : ∀ c ∈ Nat.toDigits 10 n.natAbs, c.isDigit = true :=
    fun c => Nat.isDigit_of_mem_toDigits (by decide) (by decide)
  set digits := (Nat.toDigits 10 n.natAbs).map fun c => c.toNat.toUInt8 with hdigits
  have hall : ∀ c ∈ digits, isDigit c = true := by
    intro c hc
    obtain ⟨d, hd, rfl⟩ := List.mem_map.mp hc
    exact (toNat_of_isDigit (hdigit d hd)).2
  have hne : digits ≠ [] := by
    rw [hdigits, ne_eq, List.map_eq_nil_iff]
    exact Nat.toDigits_ne_nil
  have hvalue : digits.foldl (fun (n : ℤ) c => 10 * n + (c.toNat - 0x30 : ℕ)) 0 = n.natAbs := by
    have hfold := foldl_digits hdigit 0
    rw [Nat.ofDigitChars_ten_toDigits] at hfold
    exact hfold
  by_cases hneg : n < 0
  · have hsplit : splitSign ((decimal n).dropWhile isSpace) = (true, digits) := by
      rw [decimal, if_pos hneg, ← hdigits]
      rfl
    exact stoll_of_split hsplit hall hne hvalue (by rw [if_pos rfl]; omega) h
  · have hsplit : splitSign ((decimal n).dropWhile isSpace) = (false, digits) := by
      obtain ⟨d, ds, hcons⟩ := List.exists_cons_of_ne_nil hne
      rw [decimal, if_neg hneg, ← hdigits, List.nil_append, hcons]
      exact splitSign_of_isDigit (hall d (hcons ▸ List.mem_cons_self)) ds
    exact stoll_of_split hsplit hall hne hvalue (by rw [if_neg (by decide)]; omega) h

/-! ### The handlers -/

/-- What expat calls the handlers with: the name and the attributes of a start tag, and the
name of an end tag. -/
inductive SaxEvent where
  | startElement (name : Text) (attrs : List (Text × Text))
  | endElement (name : Text)

/-- `ParseState`, with the calls of the callback. -/
structure ParseState where
  cur_change : ChangeType
  in_node : Bool
  in_way : Bool
  in_relation : Bool
  node : NodeEntry
  way : WayEntry
  relation : RelationEntry
  calls : List OSCChange
  count : ℕ

/-- `NodeEntry{}`, `WayEntry{}`, `RelationEntry{}`. -/
def emptyNode : NodeEntry := ⟨0, [], .empty, 0, 0⟩

def emptyWay : WayEntry := ⟨0, [], .empty, []⟩

def emptyRelation : RelationEntry := ⟨0, [], .empty, []⟩

/-- The state before the first event. -/
def ParseState.start : ParseState where
  cur_change := .create
  in_node := false
  in_way := false
  in_relation := false
  node := emptyNode
  way := emptyWay
  relation := emptyRelation
  calls := []
  count := 0

/-- What is left of an entry that was moved out. -/
structure Moved where
  node : NodeEntry → NodeEntry
  way : WayEntry → WayEntry
  relation : RelationEntry → RelationEntry

/-- `getAttr`. -/
def getAttr (attrs : List (Text × Text)) (key : String) : Option Text :=
  (attrs.find? fun a => a.1 == ascii key).map Prod.snd

/-- `getInt64`: zero where there is none. -/
def getInt64 (attrs : List (Text × Text)) (key : String) : Option ℤ :=
  match getAttr attrs key with
  | none => some 0
  | some v => stoll v

/-- `getDouble`: zero where there is none. -/
def getDouble (ops : FloatOps) (attrs : List (Text × Text)) (key : String) : Option Double :=
  match getAttr attrs key with
  | none => some 0
  | some v => ops.stod v

namespace ParseState

variable (ops : FloatOps) (moved : Moved)

/-- The tag of every element that is open. -/
def addTag (s : ParseState) (k v : Text) : ParseState :=
  { s with
    node := if s.in_node then { s.node with tags := s.node.tags.set k v } else s.node
    way := if s.in_way then { s.way with tags := s.way.tags.set k v } else s.way
    relation :=
      if s.in_relation then { s.relation with tags := s.relation.tags.set k v } else s.relation }

/-- `startElement`. -/
def startElement (s : ParseState) (name : Text) (attrs : List (Text × Text)) :
    Option ParseState :=
  if name = ascii "create" then some { s with cur_change := .create }
  else if name = ascii "modify" then some { s with cur_change := .modify }
  else if name = ascii "delete" then some { s with cur_change := .delete }
  else if name = ascii "node" then do
    let id ← getInt64 attrs "id"
    let lat ← getDouble ops attrs "lat"
    let lon ← getDouble ops attrs "lon"
    return { s with in_node := true, node := { emptyNode with id := id, lat := lat, lon := lon } }
  else if name = ascii "way" then do
    let id ← getInt64 attrs "id"
    return { s with in_way := true, way := { emptyWay with id := id } }
  else if name = ascii "relation" then do
    let id ← getInt64 attrs "id"
    return { s with in_relation := true, relation := { emptyRelation with id := id } }
  else if name = ascii "tag" then
    match getAttr attrs "k", getAttr attrs "v" with
    | some k, some v => some (s.addTag k v)
    | _, _ => some s
  else if name = ascii "nd" ∧ s.in_way = true then do
    let ref ← getInt64 attrs "ref"
    return if ref ≠ 0 then { s with way := { s.way with node_refs := s.way.node_refs ++ [ref] } }
      else s
  else if name = ascii "member" ∧ s.in_relation = true then
    -- only way members are kept
    if getAttr attrs "type" = some (ascii "way") then do
      let ref ← getInt64 attrs "ref"
      let role := (getAttr attrs "role").getD []
      return if ref ≠ 0 then
        { s with
          relation := { s.relation with way_members := s.relation.way_members ++ [⟨ref, role⟩] } }
        else s
    else some s
  else some s

/-- The name of an entry: its tag, if there is one. -/
def nameOr (tags : Tags) (name : Text) : Text := (tags.find (ascii "name")).getD name

/-- `endElement`. -/
def endElement (s : ParseState) (name : Text) : ParseState :=
  if name = ascii "node" ∧ s.in_node = true then
    let node := { s.node with name := nameOr s.node.tags s.node.name }
    { s with
      in_node := false, node := moved.node node, calls := s.calls ++ [.node s.cur_change node],
      count := s.count + 1 }
  else if name = ascii "way" ∧ s.in_way = true then
    let way := { s.way with name := nameOr s.way.tags s.way.name }
    { s with
      in_way := false, way := moved.way way, calls := s.calls ++ [.way s.cur_change way],
      count := s.count + 1 }
  else if name = ascii "relation" ∧ s.in_relation = true then
    let relation := { s.relation with name := nameOr s.relation.tags s.relation.name }
    { s with
      in_relation := false, relation := moved.relation relation,
      calls := s.calls ++ [.relation s.cur_change relation], count := s.count + 1 }
  else s

/-- A handler. -/
def handle (s : ParseState) : SaxEvent → Option ParseState
  | .startElement name attrs => s.startElement ops name attrs
  | .endElement name => some (s.endElement moved name)

/-- Events in turn. -/
def handleAll (s : ParseState) (events : List SaxEvent) : Option ParseState :=
  events.foldlM (handle ops moved) s

end ParseState

/-! ### The file -/

/-- An expat parser: one `XML_Parse`, with the events of it, or an error. -/
structure Expat where
  State : Type
  ParserCreate : State
  XML_Parse : State → List UInt8 → Bool → Option (State × List SaxEvent)

namespace Expat

/-- The events of a document in pieces, the last of them marked as such. -/
def feed (e : Expat) (st : e.State) : List (List UInt8) → Option (List SaxEvent)
  | [] => some []
  | [buf] => (e.XML_Parse st buf true).map Prod.snd
  | buf :: bufs => do
      let (st, events) ← e.XML_Parse st buf false
      let rest ← e.feed st bufs
      return events ++ rest

lemma feed_cons (e : Expat) (st : e.State) (buf buf' : List UInt8) (bufs : List (List UInt8)) :
    e.feed st (buf :: buf' :: bufs) = (e.XML_Parse st buf false).bind fun r =>
      (e.feed r.1 (buf' :: bufs)).bind fun rest => some (r.2 ++ rest) := rfl

/-- **What expat is for**: a document gives its events, however it is cut. -/
def Delivers (e : Expat) (content : List UInt8) (events : List SaxEvent) : Prop :=
  ∀ bufs, bufs ≠ [] → bufs.flatten = content → e.feed e.ParserCreate bufs = some events

end Expat

def BUF_SIZE : ℕ := 65536

variable (ops : FloatOps) (moved : Moved) (e : Expat)

/-- What `fread` and `gzread` return, read by read: less than a whole buffer only at the
end. -/
def reads (rest : List UInt8) : List (List UInt8) :=
  if rest.length < BUF_SIZE then [rest]
  else rest.take BUF_SIZE :: reads (rest.drop BUF_SIZE)
termination_by rest.length
decreasing_by
  rw [List.length_drop]
  have hpos : 0 < BUF_SIZE := by decide
  omega

/-- The loop of `parse`: the state of expat and of the handlers, and the reads. -/
def parseLoop (st : e.State) (s : ParseState) : List (List UInt8) → Option ParseState
  | [] => some s
  | buf :: bufs =>
      let done : Bool := buf.length < BUF_SIZE
      match e.XML_Parse st buf done with
      | none => none
      | some (st, events) =>
          match s.handleAll ops moved events with
          | none => none
          | some s => if done then some s else parseLoop st s bufs

/-- `OSCReader::parse` on the content of a file, unpacked where it is packed: the calls of
the callback, and what is returned. -/
def parse (content : List UInt8) : Option (List OSCChange × ℕ) :=
  (parseLoop ops moved e e.ParserCreate .start (reads content)).map fun s => (s.calls, s.count)

variable {ops moved e}

lemma flatten_reads (rest : List UInt8) : (reads rest).flatten = rest := by
  fun_induction reads with
  | case1 => simp
  | case2 rest hfull ih => rw [List.flatten_cons, ih, List.take_append_drop]

lemma reads_ne_nil (rest : List UInt8) : reads rest ≠ [] := by
  rw [reads]
  split <;> exact nofun

/-- Events in two parts. -/
lemma ParseState.handleAll_append (s : ParseState) (xs ys : List SaxEvent) :
    s.handleAll ops moved (xs ++ ys)
      = (s.handleAll ops moved xs).bind fun s => s.handleAll ops moved ys :=
  List.foldlM_append ..

/-- **The pieces do not matter**: the handlers see the events of the whole file. -/
lemma parseLoop_reads (st : e.State) (s : ParseState) (rest : List UInt8) :
    parseLoop ops moved e st s (reads rest)
      = (e.feed st (reads rest)).bind fun events => s.handleAll ops moved events := by
  fun_induction reads generalizing st s with
  | case1 rest hlast =>
      rw [parseLoop, Expat.feed]
      simp only [hlast, decide_true, if_true]
      rcases e.XML_Parse st rest true with _ | ⟨st', events⟩
      · rfl
      · rw [Option.map_some, Option.bind_some]
        dsimp only
        cases s.handleAll ops moved events <;> rfl
  | case2 rest hfull ih =>
      have hbuf : ¬ (rest.take BUF_SIZE).length < BUF_SIZE := by
        rw [List.length_take]
        omega
      obtain ⟨buf, bufs, hreads⟩ := List.exists_cons_of_ne_nil (reads_ne_nil (rest.drop BUF_SIZE))
      rw [parseLoop]
      simp only [hbuf, decide_false, Bool.false_eq_true, if_false, ih]
      rw [hreads, Expat.feed_cons]
      rcases e.XML_Parse st (rest.take BUF_SIZE) false with _ | ⟨st', events⟩
      · rfl
      · dsimp only
        rw [Option.bind_some, Option.bind_assoc]
        cases hevents : s.handleAll ops moved events with
        | none =>
            refine (Option.bind_eq_none_iff.mpr fun later _ => ?_).symm
            rw [Option.bind_some, ParseState.handleAll_append, hevents, Option.bind_none]
        | some s' =>
            refine Option.bind_congr fun later _ => ?_
            rw [Option.bind_some, ParseState.handleAll_append, hevents, Option.bind_some]

/-- The result for a file that expat can read. -/
lemma parse_eq_handleAll {content : List UInt8} {events : List SaxEvent}
    (h : e.Delivers content events) : parse ops moved e content
      = (ParseState.start.handleAll ops moved events).map fun s => (s.calls, s.count) := by
  rw [parse, parseLoop_reads, h _ (reads_ne_nil content) (flatten_reads content),
    Option.bind_some]

end OSCReader

end Gpsxdb
