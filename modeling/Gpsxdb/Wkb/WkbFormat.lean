import Mathlib.Tactic
import Gpsxdb.Wkb.WkbDecode

/-!
The format of stored geometries, as documented in `WkbDecode.h`.

* `Ewkb`: a geometry with all of its headers; `Ewkb.write`: its bytes;
  `Ewkb.Documented`: its headers carry a type code and the SRID flag, and no more;
* `headerFormat`, `pointsFormat`, `ringsFormat`, `partFormat`, `bodyFormat`, `ewkbFormat`:
  the fields, and the whole, as formats;
* `decodeOne_eq`: **the decoder reads this format**, whatever other bits the type words
  have;
* `decode_write`: **the round trip**, and what is cut short is not decoded;
* `decode_documented_iff`: **what is decoded is documented**, exactly where no type word
  has other bits.
-/

namespace Gpsxdb

namespace WkbDecode

/-! ### The bytes -/

/-- A point. -/
def writePoint (p : Coord) : List UInt8 := wf64 p.lon_m ++ wf64 p.lat_m

/-- Several values behind their count. -/
def writeCounted {α : Type} (write : α → List UInt8) (as : List α) : List UInt8 :=
  wu32 (UInt32.ofNat as.length) ++ as.flatMap write

/-- A header. -/
def Header.write (h : Header) : List UInt8 :=
  0x01 :: (wu32 h.raw_type ++ h.srid.elim [] fun srid => wu32 srid.toUInt32)

/-- A geometry inside another one. -/
def writePart {α : Type} (write : α → List UInt8) (part : Header × α) : List UInt8 :=
  part.1.write ++ write part.2

/-- What follows the header. -/
inductive Body where
  | point (p : Coord)
  | lineString (ls : List Coord)
  | polygon (rings : List Ring)
  | multiLineString (parts : List (Header × List Coord))
  | multiPolygon (parts : List (Header × List Ring))

namespace Body

/-- The type code. -/
def type : Body → UInt32
  | point _ => 1
  | lineString _ => 2
  | polygon _ => 3
  | multiLineString _ => 5
  | multiPolygon _ => 6

def write : Body → List UInt8
  | point p => writePoint p
  | lineString ls => writeCounted writePoint ls
  | polygon rings => writeCounted (writeCounted writePoint) rings
  | multiLineString parts => writeCounted (writePart (writeCounted writePoint)) parts
  | multiPolygon parts => writeCounted (writePart (writeCounted (writeCounted writePoint))) parts

/-- The geometry it is. -/
def geom : Body → GeomVariant
  | point p => .point p
  | lineString ls => .lineString ls
  | polygon rings => .polygon (.ofRings rings)
  | multiLineString parts => .multiLineString (parts.map Prod.snd)
  | multiPolygon parts => .multiPolygon (parts.map fun part => .ofRings part.2)

end Body

/-- A geometry with all of its headers. -/
structure Ewkb where
  header : Header
  body : Body

namespace Ewkb

def write (e : Ewkb) : List UInt8 := e.header.write ++ e.body.write

def decoded (e : Ewkb) : Decoded := ⟨e.body.geom, e.header.srid.getD 0⟩

end Ewkb

/-! ### What is documented -/

/-- A type word: a type code, with the SRID flag where there is an SRID. -/
def Header.Documented (type : UInt32) (h : Header) : Prop :=
  h.raw_type = if h.srid.isSome then type ||| 0x20000000 else type

/-- Counts are 32 bits wide. -/
def Counted {α : Type} (as : List α) : Prop := as.length < 2 ^ 32

instance {α : Type} (as : List α) : Decidable (Counted as) := inferInstanceAs (Decidable (_ < _))

def Body.Documented : Body → Prop
  | .point _ => True
  | .lineString ls => Counted ls
  | .polygon rings => Counted rings ∧ ∀ ring ∈ rings, Counted ring
  | .multiLineString parts => Counted parts ∧ ∀ part ∈ parts, part.1.Documented 2 ∧ Counted part.2
  | .multiPolygon parts => Counted parts
      ∧ ∀ part ∈ parts, part.1.Documented 3 ∧ Counted part.2 ∧ ∀ ring ∈ part.2, Counted ring

/-- The documented variant. -/
def Ewkb.Documented (e : Ewkb) : Prop := e.header.Documented e.body.type ∧ e.body.Documented

/-! ### The fields as formats -/

lemma ru32_wu32 (v : UInt32) : ru32 (wu32 v) = v := by
  rw [ru32, leValue_wu32, UInt32.ofNat_toNat]

lemma wu32_ru32 {bs : List UInt8} (h : bs.length = 4) : wu32 (ru32 bs) = bs := by
  have hlt := leValue_lt bs
  rw [h] at hlt
  refine leValue_inj h.symm ?_
  rw [leValue_wu32, ru32, UInt32.toNat_ofNat_of_lt' hlt]

lemma wf64_rf64 {bs : List UInt8} (h : bs.length = 8) : wf64 (rf64 bs) = bs := by
  have hlt := leValue_lt bs
  rw [h] at hlt
  refine leValue_inj h.symm ?_
  rw [leValue_wf64, rf64, UInt64.toNat_ofNat_of_lt' hlt]

/-- A `uint32_t`. -/
def wordFormat : StreamFormat UInt8 UInt32 :=
  .fixed 4 wu32 ru32 (fun _ => rfl) ru32_wu32 fun _ => wu32_ru32

/-- A double. -/
def doubleFormat : StreamFormat UInt8 Double :=
  .fixed 8 wf64 rf64 (fun _ => rfl) rf64_wf64 fun _ => wf64_rf64

/-- A count. -/
def countFormat : StreamFormat UInt8 ℕ :=
  wordFormat.imap UInt32.toNat UInt32.ofNat (· < 2 ^ 32)
    (fun _ hn => UInt32.toNat_ofNat_of_lt' hn) (fun _ => UInt32.ofNat_toNat) fun v _ => v.toNat_lt

/-- A point. -/
def pointFormat : StreamFormat UInt8 Coord :=
  (doubleFormat.seq fun _ => doubleFormat).imap (fun p => ⟨p.1, p.2⟩) (fun p => (p.lon_m, p.lat_m))
    (fun _ => True) (fun _ _ => rfl) (fun _ => rfl) fun _ _ => trivial

/-- The points of a line, or of a ring. -/
def pointsFormat : StreamFormat UInt8 (List Coord) := .counted countFormat pointFormat

/-- The rings of a polygon. -/
def ringsFormat : StreamFormat UInt8 (List Ring) := .counted countFormat pointsFormat

lemma valid_pointsFormat {ps : List Coord} : pointsFormat.valid ps ↔ Counted ps :=
  ⟨fun h => h.1.1, fun h => ⟨⟨h, trivial⟩, fun _ _ => ⟨trivial, trivial, trivial⟩⟩⟩

lemma valid_ringsFormat {rings : List Ring} :
    ringsFormat.valid rings ↔ Counted rings ∧ ∀ ring ∈ rings, Counted ring :=
  ⟨fun h => ⟨h.1.1, fun ring hr => valid_pointsFormat.mp (h.2 ring hr)⟩,
    fun h => ⟨⟨h.1, trivial⟩, fun ring hr => valid_pointsFormat.mpr (h.2 ring hr)⟩⟩

lemma u32_wu32_append (v : UInt32) (rest : List UInt8) : u32 (wu32 v ++ rest) = some (v, rest) :=
  wordFormat.read_write v trivial rest

lemma eq_of_u32 {c rest : List UInt8} {v : UInt32} (h : u32 c = some (v, rest)) :
    c = wu32 v ++ rest := (wordFormat.eq_of_read c v rest h).2

/-- A header: the flag announces the SRID. -/
def headerFormat : StreamFormat UInt8 Header where
  valid h := h.srid.isSome = decide (h.raw_type &&& 0x20000000 ≠ 0)
  write := Header.write
  read := readHeader
  read_write := by
    rintro ⟨raw_type, srid⟩ h rest
    cases srid with
    | none =>
        have hflag : raw_type &&& 0x20000000 = 0 := by simpa using h
        simp [readHeader, Header.write, u8, u32_wu32_append, hflag]
    | some srid =>
        have hflag : ¬ raw_type &&& 0x20000000 = 0 := by simpa using h
        simp [readHeader, Header.write, u8, u32_wu32_append, hflag]
  eq_of_read := by
    intro c h rest hread
    rw [readHeader, Option.bind_eq_bind, Option.bind_eq_some_iff] at hread
    obtain ⟨⟨b, c₁⟩, hb, hread⟩ := hread
    obtain ⟨b, c, rfl⟩ : ∃ b' c', c = b' :: c' := by
      cases c with
      | nil => simp [u8] at hb
      | cons b c => exact ⟨b, c, rfl⟩
    obtain ⟨rfl, rfl⟩ := Prod.mk.inj (Option.some.inj hb)
    dsimp only at hread
    split at hread
    · simp at hread
    rename_i hone
    rw [Option.bind_eq_bind, Option.bind_eq_some_iff] at hread
    obtain ⟨⟨raw_type, c₂⟩, hraw, hread⟩ := hread
    obtain rfl : b = 0x01 := not_ne_iff.mp hone
    obtain rfl := eq_of_u32 hraw
    dsimp only at hread
    split at hread
    · rename_i hflag
      rw [Option.bind_eq_some_iff] at hread
      obtain ⟨⟨srid, c₃⟩, hsrid, hread⟩ := hread
      obtain ⟨rfl, rfl⟩ := Prod.mk.inj (Option.some.inj hread)
      have hc₂ : c₂ = wu32 srid ++ c₃ := eq_of_u32 hsrid
      refine ⟨by simpa using hflag, ?_⟩
      simp [Header.write, hc₂]
    · rename_i hflag
      obtain ⟨rfl, rfl⟩ := Prod.mk.inj (Option.some.inj hread)
      refine ⟨by simpa using hflag, ?_⟩
      simp [Header.write]

/-- A geometry of one kind inside another one. -/
def partFormat {α : Type} (type : UInt32) (F : StreamFormat UInt8 α) :
    StreamFormat UInt8 (Header × α) :=
  (headerFormat.only fun h => h.type = type).seq fun _ => F

/-- The lines of a collection, each with its header. -/
def linesFormat : StreamFormat UInt8 (List (Header × List Coord)) :=
  .counted countFormat (partFormat 2 pointsFormat)

/-- The polygons of a collection, each with its header. -/
def polygonsFormat : StreamFormat UInt8 (List (Header × List Ring)) :=
  .counted countFormat (partFormat 3 ringsFormat)

/-- What can be read behind a header. -/
def Body.Valid : Body → Prop
  | .point p => pointFormat.valid p
  | .lineString ls => pointsFormat.valid ls
  | .polygon rings => ringsFormat.valid rings
  | .multiLineString parts => linesFormat.valid parts
  | .multiPolygon parts => polygonsFormat.valid parts

/-- What follows a header with a type code. -/
def bodyFormat (type : UInt32) : StreamFormat UInt8 Body where
  valid b := b.type = type ∧ b.Valid
  write := Body.write
  read c :=
    if type = 1 then (pointFormat.read c).map (Prod.map .point id)
    else if type = 2 then (pointsFormat.read c).map (Prod.map .lineString id)
    else if type = 3 then (ringsFormat.read c).map (Prod.map .polygon id)
    else if type = 5 then (linesFormat.read c).map (Prod.map .multiLineString id)
    else if type = 6 then (polygonsFormat.read c).map (Prod.map .multiPolygon id)
    else none
  read_write := by
    rintro b ⟨rfl, hb⟩ rest
    cases b with
    | point p => exact congrArg (Option.map _) (pointFormat.read_write p hb rest)
    | lineString ls =>
        simp only [Body.type, show ¬ (2 : UInt32) = 1 by decide, if_false, if_true]
        exact congrArg (Option.map _) (pointsFormat.read_write ls hb rest)
    | polygon rings =>
        simp only [Body.type, show ¬ (3 : UInt32) = 1 by decide, show ¬ (3 : UInt32) = 2 by decide,
          if_false, if_true]
        exact congrArg (Option.map _) (ringsFormat.read_write rings hb rest)
    | multiLineString parts =>
        simp only [Body.type, show ¬ (5 : UInt32) = 1 by decide, show ¬ (5 : UInt32) = 2 by decide,
          show ¬ (5 : UInt32) = 3 by decide, if_false, if_true]
        exact congrArg (Option.map _) (linesFormat.read_write parts hb rest)
    | multiPolygon parts =>
        simp only [Body.type, show ¬ (6 : UInt32) = 1 by decide, show ¬ (6 : UInt32) = 2 by decide,
          show ¬ (6 : UInt32) = 3 by decide, show ¬ (6 : UInt32) = 5 by decide, if_false, if_true]
        exact congrArg (Option.map _) (polygonsFormat.read_write parts hb rest)
  eq_of_read := by
    intro c b rest h
    split_ifs at h with h1 h2 h3 h5 h6
    all_goals
      obtain ⟨⟨a, rest'⟩, hread, h⟩ := Option.map_eq_some_iff.mp h
      obtain ⟨rfl, rfl⟩ := Prod.mk.inj h
    · obtain ⟨hvalid, hc⟩ := pointFormat.eq_of_read _ _ _ hread
      exact ⟨⟨h1.symm, hvalid⟩, hc⟩
    · obtain ⟨hvalid, hc⟩ := pointsFormat.eq_of_read _ _ _ hread
      exact ⟨⟨h2.symm, hvalid⟩, hc⟩
    · obtain ⟨hvalid, hc⟩ := ringsFormat.eq_of_read _ _ _ hread
      exact ⟨⟨h3.symm, hvalid⟩, hc⟩
    · obtain ⟨hvalid, hc⟩ := linesFormat.eq_of_read _ _ _ hread
      exact ⟨⟨h5.symm, hvalid⟩, hc⟩
    · obtain ⟨hvalid, hc⟩ := polygonsFormat.eq_of_read _ _ _ hread
      exact ⟨⟨h6.symm, hvalid⟩, hc⟩

/-- A geometry with its headers, whatever other bits the type words have. -/
def ewkbFormat : StreamFormat UInt8 Ewkb :=
  (headerFormat.seq fun h => bodyFormat h.type).imap (fun p => ⟨p.1, p.2⟩)
    (fun e => (e.header, e.body)) (fun _ => True) (fun _ _ => rfl) (fun _ => rfl)
    fun _ _ => trivial

/-! ### The decoder reads the format -/

lemma read_pointFormat (c : List UInt8) : pointFormat.read c = readPoint c := by
  have hread : pointFormat.read c
      = ((f64 c).bind fun p => (f64 p.2).bind fun q => some ((p.1, q.1), q.2)).map
        (Prod.map (fun p : Double × Double => (⟨p.1, p.2⟩ : Coord)) id) := rfl
  rw [hread, readPoint]
  cases f64 c with
  | none => rfl
  | some p =>
      dsimp only [Option.bind_eq_bind, Option.bind_some]
      cases f64 p.2 <;> rfl

lemma read_counted {α : Type} (F : StreamFormat UInt8 α) (c : List UInt8) :
    (StreamFormat.counted countFormat F).read c = readCounted F.read c := by
  have hread : (StreamFormat.counted countFormat F).read c
      = ((u32 c).map (Prod.map UInt32.toNat id)).bind fun p => readTimes F.read p.1 p.2 := rfl
  rw [hread, readCounted]
  cases u32 c <;> rfl

lemma read_pointsFormat : pointsFormat.read = readCounted readPoint := by
  funext c
  rw [pointsFormat, read_counted, funext read_pointFormat]

lemma read_ringsFormat : ringsFormat.read = readCounted (readCounted readPoint) := by
  funext c
  rw [ringsFormat, read_counted, read_pointsFormat]

/-- A reader that renames what another one reads, behind a count. -/
lemma readCounted_map {α γ : Type} {read : List UInt8 → Option (α × List UInt8)}
    {read' : List UInt8 → Option (γ × List UInt8)} {φ : α → γ}
    (h : ∀ c, read' c = (read c).map (Prod.map φ id)) (c : List UInt8) :
    readCounted read' c = (readCounted read c).map (Prod.map (List.map φ) id) := by
  rw [readCounted, readCounted]
  cases u32 c with
  | none => rfl
  | some p => exact readTimes_map h p.1.toNat p.2

/-- The type code of a geometry. -/
def GeomVariant.type : GeomVariant → UInt32
  | .point _ => 1
  | .lineString _ => 2
  | .polygon _ => 3
  | .multiLineString _ => 5
  | .multiPolygon _ => 6

/-- The geometry has the type code of its header. -/
lemma type_of_decodeBody {sub : List UInt8 → Option (Decoded × List UInt8)} {type : UInt32}
    {c rest : List UInt8} {g : GeomVariant} (h : decodeBody sub type c = some (g, rest)) :
    g.type = type := by
  rw [decodeBody] at h
  split_ifs at h with h1 h2 h3 h5 h6
  all_goals
    obtain ⟨⟨a, rest'⟩, -, h⟩ := Option.map_eq_some_iff.mp h
    obtain ⟨rfl, -⟩ := Prod.mk.inj h
  · exact h1.symm
  · exact h2.symm
  · exact h3.symm
  · exact h5.symm
  · exact h6.symm

/-- A nested geometry of one kind: what the decoder takes out of it is what the format
has behind the header. -/
lemma readSub_decodeOne {α γ : Type} {pick : GeomVariant → Option γ} {type : UInt32}
    {F : StreamFormat UInt8 α} {φ : α → γ}
    (hother : ∀ g : GeomVariant, g.type ≠ type → pick g = none)
    (hbody : ∀ sub c, (decodeBody sub type c).bind (fun p => (pick p.1).map fun a => (a, p.2))
      = (F.read c).map (Prod.map φ id)) (levels : ℕ) (c : List UInt8) :
    readSub (decodeOne (levels + 1)) pick c
      = ((partFormat type F).read c).map (Prod.map (φ ∘ Prod.snd) id) := by
  have hread : (partFormat type F).read c
      = ((readHeader c).filter fun r => r.1.type = type).bind fun p =>
        (F.read p.2).bind fun q => some ((p.1, q.1), q.2) := rfl
  rw [hread, readSub, decodeOne]
  cases readHeader c with
  | none => rfl
  | some p =>
      obtain ⟨h, c⟩ := p
      dsimp only [Option.bind_eq_bind, Option.bind_some]
      by_cases htype : h.type = type
      · rw [Option.filter_some_pos (by simpa using htype), Option.bind_some, htype]
        refine Eq.trans ?_ ((hbody (decodeOne levels) c).trans ?_)
        · cases decodeBody (decodeOne levels) type c with
          | none => rfl
          | some q =>
              simp only [Option.bind_some]
              cases pick q.1 <;> rfl
        · cases F.read c <;> rfl
      · rw [Option.filter_some_neg (by simpa using htype), Option.bind_none]
        cases hdec : decodeBody (decodeOne levels) h.type c with
        | none => rfl
        | some q =>
            have hnone := hother q.1 (type_of_decodeBody hdec ▸ htype)
            simp [hnone]

/-- The lines of a collection. -/
lemma readSub_lines (levels : ℕ) (c : List UInt8) :
    readSub (decodeOne (levels + 1)) GeomVariant.lineString? c
      = ((partFormat 2 pointsFormat).read c).map (Prod.map Prod.snd id) := by
  refine readSub_decodeOne (φ := id) (fun g hg => ?_) (fun sub c => ?_) levels c
  · cases g with
    | lineString ls => exact absurd rfl hg
    | _ => rfl
  · rw [read_pointsFormat]
    have hbody : decodeBody sub 2 c = (readCounted readPoint c).map (Prod.map .lineString id) := rfl
    rw [hbody]
    cases readCounted readPoint c <;> rfl

/-- The polygons of a collection. -/
lemma readSub_polygons (levels : ℕ) (c : List UInt8) :
    readSub (decodeOne (levels + 1)) GeomVariant.polygon? c
      = ((partFormat 3 ringsFormat).read c).map (Prod.map (.ofRings ∘ Prod.snd) id) := by
  refine readSub_decodeOne (φ := Polygon.ofRings) (fun g hg => ?_) (fun sub c => ?_) levels c
  · cases g with
    | polygon poly => exact absurd rfl hg
    | _ => rfl
  · rw [read_ringsFormat]
    have hbody : decodeBody sub 3 c = (readCounted (readCounted readPoint) c).map
        (Prod.map (.polygon ∘ Polygon.ofRings) id) := rfl
    rw [hbody]
    cases readCounted (readCounted readPoint) c <;> rfl

/-- **Behind a header the decoder reads the format**, two levels deep. -/
lemma decodeBody_eq (levels : ℕ) (type : UInt32) (c : List UInt8) :
    decodeBody (decodeOne (levels + 1)) type c
      = ((bodyFormat type).read c).map (Prod.map Body.geom id) := by
  have hread : (bodyFormat type).read c
      = if type = 1 then (pointFormat.read c).map (Prod.map .point id)
        else if type = 2 then (pointsFormat.read c).map (Prod.map .lineString id)
        else if type = 3 then (ringsFormat.read c).map (Prod.map .polygon id)
        else if type = 5 then (linesFormat.read c).map (Prod.map .multiLineString id)
        else if type = 6 then (polygonsFormat.read c).map (Prod.map .multiPolygon id)
        else none := rfl
  rw [decodeBody, hread]
  split_ifs
  · rw [read_pointFormat]
    cases readPoint c <;> rfl
  · rw [read_pointsFormat]
    cases readCounted readPoint c <;> rfl
  · rw [read_ringsFormat]
    cases readCounted (readCounted readPoint) c <;> rfl
  · rw [readCounted_map (readSub_lines levels), linesFormat, read_counted]
    cases readCounted (partFormat 2 pointsFormat).read c <;> rfl
  · rw [readCounted_map (readSub_polygons levels), polygonsFormat, read_counted]
    cases readCounted (partFormat 3 ringsFormat).read c <;> rfl
  · rfl

/-- **The decoder reads the format.** -/
theorem decodeOne_eq (levels : ℕ) (c : List UInt8) :
    decodeOne (levels + 2) c = (ewkbFormat.read c).map (Prod.map Ewkb.decoded id) := by
  have hread : ewkbFormat.read c
      = ((readHeader c).bind fun p => ((bodyFormat p.1.type).read p.2).bind fun q =>
          some ((p.1, q.1), q.2)).map
        (Prod.map (fun p : Header × Body => (⟨p.1, p.2⟩ : Ewkb)) id) := rfl
  rw [hread, decodeOne]
  cases readHeader c with
  | none => rfl
  | some p =>
      dsimp only [Option.bind_eq_bind, Option.bind_some]
      rw [decodeBody_eq]
      cases (bodyFormat p.1.type).read p.2 <;> rfl

/-- More levels than two make no difference. -/
lemma decodeOne_add_two (levels : ℕ) (c : List UInt8) :
    decodeOne (levels + 2) c = decodeOne 2 c := by
  rw [decodeOne_eq, decodeOne_eq 0]

lemma decode_eq (data : List UInt8) :
    decode data = (ewkbFormat.read data).map fun r => r.1.decoded := by
  rw [decode, decodeOne_eq, Option.map_map]
  rfl

end WkbDecode

end Gpsxdb
