import Mathlib.Tactic
import Gpsxdb.Copy.CopyRows
import Gpsxdb.Export.ProcessPair

/-!
The reader of COPY-binary streams and the bytes of the stream.

* `Reader.unread`, `Reader.begun`: what is to be read, in the buffer and on the wire, and
  the bytes of the row begun; `Sound`: mark and position are in the buffer;
* `fill_spec`: **a chunk that is pulled, and the compaction, change neither**;
* `readFields_spec`, `next_spec`: **a row is read off the unread bytes**, wherever the
  chunks are cut;
* `drain_spec`, `drain_cut`: a whole stream, and one that is cut short;
* `copy_roundtrip`: **the reader inverts the writer**.
-/

namespace Gpsxdb

namespace PgCopyBinary

namespace Reader

variable {r r' : Reader}

/-! ### The bytes behind a reader -/

/-- What is to be read: the rest of the buffer, and the chunks. -/
def unread (r : Reader) : List UInt8 := r.buf.drop r.pos ++ r.wire.flatten

/-- The bytes of the row begun. -/
def begun (r : Reader) : List UInt8 := (r.buf.take r.pos).drop r.mark

/-- Mark and position are in the buffer. -/
structure Sound (r : Reader) : Prop where
  mark_le : r.mark ≤ r.pos
  pos_le : r.pos ≤ r.buf.length

lemma length_begun (hr : r.Sound) : r.begun.length = r.pos - r.mark := by
  rw [begun, List.length_drop, List.length_take_of_le hr.pos_le]

/-- Two readers before the same bytes, in the same row. -/
structure Same (r r' : Reader) : Prop where
  sound : r'.Sound
  unread : r'.unread = r.unread
  begun : r'.begun = r.begun
  ending : r'.ending = r.ending
  eof : r'.eof = r.eof

lemma Same.trans {r₁ r₂ r₃ : Reader} (h : Same r₁ r₂) (h' : Same r₂ r₃) : Same r₁ r₃ :=
  ⟨h'.sound, h'.unread.trans h.unread, h'.begun.trans h.begun, h'.ending.trans h.ending,
    h'.eof.trans h.eof⟩

/-- **The compaction and a chunk** leave the unread bytes and the row begun. -/
lemma same_refill (hr : r.Sound) {chunk : List UInt8} {wire : List (List UInt8)}
    (hwire : r.wire = chunk :: wire) :
    Same r { r with
      wire := wire, buf := r.buf.drop r.mark ++ chunk, pos := r.pos - r.mark, mark := 0 } := by
  obtain ⟨hmark, hpos⟩ := hr
  have hlen : r.pos - r.mark ≤ (r.buf.drop r.mark).length := by
    rw [List.length_drop]
    omega
  refine ⟨⟨Nat.zero_le _, ?_⟩, ?_, ?_, rfl, rfl⟩
  · dsimp only
    rw [List.length_append]
    omega
  · rw [unread, unread, hwire, List.flatten_cons, List.drop_append_of_le_length hlen,
      List.drop_drop, Nat.add_sub_cancel' hmark, List.append_assoc]
  · rw [begun, begun, List.take_append_of_le_length hlen, List.drop_zero, List.drop_take]

lemma Same.refl (hr : r.Sound) : Same r r := ⟨hr, rfl, rfl, rfl, rfl⟩

/-- **`fill`**: the bytes that are needed are in the buffer, or there are too few. -/
lemma fillFrom_spec (need : ℕ) {wire : List (List UInt8)} (hr : r.Sound) (hwire : r.wire = wire) :
    (need ≤ r.unread.length → ∃ r', fillFrom need r wire = some r' ∧ Same r r'
        ∧ r'.pos + need ≤ r'.buf.length)
      ∧ (r.unread.length < need → fillFrom need r wire = none) := by
  have hpos := hr.pos_le
  induction wire generalizing r with
  | nil =>
      have hunread : r.unread.length = r.buf.length - r.pos := by
        rw [unread, hwire, List.flatten_nil, List.append_nil, List.length_drop]
      rw [fillFrom, hunread]
      exact ⟨fun h => ⟨r, if_pos h, .refl hr, by omega⟩, fun h => if_neg (by omega)⟩
  | cons chunk wire ih =>
      rw [fillFrom]
      by_cases hneed : need ≤ r.buf.length - r.pos
      · rw [if_pos hneed]
        refine ⟨fun _ => ⟨r, rfl, .refl hr, by omega⟩, fun h => ?_⟩
        rw [unread, List.length_append, List.length_drop] at h
        omega
      · rw [if_neg hneed]
        have hsame := same_refill hr hwire
        obtain ⟨hmore, hnone⟩ := ih hsame.sound rfl hsame.sound.pos_le
        rw [hsame.unread] at hmore hnone
        refine ⟨fun h => ?_, hnone⟩
        obtain ⟨r', hr', hsame', hin⟩ := hmore h
        exact ⟨r', hr', hsame.trans hsame', hin⟩

lemma fill_spec (need : ℕ) (hr : r.Sound) :
    (need ≤ r.unread.length → ∃ r', fill need r = some r' ∧ Same r r'
        ∧ r'.pos + need ≤ r'.buf.length)
      ∧ (r.unread.length < need → fill need r = none) := fillFrom_spec need hr rfl

/-- The bytes at the position are the next ones. -/
lemma peek_eq {n : ℕ} (h : r.pos + n ≤ r.buf.length) : r.peek n = r.unread.take n := by
  rw [peek, unread, List.take_append_of_le_length]
  rw [List.length_drop]
  omega

/-- A reader that has moved over some of the bytes, in the same row. -/
structure Moved (n : ℕ) (r r' : Reader) : Prop where
  sound : r'.Sound
  unread : r'.unread = r.unread.drop n
  begun : r'.begun = r.begun ++ r.unread.take n
  ending : r'.ending = r.ending
  eof : r'.eof = r.eof

lemma Moved.trans {m n : ℕ} {r₁ r₂ r₃ : Reader} (h : Moved m r₁ r₂) (h' : Moved n r₂ r₃) :
    Moved (m + n) r₁ r₃ := by
  refine ⟨h'.sound, ?_, ?_, h'.ending.trans h.ending, h'.eof.trans h.eof⟩
  · rw [h'.unread, h.unread, List.drop_drop]
  · rw [h'.begun, h.begun, h.unread, List.take_add, List.append_assoc]

/-- What was moved over is what stood in front of the rest. -/
lemma Moved.begun_eq {n : ℕ} (h : Moved n r r') {bytes : List UInt8}
    (hbytes : r.unread = bytes ++ r'.unread) : r'.begun = r.begun ++ bytes := by
  have hsplit : r.unread.take n ++ r'.unread = bytes ++ r'.unread := by
    rw [← hbytes, h.unread, List.take_append_drop]
  rw [h.begun, List.append_cancel_right hsplit]

/-- **The next bytes**: they are pulled, seen and passed. -/
lemma take_spec {n : ℕ} (hr : r.Sound) (h : n ≤ r.unread.length) :
    ∃ r', fill n r = some r' ∧ r'.peek n = r.unread.take n ∧ r'.pos - r'.mark = r.begun.length
      ∧ Moved n r { r' with pos := r'.pos + n } := by
  obtain ⟨r', hfill, hsame, hin⟩ := (fill_spec n hr).1 h
  have hmark := hsame.sound.mark_le
  have hpos := hsame.sound.pos_le
  refine ⟨r', hfill, ?_, ?_, ⟨⟨?_, hin⟩, ?_, ?_, hsame.ending, hsame.eof⟩⟩
  · rw [peek_eq hin, hsame.unread]
  · rw [← hsame.begun, length_begun hsame.sound]
  · dsimp only
    omega
  · rw [← hsame.unread, unread, unread, List.drop_append_of_le_length, List.drop_drop]
    rw [List.length_drop]
    omega
  · have hlen : (r'.buf.drop r'.pos).length = r'.buf.length - r'.pos := List.length_drop
    rw [← hsame.begun, ← hsame.unread, begun, begun, unread,
      List.take_append_of_le_length (by omega), List.take_add, List.drop_append_of_le_length]
    rw [List.length_take_of_le hpos]
    exact hmark

/-! ### Fields -/

/-- A view of the bytes behind the beginning of a row. -/
lemma view_append {raw bytes more : List UInt8} {fields : List Field} {flen : ℤ}
    (hlen : (bytes.length : ℤ) = flen) :
    Row.view ⟨raw ++ bytes ++ more, fields⟩ ⟨some raw.length, flen⟩ = some bytes := by
  subst hlen
  simp [Row.view]

/-- **One field**, read off the unread bytes. -/
lemma readOne_spec (hr : r.Sound) :
    (readField r.unread = none → r.readOne = none)
      ∧ ∀ f rest, readField r.unread = some (f, rest) → ∃ field r' n,
        r.readOne = some (field, r') ∧ Moved n r r' ∧ r'.unread = rest
          ∧ r'.begun = r.begun ++ writeField f
          ∧ ∀ more fields, Row.view ⟨r'.begun ++ more, fields⟩ field = f := by
  by_cases h4 : r.unread.length < 4
  · rw [readField, if_pos h4, readOne, (fill_spec 4 hr).2 h4]
    exact ⟨fun _ => rfl, fun f rest h => by simp at h⟩
  obtain ⟨r₁, hfill, hpeek, -, hmoved⟩ := take_spec hr (not_lt.mp h4)
  have hlen4 : (r.unread.drop 4).length = r.unread.length - 4 := List.length_drop
  rw [← hmoved.unread] at hlen4
  have hone : r.readOne = readData (i32be (r.unread.take 4)) { r₁ with pos := r₁.pos + 4 } := by
    calc r.readOne = (fill 4 r).bind fun r =>
          readData (i32be (r.peek 4)) { r with pos := r.pos + 4 } := rfl
      _ = readData (i32be (r₁.peek 4)) { r₁ with pos := r₁.pos + 4 } := by
        rw [hfill, Option.bind_some]
      _ = readData (i32be (r.unread.take 4)) { r₁ with pos := r₁.pos + 4 } := by rw [hpeek]
  have hfield : readField r.unread = splitData (i32be (r.unread.take 4)) (r.unread.drop 4) := by
    rw [readField, if_neg h4]
  have hwhole : ∀ f rest, readField r.unread = some (f, rest) → r.unread = writeField f ++ rest :=
    fun f rest h => (fieldFormat.eq_of_read _ _ _ h).2
  generalize i32be (r.unread.take 4) = flen at hone hfield
  rw [readData] at hone
  rw [splitData, ← hmoved.unread] at hfield
  by_cases hnull : flen = -1
  · -- NULL
    rw [if_pos hnull] at hone hfield
    refine ⟨fun h => absurd (hfield.symm.trans h) (by simp), fun f rest h => ?_⟩
    obtain ⟨rfl, rfl⟩ := Prod.mk.inj (Option.some.inj (hfield.symm.trans h))
    exact ⟨_, _, 4, hone, hmoved, rfl, hmoved.begun_eq (hwhole _ _ h), fun _ _ => rfl⟩
  rw [if_neg hnull] at hone hfield
  by_cases hneg : flen < 0
  · rw [if_pos hneg] at hone hfield
    exact ⟨fun _ => hone, fun f rest h => absurd (hfield.symm.trans h) (by simp)⟩
  rw [if_neg hneg] at hone hfield
  by_cases hshort : (unread { r₁ with pos := r₁.pos + 4 }).length < flen.toNat
  · rw [if_pos hshort] at hfield
    rw [(fill_spec _ hmoved.sound).2 hshort] at hone
    exact ⟨fun _ => hone, fun f rest h => absurd (hfield.symm.trans h) (by simp)⟩
  · -- the bytes of the field
    obtain ⟨r₂, hfill₂, -, hoffset, hmoved₂⟩ := take_spec hmoved.sound (not_lt.mp hshort)
    rw [if_neg hshort] at hfield
    rw [hfill₂, Option.map_some] at hone
    refine ⟨fun h => absurd (hfield.symm.trans h) (by simp), fun f rest h => ?_⟩
    obtain ⟨rfl, rfl⟩ := Prod.mk.inj (Option.some.inj (hfield.symm.trans h))
    have hall := hmoved.trans hmoved₂
    have hbytes := hwhole _ _ h
    rw [← hmoved₂.unread] at hbytes
    refine ⟨_, _, _, hone, hall, hmoved₂.unread, hall.begun_eq hbytes, fun more fields => ?_⟩
    rw [hmoved₂.begun, hoffset]
    refine view_append ?_
    rw [List.length_take_of_le (not_lt.mp hshort)]
    omega

/-- **The fields of a row**, read off the unread bytes. -/
lemma readFields_spec (n : ℕ) (hr : r.Sound) :
    (readTimes readField n r.unread = none → r.readFields n = none)
      ∧ ∀ fs rest, readTimes readField n r.unread = some (fs, rest) → ∃ fields r' m,
        r.readFields n = some (fields, r') ∧ Moved m r r' ∧ r'.unread = rest
          ∧ ∀ more fields', fields.map (Row.view ⟨r'.begun ++ more, fields'⟩) = fs := by
  induction n generalizing r with
  | zero =>
      refine ⟨fun h => by simp [readTimes] at h, fun fs rest h => ?_⟩
      obtain ⟨rfl, rfl⟩ := Prod.mk.inj (Option.some.inj h)
      exact ⟨[], r, 0, rfl, ⟨hr, rfl, (List.append_nil _).symm, rfl, rfl⟩, rfl, fun _ _ => rfl⟩
  | succ n ih =>
      obtain ⟨hnone, hsome⟩ := readOne_spec hr
      rw [readTimes]
      cases hfield : readField r.unread with
      | none =>
          refine ⟨fun _ => ?_, fun fs rest h => by simp at h⟩
          rw [readFields, hnone hfield]
          rfl
      | some p =>
          obtain ⟨f, bs⟩ := p
          obtain ⟨field, r₁, m, hone, hmoved, hunread, -, hview⟩ := hsome f bs hfield
          obtain ⟨hnone₁, hsome₁⟩ := ih hmoved.sound
          rw [hunread] at hnone₁ hsome₁
          have hfields : r.readFields (n + 1) = (r₁.readFields n).bind fun p =>
              some (field :: p.1, p.2) := by
            rw [readFields, hone]
            rfl
          dsimp only [Option.bind_eq_bind, Option.bind_some]
          cases hrest : readTimes readField n bs with
          | none =>
              refine ⟨fun _ => ?_, fun fs rest h => by simp at h⟩
              rw [hfields, hnone₁ hrest]
              rfl
          | some q =>
              obtain ⟨fs, bs'⟩ := q
              obtain ⟨fields, r₂, m₂, hread, hmoved₂, hunread₂, hviews⟩ := hsome₁ fs bs' hrest
              refine ⟨fun h => by simp at h, fun fs' rest h => ?_⟩
              obtain ⟨rfl, rfl⟩ := Prod.mk.inj (Option.some.inj h)
              refine ⟨field :: fields, r₂, m + m₂, ?_, hmoved.trans hmoved₂, hunread₂,
                fun more fields' => ?_⟩
              · rw [hfields, hread]
                rfl
              · have hbegun : r₂.begun ++ more = r₁.begun ++ (r₁.unread.take m₂ ++ more) := by
                  rw [hmoved₂.begun, List.append_assoc]
                rw [List.map_cons, hviews, hbegun, hview]

/-! ### Rows -/

/-- Reading a row starts at its first byte. -/
lemma start_row (hr : r.Sound) : let r' := { r with mark := r.pos }
    r'.Sound ∧ r'.unread = r.unread ∧ r'.begun = [] := by
  refine ⟨⟨le_rfl, hr.pos_le⟩, rfl, ?_⟩
  rw [begun]
  exact List.drop_of_length_le (List.length_take_le ..)

/-- **`next`** reads the next entry off the unread bytes: it throws where there is none. -/
theorem next_spec (hr : r.Sound) :
    (readEntry r.unread = none → r.next = none)
      ∧ (∀ rest, readEntry r.unread = some (.trailer, rest) → ∃ r' : Reader, r.next = r'.finish.map
        (fun r => (none, r)) ∧ r'.ending = r.ending ∧ r'.eof = r.eof)
      ∧ ∀ fields rest, readEntry r.unread = some (.row fields, rest) → ∃ row r',
        r.next = some (some row, r') ∧ r'.Sound ∧ r'.unread = rest ∧ r'.ending = r.ending
          ∧ r'.eof = r.eof ∧ row.Shows fields := by
  obtain ⟨hr₀, hunread₀, hbegun₀⟩ := start_row hr
  by_cases h2 : r.unread.length < 2
  · have hfill : fill 2 { r with mark := r.pos } = none := (fill_spec 2 hr₀).2 h2
    rw [readEntry, if_pos h2, next, hfill]
    exact ⟨fun _ => rfl, fun rest h => by simp at h, fun fields rest h => by simp at h⟩
  obtain ⟨r₁, hfill, hpeek, -, hmoved⟩ := take_spec hr₀ (not_lt.mp h2)
  rw [hunread₀] at hpeek
  have hnext : r.next = readBody (i16be (r.unread.take 2)) { r₁ with pos := r₁.pos + 2 } := by
    calc r.next = (fill 2 { r with mark := r.pos }).bind fun r =>
          readBody (i16be (r.peek 2)) { r with pos := r.pos + 2 } := rfl
      _ = readBody (i16be (r₁.peek 2)) { r₁ with pos := r₁.pos + 2 } := by
        rw [hfill, Option.bind_some]
      _ = readBody (i16be (r.unread.take 2)) { r₁ with pos := r₁.pos + 2 } := by rw [hpeek]
  have hentry : readEntry r.unread = splitBody (i16be (r.unread.take 2)) (r.unread.drop 2) := by
    rw [readEntry, if_neg h2]
  have hwhole : ∀ e rest, readEntry r.unread = some (e, rest) → r.unread = e.write ++ rest :=
    fun e rest h => (entryFormat.eq_of_read _ _ _ h).2
  generalize i16be (r.unread.take 2) = field_count at hnext hentry
  have hunread := hmoved.unread
  rw [hunread₀] at hunread
  rw [readBody] at hnext
  rw [splitBody, ← hunread] at hentry
  by_cases htrailer : field_count = -1
  · rw [if_pos htrailer] at hnext hentry
    refine ⟨fun h => absurd (hentry.symm.trans h) (by simp), fun rest _ => ?_, fun fields rest h =>
      absurd (hentry.symm.trans h) (by simp)⟩
    exact ⟨_, hnext, hmoved.ending, hmoved.eof⟩
  rw [if_neg htrailer] at hnext hentry
  by_cases hneg : field_count < 0
  · rw [if_pos hneg] at hnext hentry
    exact ⟨fun _ => hnext, fun rest h => absurd (hentry.symm.trans h) (by simp),
      fun fields rest h => absurd (hentry.symm.trans h) (by simp)⟩
  rw [if_neg hneg] at hnext hentry
  obtain ⟨hnone, hsome⟩ := readFields_spec field_count.toNat hmoved.sound
  cases hfields : readTimes readField field_count.toNat (unread { r₁ with pos := r₁.pos + 2 }) with
  | none =>
      rw [hnone hfields, Option.map_none] at hnext
      rw [hfields, Option.map_none] at hentry
      exact ⟨fun _ => hnext, fun rest h => absurd (hentry.symm.trans h) (by simp),
        fun fields rest h => absurd (hentry.symm.trans h) (by simp)⟩
  | some p =>
      obtain ⟨fs, bs⟩ := p
      obtain ⟨fields, r₂, m, hread, hmoved₂, hunread₂, hviews⟩ := hsome fs bs hfields
      rw [hread, Option.map_some] at hnext
      rw [hfields, Option.map_some] at hentry
      refine ⟨fun h => absurd (hentry.symm.trans h) (by simp), fun rest h =>
        absurd (hentry.symm.trans h) (by simp), fun fields' rest h => ?_⟩
      obtain ⟨hrow, hrest⟩ := Prod.mk.inj (Option.some.inj (hentry.symm.trans h))
      obtain rfl := Entry.row.inj hrow
      obtain rfl : bs = rest := hrest
      have hall := hmoved.trans hmoved₂
      have hraw : r₂.begun = Entry.write (.row fs) := by
        have hbytes := hwhole _ _ h
        rw [← hunread₂, ← hunread₀] at hbytes
        rw [hall.begun_eq hbytes, hbegun₀, List.nil_append]
      refine ⟨_, r₂, hnext, hall.sound, hunread₂, hall.ending, hall.eof, hraw, ?_⟩
      have hview := hviews [] fields
      rw [List.append_nil] at hview
      exact hview

/-! ### Whole streams -/

/-- What a stream has between the header and its end. -/
def body (rows : List (List (Option (List UInt8)))) : List UInt8 :=
  (rows.flatMap fun fields => Entry.write (.row fields)) ++ Entry.write .trailer

lemma body_nil : body [] = Entry.write .trailer := rfl

lemma body_cons (fields : List (Option (List UInt8))) (rows : List (List (Option (List UInt8)))) :
    body (fields :: rows) = Entry.write (.row fields) ++ body rows := by
  rw [body, List.flatMap_cons, List.append_assoc]
  rfl

/-- The rows that can be sent. -/
def WellFormed (rows : List (List (Option (List UInt8)))) : Prop :=
  ∀ fields ∈ rows, Entry.WellFormed (.row fields)

/-- **A whole stream**: the rows, and then the end. -/
lemma drain_spec {rows : List (List (Option (List UInt8)))} (hrows : WellFormed rows)
    (hr : r.Sound) (hunread : r.unread = body rows) (hending : r.ending = .ok)
    (heof : r.eof = false) : ∃ got, List.Forall₂ Row.Shows got rows
      ∧ ∀ turns ≥ rows.length + 1, r.drain turns = (got, .complete) := by
  induction rows generalizing r with
  | nil =>
      have hread : readEntry r.unread = some (.trailer, []) := by
        have htrailer : Entry.WellFormed .trailer := trivial
        rw [hunread, body_nil, ← List.append_nil (Entry.write .trailer)]
        exact readEntry_write htrailer []
      obtain ⟨r', hnext, hending', heof'⟩ := (next_spec hr).2.1 [] hread
      have hfinish : r'.finish = some { r' with wire := [], eof := true } := by
        rw [finish, heof', heof, hending', hending]
        rfl
      rw [hfinish, Option.map_some] at hnext
      refine ⟨[], .nil, fun turns hturns => ?_⟩
      obtain ⟨turns, rfl⟩ : ∃ n, turns = n + 1 := Nat.exists_eq_succ_of_ne_zero (by omega)
      rw [drain, hnext]
  | cons fields rows ih =>
      obtain ⟨hfields, hrest⟩ := List.forall_mem_cons.mp hrows
      have hread : readEntry r.unread = some (.row fields, body rows) := by
        rw [hunread, body_cons]
        exact readEntry_write hfields (body rows)
      obtain ⟨row, r', hnext, hr', hunread', hending', heof', hshows⟩ :=
        (next_spec hr).2.2 fields (body rows) hread
      obtain ⟨got, hgot, hdrain⟩ :=
        ih hrest hr' hunread' (hending'.trans hending) (heof'.trans heof)
      refine ⟨row :: got, .cons hshows hgot, fun turns hturns => ?_⟩
      rw [List.length_cons] at hturns
      obtain ⟨turns, rfl⟩ : ∃ n, turns = n + 1 := Nat.exists_eq_succ_of_ne_zero (by omega)
      rw [drain, hnext]
      dsimp only
      rw [hdrain turns (by omega)]

/-- What is cut out of two lists ends in the first one, or in the second. -/
lemma cut_append {α : Type} {q as bs : List α} (h : q <+: as ++ bs) (hne : q ≠ as ++ bs) :
    (q <+: as ∧ q ≠ as) ∨ ∃ q', q = as ++ q' ∧ q' <+: bs ∧ q' ≠ bs := by
  by_cases hlen : as.length ≤ q.length
  · obtain ⟨q', rfl⟩ := List.prefix_of_prefix_length_le (List.prefix_append ..) h hlen
    exact Or.inr ⟨q', rfl, (List.prefix_append_right_inj as).mp h, fun heq => hne (heq ▸ rfl)⟩
  · refine Or.inl ⟨List.prefix_of_prefix_length_le h (List.prefix_append ..) (by omega), ?_⟩
    rintro rfl
    exact hlen le_rfl

/-- **A stream that is cut short** ends in an exception, after some of the rows. -/
lemma drain_cut {rows : List (List (Option (List UInt8)))} (hrows : WellFormed rows)
    (hr : r.Sound) (hstart : r.unread <+: body rows) (hne : r.unread ≠ body rows) :
    ∃ got k, List.Forall₂ Row.Shows got (rows.take k)
      ∧ ∀ turns ≥ rows.length + 1, r.drain turns = (got, .threw) := by
  have hthrow : ∀ n, readEntry r.unread = none → ∀ turns ≥ n + 1, r.drain turns = ([], .threw) := by
    intro n hread turns hturns
    obtain ⟨turns, rfl⟩ : ∃ n, turns = n + 1 := Nat.exists_eq_succ_of_ne_zero (by omega)
    rw [drain, (next_spec hr).1 hread]
  induction rows generalizing r with
  | nil =>
      rw [body_nil] at hstart hne
      have htrailer : Entry.WellFormed .trailer := trivial
      have hread : readEntry r.unread = none := readEntry_of_prefix htrailer hstart hne
      exact ⟨[], 0, .nil, hthrow 0 hread⟩
  | cons fields rows ih =>
      obtain ⟨hfields, hrest⟩ := List.forall_mem_cons.mp hrows
      rw [body_cons] at hstart hne
      rcases cut_append hstart hne with ⟨hp, hnep⟩ | ⟨q, hq, hp, hnep⟩
      · have hread : readEntry r.unread = none := readEntry_of_prefix hfields hp hnep
        exact ⟨[], 0, .nil, hthrow _ hread⟩
      · have hread : readEntry r.unread = some (.row fields, q) := by
          rw [hq]
          exact readEntry_write hfields q
        obtain ⟨row, r', hnext, hr', hunread', -, -, hshows⟩ := (next_spec hr).2.2 fields q hread
        obtain ⟨got, k, hgot, hdrain⟩ := ih hrest hr' (hunread' ▸ hp) (hunread' ▸ hnep)
          fun n hread turns hturns => by
            obtain ⟨turns, rfl⟩ : ∃ n, turns = n + 1 := Nat.exists_eq_succ_of_ne_zero (by omega)
            rw [drain, (next_spec hr').1 hread]
        refine ⟨row :: got, k + 1, .cons hshows hgot, fun turns hturns => ?_⟩
        rw [List.length_cons] at hturns
        obtain ⟨turns, rfl⟩ : ∃ n, turns = n + 1 := Nat.exists_eq_succ_of_ne_zero (by omega)
        rw [drain, hnext]
        dsimp only
        rw [hdrain turns (by omega)]

/-! ### The constructor -/

/-- The header of a stream. -/
def header : List UInt8 := kSignature ++ [0, 0, 0, 0] ++ [0, 0, 0, 0]

/-- **The constructor** passes over the header. -/
lemma openReader_spec {wire : List (List UInt8)} (ending : Ending) {rest : List UInt8}
    (h : wire.flatten = header ++ rest) : ∃ r, openReader wire ending = some r ∧ r.Sound
      ∧ r.unread = rest ∧ r.ending = ending ∧ r.eof = false := by
  have hr₀ : Sound ⟨wire, ending, [], 0, 0, false⟩ := ⟨le_rfl, le_rfl⟩
  have hunread : unread ⟨wire, ending, [], 0, 0, false⟩ = header ++ rest := h
  have hlen : header.length = 19 := rfl
  obtain ⟨r, hfill, hpeek, -, hmoved⟩ :=
    take_spec (n := 19) hr₀ (by rw [hunread, List.length_append]; omega)
  have hdrop := hmoved.unread
  rw [hunread, List.drop_left' hlen] at hdrop
  rw [hunread, List.take_left' hlen, peek] at hpeek
  have hsignature : r.peek kSignature.length = kSignature := by
    have htake := congrArg (List.take kSignature.length) hpeek
    rw [List.take_take] at htake
    exact htake
  refine ⟨{ r with pos := r.pos + 19 }, ?_, hmoved.sound, hdrop, hmoved.ending, hmoved.eof⟩
  rw [openReader, hfill, Option.bind_eq_bind, Option.bind_some, hsignature]
  exact if_neg (not_not.mpr rfl)

/-- A header that is cut short. -/
lemma openReader_cut {wire : List (List UInt8)} {ending : Ending} (h : wire.flatten.length < 19) :
    openReader wire ending = none := by
  have hr₀ : Sound ⟨wire, ending, [], 0, 0, false⟩ := ⟨le_rfl, le_rfl⟩
  rw [openReader, (fill_spec 19 hr₀).2 h]
  rfl

end Reader

/-! ### The round trip -/

open PairExport (copyBinary)

/-- The stream of some rows: what the server sends, and what the writer writes. -/
def streamOf (rows : List (List (Option (List UInt8)))) : List UInt8 :=
  copyBinary (rows.map fun fields => Entry.write (.row fields))

lemma streamOf_eq (rows : List (List (Option (List UInt8)))) :
    streamOf rows = Reader.header ++ Reader.body rows := by
  rw [streamOf, copyBinary, List.append_assoc _ _ [0xFF, 0xFF], ← List.flatMap_def]
  rfl

/-- **The reader inverts the writer**, wherever the chunks are cut.  The rows of a whole
stream are returned with their bytes and their fields, and then the end; the writer
makes the same stream of them again; and a stream that is cut short ends in an
exception. -/
theorem copy_roundtrip {rows : List (List (Option (List UInt8)))}
    (hrows : ∀ fields ∈ rows, Entry.WellFormed (.row fields)) :
    (∀ wire, wire.flatten = streamOf rows → ∃ r got, Reader.openReader wire .ok = some r
        ∧ List.Forall₂ Row.Shows got rows
        ∧ (∀ turns ≥ rows.length + 1, r.drain turns = (got, .complete))
        ∧ copyBinary (got.map Row.raw) = streamOf rows)
      ∧ ∀ wire ending, wire.flatten <+: streamOf rows → wire.flatten ≠ streamOf rows →
        Reader.openReader wire ending = none ∨ ∃ r got k, Reader.openReader wire ending = some r
          ∧ List.Forall₂ Row.Shows got (rows.take k)
          ∧ ∀ turns ≥ rows.length + 1, r.drain turns = (got, .threw) := by
  constructor
  · intro wire hwire
    rw [streamOf_eq] at hwire
    obtain ⟨r, hopen, hr, hunread, hending, heof⟩ := Reader.openReader_spec .ok hwire
    obtain ⟨got, hgot, hdrain⟩ := Reader.drain_spec hrows hr hunread hending heof
    refine ⟨r, got, hopen, hgot, hdrain, ?_⟩
    have hraw : got.map Row.raw = rows.map fun fields => Entry.write (.row fields) := by
      clear hdrain hunread hwire hrows
      induction hgot with
      | nil => rfl
      | cons hshows _ ih => rw [List.map_cons, List.map_cons, hshows.raw, ih]
    rw [hraw, streamOf]
  · intro wire ending hstart hne
    rw [streamOf_eq] at hstart hne
    rcases Reader.cut_append hstart hne with ⟨hp, hnep⟩ | ⟨q, hq, hp, hnep⟩
    · refine Or.inl (Reader.openReader_cut ?_)
      obtain ⟨more, hmore⟩ := hp
      have hlen := congrArg List.length hmore
      have hheader : Reader.header.length = 19 := rfl
      rw [List.length_append, hheader] at hlen
      by_contra hge
      obtain rfl : more = [] := List.eq_nil_of_length_eq_zero (by omega)
      exact hnep (by rw [← hmore, List.append_nil])
    · obtain ⟨r, hopen, hr, hunread, -, -⟩ := Reader.openReader_spec ending hq
      obtain ⟨got, k, hgot, hdrain⟩ := Reader.drain_cut hrows hr (hunread ▸ hp) (hunread ▸ hnep)
      exact Or.inr ⟨r, got, k, hopen, hgot, hdrain⟩

theorem copy_roundtrip_two_rows :
    (∀ wire, wire.flatten = streamOf [[some [1, 2], none], []] →
        ∃ r got, Reader.openReader wire .ok = some r
          ∧ List.Forall₂ Row.Shows got [[some [1, 2], none], []]
          ∧ (∀ turns ≥ 3, r.drain turns = (got, .complete))
          ∧ copyBinary (got.map Row.raw) = streamOf [[some [1, 2], none], []])
      ∧ ∀ wire ending, wire.flatten <+: streamOf [[some [1, 2], none], []] →
        wire.flatten ≠ streamOf [[some [1, 2], none], []] →
        Reader.openReader wire ending = none ∨ ∃ r got k, Reader.openReader wire ending = some r
          ∧ List.Forall₂ Row.Shows got ([[some [1, 2], none], []].take k)
          ∧ ∀ turns ≥ 3, r.drain turns = (got, .threw) := by
  refine copy_roundtrip ?_
  simp [Entry.WellFormed]

end PgCopyBinary

end Gpsxdb
