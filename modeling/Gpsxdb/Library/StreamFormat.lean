import Mathlib.Tactic

/-!
Values written in front of others, and read off the front of a list.

* `StreamFormat`: a writer and a reader that undo each other;
* `write_append_inj`: what is written determines the value, whatever follows;
  `read_eq_none_of_prefix`: **a value that is cut short is not read**;
* `fixed`, `seq`, `readTimes`, `counted`, `imap`, `only`: fields of one width, one value
  behind another, several values behind their number, renamed and restricted values;
* `readTimes_map`: a reader that renames what another one reads.
-/

namespace Gpsxdb

/-- A writer and a reader of values: the reader gives back the value and the rest, and
reads nothing but what the writer writes. -/
structure StreamFormat (β α : Type) where
  valid : α → Prop
  write : α → List β
  read : List β → Option (α × List β)
  read_write : ∀ a, valid a → ∀ rest, read (write a ++ rest) = some (a, rest)
  eq_of_read : ∀ bs a rest, read bs = some (a, rest) → valid a ∧ bs = write a ++ rest

/-- Several values off the front. -/
def readTimes {β α : Type} (read : List β → Option (α × List β)) :
    ℕ → List β → Option (List α × List β)
  | 0, bs => some ([], bs)
  | n + 1, bs => do
      let (a, bs) ← read bs
      let (as, bs) ← readTimes read n bs
      some (a :: as, bs)

/-- A reader that renames what another one reads. -/
lemma readTimes_map {β α γ : Type} {read : List β → Option (α × List β)}
    {read' : List β → Option (γ × List β)} {φ : α → γ}
    (h : ∀ bs, read' bs = (read bs).map (Prod.map φ id)) (n : ℕ) (bs : List β) :
    readTimes read' n bs = (readTimes read n bs).map (Prod.map (List.map φ) id) := by
  induction n generalizing bs with
  | zero => rfl
  | succ n ih =>
      rw [readTimes, readTimes, h]
      cases read bs with
      | none => rfl
      | some p =>
          simp only [Option.map_some, Option.bind_eq_bind, Option.bind_some, Prod.map_fst,
            Prod.map_snd, id, ih]
          cases readTimes read n p.2 <;> rfl

namespace StreamFormat

variable {β α γ : Type} (F : StreamFormat β α)

/-! ### What a format gives -/

/-- **What is written determines the value**, whatever follows it. -/
theorem write_append_inj {a a' : α} {rest rest' : List β} (ha : F.valid a) (ha' : F.valid a')
    (h : F.write a ++ rest = F.write a' ++ rest') : a = a' ∧ rest = rest' := by
  have hread := F.read_write a ha rest
  rw [h, F.read_write a' ha' rest'] at hread
  obtain ⟨h1, h2⟩ := Prod.mk.inj (Option.some.inj hread)
  exact ⟨h1.symm, h2.symm⟩

/-- **A value that is cut short is not read.** -/
theorem read_eq_none_of_prefix {a : α} (ha : F.valid a) {p : List β} (hp : p <+: F.write a)
    (hne : p ≠ F.write a) : F.read p = none := by
  rw [Option.eq_none_iff_forall_ne_some]
  rintro ⟨a', rest⟩ hread
  obtain ⟨more, hmore⟩ := hp
  obtain ⟨ha', hp'⟩ := F.eq_of_read p a' rest hread
  have hwhole : F.write a' ++ (rest ++ more) = F.write a ++ [] := by
    rw [← List.append_assoc, ← hp', hmore, List.append_nil]
  obtain ⟨-, hnil⟩ := F.write_append_inj ha' ha hwhole
  obtain ⟨-, rfl⟩ := List.append_eq_nil_iff.mp hnil
  exact hne (by rw [← hmore, List.append_nil])

/-! ### Fields -/

/-- A field of one width. -/
def fixed (n : ℕ) (enc : α → List β) (dec : List β → α) (hlen : ∀ a, (enc a).length = n)
    (hdec : ∀ a, dec (enc a) = a) (henc : ∀ bs, bs.length = n → enc (dec bs) = bs) :
    StreamFormat β α where
  valid _ := True
  write := enc
  read bs := if bs.length < n then none else some (dec (bs.take n), bs.drop n)
  read_write := by
    intro a _ rest
    have hle : ¬ (enc a ++ rest).length < n := by
      rw [List.length_append, hlen]
      omega
    rw [if_neg hle, List.take_left' (hlen a), List.drop_left' (hlen a), hdec]
  eq_of_read := by
    intro bs a rest h
    split at h
    · simp at h
    · obtain ⟨rfl, rfl⟩ := Prod.mk.inj (Option.some.inj h)
      refine ⟨trivial, ?_⟩
      rw [henc _ (List.length_take_of_le (by omega)), List.take_append_drop]

variable {F}

/-- One value behind another, its format given by the first. -/
def seq (F : StreamFormat β α) (G : α → StreamFormat β γ) : StreamFormat β (α × γ) where
  valid p := F.valid p.1 ∧ (G p.1).valid p.2
  write p := F.write p.1 ++ (G p.1).write p.2
  read bs := do
    let (a, bs) ← F.read bs
    let (c, bs) ← (G a).read bs
    some ((a, c), bs)
  read_write := by
    rintro ⟨a, c⟩ ⟨ha, hc⟩ rest
    rw [List.append_assoc, F.read_write a ha, Option.bind_eq_bind, Option.bind_some]
    dsimp only
    rw [(G a).read_write c hc]
    rfl
  eq_of_read := by
    rintro bs ⟨a, c⟩ rest h
    simp only [Option.bind_eq_bind, Option.bind_eq_some_iff] at h
    obtain ⟨⟨a', bs₁⟩, h₁, ⟨c', bs₂⟩, h₂, h⟩ := h
    dsimp only at h₂ h
    obtain ⟨hac, rfl⟩ := Prod.mk.inj (Option.some.inj h)
    obtain ⟨rfl, rfl⟩ := Prod.mk.inj hac
    obtain ⟨ha, hbs⟩ := F.eq_of_read _ _ _ h₁
    obtain ⟨hc, hbs₁⟩ := (G a').eq_of_read _ _ _ h₂
    exact ⟨⟨ha, hc⟩, by rw [hbs, hbs₁, List.append_assoc]⟩

lemma readTimes_write {as : List α} (h : ∀ a ∈ as, F.valid a) (rest : List β) :
    readTimes F.read as.length (as.flatMap F.write ++ rest) = some (as, rest) := by
  induction as with
  | nil => rfl
  | cons a as ih =>
      obtain ⟨ha, has⟩ := List.forall_mem_cons.mp h
      rw [List.length_cons, readTimes, List.flatMap_cons, List.append_assoc, F.read_write a ha,
        Option.bind_eq_bind, Option.bind_some]
      dsimp only
      rw [ih has]
      rfl

lemma eq_of_readTimes {n : ℕ} {bs : List β} {as : List α} {rest : List β}
    (h : readTimes F.read n bs = some (as, rest)) :
    as.length = n ∧ (∀ a ∈ as, F.valid a) ∧ bs = as.flatMap F.write ++ rest := by
  induction n generalizing bs as with
  | zero =>
      obtain ⟨rfl, rfl⟩ := Prod.mk.inj (Option.some.inj h)
      exact ⟨rfl, fun a ha => absurd ha List.not_mem_nil, rfl⟩
  | succ n ih =>
      simp only [readTimes, Option.bind_eq_bind, Option.bind_eq_some_iff] at h
      obtain ⟨⟨a, bs₁⟩, h₁, ⟨as', bs₂⟩, h₂, h⟩ := h
      dsimp only at h₂ h
      obtain ⟨rfl, rfl⟩ := Prod.mk.inj (Option.some.inj h)
      obtain ⟨ha, hbs⟩ := F.eq_of_read _ _ _ h₁
      obtain ⟨hlen, has, hbs₁⟩ := ih h₂
      refine ⟨congrArg (· + 1) hlen, List.forall_mem_cons.mpr ⟨ha, has⟩, ?_⟩
      rw [hbs, hbs₁, List.flatMap_cons, List.append_assoc]

/-- Several values behind their number. -/
def counted (C : StreamFormat β ℕ) (F : StreamFormat β α) : StreamFormat β (List α) where
  valid as := C.valid as.length ∧ ∀ a ∈ as, F.valid a
  write as := C.write as.length ++ as.flatMap F.write
  read bs := do
    let (n, bs) ← C.read bs
    readTimes F.read n bs
  read_write := by
    rintro as ⟨hn, has⟩ rest
    rw [List.append_assoc, C.read_write _ hn, Option.bind_eq_bind, Option.bind_some]
    exact readTimes_write has rest
  eq_of_read := by
    intro bs as rest h
    simp only [Option.bind_eq_bind, Option.bind_eq_some_iff] at h
    obtain ⟨⟨n, bs₁⟩, h₁, h₂⟩ := h
    dsimp only at h₂
    obtain ⟨hn, hbs⟩ := C.eq_of_read _ _ _ h₁
    obtain ⟨rfl, has, hbs₁⟩ := eq_of_readTimes h₂
    exact ⟨⟨hn, has⟩, by rw [hbs, hbs₁, List.append_assoc]⟩

/-- Renamed values; `ok` says which of them are read. -/
def imap (F : StreamFormat β α) (f : α → γ) (g : γ → α) (ok : γ → Prop)
    (hfg : ∀ c, ok c → f (g c) = c) (hgf : ∀ a, g (f a) = a) (hok : ∀ a, F.valid a → ok (f a)) :
    StreamFormat β γ where
  valid c := ok c ∧ F.valid (g c)
  write c := F.write (g c)
  read bs := (F.read bs).map (Prod.map f id)
  read_write := by
    rintro c ⟨hc, hg⟩ rest
    rw [F.read_write _ hg, Option.map_some, Prod.map_apply, hfg c hc, id]
  eq_of_read := by
    intro bs c rest h
    obtain ⟨⟨a, rest'⟩, hread, h⟩ := Option.map_eq_some_iff.mp h
    obtain ⟨rfl, rfl⟩ := Prod.mk.inj h
    obtain ⟨ha, hbs⟩ := F.eq_of_read _ _ _ hread
    exact ⟨⟨hok a ha, (hgf a).symm ▸ ha⟩, (hgf a).symm ▸ hbs⟩

/-- Some of the values only. -/
def only (F : StreamFormat β α) (p : α → Prop) [DecidablePred p] : StreamFormat β α where
  valid a := F.valid a ∧ p a
  write := F.write
  read bs := (F.read bs).filter fun r => p r.1
  read_write := by
    rintro a ⟨ha, hp⟩ rest
    rw [F.read_write a ha, Option.filter_some_pos (by simpa using hp)]
  eq_of_read := by
    intro bs a rest h
    obtain ⟨hread, hp⟩ := Option.filter_eq_some_iff.mp h
    obtain ⟨ha, hbs⟩ := F.eq_of_read _ _ _ hread
    exact ⟨⟨ha, by simpa using hp⟩, hbs⟩

end StreamFormat

end Gpsxdb
