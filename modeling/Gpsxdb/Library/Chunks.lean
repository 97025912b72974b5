import Mathlib.Tactic

/-!
A file of chunks, some of which hold events, and seeks to the start of a chunk.

* `seek`: the chunks from an offset on; `seek_append`: **a seek to a boundary**, and
  `eq_append_of_seek`: nowhere else;
* `located`: the events, each with the offset at which the reader stood before it read the
  chunk, the chunks without events that it passed over included;
* `exists_seek_of_mem`: what a seek to the offset of an event leaves out;
* `seek_find?`: **a seek to the first hit leaves out no hit**.
-/

namespace Gpsxdb

namespace Chunks

variable {α ε : Type*} (size : α → ℕ) (events : α → Option (List ε))

/-- The bytes of some chunks. -/
def total (as : List α) : ℕ := (as.map size).sum

/-- The chunks from an offset on, where it is the start of one. -/
def seek : List α → ℕ → Option (List α)
  | as, 0 => some as
  | [], _ + 1 => none
  | a :: as, offset + 1 => if offset + 1 < size a then none else seek as (offset + 1 - size a)

/-- **A seek to a boundary.** -/
lemma seek_append {as bs : List α} (hpos : ∀ a ∈ as, 0 < size a) :
    seek size (as ++ bs) (total size as) = some bs := by
  induction as with
  | nil => cases bs <;> rfl
  | cons a as ih =>
      obtain ⟨ha, has⟩ := List.forall_mem_cons.mp hpos
      have htotal : total size (a :: as) = size a + total size as := List.sum_cons ..
      obtain ⟨n, hn⟩ := Nat.exists_eq_add_of_lt ha
      have hsucc : size a + total size as = n + total size as + 1 := by omega
      rw [htotal, hsucc, List.cons_append, seek, if_neg (by omega), ← ih has]
      congr 1
      omega

/-- The start of a chunk is behind whole ones. -/
lemma eq_append_of_seek {as after : List α} {offset : ℕ} (h : seek size as offset = some after) :
    ∃ before, as = before ++ after ∧ offset = total size before := by
  induction as generalizing offset with
  | nil =>
      cases offset with
      | zero => exact ⟨[], Option.some.inj h, rfl⟩
      | succ offset => exact absurd h (by simp [seek])
  | cons a as ih =>
      cases offset with
      | zero => exact ⟨[], Option.some.inj h, rfl⟩
      | succ offset =>
          rw [seek] at h
          split at h
          · exact absurd h (by simp)
          · obtain ⟨before, rfl, hoffset⟩ := ih h
            refine ⟨a :: before, rfl, ?_⟩
            have htotal : total size (a :: before) = size a + total size before := List.sum_cons ..
            omega

/-- The events behind a position, each with the offset from which its chunk was
reached: `start`, until a chunk with events has been read. -/
def located : List α → ℕ → ℕ → List (ℕ × ε)
  | [], _, _ => []
  | a :: as, start, position =>
      match events a with
      | none => located as start (position + size a)
      | some es => es.map (start, ·) ++ located as (position + size a) (position + size a)

/-- The events are those of the chunks. -/
lemma map_snd_located (as : List α) (start position : ℕ) :
    (located size events as start position).map Prod.snd
      = as.flatMap fun a => (events a).getD [] := by
  induction as generalizing start position with
  | nil => rfl
  | cons a as ih =>
      rw [located, List.flatMap_cons]
      cases events a with
      | none => exact ih ..
      | some es =>
          rw [Option.getD_some, List.map_append, ih, List.map_map]
          exact congrArg (· ++ _) (List.map_id es)

variable {size events}

/-- Chunks without events are passed over. -/
lemma located_append {skipped as : List α} (h : ∀ a ∈ skipped, events a = none)
    (start position : ℕ) : located size events (skipped ++ as) start position
      = located size events as start (position + total size skipped) := by
  induction skipped generalizing position with
  | nil => rfl
  | cons a skipped ih =>
      obtain ⟨ha, hskipped⟩ := List.forall_mem_cons.mp h
      have htotal : total size (a :: skipped) = size a + total size skipped := List.sum_cons ..
      rw [List.cons_append, located, ha, htotal, ← Nat.add_assoc]
      exact ih hskipped _

/-- **The seek to an event**: the reader passed over `skipped` since `start`.  From the
offset of an event on there are the events that the chunks from there on have, and those
before it have lower offsets. -/
lemma exists_seek_of_mem {as : List α} (hpos : ∀ a ∈ as, 0 < size a) {skipped : List α}
    (hskipped : ∀ a ∈ skipped, events a = none) {start : ℕ} {x : ℕ × ε}
    (hx : x ∈ located size events as start (start + total size skipped)) :
    ∃ before after, skipped ++ as = before ++ after ∧ x.1 = start + total size before
      ∧ ∃ l, located size events as start (start + total size skipped)
          = l ++ located size events after x.1 x.1 ∧ ∀ y ∈ l, y.1 < x.1 := by
  induction as generalizing skipped start with
  | nil => exact absurd hx List.not_mem_nil
  | cons a as ih =>
      obtain ⟨ha, has⟩ := List.forall_mem_cons.mp hpos
      cases hevents : events a with
      | none =>
          have hskip : ∀ a' ∈ skipped ++ [a], events a' = none :=
            List.forall_mem_append.mpr ⟨hskipped, List.forall_mem_singleton.mpr hevents⟩
          have htotal : start + total size (skipped ++ [a])
              = start + total size skipped + size a := by
            simp [total, Nat.add_assoc]
          have hlocated : located size events (a :: as) start (start + total size skipped)
              = located size events as start (start + total size (skipped ++ [a])) := by
            rw [located, hevents, htotal]
          rw [hlocated] at hx ⊢
          obtain ⟨before, after, hsplit, hoffset, hrest⟩ := ih has hskip hx
          exact ⟨before, after, by rw [← hsplit, List.append_assoc]; rfl, hoffset, hrest⟩
      | some es =>
          have hlocated : located size events (a :: as) start (start + total size skipped)
              = es.map (start, ·) ++ located size events as (start + total size skipped + size a)
                (start + total size skipped + size a) := by
            rw [located, hevents]
          rw [hlocated, List.mem_append] at hx
          obtain hx | hx := hx
          · -- the chunk itself: nothing is before it
            obtain ⟨e, -, rfl⟩ := List.mem_map.mp hx
            refine ⟨[], skipped ++ a :: as, rfl, rfl, [], ?_, List.forall_mem_nil _⟩
            rw [located_append hskipped]
            rfl
          · obtain ⟨before, after, hsplit, hoffset, l, hl, hlt⟩ :=
              @ih has [] (List.forall_mem_nil _) (start + total size skipped + size a) hx
            refine ⟨skipped ++ a :: before, after, ?_, ?_, es.map (start, ·) ++ l, ?_, ?_⟩
            · rw [List.append_assoc, List.cons_append, ← hsplit]
              rfl
            · rw [hoffset]
              simp [total]
              omega
            · rw [hlocated, List.append_assoc, ← hl]
              rfl
            · refine List.forall_mem_append.mpr ⟨fun y hy => ?_, hlt⟩
              obtain ⟨e, -, rfl⟩ := List.mem_map.mp hy
              dsimp only
              omega

/-- **A seek to the first hit leaves out no hit.** -/
theorem seek_find? {as : List α} (hpos : ∀ a ∈ as, 0 < size a) {p : ℕ × ε → Bool} {x : ℕ × ε}
    (hfind : (located size events as 0 0).find? p = some x) :
    ∃ after l, seek size as x.1 = some after
      ∧ located size events as 0 0 = l ++ located size events after x.1 x.1
      ∧ ∀ y ∈ l, p y = false := by
  obtain ⟨before, after, hsplit, hoffset, l, hl, hlt⟩ :=
    exists_seek_of_mem hpos (List.forall_mem_nil (fun a => events a = none))
      (List.mem_of_find?_eq_some hfind)
  rw [List.nil_append] at hsplit
  refine ⟨after, l, ?_, hl, ?_⟩
  · rw [hoffset, Nat.zero_add, hsplit]
    refine seek_append size fun a ha => hpos a ?_
    rw [hsplit]
    exact List.mem_append_left _ ha
  · cases hnone : l.find? p with
    | none => simpa using hnone
    | some y =>
        have hl' : located size events as 0 0 = l ++ located size events after x.1 x.1 := hl
        rw [hl', List.find?_append, hnone] at hfind
        obtain rfl : y = x := Option.some.inj hfind
        exact absurd (hlt y (List.mem_of_find?_eq_some hnone)) (lt_irrefl _)

end Chunks

end Gpsxdb
