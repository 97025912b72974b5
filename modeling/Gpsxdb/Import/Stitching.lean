import Mathlib.Tactic
import Gpsxdb.Library.Trails
import Gpsxdb.Import.Geometry

/-!
What `stitchRings` makes of its segments.

* `vertexKey`: a point up to the sign of its zeros; `samePoint_iff`;
* `chains`: the rings as they stand before `stitchRings` closes them;
  `stitchRings_eq`: it closes them and keeps those of four points;
* `assembled_chains`: the chains are a greedy assembly of the segments;
  `closed_chains_iff`: **every chain closes by itself** exactly when the segments are
  `Balanced`;
* `stitchRings_complete`: **segments whose ends meet in pairs**;
* `NoFabrication`, `noFabrication_iff`: **when no edge is made up**;
* `stitchRings_fabricates`: an open line of three points.
-/

namespace Gpsxdb

/-! ### Points up to equality -/

namespace Double

lemma natAbs_key (x : Double) : (key x).natAbs = magnitude x := by
  rw [key]
  split <;> simp

lemma isNaN_congr {x y : Double} (h : key x = key y) : isNaN x = isNaN y := by
  rw [isNaN, isNaN, ← natAbs_key, ← natAbs_key, h]

end Double

/-- A point, both zeros of a coordinate being one. -/
def vertexKey (p : Coord) : ℤ × ℤ := (Double.key p.lon_m, Double.key p.lat_m)

/-- Neither coordinate is a NaN. -/
def IsNumber (p : Coord) : Prop := Double.isNaN p.lon_m = false ∧ Double.isNaN p.lat_m = false

/-- The points of a line, up to equality. -/
def trail (l : List Coord) : List (ℤ × ℤ) := l.map vertexKey

lemma isNumber_congr {p q : Coord} (h : vertexKey p = vertexKey q) : IsNumber p ↔ IsNumber q := by
  rw [vertexKey, vertexKey, Prod.mk.injEq] at h
  rw [IsNumber, IsNumber, Double.isNaN_congr h.1, Double.isNaN_congr h.2]

/-- `==` on points: both are numbers, and they are the same. -/
lemma samePoint_iff {p q : Coord} :
    samePoint p q = true ↔ IsNumber p ∧ vertexKey p = vertexKey q := by
  have heq : ∀ x y : Double, Double.eq x y = true
      ↔ Double.isNaN x = false ∧ Double.key x = Double.key y := by
    intro x y
    rw [Double.eq, Bool.and_eq_true, Bool.and_eq_true, Bool.not_eq_true', Bool.not_eq_true',
      beq_iff_eq]
    constructor
    · rintro ⟨⟨hx, -⟩, h⟩
      exact ⟨hx, h⟩
    · rintro ⟨hx, h⟩
      exact ⟨⟨hx, Double.isNaN_congr h ▸ hx⟩, h⟩
  rw [samePoint, Bool.and_eq_true, heq, heq, IsNumber, vertexKey, vertexKey, Prod.mk.injEq]
  exact and_and_and_comm

/-- The two ends of a line. -/
def segmentEnds (seg : Segment) : List Coord := seg.head?.toList ++ seg.getLast?.toList

lemma mem_segmentEnds {seg : Segment} {p : Coord} :
    p ∈ segmentEnds seg ↔ seg.head? = some p ∨ seg.getLast? = some p := by
  simp [segmentEnds]

lemma segmentEnds_reverse (seg : Segment) :
    (segmentEnds seg.reverse).Perm (segmentEnds seg) := by
  rw [segmentEnds, segmentEnds, List.head?_reverse, List.getLast?_reverse]
  exact List.perm_append_comm

lemma ends_trail (seg : Segment) : Trail.ends (trail seg) = ↑((segmentEnds seg).map vertexKey) := by
  rw [Trail.ends, trail, List.head?_map, List.getLast?_map, segmentEnds, List.map_append]
  cases seg.head? <;> cases seg.getLast? <;> rfl

/-- The ends of a line meet where it is a closed trail of numbers. -/
lemma endsMeet_iff {ring : Ring} (hne : ring ≠ []) :
    endsMeet ring = true ↔ Trail.Closed (trail ring) ∧ ∀ p ∈ segmentEnds ring, IsNumber p := by
  obtain ⟨a, ha⟩ : ∃ a, ring.head? = some a := ⟨_, List.head?_eq_some_head hne⟩
  obtain ⟨b, hb⟩ : ∃ b, ring.getLast? = some b := ⟨_, List.getLast?_eq_some_getLast hne⟩
  have hends : segmentEnds ring = [a, b] := by rw [segmentEnds, ha, hb]; rfl
  have hmeet : endsMeet ring = samePoint a b := by rw [endsMeet, ha, hb]
  rw [hmeet, samePoint_iff, Trail.Closed, trail, List.head?_map, List.getLast?_map, ha, hb, hends]
  simp only [Option.map_some, Option.some.injEq, List.mem_cons, List.not_mem_nil, or_false,
    forall_eq_or_imp, forall_eq]
  constructor
  · rintro ⟨hnum, hkey⟩
    exact ⟨hkey, hnum, (isNumber_congr hkey).mp hnum⟩
  · rintro ⟨hkey, hnum, -⟩
    exact ⟨hnum, hkey⟩

/-! ### Chains -/

/-- The outer loop of `stitchRings`, without the closing and the test of the length. -/
def chainsLoop : ℕ → List Segment → List Ring
  | 0, _ => []
  | _, [] => []
  | n + 1, seg :: segs =>
      (extendRing segs.length seg segs).1 :: chainsLoop n (extendRing segs.length seg segs).2

/-- The rings of `stitchRings` as they stand before they are closed. -/
def chains (segs : List Segment) : List Ring := chainsLoop segs.length segs

/-- **`stitchRings`** closes the chains and keeps those of four points. -/
lemma stitchRings_eq (segs : List Segment) :
    stitchRings segs = ((chains segs).map closeRing).filter fun r => 4 ≤ r.length := by
  have hloop : ∀ n segs, stitchLoop n segs
      = ((chainsLoop n segs).map closeRing).filter fun r => 4 ≤ r.length := by
    intro n
    induction n with
    | zero => intro segs; cases segs <;> rfl
    | succ n ih =>
        intro segs
        cases segs with
        | nil => rfl
        | cons seg segs =>
            rw [stitchLoop, chainsLoop, List.map_cons, List.filter_cons]
            dsimp only
            rw [ih]
            simp only [decide_eq_true_eq]
  exact hloop _ segs

/-- A part is taken out of the segments and appended, as it is or reversed, where its
first point meets the end of the ring. -/
structure Appended (ring : Ring) (segs : List Segment) (ring' : Ring) (segs' : List Segment)
    (seg part : Segment) : Prop where
  perm : (seg :: segs').Perm segs
  oriented : part = seg ∨ part = seg.reverse
  ring_eq : ring' = ring ++ part.tail
  meets : ∃ a rb, part.head? = some a ∧ ring.getLast? = some rb ∧ samePoint a rb = true

lemma appendSegment_some {ring ring' : Ring} {segs segs' : List Segment}
    (h : appendSegment ring segs = some (ring', segs')) :
    ∃ seg part, Appended ring segs ring' segs' seg part := by
  induction segs generalizing segs' with
  | nil => simp [appendSegment] at h
  | cons seg segs ih =>
      have hskip : (appendSegment ring segs).map (fun x => (x.1, seg :: x.2)) = some (ring', segs')
          → ∃ seg' part, Appended ring (seg :: segs) ring' segs' seg' part := by
        intro hmap
        obtain ⟨⟨r, rest⟩, hr, heq⟩ := Option.map_eq_some_iff.mp hmap
        obtain ⟨rfl, rfl⟩ := Prod.mk.inj heq
        obtain ⟨seg', part, happ⟩ := ih hr
        exact ⟨seg', part, (List.Perm.swap _ _ _).trans (happ.perm.cons seg), happ.oriented,
          happ.ring_eq, happ.meets⟩
      rw [appendSegment] at h
      split at h
      · rename_i rb a b hrb ha hb
        split at h
        · obtain ⟨rfl, rfl⟩ := Prod.mk.inj (Option.some.inj h)
          exact ⟨seg, seg, List.Perm.refl _, Or.inl rfl, rfl, a, rb, ha, hrb, ‹_›⟩
        · split at h
          · obtain ⟨rfl, rfl⟩ := Prod.mk.inj (Option.some.inj h)
            refine ⟨seg, seg.reverse, List.Perm.refl _, Or.inr rfl, rfl, b, rb, ?_, hrb, ‹_›⟩
            rw [List.head?_reverse, hb]
          · exact hskip h
      · exact hskip h

/-- When no segment fits, none has an end at the last point of the ring. -/
lemma appendSegment_none {ring : Ring} {segs : List Segment} {rb p : Coord} {seg : Segment}
    (h : appendSegment ring segs = none) (hrb : ring.getLast? = some rb) (hseg : seg ∈ segs)
    (hp : p ∈ segmentEnds seg) : samePoint p rb = false := by
  rw [mem_segmentEnds] at hp
  induction segs with
  | nil => simp at hseg
  | cons s segs ih =>
      rw [appendSegment] at h
      split at h
      · rename_i rb' a b hrb' ha hb
        obtain rfl : rb' = rb := Option.some.inj (hrb'.symm.trans hrb)
        split at h
        · simp at h
        · split at h
          · simp at h
          · rename_i hna hnb
            rcases List.mem_cons.mp hseg with rfl | hseg
            · rcases hp with hp | hp
              · obtain rfl : a = p := Option.some.inj (ha.symm.trans hp)
                simpa using hna
              · obtain rfl : b = p := Option.some.inj (hb.symm.trans hp)
                simpa using hnb
            · exact ih (Option.map_eq_none_iff.mp h) hseg
      · rename_i hno
        rcases List.mem_cons.mp hseg with rfl | hseg
        · -- only an empty segment is passed over
          cases seg with
          | nil => simp at hp
          | cons a t => exact (hno rb a _ hrb rfl (List.getLast?_eq_some_getLast (by simp))).elim
        · exact ih (Option.map_eq_none_iff.mp h) hseg

/-! ### The extension of a ring -/

/-- What the `while (progress)` loop does to a ring glued from some parts: it is glued
from these and more, the others are left, and it has closed or is stuck. -/
structure Extended (parts : List Segment) (ring : Ring) (segs parts' : List Segment) (ring' : Ring)
    (rest : List Segment) : Prop where
  glued : Trail.Glued (parts'.map trail) (trail ring')
  perm : (parts' ++ rest).Perm (parts ++ segs)
  head : ring'.head? = ring.head?
  length : ring.length ≤ ring'.length
  /-- an end that is no number is an end of the ring -/
  numbers : ∀ part ∈ parts', ∀ p ∈ segmentEnds part, IsNumber p ∨ p ∈ segmentEnds ring'
  done : endsMeet ring' = true ∨ appendSegment ring' rest = none

/-- One part more. -/
lemma Appended.glued {parts segs segs' : List Segment} {ring ring' : Ring} {seg part : Segment}
    (h : Appended ring segs ring' segs' seg part)
    (hglued : Trail.Glued (parts.map trail) (trail ring)) :
    Trail.Glued ((parts ++ [seg]).map trail) (trail ring') := by
  obtain ⟨a, rb, ha, hrb, hsame⟩ := h.meets
  have horiented : trail part = trail seg ∨ trail part = (trail seg).reverse := by
    rcases h.oriented with rfl | rfl
    · exact Or.inl rfl
    · exact Or.inr List.map_reverse
  have hhead : (trail part).head? = (trail ring).getLast? := by
    rw [trail, trail, List.head?_map, List.getLast?_map, ha, hrb, Option.map_some, Option.map_some,
      (samePoint_iff.mp hsame).2]
  rw [h.ring_eq, trail, List.map_append, List.map_append, List.map_tail]
  exact Trail.Glued.snoc hglued horiented hhead

section Appended

variable {parts segs segs' : List Segment} {ring ring' : Ring} {seg part : Segment}

lemma Appended.ne_nil (h : Appended ring segs ring' segs' seg part) : ring ≠ [] := by
  obtain ⟨a, rb, -, hrb, -⟩ := h.meets
  rintro rfl
  simp at hrb

lemma Appended.head (h : Appended ring segs ring' segs' seg part) : ring'.head? = ring.head? := by
  have hne := h.ne_nil
  rw [h.ring_eq]
  cases ring with
  | nil => exact absurd rfl hne
  | cons r ring => rfl

lemma Appended.length (h : Appended ring segs ring' segs' seg part) :
    ring.length ≤ ring'.length := by
  rw [h.ring_eq, List.length_append]
  omega

/-- The ends of the new part: a number, or the new end of the ring. -/
lemma Appended.numbers_part (h : Appended ring segs ring' segs' seg part) {p : Coord}
    (hp : p ∈ segmentEnds seg) : IsNumber p ∨ p ∈ segmentEnds ring' := by
  obtain ⟨a, rb, ha, hrb, hsame⟩ := h.meets
  have hp' : p ∈ segmentEnds part := by
    rcases h.oriented with rfl | rfl
    · exact hp
    · exact (segmentEnds_reverse _).mem_iff.mpr hp
  have hnum := (samePoint_iff.mp hsame).1
  cases part with
  | nil => simp at ha
  | cons a' t =>
      obtain rfl : a' = a := Option.some.inj ha
      rcases mem_segmentEnds.mp hp' with hhead | hlast
      · obtain rfl : a' = p := Option.some.inj hhead
        exact Or.inl hnum
      · cases t with
        | nil =>
            obtain rfl : a' = p := Option.some.inj hlast
            exact Or.inl hnum
        | cons b t =>
            refine Or.inr (mem_segmentEnds.mpr (Or.inr ?_))
            rw [h.ring_eq, List.tail_cons, List.getLast?_append_cons, ← List.getLast?_cons_cons,
              hlast]

/-- An end of the ring: a number, where the part was appended, or the ring's head. -/
lemma Appended.numbers_ring (h : Appended ring segs ring' segs' seg part) {p : Coord}
    (hp : p ∈ segmentEnds ring) : IsNumber p ∨ p ∈ segmentEnds ring' := by
  obtain ⟨a, rb, -, hrb, hsame⟩ := h.meets
  obtain ⟨hnum, hkey⟩ := samePoint_iff.mp hsame
  rcases mem_segmentEnds.mp hp with hhead | hlast
  · exact Or.inr (mem_segmentEnds.mpr (Or.inl (h.head.trans hhead)))
  · obtain rfl : rb = p := Option.some.inj (hrb.symm.trans hlast)
    exact Or.inl ((isNumber_congr hkey).mp hnum)

end Appended

/-- **The inner loop.** -/
lemma extended_extendRing {n : ℕ} {parts segs : List Segment} {ring : Ring}
    (hn : segs.length ≤ n) (hglued : Trail.Glued (parts.map trail) (trail ring))
    (hnum : ∀ part ∈ parts, ∀ p ∈ segmentEnds part, IsNumber p ∨ p ∈ segmentEnds ring) :
    ∃ parts', Extended parts ring segs parts' (extendRing n ring segs).1
      (extendRing n ring segs).2 := by
  induction n generalizing parts segs ring with
  | zero =>
      obtain rfl := List.eq_nil_of_length_eq_zero (Nat.le_zero.mp hn)
      exact ⟨parts, hglued, List.Perm.refl _, rfl, le_rfl, hnum, Or.inr rfl⟩
  | succ n ih =>
      rw [extendRing]
      split
      · rename_i hclosed
        rw [Bool.and_eq_true] at hclosed
        exact ⟨parts, hglued, List.Perm.refl _, rfl, le_rfl, hnum, Or.inl hclosed.2⟩
      · split
        · rename_i hnone
          exact ⟨parts, hglued, List.Perm.refl _, rfl, le_rfl, hnum, Or.inr hnone⟩
        · rename_i ring' segs' hsome
          obtain ⟨seg, part, happ⟩ := appendSegment_some hsome
          have hlen := happ.perm.length_eq
          rw [List.length_cons] at hlen
          have hnum' : ∀ q ∈ parts ++ [seg], ∀ p ∈ segmentEnds q,
              IsNumber p ∨ p ∈ segmentEnds ring' := by
            intro q hq p hp
            rcases List.mem_append.mp hq with hq | hq
            · exact (hnum q hq p hp).elim Or.inl happ.numbers_ring
            · obtain rfl := List.mem_singleton.mp hq
              exact happ.numbers_part hp
          have hle : segs'.length ≤ n := by omega
          obtain ⟨parts', hext⟩ := ih hle (happ.glued hglued) hnum'
          refine ⟨parts', hext.glued, hext.perm.trans ?_, hext.head.trans happ.head,
            happ.length.trans hext.length, hext.numbers, hext.done⟩
          rw [List.append_assoc, List.singleton_append]
          exact happ.perm.append_left parts

/-! ### The assembly -/

/-- The loop for the first segment. -/
lemma extended_first (seg : Segment) (segs : List Segment) :
    ∃ parts, Extended [seg] seg segs parts (extendRing segs.length seg segs).1
      (extendRing segs.length seg segs).2 :=
  extended_extendRing le_rfl (Trail.Glued.start _) fun part hpart p hp => by
    obtain rfl := List.mem_singleton.mp hpart
    exact Or.inr hp

/-- A ring of numbers that is stuck has no end of a segment at its last point. -/
lemma stuck_trail {ring : Ring} {rest : List Segment}
    (hnone : appendSegment ring rest = none)
    (hnum : ∀ seg ∈ rest, ∀ p ∈ segmentEnds seg, IsNumber p) :
    ∀ v ∈ (trail ring).getLast?, ∀ s ∈ rest.map trail, v ∉ Trail.ends s := by
  intro v hv s hs hmem
  rw [trail, List.getLast?_map, Option.mem_def, Option.map_eq_some_iff] at hv
  obtain ⟨rb, hrb, rfl⟩ := hv
  obtain ⟨seg, hseg, rfl⟩ := List.mem_map.mp hs
  rw [ends_trail, Multiset.mem_coe, List.mem_map] at hmem
  obtain ⟨p, hp, hkey⟩ := hmem
  have hno := appendSegment_none hnone hrb hseg hp
  rw [samePoint_iff.mpr ⟨hnum seg hseg p hp, hkey⟩] at hno
  simp at hno

/-- **The chains are a greedy assembly** of segments whose ends are numbers, and of any
segments if they all close. -/
lemma assembled_chainsLoop {n : ℕ} {segs : List Segment} (hn : segs.length ≤ n)
    (hne : ∀ seg ∈ segs, seg ≠ [])
    (h : (∀ seg ∈ segs, ∀ p ∈ segmentEnds seg, IsNumber p)
      ∨ ∀ c ∈ chainsLoop n segs, endsMeet c = true) :
    Trail.Assembled (segs.map trail) ((chainsLoop n segs).map trail) := by
  induction n generalizing segs with
  | zero =>
      obtain rfl := List.eq_nil_of_length_eq_zero (Nat.le_zero.mp hn)
      exact Trail.Assembled.nil
  | succ n ih =>
      cases segs with
      | nil => exact Trail.Assembled.nil
      | cons seg segs =>
          rw [chainsLoop] at h ⊢
          obtain ⟨parts, hext⟩ := extended_first seg segs
          generalize hring : (extendRing segs.length seg segs).1 = ring at h hext ⊢
          generalize hrest : (extendRing segs.length seg segs).2 = rest at h hext ⊢
          have hsub : ∀ s ∈ rest, s ∈ seg :: segs := fun s hs =>
            hext.perm.subset (List.mem_append_right _ hs)
          have hlen : rest.length ≤ n := by
            have hparts := List.length_pos_of_ne_nil hext.glued.ne_nil
            have hperm := hext.perm.length_eq
            simp only [List.length_map, List.length_append, List.length_cons,
              List.length_nil] at hparts hperm hn
            omega
          have hrne : ring ≠ [] := List.ne_nil_of_length_pos
            ((List.length_pos_of_ne_nil (hne seg (List.mem_cons_self ..))).trans_le hext.length)
          have hperm : (parts.map trail ++ rest.map trail).Perm ((seg :: segs).map trail) := by
            rw [← List.map_append]
            exact hext.perm.map trail
          rw [List.map_cons]
          refine Trail.Assembled.cons hext.glued hperm ?_
            (ih hlen (fun s hs => hne s (hsub s hs)) ?_)
          · rcases hext.done with hclosed | hnone
            · exact Or.inl ((endsMeet_iff hrne).mp hclosed).1
            · rcases h with hnum | hall
              · exact Or.inr (stuck_trail hnone fun s hs => hnum s (hsub s hs))
              · exact Or.inl ((endsMeet_iff hrne).mp (hall ring (List.mem_cons_self ..))).1
          · rcases h with hnum | hall
            · exact Or.inl fun s hs => hnum s (hsub s hs)
            · exact Or.inr fun c hc => hall c (List.mem_cons_of_mem _ hc)

/-- What is left after a ring is among the segments, and fewer. -/
lemma Extended.rest_sub {seg : Segment} {segs parts rest : List Segment} {ring : Ring}
    (h : Extended [seg] seg segs parts ring rest) :
    (∀ s ∈ rest, s ∈ seg :: segs) ∧ rest.length ≤ segs.length := by
  refine ⟨fun s hs => h.perm.subset (List.mem_append_right _ hs), ?_⟩
  have hparts := List.length_pos_of_ne_nil h.glued.ne_nil
  have hperm := h.perm.length_eq
  simp only [List.length_map, List.length_append, List.length_cons, List.length_nil] at hparts hperm
  omega

/-- Every chain grows from a segment. -/
lemma exists_of_mem_chainsLoop {n : ℕ} {segs : List Segment} {c : Ring}
    (hc : c ∈ chainsLoop n segs) : ∃ seg ∈ segs, c.head? = seg.head? ∧ seg.length ≤ c.length := by
  induction n generalizing segs with
  | zero => simp [chainsLoop] at hc
  | succ n ih =>
      cases segs with
      | nil => simp [chainsLoop] at hc
      | cons seg segs =>
          obtain ⟨parts, hext⟩ := extended_first seg segs
          rcases List.mem_cons.mp hc with rfl | hc
          · exact ⟨seg, List.mem_cons_self .., hext.head, hext.length⟩
          · obtain ⟨s, hs, hhead⟩ := ih hc
            exact ⟨s, hext.rest_sub.1 s hs, hhead⟩

/-- If all chains close, all ends are numbers. -/
lemma isNumber_of_closed {n : ℕ} {segs : List Segment} (hn : segs.length ≤ n)
    (hne : ∀ seg ∈ segs, seg ≠ []) (h : ∀ c ∈ chainsLoop n segs, endsMeet c = true) :
    ∀ seg ∈ segs, ∀ p ∈ segmentEnds seg, IsNumber p := by
  induction n generalizing segs with
  | zero =>
      obtain rfl := List.eq_nil_of_length_eq_zero (Nat.le_zero.mp hn)
      simp
  | succ n ih =>
      cases segs with
      | nil => simp
      | cons seg segs =>
          obtain ⟨parts, hext⟩ := extended_first seg segs
          obtain ⟨hsub, hlen⟩ := hext.rest_sub
          have hrne : (extendRing segs.length seg segs).1 ≠ [] := List.ne_nil_of_length_pos
            ((List.length_pos_of_ne_nil (hne seg (List.mem_cons_self ..))).trans_le hext.length)
          obtain ⟨hring, hrest⟩ := List.forall_mem_cons.mp h
          have hends := ((endsMeet_iff hrne).mp hring).2
          rw [List.length_cons] at hn
          intro s hs p hp
          rcases List.mem_append.mp (hext.perm.mem_iff.mpr hs) with hpart | hleft
          · exact (hext.numbers s hpart p hp).elim id (hends p)
          · exact ih (by omega) (fun s hs => hne s (hsub s hs)) hrest s hleft p hp

/-! ### Balanced segments -/

/-- How many ends of segments are equal to a point. -/
def endCount (segs : List Segment) (p : Coord) : ℕ :=
  (segs.flatMap segmentEnds).countP fun q => samePoint q p

/-- Every end of a segment is equal to an even number of them, itself included. -/
def Balanced (segs : List Segment) : Prop :=
  ∀ seg ∈ segs, ∀ p ∈ segmentEnds seg, endCount segs p ≠ 0 ∧ Even (endCount segs p)

lemma sum_ends_trail (segs : List Segment) : ((segs.map trail).map Trail.ends).sum
    = ↑((segs.flatMap segmentEnds).map vertexKey) := by
  induction segs with
  | nil => rfl
  | cons seg segs ih =>
      rw [List.map_cons, List.map_cons, List.sum_cons, ih, ends_trail, List.flatMap_cons,
        List.map_append]
      rfl

/-- The ends equal to a number are those at its vertex. -/
lemma endCount_eq {segs : List Segment} {p : Coord} (hp : IsNumber p) :
    endCount segs p = ((segs.map trail).map Trail.ends).sum.count (vertexKey p) := by
  rw [sum_ends_trail, Multiset.count, Multiset.coe_countP, List.countP_map, endCount]
  refine List.countP_congr fun q _ => ?_
  rw [samePoint_iff, Function.comp_apply, decide_eq_true_iff]
  exact ⟨fun h => h.2.symm, fun h => ⟨(isNumber_congr h).mp hp, h.symm⟩⟩

lemma isNumber_of_endCount {segs : List Segment} {p : Coord} (h : endCount segs p ≠ 0) :
    IsNumber p := by
  obtain ⟨q, -, hq⟩ := List.countP_pos_iff.mp (Nat.pos_of_ne_zero h)
  obtain ⟨hnum, hkey⟩ := samePoint_iff.mp hq
  exact (isNumber_congr hkey).mp hnum

/-- An end that is a number is equal to itself. -/
lemma endCount_ne_zero {segs : List Segment} {seg : Segment} {p : Coord} (hseg : seg ∈ segs)
    (hp : p ∈ segmentEnds seg) (hnum : IsNumber p) : endCount segs p ≠ 0 := by
  have hpos : 0 < endCount segs p := List.countP_pos_iff.mpr
    ⟨p, List.mem_flatMap.mpr ⟨seg, hseg, hp⟩, samePoint_iff.mpr ⟨hnum, rfl⟩⟩
  exact hpos.ne'

/-- At every vertex of balanced segments the number of ends is even. -/
lemma Balanced.even {segs : List Segment} (h : Balanced segs) (v : ℤ × ℤ) :
    Even (((segs.map trail).map Trail.ends).sum.count v) := by
  by_cases hv : v ∈ ((segs.map trail).map Trail.ends).sum
  · rw [sum_ends_trail, Multiset.mem_coe] at hv
    obtain ⟨p, hp, rfl⟩ := List.mem_map.mp hv
    obtain ⟨seg, hseg, hp⟩ := List.mem_flatMap.mp hp
    obtain ⟨hne, heven⟩ := h seg hseg p hp
    rw [← endCount_eq (isNumber_of_endCount hne)]
    exact heven
  · rw [Multiset.count_eq_zero.mpr hv]
    exact Even.zero

/-- **Every chain closes by itself** exactly when the segments are balanced. -/
theorem closed_chains_iff {segs : List Segment} (hne : ∀ seg ∈ segs, seg ≠ []) :
    (∀ c ∈ chains segs, endsMeet c = true) ↔ Balanced segs := by
  constructor
  · intro hclosed seg hseg p hp
    have hnum := isNumber_of_closed le_rfl hne hclosed seg hseg p hp
    refine ⟨endCount_ne_zero hseg hp hnum, ?_⟩
    rw [endCount_eq hnum]
    refine (assembled_chainsLoop le_rfl hne (Or.inr hclosed)).closed_iff.mp ?_ _
    intro w hw
    obtain ⟨c, hc, rfl⟩ := List.mem_map.mp hw
    have hcne : c ≠ [] := by
      rintro rfl
      simpa [endsMeet] using hclosed [] hc
    exact ((endsMeet_iff hcne).mp (hclosed c hc)).1
  · intro hbal c hc
    have hnum : ∀ seg ∈ segs, ∀ p ∈ segmentEnds seg, IsNumber p := fun seg hseg p hp =>
      isNumber_of_endCount (hbal seg hseg p hp).1
    have hclosed : Trail.Closed (trail c) :=
      (assembled_chainsLoop le_rfl hne (Or.inl hnum)).closed_iff.mpr hbal.even _
        (List.mem_map_of_mem hc)
    obtain ⟨seg, hseg, hhead, hlen⟩ := exists_of_mem_chainsLoop hc
    have hcne : c ≠ [] := List.ne_nil_of_length_pos
      ((List.length_pos_of_ne_nil (hne seg hseg)).trans_le hlen)
    refine (endsMeet_iff hcne).mpr ⟨hclosed, fun p hp => ?_⟩
    obtain ⟨a, ha⟩ : ∃ a, c.head? = some a := ⟨_, List.head?_eq_some_head hcne⟩
    have hnuma : IsNumber a :=
      hnum seg hseg a (mem_segmentEnds.mpr (Or.inl (hhead.symm.trans ha)))
    rcases mem_segmentEnds.mp hp with hp | hp
    · obtain rfl : a = p := Option.some.inj (ha.symm.trans hp)
      exact hnuma
    · rw [Trail.Closed, trail, List.head?_map, List.getLast?_map, ha, hp] at hclosed
      exact (isNumber_congr (Option.some.inj hclosed)).mp hnuma

/-! ### Rings whose ends meet in pairs -/

/-- The undirected edges of a line. -/
def lineEdges (l : List Coord) : Multiset (Sym2 (ℤ × ℤ)) := Trail.edges (trail l)

/-- A ring is glued from segments, each in one direction or the other. -/
def GluedFrom (parts : List Segment) (ring : Ring) : Prop :=
  Trail.Glued (parts.map trail) (trail ring)

/-- **Every segment is used once.** -/
lemma exists_used {n : ℕ} {segs : List Segment} (hn : segs.length ≤ n) :
    ∃ used : List (List Segment), used.flatten.Perm segs
      ∧ List.Forall₂ GluedFrom used (chainsLoop n segs) := by
  induction n generalizing segs with
  | zero =>
      obtain rfl := List.eq_nil_of_length_eq_zero (Nat.le_zero.mp hn)
      exact ⟨[], List.Perm.refl _, List.Forall₂.nil⟩
  | succ n ih =>
      cases segs with
      | nil => exact ⟨[], List.Perm.refl _, List.Forall₂.nil⟩
      | cons seg segs =>
          obtain ⟨parts, hext⟩ := extended_first seg segs
          rw [List.length_cons] at hn
          obtain ⟨used, hused, hall⟩ := ih (hext.rest_sub.2.trans (Nat.le_of_succ_le_succ hn))
          exact ⟨parts :: used, (hused.append_left parts).trans hext.perm, hall.cons hext.glued⟩

/-- The edges of used segments. -/
lemma sum_lineEdges_of_forall₂ {used : List (List Segment)} {rings : List Ring}
    (h : List.Forall₂ GluedFrom used rings) :
    (rings.map lineEdges).sum = (used.flatten.map lineEdges).sum := by
  induction h with
  | nil => rfl
  | @cons parts ring used rings hglued _ ih =>
      have hring : lineEdges ring = (parts.map lineEdges).sum := by
        rw [lineEdges, Trail.Glued.edges hglued, List.map_map]
        rfl
      rw [List.map_cons, List.sum_cons, ih, hring, List.flatten_cons, List.map_append,
        List.sum_append]

lemma closeRing_of_endsMeet {c : Ring} (h : endsMeet c = true) : closeRing c = c := by
  rw [closeRing]
  split
  · rfl
  · rw [if_pos h]

/-- Each coordinate that is an end of a segment is the end of exactly two. -/
def Paired (segs : List Segment) : Prop :=
  ∀ seg ∈ segs, ∀ p ∈ segmentEnds seg, endCount segs p = 2

instance (segs : List Segment) : Decidable (Paired segs) :=
  inferInstanceAs (Decidable (∀ seg ∈ segs, ∀ p ∈ segmentEnds seg, endCount segs p = 2))

lemma Paired.balanced {segs : List Segment} (h : Paired segs) : Balanced segs := by
  intro seg hseg p hp
  rw [h seg hseg p hp]
  exact ⟨two_ne_zero, even_two⟩

/-- **Complete rings are found.**  Where the ends of the segments meet in pairs, in
whatever order and direction they come, every segment is used once, every chain closes
without an added point, no edge is lost and none is added, and only chains of less than
four points are dropped. -/
theorem stitchRings_complete {segs : List Segment} (hlen : ∀ seg ∈ segs, 2 ≤ seg.length)
    (hpaired : Paired segs) :
    (∃ used : List (List Segment), used.flatten.Perm segs
        ∧ List.Forall₂ GluedFrom used (chains segs))
      ∧ (∀ c ∈ chains segs, 2 ≤ c.length ∧ endsMeet c = true ∧ closeRing c = c)
      ∧ ((chains segs).map lineEdges).sum = (segs.map lineEdges).sum
      ∧ stitchRings segs = (chains segs).filter fun c => 4 ≤ c.length := by
  have hne : ∀ seg ∈ segs, seg ≠ [] := by
    rintro seg hseg rfl
    simpa using hlen [] hseg
  have hclosed := (closed_chains_iff hne).mpr hpaired.balanced
  have hclose : ∀ c ∈ chains segs, closeRing c = c := fun c hc =>
    closeRing_of_endsMeet (hclosed c hc)
  obtain ⟨used, hused, hall⟩ := exists_used (le_refl segs.length)
  refine ⟨⟨used, hused, hall⟩, fun c hc => ⟨?_, hclosed c hc, hclose c hc⟩, ?_, ?_⟩
  · obtain ⟨seg, hseg, -, hle⟩ := exists_of_mem_chainsLoop hc
    exact (hlen seg hseg).trans hle
  · rw [chains, sum_lineEdges_of_forall₂ hall, (hused.map lineEdges).sum_eq]
  · rw [stitchRings_eq, List.map_congr_left hclose, List.map_id']

/-- Two halves of a square, the second against the direction of the first. -/
def two_halves : List Segment :=
  [[⟨0, 0⟩, ⟨1, 0⟩, ⟨1, 1⟩], [⟨0, 0⟩, ⟨0, 1⟩, ⟨1, 1⟩]]

theorem stitchRings_complete_square :
    stitchRings two_halves = (chains two_halves).filter fun c => 4 ≤ c.length :=
  (stitchRings_complete (by decide) (by decide : Paired two_halves)).2.2.2

/-! ### Edges that are made up -/

/-- The rings are lines of the input: each has four points, its ends meet, and its
edges are edges of segments; a chain that never closes contributes none. -/
structure NoFabrication (segs : List Segment) : Prop where
  ring : ∀ r ∈ stitchRings segs, 4 ≤ r.length ∧ endsMeet r = true
    ∧ ∀ e ∈ lineEdges r, ∃ seg ∈ segs, e ∈ lineEdges seg
  open_dropped : stitchRings segs
    = (chains segs).filter fun c => endsMeet c = true ∧ 4 ≤ c.length

/-- An edge of a chain is an edge of a segment. -/
lemma mem_lineEdges_of_mem_chains {segs : List Segment} {c : Ring} (hc : c ∈ chains segs)
    {e : Sym2 (ℤ × ℤ)} (he : e ∈ lineEdges c) : ∃ seg ∈ segs, e ∈ lineEdges seg := by
  obtain ⟨used, hused, hall⟩ := exists_used (le_refl segs.length)
  have hsum : e ∈ ((chains segs).map lineEdges).sum := Trail.mem_sum_map.mpr ⟨c, hc, he⟩
  rw [chains, sum_lineEdges_of_forall₂ hall, (hused.map lineEdges).sum_eq] at hsum
  exact Trail.mem_sum_map.mp hsum

lemma length_closeRing_of_open {c : Ring} (hne : c ≠ []) (h : ¬endsMeet c = true) :
    (closeRing c).length = c.length + 1 := by
  cases c with
  | nil => exact absurd rfl hne
  | cons a c =>
      rw [closeRing]
      simp only [List.head?_cons, if_neg h, List.length_append, List.length_cons, List.length_nil]

/-- Closing and dropping short rings drops the open ones exactly when these have less
than three points. -/
lemma filter_closeRing_iff {l : List Ring} (hne : ∀ c ∈ l, c ≠ []) :
    ((l.map closeRing).filter fun r => 4 ≤ r.length)
        = l.filter (fun c => endsMeet c = true ∧ 4 ≤ c.length)
      ↔ ∀ c ∈ l, 3 ≤ c.length → endsMeet c = true := by
  induction l with
  | nil => simp
  | cons c l ih =>
      obtain ⟨hc, hl⟩ := List.forall_mem_cons.mp hne
      rw [List.forall_mem_cons, ← ih hl, List.map_cons]
      by_cases hclosed : endsMeet c = true
      · rw [closeRing_of_endsMeet hclosed]
        by_cases hlen : 4 ≤ c.length
        · simp [hclosed, hlen]
        · simp [hclosed, hlen]
      · have hlength := length_closeRing_of_open hc hclosed
        by_cases hlen : 3 ≤ c.length
        · -- the open ring is one more than the closed ones can make up for
          have hmore : (l.filter fun c => endsMeet c = true ∧ 4 ≤ c.length).length
              ≤ ((l.map closeRing).filter fun r => 4 ≤ r.length).length := by
            rw [← List.countP_eq_length_filter, ← List.countP_eq_length_filter, List.countP_map]
            refine List.countP_mono_left fun x _ hx => ?_
            rw [decide_eq_true_eq] at hx
            rw [Function.comp_apply, closeRing_of_endsMeet hx.1, decide_eq_true_eq]
            exact hx.2
          rw [List.filter_cons_of_pos (by rw [hlength, decide_eq_true_eq]; omega),
            List.filter_cons_of_neg (by simp [hclosed])]
          refine iff_of_false (fun heq => ?_) fun h => hclosed (h.1 hlen)
          have hcount := congrArg List.length heq
          rw [List.length_cons] at hcount
          omega
        · rw [List.filter_cons_of_neg (by rw [hlength, decide_eq_true_eq]; omega),
            List.filter_cons_of_neg (by simp [hclosed])]
          simp [hlen]

/-- **No edge is made up** exactly when no chain of three points is left open: the
branch that closes a ring is not taken for it. -/
lemma noFabrication_iff_chains {segs : List Segment} (hne : ∀ seg ∈ segs, seg ≠ []) :
    NoFabrication segs ↔ ∀ c ∈ chains segs, 3 ≤ c.length → endsMeet c = true := by
  have hcne : ∀ c ∈ chains segs, c ≠ [] := by
    rintro c hc rfl
    obtain ⟨seg, hseg, -, hle⟩ := exists_of_mem_chainsLoop hc
    exact hne seg hseg (List.eq_nil_of_length_eq_zero (Nat.le_zero.mp hle))
  constructor
  · intro h
    have hdropped := h.open_dropped
    rw [stitchRings_eq] at hdropped
    exact (filter_closeRing_iff hcne).mp hdropped
  · intro h
    have hdropped := (filter_closeRing_iff hcne).mpr h
    rw [← stitchRings_eq] at hdropped
    refine ⟨fun r hr => ?_, hdropped⟩
    rw [hdropped, List.mem_filter, decide_eq_true_eq] at hr
    exact ⟨hr.2.2, hr.2.1, fun e he => mem_lineEdges_of_mem_chains hr.1 he⟩

/-- **Rings and fabricated edges.**  The rings of `stitchRings` are lines of the input
exactly when no chain of three points is open where rings are closed.  Balanced
segments are such, and where every segment has three points no others. -/
theorem noFabrication_iff {segs : List Segment} (hne : ∀ seg ∈ segs, seg ≠ []) :
    (NoFabrication segs ↔ ∀ c ∈ chains segs, 3 ≤ c.length → endsMeet c = true)
      ∧ (Balanced segs → NoFabrication segs)
      ∧ ((∀ seg ∈ segs, 3 ≤ seg.length) → (NoFabrication segs ↔ Balanced segs)) := by
  have hiff := noFabrication_iff_chains hne
  refine ⟨hiff, fun hbal => ?_, fun hlen => ?_⟩
  · exact hiff.mpr fun c hc _ => (closed_chains_iff hne).mpr hbal c hc
  · rw [hiff, ← closed_chains_iff hne]
    refine ⟨fun h c hc => ?_, fun h c hc _ => h c hc⟩
    obtain ⟨seg, hseg, -, hle⟩ := exists_of_mem_chainsLoop hc
    exact h c hc ((hlen seg hseg).trans hle)

theorem noFabrication_iff_square : NoFabrication two_halves :=
  (noFabrication_iff (by decide)).2.1 (by decide : Paired two_halves).balanced

/-- A line of three points, its other member missing. -/
def open_line : List Segment := [[⟨0, 0⟩, ⟨1, 0⟩, ⟨1, 1⟩]]

/-- **A fabricated edge.**  An open line of three points never closes, and is emitted
as a triangle, with an edge that no segment has. -/
theorem stitchRings_fabricates :
    stitchRings open_line = [[⟨0, 0⟩, ⟨1, 0⟩, ⟨1, 1⟩, ⟨0, 0⟩]]
      ∧ s(vertexKey ⟨1, 1⟩, vertexKey ⟨0, 0⟩) ∈ lineEdges [⟨0, 0⟩, ⟨1, 0⟩, ⟨1, 1⟩, ⟨0, 0⟩]
      ∧ (∀ seg ∈ open_line, s(vertexKey ⟨1, 1⟩, vertexKey ⟨0, 0⟩) ∉ lineEdges seg)
      ∧ ¬NoFabrication open_line := by
  refine ⟨by decide, by decide, by decide, fun h => ?_⟩
  have hclosed := (noFabrication_iff_chains (by decide)).mp h [⟨0, 0⟩, ⟨1, 0⟩, ⟨1, 1⟩] (by decide)
    (by decide)
  exact absurd hclosed (by decide)

end Gpsxdb
