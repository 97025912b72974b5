import Mathlib.Tactic
import Gpsxdb.Library.BufferedFile
import Gpsxdb.Regional.NodeFileMerge

/-!
`RegionalNodeMap::merge` on a disk that may fail.

* `StdioFaults`, `StreamWriter`: the writer over a buffered stream, each call of
  which may fail; `mergeToFile`: the merge with this writer;
* `renamedOver`: step 5 of `regional_install`, which renames what `merge` left;
* `Keeps`: the failures of `finalize` that lose nothing; `finalize_eq_iff`;
* `mergeToFile_complete_iff`: **when a merge that returns is complete**;
* `merge_returns_empty_file`: a disk that is full when the buffer is flushed.
-/

namespace Gpsxdb

/-- How the stdio calls of one merge go: `fopen`, the writes of the header and of the
records in turn, and the three calls of `finalize`. -/
structure StdioFaults where
  opens : Bool
  write : ℕ → Outcome
  seek : Outcome
  count : Outcome
  close : Outcome

/-- `RegionalNodeMap::Writer` over a stream. -/
structure StreamWriter where
  stream : Stream UInt8
  count : UInt64
  /-- the writes made so far -/
  writes : ℕ

namespace StreamWriter

variable (φ : StdioFaults)

/-- The constructor. -/
def create (region_name : Text) (bbox : BboxFloats) (created_at : UInt32) :
    Except MergeFault StreamWriter :=
  if !φ.opens then .error .thrown
  else
    let hdr := nodeFileHeader region_name bbox created_at 0
    let written := (⟨[], 0, []⟩ : Stream UInt8).fwrite hdr (φ.write 0)
    if !written.1 then .error .thrown else .ok ⟨written.2, 0, 1⟩

/-- `append`. -/
def append (w : StreamWriter) (r : NodeRecord) : Except MergeFault StreamWriter :=
  let written := w.stream.fwrite (nodeRecordFormat.encode r) (φ.write w.writes)
  if !written.1 then .error .thrown else .ok ⟨written.2, w.count + 1, w.writes + 1⟩

/-- `finalize`: the file it leaves. -/
def finalize (w : StreamWriter) : List UInt8 :=
  let sought := w.stream.fseek 12 φ.seek
  let s := if sought.1 then (sought.2.fwrite (wf64 w.count) φ.count).2 else sought.2
  s.fclose φ.close

end StreamWriter

/-- `merge` up to `finalize`. -/
def mergeToStream (φ : StdioFaults) (file_a file_b : List UInt8) (created_at : UInt32) :
    Except MergeFault StreamWriter := do
  let a ← openInput file_a
  let b ← openInput file_b
  let w ← StreamWriter.create φ a.regionName a.bbox created_at
  a.mergeFrom (StreamWriter.append φ) b 0 0 w

/-- `RegionalNodeMap::merge`: the file that is there when it returns true. -/
def mergeToFile (φ : StdioFaults) (file_a file_b : List UInt8) (created_at : UInt32) :
    Except MergeFault (List UInt8) := do
  let w ← mergeToStream φ file_a file_b created_at
  .ok (w.finalize φ)

/-- Step 5 of `regional_install`: the file that is renamed over the nodes file; an
exception ends the installer before. -/
def renamedOver (φ : StdioFaults) (nodes_file region_nodes : List UInt8) (created_at : UInt32) :
    Option (List UInt8) :=
  match mergeToFile φ nodes_file region_nodes created_at with
  | .ok merged => some merged
  | .error _ => none

/-- The failures of `finalize` that lose nothing: after a seek that succeeds, the
bytes of the count that are not delivered are zeros; after one that fails, the
buffer is delivered all the same and the count is zero. -/
def Keeps (φ : StdioFaults) (w : StreamWriter) : Prop :=
  if φ.seek.ok then ∀ b ∈ (wf64 w.count).drop (Stream.delivered φ.count φ.close 8), b = 0
  else w.stream.pending.length ≤ Stream.delivered φ.seek φ.close w.stream.pending.length
    ∧ w.count = 0

/-! ### The two writers -/

section Simulation

variable {ε α W V : Type} {R : W → V → Prop}

/-- Whatever one computation returns, the other returns something related to it. -/
def Simulates (R : W → V → Prop) (x : Except ε W) (y : Except ε V) : Prop :=
  ∀ w, x = .ok w → ∃ v, y = .ok v ∧ R w v

lemma Simulates.bind {W' V' : Type} {R' : W' → V' → Prop} {x : Except ε W} {y : Except ε V}
    {f : W → Except ε W'} {g : V → Except ε V'} (h : Simulates R x y)
    (hfg : ∀ w v, R w v → Simulates R' (f w) (g v)) : Simulates R' (x >>= f) (y >>= g) := by
  intro w' hw'
  cases x with
  | error e => simp [Bind.bind, Except.bind] at hw'
  | ok w =>
      obtain ⟨v, rfl, hR⟩ := h w rfl
      exact hfg w v hR w' hw'

/-- A computation that both make first. -/
lemma simulates_bind_same {x : Except ε α} {f : α → Except ε W} {g : α → Except ε V}
    (h : ∀ a, Simulates R (f a) (g a)) : Simulates R (x >>= f) (x >>= g) := by
  cases x with
  | error e =>
      intro w hw
      simp [Bind.bind, Except.bind] at hw
  | ok a => exact h a

variable {append : W → NodeRecord → Except MergeFault W}
  {append' : V → NodeRecord → Except MergeFault V}

namespace OpenNodeMap

lemma simulates_restFrom (h : ∀ w v r, R w v → Simulates R (append w r) (append' v r))
    {m : OpenNodeMap} {i : ℕ} {w : W} {v : V} (hR : R w v) :
    Simulates R (m.restFrom append i w) (m.restFrom append' i v) := by
  induction i, w using restFrom.induct m generalizing v with
  | case1 i w hi ih =>
      rw [restFrom, restFrom, dif_pos hi, dif_pos hi]
      exact simulates_bind_same fun r => (h w v r hR).bind fun w' v' hR' => ih w' hR'
  | case2 i w hi =>
      rw [restFrom, restFrom, dif_neg hi, dif_neg hi]
      exact fun w' hw' => ⟨v, rfl, Except.ok.inj hw' ▸ hR⟩

/-- **A merge through one writer** is followed by the merge through another whose
appends follow. -/
lemma simulates_mergeFrom (h : ∀ w v r, R w v → Simulates R (append w r) (append' v r))
    {a b : OpenNodeMap} {i j : ℕ} {w : W} {v : V} (hR : R w v) :
    Simulates R (a.mergeFrom append b i j w) (a.mergeFrom append' b i j v) := by
  induction i, j, w using mergeFrom.induct a b generalizing v with
  | case1 i j w hij ih1 ih2 ih3 =>
      rw [mergeFrom, mergeFrom, dif_pos hij, dif_pos hij]
      refine simulates_bind_same fun ra => simulates_bind_same fun rb => ?_
      split
      · exact (h w v ra hR).bind fun w' v' hR' => ih1 w' hR'
      · split
        · exact (h w v rb hR).bind fun w' v' hR' => ih2 w' hR'
        · exact (h w v ra hR).bind fun w' v' hR' => ih3 w' hR'
  | case2 i j w hij =>
      rw [mergeFrom, mergeFrom, dif_neg hij, dif_neg hij]
      exact (simulates_restFrom h hR).bind fun w' v' hR' => simulates_restFrom h hR'

end OpenNodeMap

end Simulation

variable {φ : StdioFaults} {file_a file_b : List UInt8} {created_at : UInt32}

/-- A file with eight zeros where the count belongs. -/
def Headed (bytes : List UInt8) : Prop :=
  ∃ before after, before.length = 12 ∧ bytes = before ++ (List.replicate 8 0 ++ after)

/-- A stream writer that has lost nothing, of what the other one has written. -/
structure Follows (w : StreamWriter) (v : NodeFileWriter) : Prop where
  holds : w.stream.Holds v.bytes
  count : w.count = v.count
  headed : Headed v.bytes

lemma simulates_create (region_name : Text) (bbox : BboxFloats) (created_at : UInt32) :
    Simulates Follows (StreamWriter.create φ region_name bbox created_at)
      (.ok (NodeFileWriter.create region_name bbox created_at)) := by
  intro w hw
  refine ⟨_, rfl, ?_⟩
  rw [StreamWriter.create] at hw
  split at hw
  · simp at hw
  · dsimp only at hw
    split at hw
    · simp at hw
    · rename_i hok
      obtain rfl := Except.ok.inj hw
      have hstart : (⟨[], 0, []⟩ : Stream UInt8).Holds [] := ⟨rfl, rfl⟩
      have hholds : ((⟨[], 0, []⟩ : Stream UInt8).fwrite
          (nodeFileHeader region_name bbox created_at 0) (φ.write 0)).2.Holds _ :=
        hstart.fwrite (by simpa [Stream.fwrite] using hok)
      exact ⟨hholds, rfl, kMagic ++ wu32 1, _, rfl, rfl⟩

lemma simulates_append (w : StreamWriter) (v : NodeFileWriter) (r : NodeRecord)
    (h : Follows w v) : Simulates Follows (w.append φ r) (.ok (v.append r)) := by
  intro w' hw'
  refine ⟨_, rfl, ?_⟩
  rw [StreamWriter.append] at hw'
  split at hw'
  · simp at hw'
  · rename_i hok
    obtain rfl := Except.ok.inj hw'
    obtain ⟨before, after, hlen, hbytes⟩ := h.headed
    refine ⟨h.holds.fwrite (by simpa [Stream.fwrite] using hok), ?_, before,
      after ++ nodeRecordFormat.encode r, hlen, ?_⟩
    · rw [h.count]
      rfl
    · rw [NodeFileWriter.append, hbytes, List.append_assoc, List.append_assoc]

/-! ### `finalize` -/

/-- Writing the first bytes of a count over eight zeros is writing it all exactly
when the bytes left out are zeros. -/
lemma overwriteAt_take_iff {before after bs : List UInt8} (hbs : bs.length = 8) (k : ℕ) :
    overwriteAt (before ++ (List.replicate 8 0 ++ after)) before.length (bs.take k)
        = before ++ (bs ++ after)
      ↔ ∀ b ∈ bs.drop k, b = 0 := by
  have htake : (bs.take k).length = min k 8 := by rw [List.length_take, hbs]
  have hdrop : (List.replicate 8 0 ++ after).drop (bs.take k).length
      = List.replicate (8 - min k 8) 0 ++ after := by
    rw [htake, List.drop_append_of_le_length (by simp), List.drop_replicate]
  rw [overwriteAt, List.take_left' rfl, ← List.drop_drop, List.drop_left' rfl, hdrop,
    List.append_assoc, List.append_cancel_left_eq, ← List.append_assoc, List.append_cancel_right_eq]
  have hlen : (bs.drop k).length = 8 - min k 8 := by
    rw [List.length_drop, hbs]
    omega
  constructor
  · intro heq
    have hsplit : bs.take k ++ List.replicate (8 - min k 8) 0 = bs.take k ++ bs.drop k := by
      rw [heq, List.take_append_drop]
    rw [← List.append_cancel_left hsplit]
    exact fun b hb => List.eq_of_mem_replicate hb
  · intro hzero
    rw [← hlen, ← List.eq_replicate_of_mem hzero, List.take_append_drop]

lemma length_wf64 (u : Double) : (wf64 u).length = 8 := rfl

lemma wf64_eq_zeros {u : Double} (h : wf64 u = List.replicate 8 0) : u = 0 := by
  have hvalue := congrArg leValue h
  rw [leValue_wf64] at hvalue
  exact UInt64.toNat_inj.mp hvalue

/-- The count that `finalize` writes. -/
lemma finalize_eq_of_headed {v : NodeFileWriter} {before after : List UInt8}
    (hlen : before.length = 12) (h : v.bytes = before ++ (List.replicate 8 0 ++ after)) :
    v.finalize = before ++ (wf64 v.count ++ after) := by
  have hdrop : (before ++ List.replicate 8 0).length = 20 := by
    rw [List.length_append, hlen, List.length_replicate]
  rw [NodeFileWriter.finalize, h, List.take_left' hlen, ← List.append_assoc before,
    List.drop_left' hdrop, List.append_assoc]

/-- **`finalize`** leaves the complete file exactly when its failures lose nothing. -/
lemma finalize_eq_iff {w : StreamWriter} {v : NodeFileWriter} (h : Follows w v) :
    w.finalize φ = v.finalize ↔ Keeps φ w := by
  obtain ⟨before, after, hlen, hbytes⟩ := h.headed
  have hdata := h.holds.data
  rw [finalize_eq_of_headed hlen hbytes, ← h.count, StreamWriter.finalize, Keeps]
  have hseek : (w.stream.fseek 12 φ.seek).1 = φ.seek.ok := rfl
  rw [hseek]
  cases hok : φ.seek.ok with
  | true =>
      have hpos : (⟨v.bytes, 12, wf64 w.count⟩ : Stream UInt8).pos
          ≤ (⟨v.bytes, 12, wf64 w.count⟩ : Stream UInt8).disk.length := by
        show 12 ≤ v.bytes.length
        rw [hbytes, List.length_append, hlen]
        omega
      have hclose := Stream.fclose_eq φ.count φ.close hpos
      simp only [if_true]
      rw [h.holds.fseek hok, Stream.fwrite, List.nil_append, hclose, hbytes, ← hlen]
      exact overwriteAt_take_iff rfl _
  | false =>
      have hclose := Stream.fclose_eq φ.seek φ.close h.holds.pos.le
      rw [hok] at hclose
      simp only [Bool.false_eq_true, if_false] at hclose ⊢
      rw [Stream.fseek, hok]
      simp only [Bool.false_eq_true, if_false]
      rw [hclose, h.holds.pos, overwriteAt_end]
      generalize Stream.delivered φ.seek φ.close w.stream.pending.length = d
      constructor
      · intro heq
        have hle : w.stream.pending.length ≤ d := by
          have hlength := congrArg List.length heq
          have htotal := congrArg List.length (hdata.trans hbytes)
          simp only [List.length_append, List.length_take, List.length_replicate,
            length_wf64] at hlength htotal
          omega
        rw [List.take_of_length_le hle, hdata, hbytes, List.append_cancel_left_eq,
          List.append_cancel_right_eq] at heq
        exact ⟨hle, wf64_eq_zeros heq.symm⟩
      · rintro ⟨hle, hzero⟩
        rw [List.take_of_length_le hle, hdata, hbytes, hzero]
        rfl

/-! ### The whole merge -/

/-- A merge that comes to `finalize` has lost nothing before. -/
lemma follows_mergeToStream {w : StreamWriter}
    (hw : mergeToStream φ file_a file_b created_at = .ok w) :
    ∃ v, Follows w v ∧ mergeFiles file_a file_b created_at = .ok v.finalize := by
  have hsim : Simulates Follows (mergeToStream φ file_a file_b created_at) (do
      let a ← openInput file_a
      let b ← openInput file_b
      let v ← .ok (NodeFileWriter.create a.regionName a.bbox created_at)
      a.mergeFrom (fun w r => .ok (w.append r)) b 0 0 v) :=
    simulates_bind_same fun a => simulates_bind_same fun b =>
      (simulates_create _ _ _).bind fun _ _ h =>
        OpenNodeMap.simulates_mergeFrom simulates_append h
  obtain ⟨v, hv, hfollows⟩ := hsim w hw
  refine ⟨v, hfollows, ?_⟩
  have hfiles : mergeFiles file_a file_b created_at = (do
      let a ← openInput file_a
      let b ← openInput file_b
      let v ← .ok (NodeFileWriter.create a.regionName a.bbox created_at)
      a.mergeFrom (fun w r => .ok (w.append r)) b 0 0 v) >>= fun v => .ok v.finalize := by
    simp only [mergeFiles, bind_assoc]
    rfl
  rw [hfiles, hv]
  rfl

lemma mergeToFile_eq_ok_iff {out : List UInt8} :
    mergeToFile φ file_a file_b created_at = .ok out
      ↔ ∃ w, mergeToStream φ file_a file_b created_at = .ok w ∧ w.finalize φ = out := by
  rw [mergeToFile]
  cases mergeToStream φ file_a file_b created_at with
  | error e => simp [Bind.bind, Except.bind]
  | ok w => simp [Bind.bind, Except.bind]

lemma renamedOver_eq_some_iff {out : List UInt8} :
    renamedOver φ file_a file_b created_at = some out
      ↔ mergeToFile φ file_a file_b created_at = .ok out := by
  rw [renamedOver]
  cases mergeToFile φ file_a file_b created_at with
  | error e => simp
  | ok w => simp

/-- What returns is complete when the failures of `finalize` lose nothing, and only
then. -/
lemma complete_iff_keeps (φ : StdioFaults) (file_a file_b : List UInt8) (created_at : UInt32) :
    (∀ out, mergeToFile φ file_a file_b created_at = .ok out →
        mergeFiles file_a file_b created_at = .ok out)
      ↔ ∀ w, mergeToStream φ file_a file_b created_at = .ok w → Keeps φ w := by
  constructor
  · intro h w hw
    obtain ⟨v, hfollows, hfiles⟩ := follows_mergeToStream hw
    have hout := h (w.finalize φ) (mergeToFile_eq_ok_iff.mpr ⟨w, hw, rfl⟩)
    rw [hfiles] at hout
    exact (finalize_eq_iff hfollows).mp (Except.ok.inj hout).symm
  · intro h out hout
    obtain ⟨w, hw, rfl⟩ := mergeToFile_eq_ok_iff.mp hout
    obtain ⟨v, hfollows, hfiles⟩ := follows_mergeToStream hw
    rw [hfiles, (finalize_eq_iff hfollows).mpr (h w hw)]

/-- **Replacement under write failure.**  Whatever the inputs and the failures, a
merge that returns leaves the complete file, and the installer renames nothing else
over the nodes file, exactly when the failures of `finalize` lose nothing. -/
theorem mergeToFile_complete_iff (φ : StdioFaults) (file_a file_b : List UInt8)
    (created_at : UInt32) :
    ((∀ out, mergeToFile φ file_a file_b created_at = .ok out →
        mergeFiles file_a file_b created_at = .ok out)
      ↔ ∀ w, mergeToStream φ file_a file_b created_at = .ok w → Keeps φ w)
    ∧ ((∀ out, renamedOver φ file_a file_b created_at = some out →
        mergeFiles file_a file_b created_at = .ok out)
      ↔ ∀ w, mergeToStream φ file_a file_b created_at = .ok w → Keeps φ w) := by
  refine ⟨complete_iff_keeps φ file_a file_b created_at, ?_⟩
  simp only [renamedOver_eq_some_iff]
  exact complete_iff_keeps φ file_a file_b created_at

/-- A disk that takes nothing from the time the buffer is flushed. -/
def fullDisk : StdioFaults where
  opens := true
  write _ := ⟨true, 0, false⟩
  seek := ⟨false, 0, false⟩
  count := ⟨false, 0, false⟩
  close := ⟨true, 0, false⟩

/-- Nothing reaches a full disk while the records are appended. -/
lemma foldlM_fullDisk (rs : List NodeRecord) {w : StreamWriter} (hw : w.stream.disk = []) :
    ∃ w', rs.foldlM (StreamWriter.append fullDisk) w = .ok w' ∧ w'.stream.disk = [] := by
  induction rs generalizing w with
  | nil => exact ⟨w, rfl, hw⟩
  | cons r rs ih =>
      have hdisk : (w.stream.fwrite (nodeRecordFormat.encode r) ⟨true, 0, false⟩).2.disk = [] := by
        rw [← hw]
        exact overwriteAt_nil _ _
      obtain ⟨w', hw', hdisk'⟩ := ih (w := ⟨_, w.count + 1, w.writes + 1⟩) hdisk
      exact ⟨w', hw', hdisk'⟩

lemma finalize_fullDisk {w : StreamWriter} (hw : w.stream.disk = []) :
    w.finalize fullDisk = [] := by
  have hfile : w.finalize fullDisk
      = overwriteAt (overwriteAt w.stream.disk w.stream.pos []) _ [] := rfl
  rw [hfile, overwriteAt_nil, overwriteAt_nil, hw]

/-- **A full disk.**  Two files of two nodes are merged into a buffer, the flush at
the seek fails, and the empty file that is left is renamed over the nodes file. -/
theorem merge_returns_empty_file :
    ∃ file_a file_b full, RegionalFile file_a ∧ RegionalFile file_b
      ∧ mergeFiles file_a file_b 0 = .ok full ∧ full.length = 136
      ∧ mergeToFile fullDisk file_a file_b 0 = .ok []
      ∧ renamedOver fullDisk file_a file_b 0 = some [] := by
  obtain ⟨hodd, hlow⟩ := regionalFile_nodes
  set file_a := writeNodeFile [] ⟨0, 0, 0, 0⟩ 0 odd_nodes with hfile_a
  set file_b := writeNodeFile [] ⟨0, 0, 0, 0⟩ 0 low_nodes with hfile_b
  have hopena : openNodeMap file_a = some ⟨file_a, 2⟩ := openNodeMap_writeNodeFile (by decide)
  have hopenb : openNodeMap file_b = some ⟨file_b, 2⟩ := openNodeMap_writeNodeFile (by decide)
  have hrecordsa : (OpenNodeMap.mk file_a 2).records = odd_nodes :=
    records_writeNodeFile (by decide)
  have hrecordsb : (OpenNodeMap.mk file_b 2).records = low_nodes :=
    records_writeNodeFile (by decide)
  have hia : (OpenNodeMap.mk file_a 2).Inside := ⟨hodd.length_lt, by decide⟩
  have hib : (OpenNodeMap.mk file_b 2).Inside := ⟨hlow.length_lt, by decide⟩
  have hmerged : (mergeBy NodeRecord.id odd_nodes low_nodes).length = 3 := by
    simp [mergeBy, odd_nodes, low_nodes]
  have hfull := mergeFiles_eq hopena hopenb hia hib 0
  rw [hrecordsa, hrecordsb] at hfull
  have hfile : mergeToFile fullDisk file_a file_b 0 = .ok [] := by
    obtain ⟨w, hw, hdisk⟩ := foldlM_fullDisk (mergeBy NodeRecord.id odd_nodes low_nodes)
      (w := ⟨⟨[], 0, nodeFileHeader (OpenNodeMap.mk file_a 2).regionName
        (OpenNodeMap.mk file_a 2).bbox 0 0⟩, 0, 1⟩) rfl
    refine mergeToFile_eq_ok_iff.mpr ⟨w, ?_, finalize_fullDisk hdisk⟩
    have hcreate : StreamWriter.create fullDisk (OpenNodeMap.mk file_a 2).regionName
        (OpenNodeMap.mk file_a 2).bbox 0 = pure ⟨⟨[], 0, nodeFileHeader
          (OpenNodeMap.mk file_a 2).regionName (OpenNodeMap.mk file_a 2).bbox 0 0⟩, 0, 1⟩ := rfl
    rw [mergeToStream, openInput_eq hopena, openInput_eq hopenb, pure_bind, pure_bind, hcreate,
      pure_bind, hia.mergeFrom_eq hib, List.drop_zero, List.drop_zero, hrecordsa, hrecordsb, hw]
  refine ⟨file_a, file_b, _, hodd, hlow, hfull, ?_, hfile, renamedOver_eq_some_iff.mpr hfile⟩
  rw [length_writeNodeFile, hmerged]
  rfl

end Gpsxdb
