import Mathlib.Tactic
import Gpsxdb.Import.ResumeOffsets
import Gpsxdb.Library.Framing
import Gpsxdb.Library.Records

/-!
The bytes of a PBF file (`OSMReader.cpp`, `fileformat.proto`).

* `PbfLibraries`: protocol buffers, zlib and the scaling of coordinates, as parameters;
* `ByteReader`, `readBlob`, `next`, `producerLoop`, `producer`: the reader on bytes, and the
  producer of `main` behind it;
* `Frame`: a blob as it is written, behind its header and the length of that;
* `readBlob_frame`, `readBlob_cut`: a whole frame, and one that is cut short;
* `next_frames`, `producerLoop_frames`: **bytes are read as blobs**, by induction on the
  frames;
* `producer_of_prefix`: **a file that breaks off anywhere** is imported as its whole blobs.

Headers of 2^31 bytes and more, whose length `ParseFromArray` is passed as an `int`, and an
index out of bounds end in `undefined`.
-/

namespace Gpsxdb

/-! ### Messages -/

/-- `BlobHeader`. -/
structure BlobHeader where
  type : Text
  datasize : ℤ

/-- `Blob`, but for the two formats that are not read. -/
structure BlobMessage where
  raw : Option Text
  raw_size : Option ℤ
  zlib_data : Option Text

/-- What the reader calls: the `ParseFromArray` of each message, `uncompress` into so many
bytes, and the scaling by `1e-9`. -/
structure PbfLibraries where
  parseBlobHeader : List UInt8 → Option BlobHeader
  parseBlob : List UInt8 → Option BlobMessage
  parseBlock : List UInt8 → Option PrimitiveBlock
  uncompress : List UInt8 → ℕ → Option (List UInt8)
  scale : ℤ → Double

/-- What ends the reading otherwise than the end of the file. -/
inductive ReadFailure where
  | exception (what : String)
  | undefined
deriving DecidableEq

/-! ### The reader -/

/-- `ntohl`. -/
def ntohl (size_be : List UInt8) : ℕ := leValue size_be.reverse

/-- `file_`: what is left of it, and `tellg`. -/
structure ByteReader where
  rest : List UInt8
  position : ℕ

namespace ByteReader

/-- `file_.read`, none where the file ends. -/
def read (r : ByteReader) (n : ℕ) : Option (List UInt8 × ByteReader) :=
  if n ≤ r.rest.length then some (r.rest.take n, ⟨r.rest.drop n, r.position + n⟩) else none

lemma read_append (bs rest : List UInt8) (position : ℕ) :
    read ⟨bs ++ rest, position⟩ bs.length = some (bs, ⟨rest, position + bs.length⟩) := by
  rw [read, if_pos (by simp), List.take_left' rfl, List.drop_left' rfl]

lemma read_of_lt {bs : List UInt8} {n : ℕ} (h : bs.length < n) (position : ℕ) :
    read ⟨bs, position⟩ n = none := if_neg (not_le.mpr h)

lemma length_read {r r' : ByteReader} {n : ℕ} {bs : List UInt8} (h : r.read n = some (bs, r')) :
    r'.rest.length + n = r.rest.length := by
  rw [read] at h
  split at h
  · obtain ⟨-, rfl⟩ := Prod.mk.inj (Option.some.inj h)
    rw [List.length_drop]
    omega
  · exact absurd h.symm (Option.some_ne_none _)

end ByteReader

namespace PbfLibraries

variable (L : PbfLibraries)

/-- The bytes a blob holds: `zlib_data` before `raw`. -/
def uncompressed (blob : BlobMessage) : Except ReadFailure (List UInt8) :=
  match blob.zlib_data with
  | some zdata =>
      let dest_len := match blob.raw_size with
        | some raw_size => toSize raw_size
        | none => zdata.length * 4
      -- a negative `raw_size`
      if 2 ^ 63 ≤ dest_len then .error (.exception "vector::_M_default_append")
      else match L.uncompress zdata dest_len with
        | some data => .ok data
        | none => .error (.exception "zlib decompression failed")
  | none => .ok (blob.raw.getD [])

/-- `readBlob`, none at the end of the file. -/
def readBlob (r : ByteReader) : Except ReadFailure (Option (List UInt8 × ByteReader)) :=
  match r.read 4 with
  | none => .ok none
  | some (hdr_size_be, r) =>
      match r.read (ntohl hdr_size_be) with
      | none => .ok none
      | some (hdr_buf, r) =>
          if 2 ^ 31 ≤ hdr_buf.length then .error .undefined
          else match L.parseBlobHeader hdr_buf with
            | none => .error (.exception "Failed to parse BlobHeader")
            | some blobHeader =>
                if blobHeader.datasize < 0 then
                  .error (.exception "cannot create std::vector larger than max_size()")
                else match r.read blobHeader.datasize.toNat with
                  | none => .ok none
                  | some (blob_buf, r) =>
                      match L.parseBlob blob_buf with
                      | none => .error (.exception "Failed to parse Blob")
                      | some blob =>
                          if blobHeader.type = ascii "OSMHeader" then .ok (some ([], r))
                          else (L.uncompressed blob).map fun data => some (data, r)

/-- `parsePrimitiveBlock`, of `next`. -/
def parse (data : List UInt8) : Except ReadFailure (List BlockEntry) :=
  match OSMReader.parsePrimitiveBlock L.parseBlock L.scale data [] with
  | none => .error .undefined
  | some (.error what) => .error (.exception what)
  | some (.ok out) => .ok out

lemma length_readBlob {r r' : ByteReader} {data : List UInt8}
    (h : L.readBlob r = .ok (some (data, r'))) : r'.rest.length < r.rest.length := by
  rw [readBlob] at h
  rcases h1 : r.read 4 with _ | ⟨hdr_size_be, r₁⟩
  · simp [h1] at h
  rcases h2 : r₁.read (ntohl hdr_size_be) with _ | ⟨hdr_buf, r₂⟩
  · simp [h1, h2] at h
  simp only [h1, h2] at h
  split at h
  · cases h
  rcases h3 : L.parseBlobHeader hdr_buf with _ | blobHeader
  · simp [h3] at h
  simp only [h3] at h
  split at h
  · cases h
  rcases h4 : r₂.read blobHeader.datasize.toNat with _ | ⟨blob_buf, r₃⟩
  · simp [h4] at h
  have hlen : r₃.rest.length < r.rest.length := by
    have := ByteReader.length_read h1
    have := ByteReader.length_read h2
    have := ByteReader.length_read h4
    omega
  rcases h5 : L.parseBlob blob_buf with _ | blob
  · simp [h4, h5] at h
  simp only [h4, h5] at h
  split at h
  · obtain ⟨-, rfl⟩ : data = [] ∧ r' = r₃ := by simpa [eq_comm] using h
    exact hlen
  · rcases h6 : L.uncompressed blob with e | d
    · simp [h6, Except.map] at h
    · obtain ⟨-, rfl⟩ : d = data ∧ r₃ = r' := by simpa [h6, Except.map] using h
      exact hlen

/-- `next`: blobs without data are passed over. -/
def next (r : ByteReader) : Except ReadFailure (Option (List BlockEntry × ByteReader)) :=
  match _h : L.readBlob r with
  | .error failure => .error failure
  | .ok none => .ok none
  | .ok (some (data, r')) =>
      if data = [] then next r' else (L.parse data).map fun out => some (out, r')
termination_by r.rest.length
decreasing_by exact L.length_readBlob _h

lemma length_next {r r' : ByteReader} {out : List BlockEntry}
    (h : L.next r = .ok (some (out, r'))) : r'.rest.length < r.rest.length := by
  induction hn : r.rest.length using Nat.strong_induction_on generalizing r with
  | _ n ih =>
      subst hn
      rw [next] at h
      split at h
      · cases h
      · cases h
      · rename_i data r₁ hread
        have hlt := L.length_readBlob hread
        split at h
        · exact (ih _ hlt h rfl).trans hlt
        · rcases hparse : L.parse data with e | out'
          · simp [hparse, Except.map] at h
          · obtain ⟨-, rfl⟩ : out' = out ∧ r₁ = r' := by simpa [hparse, Except.map] using h
            exact hlt

variable (resume_phase : ImportPhase) (node_threads : ℕ)

/-- The loop of the producer over the batches. -/
def producerLoop (r : ByteReader) (blob_start : ℕ) (σ : Producer) : Except ReadFailure Producer :=
  match _h : L.next r with
  | .error failure => .error failure
  | .ok none => .ok σ
  | .ok (some (batch, r')) =>
      producerLoop r' r'.position
        (batch.foldl (Producer.producerEntry resume_phase node_threads blob_start) σ)
termination_by r.rest.length
decreasing_by exact L.length_next _h

/-- The producer, on the bytes of a file: `seekg` may go behind the end. -/
def producer (bytes : List UInt8) (files : OffsetFiles) : Except ReadFailure Producer :=
  let offset := (resume_phase.seekOffset files).getD 0
  L.producerLoop resume_phase node_threads ⟨bytes.drop offset, offset⟩ offset
    (Producer.start resume_phase)

end PbfLibraries

/-! ### Frames -/

/-- A blob as it is written: its header behind the length of that, and its data.  What it
holds are the entries of a block, or nothing that `next` stops at. -/
structure Frame (L : PbfLibraries) where
  size_be : List UInt8
  header : List UInt8
  data : List UInt8
  blobHeader : BlobHeader
  blob : BlobMessage
  entries : Option (List BlockEntry)
  length_size_be : size_be.length = 4
  ntohl_size_be : ntohl size_be = header.length
  header_lt : header.length < 2 ^ 31
  parse_header : L.parseBlobHeader header = some blobHeader
  datasize : blobHeader.datasize = data.length
  parse_data : L.parseBlob data = some blob
  holds : ∃ payload,
    (if blobHeader.type = ascii "OSMHeader" then .ok [] else L.uncompressed blob) = .ok payload
      ∧ match entries with
        | none => payload = []
        | some out => payload ≠ [] ∧ L.parse payload = .ok out

namespace Frame

variable {L : PbfLibraries}

def bytes (f : Frame L) : List UInt8 := f.size_be ++ (f.header ++ f.data)

lemma length_bytes (f : Frame L) : f.bytes.length = 4 + (f.header.length + f.data.length) := by
  rw [bytes, List.length_append, List.length_append, f.length_size_be]

/-- The blob that is read of it. -/
def toBlob (f : Frame L) : Blob := ⟨f.bytes.length, by rw [f.length_bytes]; omega, f.entries⟩

end Frame

namespace PbfLibraries

variable {L : PbfLibraries} {f : Frame L} {frames : List (Frame L)} {tail : List UInt8}

/-- **A whole frame.** -/
lemma readBlob_frame (f : Frame L) (rest : List UInt8) (position : ℕ) :
    L.readBlob ⟨f.bytes ++ rest, position⟩
      = (if f.blobHeader.type = ascii "OSMHeader" then .ok [] else L.uncompressed f.blob).map
          fun payload => some (payload, ⟨rest, position + f.bytes.length⟩) := by
  have hbytes : f.bytes ++ rest = f.size_be ++ (f.header ++ (f.data ++ rest)) := by
    simp only [Frame.bytes, List.append_assoc]
  have hsize : ByteReader.read ⟨f.bytes ++ rest, position⟩ 4
      = some (f.size_be, ⟨f.header ++ (f.data ++ rest), position + 4⟩) := by
    rw [hbytes, ← f.length_size_be]
    exact ByteReader.read_append ..
  have hheader := ByteReader.read_append f.header (f.data ++ rest) (position + 4)
  have hdata := ByteReader.read_append f.data rest (position + 4 + f.header.length)
  have hpos : position + 4 + f.header.length + f.data.length = position + f.bytes.length := by
    rw [f.length_bytes]
    omega
  rw [readBlob, hsize]
  simp only [f.ntohl_size_be, hheader, if_neg (not_le.mpr f.header_lt), f.parse_header, f.datasize,
    if_neg (not_lt.mpr (Int.natCast_nonneg _)), Int.toNat_natCast, hdata, f.parse_data, hpos]
  split
  · rfl
  · rfl

/-- **A frame that is cut short** is the end of the file. -/
lemma readBlob_cut (h : Cut Frame.bytes frames tail) (position : ℕ) :
    L.readBlob ⟨tail, position⟩ = .ok none := by
  have hshort : tail.length < 4 → L.readBlob ⟨tail, position⟩ = .ok none := fun hlt => by
    rw [readBlob, ByteReader.read_of_lt hlt]
  cases frames with
  | nil =>
      obtain rfl := h.nil rfl
      exact hshort (by simp)
  | cons f frames =>
      obtain ⟨⟨more, hmore⟩, hlt⟩ := h.part f rfl
      by_cases h4 : tail.length < 4
      · exact hshort h4
      -- the length is whole
      obtain ⟨tail, rfl⟩ : f.size_be <+: tail := by
        have hsize : f.size_be <+: f.bytes := List.prefix_append ..
        refine List.prefix_of_prefix_length_le hsize ⟨more, hmore⟩ ?_
        rw [f.length_size_be]
        omega
      have hsize : ByteReader.read ⟨f.size_be ++ tail, position⟩ 4
          = some (f.size_be, ⟨tail, position + 4⟩) := by
        rw [← f.length_size_be]
        exact ByteReader.read_append ..
      have hrest : tail ++ more = f.header ++ f.data := by
        rw [Frame.bytes, List.append_assoc] at hmore
        exact List.append_cancel_left hmore
      rw [readBlob, hsize]
      simp only [f.ntohl_size_be]
      by_cases hheader : tail.length < f.header.length
      · rw [ByteReader.read_of_lt hheader]
      -- the header is whole
      obtain ⟨tail, rfl⟩ : f.header <+: tail :=
        List.prefix_of_prefix_length_le (List.prefix_append ..) ⟨more, hrest⟩ (not_lt.mp hheader)
      have hdata : tail.length < f.data.length := by
        rw [f.length_bytes, List.length_append, List.length_append, f.length_size_be] at hlt
        omega
      simp only [ByteReader.read_append, if_neg (not_le.mpr f.header_lt), f.parse_header,
        f.datasize, if_neg (not_lt.mpr (Int.natCast_nonneg _)), Int.toNat_natCast,
        ByteReader.read_of_lt hdata]

/-- A frame without entries is passed over. -/
lemma next_frame_none (h : f.entries = none) (rest : List UInt8) (position : ℕ) :
    L.next ⟨f.bytes ++ rest, position⟩ = L.next ⟨rest, position + f.bytes.length⟩ := by
  obtain ⟨payload, hpayload, hholds⟩ := f.holds
  rw [h] at hholds
  have hread := readBlob_frame f rest position
  rw [hpayload, Except.map, hholds] at hread
  rw [next]
  split
  · rename_i hread'
    rw [hread] at hread'
    cases hread'
  · rename_i hread'
    rw [hread] at hread'
    cases hread'
  · rename_i data r' hread'
    rw [hread] at hread'
    cases hread'
    exact if_pos rfl

/-- A frame with entries. -/
lemma next_frame_some {out : List BlockEntry} (h : f.entries = some out) (rest : List UInt8)
    (position : ℕ) : L.next ⟨f.bytes ++ rest, position⟩
      = .ok (some (out, ⟨rest, position + f.bytes.length⟩)) := by
  obtain ⟨payload, hpayload, hholds⟩ := f.holds
  rw [h] at hholds
  obtain ⟨hne, hparse⟩ := hholds
  have hread := readBlob_frame f rest position
  rw [hpayload, Except.map] at hread
  rw [next]
  split
  · rename_i hread'
    rw [hread] at hread'
    cases hread'
  · rename_i hread'
    rw [hread] at hread'
    cases hread'
  · rename_i data r' hread'
    rw [hread] at hread'
    cases hread'
    rw [if_neg hne, hparse]
    rfl

lemma next_cut (h : Cut Frame.bytes frames tail) (position : ℕ) :
    L.next ⟨tail, position⟩ = .ok none := by
  rw [next]
  split
  · rename_i hread
    rw [readBlob_cut h] at hread
    cases hread
  · rfl
  · rename_i hread
    rw [readBlob_cut h] at hread
    cases hread

/-! ### The import -/

variable {resume_phase : ImportPhase} {node_threads : ℕ} {missing : List (Frame L)}

/-- **Bytes are read as blobs**, up to where the file breaks off. -/
lemma producerLoop_frames (h : Cut Frame.bytes missing tail) (frames : List (Frame L))
    (position blob_start : ℕ) (σ : Producer) :
    L.producerLoop resume_phase node_threads ⟨frames.flatMap Frame.bytes ++ tail, position⟩
        blob_start σ
      = .ok (Producer.producerLoop resume_phase node_threads
          ⟨frames.map Frame.toBlob, position⟩ blob_start σ) := by
  rw [Producer.producerLoop_eq]
  induction frames generalizing position blob_start σ with
  | nil =>
      rw [List.flatMap_nil, List.nil_append, producerLoop]
      split
      · rename_i hnext
        rw [next_cut h] at hnext
        cases hnext
      · rfl
      · rename_i hnext
        rw [next_cut h] at hnext
        cases hnext
  | cons f frames ih =>
      rw [List.flatMap_cons, List.append_assoc]
      cases hentries : f.entries with
      | none =>
          have hskip : L.producerLoop resume_phase node_threads
              ⟨f.bytes ++ (frames.flatMap Frame.bytes ++ tail), position⟩ blob_start σ
            = L.producerLoop resume_phase node_threads
              ⟨frames.flatMap Frame.bytes ++ tail, position + f.bytes.length⟩ blob_start σ := by
            rw [producerLoop, producerLoop, next_frame_none hentries]
          have hlocated : Producer.located ((f :: frames).map Frame.toBlob) blob_start position
              = Producer.located (frames.map Frame.toBlob) blob_start
                (position + f.bytes.length) := by
            rw [List.map_cons, Producer.located, Chunks.located]
            simp only [Frame.toBlob, hentries]
            rfl
          rw [hskip, hlocated, ih]
      | some batch =>
          have hlocated : Producer.located ((f :: frames).map Frame.toBlob) blob_start position
              = batch.map (blob_start, ·) ++ Producer.located (frames.map Frame.toBlob)
                (position + f.bytes.length) (position + f.bytes.length) := by
            rw [List.map_cons, Producer.located, Chunks.located]
            simp only [Frame.toBlob, hentries]
            rfl
          rw [producerLoop]
          split
          · rename_i hnext
            rw [next_frame_some hentries] at hnext
            cases hnext
          · rename_i hnext
            rw [next_frame_some hentries] at hnext
            cases hnext
          · rename_i batch' r' hnext
            rw [next_frame_some hentries] at hnext
            cases hnext
            rw [ih, hlocated, List.foldl_append, List.foldl_map]
            rfl

/-- A recorded offset, in the bytes. -/
lemma drop_of_seekTo (tail : List UInt8) {whole : List (Frame L)} {after : List Blob} {offset : ℕ}
    (h : OSMReader.seekTo (whole.map Frame.toBlob) offset = some ⟨after, offset⟩) :
    ∃ rest : List (Frame L), after = rest.map Frame.toBlob
      ∧ (whole.flatMap Frame.bytes ++ tail).drop offset = rest.flatMap Frame.bytes ++ tail := by
  obtain ⟨rest, hseek, hrest⟩ := Option.map_eq_some_iff.mp h
  obtain rfl : rest = after := congrArg OSMReader.blobs hrest
  obtain ⟨before, hsplit, hoffset⟩ := Chunks.eq_append_of_seek Blob.size hseek
  obtain ⟨frames, frames', rfl, rfl, rfl⟩ := List.map_eq_append_iff.mp hsplit
  have htotal : Chunks.total Blob.size (frames.map Frame.toBlob)
      = (frames.flatMap Frame.bytes).length := by
    rw [Chunks.total, List.map_map, List.length_flatMap]
    rfl
  refine ⟨frames', rfl, ?_⟩
  rw [List.flatMap_append, List.append_assoc, hoffset, htotal, List.drop_left' rfl]

/-- **A file that breaks off anywhere**, inside a length, a header or the data of a blob,
is imported without an error as the whole blobs it has.  From each phase on, with the offset
files missing or as recorded for these blobs, the producer on the bytes is that on the blobs,
and it hands over the entries of these blobs. -/
theorem producer_of_prefix {frames : List (Frame L)} {p : List UInt8}
    (hp : p <+: frames.flatMap Frame.bytes) :
    ∃ whole missing tail, frames = whole ++ missing ∧ p = whole.flatMap Frame.bytes ++ tail
      ∧ Cut Frame.bytes missing tail
      ∧ ∀ (resume_phase : ImportPhase) (node_threads : ℕ) (files : OffsetFiles),
        files.Of (Producer.recorded (whole.map Frame.toBlob)) →
        ∃ σ, L.producer resume_phase node_threads p files = .ok σ
          ∧ Producer.producer resume_phase node_threads (whole.map Frame.toBlob) files = some σ
          ∧ σ.handed = (Producer.entriesOf (whole.map Frame.toBlob)).filterMap
            (Producer.wanted resume_phase) := by
  obtain ⟨whole, missing, tail, hsplit, hp, hcut⟩ := exists_cut_of_prefix Frame.bytes hp
  refine ⟨whole, missing, tail, hsplit, hp, hcut, fun resume_phase node_threads files hfiles => ?_⟩
  have hentries : ((Producer.located (whole.map Frame.toBlob) 0 0).foldl
      (Producer.step resume_phase node_threads) (Producer.start resume_phase)).handed
        = (Producer.entriesOf (whole.map Frame.toBlob)).filterMap
          (Producer.wanted resume_phase) := by
    rw [Producer.handed_foldl, Producer.entriesOf,
      ← Chunks.map_snd_located Blob.size Blob.entries _ 0 0, List.filterMap_map]
    rfl
  cases hoffset : resume_phase.seekOffset files with
  | none =>
      refine ⟨_, ?_, ?_, hentries⟩
      · rw [producer, hoffset, hp]
        exact (producerLoop_frames hcut whole 0 0 _).trans (by rw [Producer.producerLoop_eq])
      · simp only [Producer.producer, hoffset, Option.map_some, Producer.producerLoop_eq]
  | some offset =>
      obtain ⟨after, l, hseek, hl, hidle⟩ := Producer.seek_recorded hfiles hoffset
      obtain ⟨rest, rfl, hdrop⟩ := drop_of_seekTo tail hseek
      rw [hl, (Producer.foldl_idle node_threads _ hidle).1] at hentries
      refine ⟨_, ?_, Producer.producer_seek node_threads _ hoffset hseek, hentries⟩
      rw [producer, hoffset, hp, Option.getD_some, hdrop]
      exact (producerLoop_frames hcut rest offset offset _).trans
        (by rw [Producer.producerLoop_eq])

end PbfLibraries

/-! ### A download that broke off -/

/-- The bytes of a block of data that is not compressed. -/
def smallBlob : List UInt8 := 0x0A :: 0x4A :: OSMReader.smallData

/-- The bytes of the header in front of it. -/
def smallHeader : List UInt8 := [0x0A, 0x07, 0x4F, 0x53, 0x4D, 0x44, 0x61, 0x74, 0x61, 0x18, 0x4C]

/-- Protocol buffers for these bytes. -/
def smallLibraries : PbfLibraries where
  parseBlobHeader bs := if bs = smallHeader then some ⟨ascii "OSMData", 76⟩ else none
  parseBlob bs := if bs = smallBlob then some ⟨some OSMReader.smallData, none, none⟩ else none
  parseBlock := OSMReader.parseSmall
  uncompress _ _ := none
  scale := OSMReader.scaleSmall

/-- What the block holds. -/
def smallEntries : List BlockEntry :=
  [.node ⟨1, ascii "a", .single (ascii "name") (ascii "a"), 0x3FF0000000000000,
      0x3FF0000000000000⟩,
    .node ⟨3, [], .empty, 0x3FF0000000000000, 0x4000000000000000⟩,
    .way ⟨7, [], .empty, [3, 1]⟩,
    .relation ⟨9, ascii "a", .single (ascii "name") (ascii "a"), [⟨7, ascii "a"⟩]⟩]

/-- The block in its frame. -/
def smallFrame : Frame smallLibraries where
  size_be := [0, 0, 0, 0x0B]
  header := smallHeader
  data := smallBlob
  blobHeader := ⟨ascii "OSMData", 76⟩
  blob := ⟨some OSMReader.smallData, none, none⟩
  entries := some smallEntries
  length_size_be := rfl
  ntohl_size_be := by decide
  header_lt := by decide
  parse_header := by simp [smallLibraries]
  datasize := rfl
  parse_data := by simp [smallLibraries]
  holds := by
    refine ⟨OSMReader.smallData, if_neg (by decide), by decide, ?_⟩
    rfl

theorem PbfLibraries.producer_of_prefix_small : ∃ σ,
    smallLibraries.producer .nodes 1 (smallFrame.bytes ++ smallFrame.bytes.take 60) .absent = .ok σ
      ∧ σ.handed = [.way ⟨7, [], .empty, [3, 1]⟩,
        .relation ⟨9, ascii "a", .single (ascii "name") (ascii "a"), [⟨7, ascii "a"⟩]⟩] := by
  have hp : smallFrame.bytes ++ smallFrame.bytes.take 60
      <+: [smallFrame, smallFrame].flatMap Frame.bytes := by
    rw [List.flatMap_cons, List.flatMap_singleton]
    exact (List.prefix_append_right_inj _).mpr (List.take_prefix ..)
  obtain ⟨whole, missing, tail, hsplit, hbytes, hcut, h⟩ := producer_of_prefix hp
  have hlen : (smallFrame.bytes ++ smallFrame.bytes.take 60).length = 151 := rfl
  have hframe : smallFrame.bytes.length = 91 := rfl
  obtain rfl : whole = [smallFrame] := by
    rcases whole with _ | ⟨f, _ | ⟨g, whole⟩⟩
    · obtain rfl : missing = [smallFrame, smallFrame] := hsplit.symm
      have hlt := (hcut.part smallFrame rfl).2
      rw [hbytes, List.flatMap_nil, List.nil_append] at hlen
      omega
    · rw [(List.cons.inj hsplit).1]
    · have hf : smallFrame = f := (List.cons.inj hsplit).1
      have hg : smallFrame = g := (List.cons.inj (List.cons.inj hsplit).2).1
      rw [hbytes, List.flatMap_cons, List.flatMap_cons] at hlen
      simp only [List.length_append, ← hf, ← hg, hframe] at hlen
      omega
  obtain ⟨σ, hσ, -, hhanded⟩ := h .nodes 1 .absent ⟨.inl rfl, .inl rfl⟩
  exact ⟨σ, hσ, hhanded.trans rfl⟩

end Gpsxdb
