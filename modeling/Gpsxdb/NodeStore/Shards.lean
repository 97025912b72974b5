import Mathlib.Tactic
import Gpsxdb.Library.Pieces
import Gpsxdb.Library.Runs
import Gpsxdb.NodeStore.Entries
import Gpsxdb.Regional.NodeFile

/-!
The shard files of the node phase and their merge (`OSMMMap.cpp`).

* `LZ4F`: the frame functions of the compression library, a parameter; `Decodes`,
  `Lossless`: what its documentation promises;
* `ShardWriter`, `ShardStore`: the open shard files, the files on disk and the mapped
  store; `openForImport`, `openForResume`: the two ways the constructor is called;
* `insert`, `flushInbuf`, `closeWriter`: the node phase;
* `decompressAll`, `readShard`: the loops of `merge` over one shard file; `MergeStep`,
  `mergeSteps`: what `merge` does to files and store, in order;
* `killed`: what is on disk once the process is killed.

`none` stands for a thrown exception, or for a loop out of fuel.  A stream that is
still open has an unknown part of its bytes on disk: what the process has not yet
handed over is lost with it.
-/

namespace Gpsxdb

/-! ### The frame functions -/

/-- The functions of the LZ4 frame library that the store calls, with the bytes they
return; `decompress` returns how much of the source it has consumed, its output and its
hint, `none` for an error code. -/
structure LZ4F where
  CCtx : Type
  DCtx : Type
  compressBegin : CCtx × List UInt8
  compressUpdate : CCtx → List UInt8 → CCtx × List UInt8
  compressEnd : CCtx → List UInt8
  resetDecompressionContext : DCtx
  decompress : DCtx → List UInt8 → ℕ → Option (DCtx × ℕ × List UInt8 × ℕ)

/-- The size of `outbuf` in `merge`. -/
def outbufSize : ℕ := 2 ^ 26

/-- The size of `inbuf` in `merge`. -/
def inbufSize : ℕ := 2 ^ 24

/-- `CHUNK_SIZE`. -/
def CHUNK_SIZE : ℕ := 2 ^ 22

namespace LZ4F

variable (lz : LZ4F)

/-- The stream after some chunks. -/
def compress (chunks : List (List UInt8)) : lz.CCtx × List UInt8 :=
  chunks.foldl (fun s chunk => ((lz.compressUpdate s.1 chunk).1,
    s.2 ++ (lz.compressUpdate s.1 chunk).2)) lz.compressBegin

/-- The frame of some chunks. -/
def frame (chunks : List (List UInt8)) : List UInt8 :=
  (lz.compress chunks).2 ++ lz.compressEnd (lz.compress chunks).1

/-- A decoder that is fed a file in any pieces puts out the content in order, in pieces
of its own: `At d k m` says that it has consumed `k` bytes and put out `m`.  Each call
gets on, everything is out once the file is consumed, and a hint of zero comes only
then. -/
structure Decodes (file content : List UInt8) (At : lz.DCtx → ℕ → ℕ → Prop) : Prop where
  nonempty : file ≠ []
  start : At lz.resetDecompressionContext 0 0
  step : ∀ d k m n, At d k m → 0 < n → k + n ≤ file.length → ∃ d' c p ret,
    lz.decompress d ((file.drop k).take n) outbufSize = some (d', c, (content.drop m).take p, ret)
      ∧ c ≤ n ∧ 0 < c + p ∧ m + p ≤ content.length
      ∧ (k + c = file.length → m + p = content.length)
      ∧ (ret = 0 → k + c = file.length) ∧ At d' (k + c) (m + p)

/-- **What the library promises**: a frame decodes to the bytes that were compressed. -/
def Lossless : Prop := ∀ chunks, ∃ At, lz.Decodes (lz.frame chunks) chunks.flatten At

end LZ4F

/-! ### Files and writers -/

/-- The shard files on disk: the compressed records and the bitmap sidecar of each
index. -/
structure ShardDir where
  lz4 : ℕ → Option (List UInt8)
  bmp : ℕ → Option (MappedFile UInt8)

/-- A directory without shard files. -/
def ShardDir.empty : ShardDir := ⟨fun _ => none, fun _ => none⟩

/-- `ShardWriter`: the stream of an open shard file, with the bytes written to it, the
compression context and the records not yet compressed. -/
structure ShardWriter (lz : LZ4F) where
  f : Option (List UInt8)
  lz4ctx : lz.CCtx
  inbuf : List UInt8

/-- The store of the import: the merged pair, the files of the shards and `shards_`. -/
structure ShardStore (lz : LZ4F) extends ShardDir where
  merged : OSMMMap
  shards : List (ShardWriter lz)

/-- `mmap` of a whole file: an empty one fails, and one the address space has no room
for. -/
def mmapOk (sz : ℕ) : Bool := 0 < sz && sz < 2 ^ 57

/-- `flushInbuf`; the periodic `fsync` is left out. -/
def ShardWriter.flushInbuf {lz : LZ4F} (w : ShardWriter lz) : ShardWriter lz :=
  if w.inbuf = [] then w
  else
    let (ctx, out) := lz.compressUpdate w.lz4ctx w.inbuf
    { f := w.f.map (· ++ out), lz4ctx := ctx, inbuf := [] }

/-- `growBitmap`. -/
def growBitmap (bm : MappedFile UInt8) (id : ℤ) : Option (MappedFile UInt8) :=
  let needed := toSize id / 8 + 1
  if needed ≤ bm.size then some bm else bm.ftruncate 1 (max needed (bm.size + bm.size / 4))

namespace ShardStore

variable {lz : LZ4F}

/-- `createFile` and the constructor with `open_shards_for_write`: the files of the shards
are created anew, and those that an earlier import left for further shards stay. -/
def openForImport (lz : LZ4F) (dir : ShardDir) (max_id : ℤ) (num_shards : ℕ) :
    Option (ShardStore lz) := do
  let d ← createFile max_id
  if mmapOk d.dat.size && mmapOk d.bmp.size then
    some
      { lz4 := fun i => if i < num_shards then some [] else dir.lz4 i
        bmp := fun i => if i < num_shards then some (.blank (2 ^ 20)) else dir.bmp i
        merged := ⟨d, max_id⟩
        shards := List.replicate num_shards ⟨some lz.compressBegin.2, lz.compressBegin.1, []⟩ }
  else none

/-- The constructor on files left by another process: `shards_` is sized by
`num_shards`, and no shard file is opened. -/
def openForResume (lz : LZ4F) (d : NodeFiles) (dir : ShardDir) (max_id : ℤ) (num_shards : ℕ) :
    Option (ShardStore lz) := do
  let merged ← OSMMMap.openFiles d max_id
  some
    { toShardDir := dir
      merged := merged
      shards := List.replicate num_shards ⟨none, lz.compressBegin.1, []⟩ }

/-- `insert`. -/
def insert (s : ShardStore lz) (shard : ℕ) (id : ℤ) (c : Coord) : Option (ShardStore lz) := do
  let w ← s.shards[shard]?
  let bm ← s.bmp shard
  let bm ← growBitmap bm id
  let w := { w with inbuf := w.inbuf ++ nodeRecordFormat.encode ⟨id, c⟩ }
  let w := if CHUNK_SIZE ≤ w.inbuf.length then w.flushInbuf else w
  some { s with
    shards := s.shards.set shard w
    bmp := Function.update s.bmp shard (some (bitmapSet bm id)) }

/-- `closeWriter`: the rest is compressed, the frame ended and the file closed. -/
def closeWriter (s : ShardStore lz) (i : ℕ) : ShardStore lz :=
  match s.shards[i]? with
  | none => s
  | some w =>
      match w.flushInbuf.f with
      | none => s
      | some bytes =>
          { s with
            lz4 := Function.update s.lz4 i (some (bytes ++ lz.compressEnd w.flushInbuf.lz4ctx))
            shards := s.shards.set i { w.flushInbuf with f := none } }

/-- `writeToMerged`: a negative id and one past the end of the merged file are
dropped. -/
def writeToMerged (s : OSMMMap) (id : ℤ) (c : Coord) : OSMMMap :=
  if id < 0 then s
  else if s.pastEnd (OSMMMap.recOffset id) then s
  else { s with
    dat := OSMMMap.writeCoord s.dat (OSMMMap.recOffset id) c
    bmp := bitmapSet s.bmp id }

/-! ### Reading a shard -/

/-- The loop over one read buffer: every piece the decoder puts out is cut into
records, the one begun before first, until the buffer is consumed or the frame ends. -/
def decompressAll (lz : LZ4F) : ℕ → lz.DCtx → List UInt8 → List UInt8 →
    Option (List NodeRecord × lz.DCtx × List UInt8)
  | _, dctx, [], carried => some ([], dctx, carried)
  | 0, _, _ :: _, _ => none
  | fuel + 1, dctx, b :: src, carried => do
      let (dctx, src_sz, out, ret) ← lz.decompress dctx (b :: src) outbufSize
      let (records, carried) := nodeRecordFormat.feed carried out
      if ret = 0 then some (records, dctx, carried)
      else
        let (more, dctx, carried) ← decompressAll lz fuel dctx ((b :: src).drop src_sz) carried
        some (records ++ more, dctx, carried)

/-- The loop over the read buffers of one file. -/
def readBuffers (lz : LZ4F) (fuel : ℕ) : ℕ → lz.DCtx → List UInt8 → List UInt8 →
    Option (List NodeRecord)
  | _, _, [], _ => some []
  | 0, _, _ :: _, _ => none
  | reads + 1, dctx, b :: file, carried => do
      let (records, dctx, carried) ←
        decompressAll lz fuel dctx ((b :: file).take inbufSize) carried
      let more ← readBuffers lz fuel reads dctx ((b :: file).drop inbufSize) carried
      some (records ++ more)

/-- The records `merge` finds in a shard file. -/
def readShard (lz : LZ4F) (fuel : ℕ) (file : List UInt8) : Option (List NodeRecord) :=
  readBuffers lz fuel file.length lz.resetDecompressionContext file []

/-! ### Merging -/

/-- What `merge` does to the files and to the merged store. -/
inductive MergeStep where
  | closeWriter (i : ℕ)
  | write (r : NodeRecord)
  | unlink (i : ℕ)
  | unlinkBmp (i : ℕ)

/-- One of them. -/
def exec (s : ShardStore lz) : MergeStep → ShardStore lz
  | .closeWriter i => s.closeWriter i
  | .write r => { s with merged := writeToMerged s.merged r.id r.coord }
  | .unlink i => { s with lz4 := Function.update s.lz4 i none }
  | .unlinkBmp i => { s with bmp := Function.update s.bmp i none }

/-- All of them, in order. -/
def execAll (s : ShardStore lz) (steps : List MergeStep) : ShardStore lz := steps.foldl exec s

/-- What is done to one shard once its writer is closed; a file that is not there is
passed over. -/
def shardSteps (lz : LZ4F) (fuel i : ℕ) : Option (List UInt8) → Option (List MergeStep)
  | none => some []
  | some file => (readShard lz fuel file).map fun records =>
      records.map .write ++ [.unlink i, .unlinkBmp i]

/-- The loop of `merge` over some shards. -/
def mergeFrom (fuel : ℕ) : List ℕ → ShardStore lz → Option (List MergeStep)
  | [], _ => some []
  | i :: is, s => do
      let s := s.exec (.closeWriter i)
      let steps ← shardSteps lz fuel i (s.lz4 i)
      let rest ← mergeFrom fuel is (s.execAll steps)
      some (.closeWriter i :: (steps ++ rest))

/-- The steps of `merge`. -/
def mergeSteps (fuel : ℕ) (s : ShardStore lz) : Option (List MergeStep) :=
  mergeFrom fuel (List.range s.shards.length) s

/-- `merge`. -/
def merge (fuel : ℕ) (s : ShardStore lz) : Option (ShardStore lz) :=
  (s.mergeSteps fuel).map s.execAll

/-- The shard files once the process is killed: of an open stream the first
`reached i` bytes. -/
def killed (s : ShardStore lz) (reached : ℕ → ℕ) : ShardDir where
  lz4 i := match s.shards[i]? with
    | some ⟨some bytes, _, _⟩ => some (bytes.take (reached i))
    | _ => s.lz4 i
  bmp := s.bmp

/-! ### The node phase -/

/-- What the node threads do, in any order: insertions, and flushes at any time. -/
inductive ShardOp where
  | insert (shard : ℕ) (id : ℤ) (c : Coord)
  | flushInbuf (shard : ℕ)

/-- One operation. -/
def step (s : ShardStore lz) : ShardOp → Option (ShardStore lz)
  | .insert shard id c => s.insert shard id c
  | .flushInbuf shard =>
      s.shards[shard]?.map fun w => { s with shards := s.shards.set shard w.flushInbuf }

/-- A run of the node phase. -/
def run (s : ShardStore lz) (ops : List ShardOp) : Option (ShardStore lz) := ops.foldlM step s

end ShardStore

end Gpsxdb
