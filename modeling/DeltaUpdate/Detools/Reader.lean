import DeltaUpdate.Heatshrink.Poll

/-!
Owns the patch reader of `detools.c`: the error codes, the chunk, the header
size, decompression through the heatshrink decoder, and the signed sizes of the
compressed stream, with the potential that bounds what a reader can still output.

A chunk keeps its offset within its size, so the unsigned difference of the
source never wraps. A buffer is a function of the index, as a pointer is.
-/

namespace DeltaUpdate.Detools

open DeltaUpdate.Heatshrink

/-- The `DETOOLS_*` error codes. -/
inductive DetoolsError where
  | notImplemented
  | notDone
  | badPatchType
  | badCompression
  | internalError
  | outOfMemory
  | corruptPatch
  | ioFailed
  | alreadyDone
  | shortHeader
  | notEnoughPatchData
  | heatshrinkSink
  | heatshrinkPoll
  | stepSetFailed
  | stepGetFailed
  | alreadyFailed
  | corruptPatchOverflow
  | heatshrinkHeader
deriving DecidableEq, Repr

/-- The value of an error code. -/
def DetoolsError.code : DetoolsError → Int
  | .notImplemented => 1
  | .notDone => 2
  | .badPatchType => 3
  | .badCompression => 4
  | .internalError => 5
  | .outOfMemory => 8
  | .corruptPatch => 9
  | .ioFailed => 10
  | .alreadyDone => 11
  | .shortHeader => 18
  | .notEnoughPatchData => 19
  | .heatshrinkSink => 20
  | .heatshrinkPoll => 21
  | .stepSetFailed => 22
  | .stepGetFailed => 23
  | .alreadyFailed => 24
  | .corruptPatchOverflow => 25
  | .heatshrinkHeader => 27

/-- The result of a function that fails with an error code. -/
def DetoolsError.result (error : DetoolsError) : Int := -error.code

theorem DetoolsError.result_neg (error : DetoolsError) : error.result < 0 := by
  cases error <;> decide

/-- An error other than the one that stands for the end of the patch. -/
def Rejected (res : Int) : Prop := res < 0 ∧ res ≠ DetoolsError.alreadyDone.result

theorem DetoolsError.rejected {error : DetoolsError} (other : error ≠ .alreadyDone) :
    Rejected error.result := by
  refine ⟨error.result_neg, fun same => ?_⟩
  cases error <;> simp [DetoolsError.result, DetoolsError.code] at same other

/-! ### Chunks -/

/-- `detools_apply_patch_chunk_t`. -/
structure Chunk where
  buf : Nat → UInt8
  size : Nat
  offset : Nat
  offsetWithin : offset ≤ size

/-- `chunk_left`. -/
def chunkLeft (chunk : Chunk) : Nat := chunk.size - chunk.offset

/-- `chunk_available`. -/
def chunkAvailable (chunk : Chunk) : Bool := decide (chunkLeft chunk > 0)

/-- `chunk_get_no_check`. -/
def chunkGetNoCheck (chunk : Chunk) (available : chunkAvailable chunk) : UInt8 × Chunk :=
  (chunk.buf chunk.offset,
    { chunk with
      offset := chunk.offset + 1
      offsetWithin := by
        have positive : chunkLeft chunk > 0 := of_decide_eq_true available
        unfold chunkLeft at positive
        omega })

/-- `chunk_get`; `none` is the result 1. -/
def chunkGet (chunk : Chunk) : Option (UInt8 × Chunk) :=
  if available : chunkAvailable chunk then some (chunkGetNoCheck chunk available) else none

/-- The bytes of a chunk that have not been read. -/
def Chunk.bytes (chunk : Chunk) : List UInt8 :=
  (List.range (chunkLeft chunk)).map fun index => chunk.buf (chunk.offset + index)

@[simp] theorem Chunk.bytes_length (chunk : Chunk) : chunk.bytes.length = chunkLeft chunk := by
  simp [Chunk.bytes]

theorem chunkAvailable_iff (chunk : Chunk) : chunkAvailable chunk = true ↔ 0 < chunkLeft chunk := by
  simp [chunkAvailable]

theorem chunkGet_left {chunk next : Chunk} {byte : UInt8}
    (read : chunkGet chunk = some (byte, next)) : chunkLeft next + 1 = chunkLeft chunk := by
  unfold chunkGet at read
  split at read
  next available =>
    have positive := (chunkAvailable_iff chunk).mp available
    simp only [chunkGetNoCheck, Option.some.injEq, Prod.mk.injEq] at read
    obtain ⟨-, rfl⟩ := read
    simp only [chunkLeft] at positive ⊢
    omega
  next => simp at read

theorem chunkGet_none {chunk : Chunk} (read : chunkGet chunk = none) : chunkLeft chunk = 0 := by
  unfold chunkGet at read
  split at read
  next => simp at read
  next unavailable =>
    rw [chunkAvailable_iff] at unavailable
    omega

/-- A read takes the first unread byte. -/
theorem chunkGet_bytes {chunk next : Chunk} {byte : UInt8}
    (read : chunkGet chunk = some (byte, next)) : chunk.bytes = byte :: next.bytes := by
  have left := chunkGet_left read
  unfold chunkGet at read
  split at read
  next available =>
    simp only [chunkGetNoCheck, Option.some.injEq, Prod.mk.injEq] at read
    obtain ⟨rfl, rfl⟩ := read
    simp only [Chunk.bytes, ← left, List.range_succ_eq_map, List.map_cons, List.map_map,
      Nat.add_zero, List.cons.injEq, true_and]
    apply List.map_congr_left
    intro index _
    simp only [Function.comp_apply, Nat.succ_eq_add_one]
    rw [Nat.add_right_comm, Nat.add_assoc]
  next => simp at read

theorem chunk_bytes_nil {chunk : Chunk} (empty : chunkLeft chunk = 0) : chunk.bytes = [] := by
  simp [Chunk.bytes, empty]

/-- `is_overflow`. -/
def isOverflow (value : Nat) : Bool := decide (value + 7 > 8 * 4)

/-- The loop of `chunk_unpack_header_size` after a byte has been read. -/
def unpackHeaderLoop (byte : UInt8) (size offset : Nat) (chunk : Chunk) : Int × Nat × Chunk :=
  if byte &&& 0x80 ≠ 0 then
    match read : chunkGet chunk with
    | none => (DetoolsError.shortHeader.result, size, chunk)
    | some (next, rest) =>
        have := chunkGet_left read
        if isOverflow offset then (DetoolsError.corruptPatchOverflow.result, size, rest)
        else
          unpackHeaderLoop next (size ||| (next &&& 0x7f).toNat <<< offset) (offset + 7) rest
  else (0, size, chunk)
termination_by chunkLeft chunk

/-- `chunk_unpack_header_size`: the result, the size and the chunk. -/
def chunkUnpackHeaderSize (chunk : Chunk) : Int × Nat × Chunk :=
  match chunkGet chunk with
  | none => (DetoolsError.shortHeader.result, 0, chunk)
  | some (byte, rest) => unpackHeaderLoop byte (byte &&& 0x3f).toNat 6 rest

/-! ### The heatshrink reader -/

/-- `detools_unpack_usize_state_t`. -/
inductive UnpackState where
  | first
  | consecutive
deriving DecidableEq, Repr

/-- `detools_apply_patch_patch_reader_t`. The pointer to the chunk is an argument
of the functions, and `destroySet` tells whether `destroy` is non-null. -/
structure PatchReader where
  sizeState : UnpackState
  sizeValue : Nat
  sizeOffset : Nat
  isSigned : Bool
  windowSz2 : Int
  lookaheadSz2 : Int
  decoder : HeatshrinkDecoder
  destroySet : Bool

/-- `unpack_heatshrink_header`: the window and the lookahead size. -/
def unpackHeatshrinkHeader (byte : UInt8) : Int × Int :=
  (((byte >>> 4 &&& 0xf).toNat : Int) + 4, ((byte &&& 0xf).toNat : Int) + 3)

/-- The outcome of a decompression: the result, the bytes stored in the buffer, and
the reader and the chunk after it. -/
structure Decompressed where
  res : Int
  data : List UInt8
  reader : PatchReader
  chunk : Chunk

/-- The loop of `patch_reader_heatshrink_decompress`, with `left` bytes of the buffer
free behind `data`. -/
def decompressLoop (reader : PatchReader) (chunk : Chunk) (size left : Nat)
    (data : List UInt8) : Decompressed :=
  let polled := heatshrinkDecoderPoll reader.decoder left
  let stored := data ++ polled.2.1
  let room := left - polled.2.1.length
  if polled.1.isNegative then
    ⟨DetoolsError.heatshrinkPoll.result, data, { reader with decoder := polled.2.2 }, chunk⟩
  else if room = 0 then ⟨0, stored, { reader with decoder := polled.2.2 }, chunk⟩
  else
    match read : chunkGet chunk with
    | some (byte, rest) =>
        have := chunkGet_left read
        let sunk := heatshrinkDecoderSink polled.2.2 [byte]
        if sunk.1.isNegative ∨ sunk.2.1 ≠ 1 then
          ⟨DetoolsError.heatshrinkSink.result, stored, { reader with decoder := sunk.2.2 }, rest⟩
        else decompressLoop { reader with decoder := sunk.2.2 } rest size room stored
    | none =>
        if room ≠ size then ⟨0, stored, { reader with decoder := polled.2.2 }, chunk⟩
        else ⟨1, stored, { reader with decoder := polled.2.2 }, chunk⟩
termination_by chunkLeft chunk

/-- `patch_reader_heatshrink_decompress`. -/
def patchReaderHeatshrinkDecompress (reader : PatchReader) (chunk : Chunk) (size : Nat) :
    Decompressed :=
  if reader.windowSz2 = -1 then
    match chunkGet chunk with
    | none => ⟨1, [], reader, chunk⟩
    | some (byte, rest) =>
        let header := unpackHeatshrinkHeader byte
        let opened := { reader with windowSz2 := header.1, lookaheadSz2 := header.2 }
        if header.1 ≠ windowBits ∨ header.2 ≠ lookaheadBits then
          ⟨DetoolsError.heatshrinkHeader.result, [], opened, rest⟩
        else decompressLoop opened rest size size []
  else decompressLoop reader chunk size size []

/-- `patch_reader_heatshrink_destroy`. -/
def patchReaderHeatshrinkDestroy (reader : PatchReader) : Int :=
  if heatshrinkDecoderFinish reader.decoder = .done then 0
  else DetoolsError.corruptPatch.result

/-- `patch_reader_heatshrink_init`. -/
def patchReaderHeatshrinkInit (reader : PatchReader) : PatchReader :=
  { reader with
    windowSz2 := -1
    lookaheadSz2 := -1
    decoder := heatshrinkDecoderReset
    destroySet := true }

/-- `patch_reader_init`. The patch size and the compression are arguments of the
source that it does not read; it always returns 0. -/
def patchReaderInit (reader : PatchReader) : PatchReader :=
  patchReaderHeatshrinkInit { reader with sizeState := .first }

/-- `patch_reader_decompress`; `decompress` is only ever set to the heatshrink reader. -/
def patchReaderDecompress (reader : PatchReader) (chunk : Chunk) (size : Nat) : Decompressed :=
  patchReaderHeatshrinkDecompress reader chunk size

/-! ### Sizes -/

/-- The outcome of unpacking a size. -/
structure Unpacked where
  res : Int
  size : Int
  reader : PatchReader
  chunk : Chunk

/-- The end of `patch_reader_unpack_size`: the sign is fixed and the state reset.
The stored value keeps its magnitude; the next size overwrites it unread. -/
def finishSize (reader : PatchReader) (chunk : Chunk) : Unpacked :=
  ⟨0, if reader.isSigned then -(reader.sizeValue : Int) else reader.sizeValue,
    { reader with sizeState := .first }, chunk⟩

/-- The rank of the size decoder: the bytes it may still take, scaled. -/
def sizeRank (reader : PatchReader) : Nat :=
  match reader.sizeState with
  | .first => 27
  | .consecutive => 26 - reader.sizeOffset

/-- `patch_reader_unpack_size`. -/
def patchReaderUnpackSize (reader : PatchReader) (chunk : Chunk) : Unpacked :=
  let read := patchReaderDecompress reader chunk 1
  if read.res ≠ 0 then ⟨read.res, 0, read.reader, read.chunk⟩
  else
    let byte := read.data.headD 0
    match state : reader.sizeState with
    | .first =>
        let next := { read.reader with
          isSigned := decide (byte &&& 0x40 = 0x40)
          sizeValue := (byte &&& 0x3f).toNat
          sizeOffset := 6
          sizeState := .consecutive }
        have : sizeRank next < sizeRank reader := by simp [sizeRank, next, state]
        if byte &&& 0x80 ≠ 0 then patchReaderUnpackSize next read.chunk
        else finishSize next read.chunk
    | .consecutive =>
        if overflow : isOverflow reader.sizeOffset then
          ⟨DetoolsError.corruptPatchOverflow.result, 0, read.reader, read.chunk⟩
        else
          let next := { read.reader with
            isSigned := reader.isSigned
            sizeValue := reader.sizeValue ||| (byte &&& 0x7f).toNat <<< reader.sizeOffset
            sizeOffset := reader.sizeOffset + 7
            sizeState := .consecutive }
          have : sizeRank next < sizeRank reader := by
            simp only [isOverflow, decide_eq_true_eq] at overflow
            simp only [sizeRank, next, state]
            omega
          if byte &&& 0x80 ≠ 0 then patchReaderUnpackSize next read.chunk
          else finishSize next read.chunk
termination_by sizeRank reader

/-! ### What reading leaves alone -/

/-- The state of the size decoder is the same, and so is whether the reader is set up. -/
structure SameSizes (before after : PatchReader) : Prop where
  sizeState : after.sizeState = before.sizeState
  sizeValue : after.sizeValue = before.sizeValue
  sizeOffset : after.sizeOffset = before.sizeOffset
  isSigned : after.isSigned = before.isSigned
  destroySet : after.destroySet = before.destroySet

theorem decompressLoop_sizes (reader : PatchReader) (chunk : Chunk) (size left : Nat)
    (data : List UInt8) :
    SameSizes reader (decompressLoop reader chunk size left data).reader := by
  fun_induction decompressLoop reader chunk size left data
  case case4 inductionHypothesis =>
    exact ⟨inductionHypothesis.sizeState, inductionHypothesis.sizeValue,
      inductionHypothesis.sizeOffset, inductionHypothesis.isSigned,
      inductionHypothesis.destroySet⟩
  all_goals exact ⟨rfl, rfl, rfl, rfl, rfl⟩

/-- A decompression leaves the size decoder as it is. -/
theorem patchReaderDecompress_sizes (reader : PatchReader) (chunk : Chunk) (size : Nat) :
    SameSizes reader (patchReaderDecompress reader chunk size).reader := by
  unfold patchReaderDecompress patchReaderHeatshrinkDecompress
  split
  next =>
    cases chunkGet chunk with
    | none => exact ⟨rfl, rfl, rfl, rfl, rfl⟩
    | some taken =>
        simp only
        split
        next => exact ⟨rfl, rfl, rfl, rfl, rfl⟩
        next =>
          have same := decompressLoop_sizes { reader with
            windowSz2 := (unpackHeatshrinkHeader taken.1).1
            lookaheadSz2 := (unpackHeatshrinkHeader taken.1).2 } taken.2 size size []
          exact ⟨same.sizeState, same.sizeValue, same.sizeOffset, same.isSigned,
            same.destroySet⟩
  next => exact decompressLoop_sizes reader chunk size size []

theorem patchReaderUnpackSize_destroySet (reader : PatchReader) (chunk : Chunk) :
    (patchReaderUnpackSize reader chunk).reader.destroySet = reader.destroySet := by
  have kept (reader : PatchReader) (chunk : Chunk) :
      (patchReaderDecompress reader chunk 1).reader.destroySet = reader.destroySet :=
    (patchReaderDecompress_sizes reader chunk 1).destroySet
  fun_induction patchReaderUnpackSize reader chunk
  case case1 => exact kept _ _
  case case2 inductionHypothesis => exact inductionHypothesis.trans (kept _ _)
  case case3 => exact kept _ _
  case case4 => exact kept _ _
  case case5 inductionHypothesis => exact inductionHypothesis.trans (kept _ _)
  case case6 => exact kept _ _

/-! ### The chunk is only read on -/

theorem decompressLoop_chunkLeft (reader : PatchReader) (chunk : Chunk) (size left : Nat)
    (data : List UInt8) :
    chunkLeft (decompressLoop reader chunk size left data).chunk ≤ chunkLeft chunk := by
  fun_induction decompressLoop reader chunk size left data
  case case4 inductionHypothesis => omega
  all_goals simp only
  all_goals omega

theorem patchReaderDecompress_chunkLeft (reader : PatchReader) (chunk : Chunk) (size : Nat) :
    chunkLeft (patchReaderDecompress reader chunk size).chunk ≤ chunkLeft chunk := by
  unfold patchReaderDecompress patchReaderHeatshrinkDecompress
  split
  next =>
    cases read : chunkGet chunk with
    | none => exact le_refl _
    | some taken =>
        have left := chunkGet_left read
        simp only
        split
        next =>
          simp only
          omega
        next =>
          have rest := decompressLoop_chunkLeft { reader with
            windowSz2 := (unpackHeatshrinkHeader taken.1).1
            lookaheadSz2 := (unpackHeatshrinkHeader taken.1).2 } taken.2 size size []
          omega
  next => exact decompressLoop_chunkLeft reader chunk size size []

theorem patchReaderUnpackSize_chunkLeft (reader : PatchReader) (chunk : Chunk) :
    chunkLeft (patchReaderUnpackSize reader chunk).chunk ≤ chunkLeft chunk := by
  have first := patchReaderDecompress_chunkLeft
  fun_induction patchReaderUnpackSize reader chunk
  case case1 => exact first _ _ _
  case case2 inductionHypothesis => exact inductionHypothesis.trans (first _ _ _)
  case case3 => exact first _ _ _
  case case4 => exact first _ _ _
  case case5 inductionHypothesis => exact inductionHypothesis.trans (first _ _ _)
  case case6 => exact first _ _ _

end DeltaUpdate.Detools
