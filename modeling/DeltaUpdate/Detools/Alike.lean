import DeltaUpdate.Detools.Bounds
import DeltaUpdate.Detools.Termination

/-!
Owns what the engine reads of its own state and of the chunk. Two engines that agree on
that are alike, whatever the rest of their memory holds, and so are their readers and
chunks behind every function that calls nothing back.
-/

namespace DeltaUpdate.Detools

open DeltaUpdate.Heatshrink
open DeltaUpdate.Library

/-! ### Chunks -/

/-- Two chunks with the same bytes left to read. -/
def Chunk.Alike (left right : Chunk) : Prop := left.bytes = right.bytes

theorem Chunk.Alike.refl (chunk : Chunk) : chunk.Alike chunk := rfl

theorem Chunk.Alike.chunkLeft {left right : Chunk} (alike : left.Alike right) :
    chunkLeft right = chunkLeft left := by
  rw [← Chunk.bytes_length, ← Chunk.bytes_length, alike]

theorem Chunk.Alike.available {left right : Chunk} (alike : left.Alike right) :
    chunkAvailable right = chunkAvailable left := by
  simp only [chunkAvailable, alike.chunkLeft]

/-- Reading a byte from two chunks. -/
inductive GetAlike : Option (UInt8 × Chunk) → Option (UInt8 × Chunk) → Prop
  | none : GetAlike none none
  | some (byte : UInt8) {left right : Chunk} (rest : left.Alike right) :
      GetAlike (some (byte, left)) (some (byte, right))

theorem Chunk.Alike.get {left right : Chunk} (alike : left.Alike right) :
    GetAlike (chunkGet left) (chunkGet right) := by
  have length := alike.chunkLeft
  cases leftRead : chunkGet left with
  | none =>
      have leftEmpty := chunkGet_none leftRead
      cases rightRead : chunkGet right with
      | none => exact .none
      | some taken =>
          have drops := chunkGet_left rightRead
          omega
  | some leftTaken =>
      have leftDrops := chunkGet_left leftRead
      cases rightRead : chunkGet right with
      | none =>
          have rightEmpty := chunkGet_none rightRead
          omega
      | some rightTaken =>
          have same : leftTaken.1 :: leftTaken.2.bytes = rightTaken.1 :: rightTaken.2.bytes :=
            (chunkGet_bytes leftRead).symm.trans (alike.trans (chunkGet_bytes rightRead))
          obtain ⟨byte, leftRest⟩ := leftTaken
          obtain ⟨other, rightRest⟩ := rightTaken
          obtain ⟨rfl, rest⟩ := List.cons.inj same
          exact .some byte rest

/-- A chunk that is loaded is read up to its size. -/
theorem loadChunk_alike {left right : Nat → UInt8} {size : Nat}
    (bytes : ∀ index < size, right index = left index) (self other : ApplyPatch) :
    (loadChunk self left size).chunk.Alike (loadChunk other right size).chunk := by
  refine List.map_congr_left fun index among => ?_
  have below : index < size := by
    simpa [loadChunk, chunkLeft] using among
  simp only [loadChunk, Nat.zero_add]
  exact (bytes index below).symm

/-- The outcome of reading the header size from two chunks. -/
structure HeaderAlike (left right : Int × Nat × Chunk) : Prop where
  res : right.1 = left.1
  size : right.2.1 = left.2.1
  chunk : left.2.2.Alike right.2.2

/-- The variables of two loops of `chunk_unpack_header_size`. -/
structure UnpackingHeader.Alike (left right : UnpackingHeader) : Prop where
  byte : right.byte = left.byte
  size : right.size = left.size
  offset : right.offset = left.offset
  chunk : left.chunk.Alike right.chunk

theorem headerIteration_alike (left right : UnpackingHeader) (alike : left.Alike right) :
    Sum.LiftRel UnpackingHeader.Alike HeaderAlike (headerIteration left)
      (headerIteration right) := by
  obtain ⟨byte, size, offset, chunk⟩ := left
  obtain ⟨rightByte, rightSize, rightOffset, rightChunk⟩ := right
  obtain ⟨rfl, rfl, rfl, chunks⟩ := alike
  simp only [headerIteration]
  split
  next =>
    have read := chunks.get
    generalize chunkGet chunk = leftRead at read ⊢
    generalize chunkGet rightChunk = rightRead at read ⊢
    cases read with
    | none => exact .inr ⟨rfl, rfl, chunks⟩
    | some next rest =>
        simp only
        split
        next => exact .inr ⟨rfl, rfl, rest⟩
        next => exact .inl ⟨rfl, rfl, rfl, rest⟩
  next => exact .inr ⟨rfl, rfl, chunks⟩

theorem chunkUnpackHeaderSize_alike {left right : Chunk} (alike : left.Alike right) :
    HeaderAlike (chunkUnpackHeaderSize left) (chunkUnpackHeaderSize right) := by
  have read := alike.get
  unfold chunkUnpackHeaderSize
  generalize chunkGet left = leftRead at read ⊢
  generalize chunkGet right = rightRead at read ⊢
  cases read with
  | none => exact ⟨rfl, rfl, alike⟩
  | @some byte leftRest rightRest rest =>
      have related : UnpackingHeader.Alike ⟨byte, (byte &&& 0x3f).toNat, 6, leftRest⟩
          ⟨byte, (byte &&& 0x3f).toNat, 6, rightRest⟩ := ⟨rfl, rfl, rfl, rest⟩
      exact unpackHeaderLoop_computes.related unpackHeaderLoop_computes headerIteration_alike
        related

/-! ### Readers -/

/-- Two readers that read the same from the same bytes. What the size decoder holds is
only looked at in the middle of a size. -/
structure PatchReader.Alike (left right : PatchReader) : Prop where
  sizeState : right.sizeState = left.sizeState
  size : left.sizeState = .consecutive → right.sizeValue = left.sizeValue ∧
    right.sizeOffset = left.sizeOffset ∧ right.isSigned = left.isSigned
  windowSz2 : right.windowSz2 = left.windowSz2
  decoder : right.decoder = left.decoder

/-- The outcome of decompressing with two readers. -/
structure Decompressed.Alike (left right : Decompressed) : Prop where
  res : right.res = left.res
  data : right.data = left.data
  windowSz2 : right.reader.windowSz2 = left.reader.windowSz2
  decoder : right.reader.decoder = left.reader.decoder
  chunk : left.chunk.Alike right.chunk

/-- The variables of two loops of `patch_reader_heatshrink_decompress`. -/
structure Decompressing.Alike (left right : Decompressing) : Prop where
  windowSz2 : right.reader.windowSz2 = left.reader.windowSz2
  decoder : right.reader.decoder = left.reader.decoder
  chunk : left.chunk.Alike right.chunk
  room : right.left = left.left
  data : right.data = left.data

theorem decompressIteration_alike (size : Nat) (left right : Decompressing)
    (alike : left.Alike right) :
    Sum.LiftRel Decompressing.Alike Decompressed.Alike (decompressIteration size left)
      (decompressIteration size right) := by
  obtain ⟨windowSz2, decoder, chunk, room, data⟩ := alike
  simp only [decompressIteration, decoder, room, data]
  split
  next => exact .inr ⟨rfl, rfl, windowSz2, rfl, chunk⟩
  next =>
    split
    next => exact .inr ⟨rfl, rfl, windowSz2, rfl, chunk⟩
    next =>
      have read := chunk.get
      generalize chunkGet left.chunk = leftRead at read ⊢
      generalize chunkGet right.chunk = rightRead at read ⊢
      cases read with
      | none =>
          simp only
          split
          next => exact .inr ⟨rfl, rfl, windowSz2, rfl, chunk⟩
          next => exact .inr ⟨rfl, rfl, windowSz2, rfl, chunk⟩
      | some byte rest =>
          simp only
          split
          next => exact .inr ⟨rfl, rfl, windowSz2, rfl, rest⟩
          next => exact .inl ⟨windowSz2, rfl, rest, rfl, rfl⟩

theorem decompressLoop_alike (size : Nat) {left right : PatchReader} {chunk other : Chunk}
    (windowSz2 : right.windowSz2 = left.windowSz2) (decoder : right.decoder = left.decoder)
    (chunks : chunk.Alike other) :
    Decompressed.Alike (decompressLoop left chunk size size [])
      (decompressLoop right other size size []) := by
  have related : Decompressing.Alike ⟨left, chunk, size, []⟩ ⟨right, other, size, []⟩ :=
    ⟨windowSz2, decoder, chunks, rfl, rfl⟩
  exact (decompressLoop_computes size).related (decompressLoop_computes size)
    (decompressIteration_alike size) related

theorem patchReaderDecompress_alike (size : Nat) {left right : PatchReader} {chunk other : Chunk}
    (readers : left.Alike right) (chunks : chunk.Alike other) :
    Decompressed.Alike (patchReaderDecompress left chunk size)
      (patchReaderDecompress right other size) := by
  unfold patchReaderDecompress patchReaderHeatshrinkDecompress
  rw [readers.windowSz2]
  split
  next fresh =>
    have read := chunks.get
    generalize chunkGet chunk = leftRead at read ⊢
    generalize chunkGet other = rightRead at read ⊢
    cases read with
    | none => exact ⟨rfl, rfl, readers.windowSz2, readers.decoder, chunks⟩
    | some byte rest =>
        simp only
        split
        next => exact ⟨rfl, rfl, rfl, readers.decoder, rest⟩
        next => exact decompressLoop_alike size rfl readers.decoder rest
  next => exact decompressLoop_alike size readers.windowSz2 readers.decoder chunks

/-- The reader behind a decompression holds the same of a size as the reader before. -/
theorem PatchReader.Alike.decompressed (size : Nat) {left right : PatchReader}
    {chunk other : Chunk} (readers : left.Alike right) (chunks : chunk.Alike other) :
    (patchReaderDecompress left chunk size).reader.Alike
      (patchReaderDecompress right other size).reader := by
  have outcome := patchReaderDecompress_alike size readers chunks
  have leftSizes := patchReaderDecompress_sizes left chunk size
  have rightSizes := patchReaderDecompress_sizes right other size
  refine ⟨?_, fun middle => ?_, outcome.windowSz2, outcome.decoder⟩
  · rw [leftSizes.sizeState, rightSizes.sizeState, readers.sizeState]
  · rw [leftSizes.sizeState] at middle
    obtain ⟨value, offset, sign⟩ := readers.size middle
    rw [leftSizes.sizeValue, leftSizes.sizeOffset, leftSizes.isSigned, rightSizes.sizeValue,
      rightSizes.sizeOffset, rightSizes.isSigned]
    exact ⟨value, offset, sign⟩

/-! ### Sizes -/

/-- The outcome of unpacking a size with two readers. -/
structure Unpacked.Alike (left right : Unpacked) : Prop where
  res : right.res = left.res
  size : right.size = left.size
  reader : left.reader.Alike right.reader
  chunk : left.chunk.Alike right.chunk

/-- The variables of two loops of `patch_reader_unpack_size`. -/
structure UnpackingAlike (left right : PatchReader × Chunk) : Prop where
  reader : left.1.Alike right.1
  chunk : left.2.Alike right.2

theorem finishSize_alike {left right : PatchReader} {chunk other : Chunk}
    (readers : left.Alike right) (middle : left.sizeState = .consecutive)
    (chunks : chunk.Alike other) :
    (finishSize left chunk).Alike (finishSize right other) := by
  obtain ⟨value, offset, sign⟩ := readers.size middle
  refine ⟨rfl, ?_, ⟨rfl, fun other => ?_, readers.windowSz2, readers.decoder⟩, chunks⟩
  · simp only [finishSize, value, sign]
  · simp [finishSize] at other

theorem unpackIteration_alike (left right : PatchReader × Chunk)
    (alike : UnpackingAlike left right) :
    Sum.LiftRel UnpackingAlike Unpacked.Alike (unpackIteration left) (unpackIteration right) := by
  obtain ⟨readers, chunks⟩ := alike
  have read := patchReaderDecompress_alike 1 readers chunks
  have after := readers.decompressed 1 chunks
  have grown (value offset : Nat) (sign : Bool) :
      PatchReader.Alike
        { (patchReaderDecompress left.1 left.2 1).reader with
          isSigned := sign, sizeValue := value, sizeOffset := offset, sizeState := .consecutive }
        { (patchReaderDecompress right.1 right.2 1).reader with
          isSigned := sign, sizeValue := value, sizeOffset := offset,
          sizeState := .consecutive } :=
    ⟨rfl, fun _ => ⟨rfl, rfl, rfl⟩, read.windowSz2, read.decoder⟩
  simp only [unpackIteration, read.res, read.data, readers.sizeState]
  split
  next => exact .inr ⟨rfl, rfl, after, read.chunk⟩
  next =>
    split
    next =>
      split
      next => exact .inl ⟨grown _ _ _, read.chunk⟩
      next => exact .inr (finishSize_alike (grown _ _ _) rfl read.chunk)
    next middle =>
      obtain ⟨value, offset, sign⟩ := readers.size middle
      simp only [value, offset, sign]
      split
      next => exact .inr ⟨rfl, rfl, after, read.chunk⟩
      next =>
        split
        next => exact .inl ⟨grown _ _ _, read.chunk⟩
        next => exact .inr (finishSize_alike (grown _ _ _) rfl read.chunk)

theorem patchReaderUnpackSize_alike {left right : PatchReader} {chunk other : Chunk}
    (readers : left.Alike right) (chunks : chunk.Alike other) :
    (patchReaderUnpackSize left chunk).Alike (patchReaderUnpackSize right other) := by
  have related : UnpackingAlike (left, chunk) (right, other) := ⟨readers, chunks⟩
  exact patchReaderUnpackSize_computes.related patchReaderUnpackSize_computes
    unpackIteration_alike related

/-! ### Engines -/

/-- The header has been read and the engine has not failed. -/
def ApplyPatchState.InPatch (state : ApplyPatchState) : Prop := state ≠ .init ∧ state ≠ .failed

/-- What two engines that have read the header agree on. -/
structure SamePatch (left right : ApplyPatch) : Prop where
  reader : left.patchReader.Alike right.patchReader
  destroySet : right.patchReader.destroySet = left.patchReader.destroySet
  toOffset : right.toOffset = left.toOffset
  toSize : right.toSize = left.toSize
  chunkSize : left.state = .diffData ∨ left.state = .extraData →
    right.chunkSize = left.chunkSize

/-- Two engines that take the same steps. Before the header is read and after a failure
the engine looks at nothing but its state and the chunk. -/
structure ApplyPatch.Alike (left right : ApplyPatch) : Prop where
  state : right.state = left.state
  fromOffset : right.fromOffset = left.fromOffset
  chunk : left.chunk.Alike right.chunk
  patch : left.state.InPatch → SamePatch left right

theorem ApplyPatch.Alike.refl (self : ApplyPatch) : self.Alike self :=
  ⟨rfl, rfl, Chunk.Alike.refl _, fun _ =>
    ⟨⟨rfl, fun _ => ⟨rfl, rfl, rfl⟩, rfl, rfl⟩, rfl, rfl, rfl, fun _ => rfl⟩⟩

/-- Between two chunks it does not matter what is left of the last one. -/
theorem ApplyPatch.Alike.clear {left right : ApplyPatch} (alike : left.Alike right) :
    (clearChunk left).Alike (clearChunk right) :=
  ⟨alike.state, alike.fromOffset, rfl, fun patch =>
    have same := alike.patch patch
    ⟨same.reader, same.destroySet, same.toOffset, same.toSize, same.chunkSize⟩⟩

/-- A chunk that is loaded replaces the one before. -/
theorem ApplyPatch.Alike.load {left right : ApplyPatch}
    (alike : (clearChunk left).Alike (clearChunk right)) {buf other : Nat → UInt8} {size : Nat}
    (bytes : ∀ index < size, other index = buf index) :
    (loadChunk left buf size).Alike (loadChunk right other size) :=
  ⟨alike.state, alike.fromOffset, loadChunk_alike bytes left right, fun patch =>
    have same := alike.patch patch
    ⟨same.reader, same.destroySet, same.toOffset, same.toSize, same.chunkSize⟩⟩

/-- What the stack holds makes no difference to an engine that is initialized on it. -/
theorem detoolsApplyPatchInit_alike (stack other : ApplyPatch) (patchSize : Nat) :
    (clearChunk (detoolsApplyPatchInit stack patchSize)).Alike
      (clearChunk (detoolsApplyPatchInit other patchSize)) :=
  ⟨rfl, rfl, rfl, fun patch => absurd rfl patch.1⟩

section

variable {left right : ApplyPatch}

/-- The outcomes of two switches without callbacks. -/
structure SwitchAlike (left right : Int × ApplyPatch) : Prop where
  res : right.1 = left.1
  self : left.2.Alike right.2

theorem processInit_alike (alike : left.Alike right) (state : left.state = .init) :
    SwitchAlike (processInit left) (processInit right) := by
  have still {leftChunk rightChunk : Chunk} (compression : Nat)
      (chunks : leftChunk.Alike rightChunk) :
      ApplyPatch.Alike { left with chunk := leftChunk, compression := compression }
        { right with chunk := rightChunk, compression := compression } :=
    ⟨alike.state, alike.fromOffset, chunks, fun patch => absurd state patch.1⟩
  have read := alike.chunk.get
  unfold processInit
  generalize chunkGet left.chunk = leftRead at read ⊢
  generalize chunkGet right.chunk = rightRead at read ⊢
  cases read with
  | none => exact ⟨rfl, alike⟩
  | @some byte leftRest rightRest rest =>
      have header := chunkUnpackHeaderSize_alike rest
      simp only [header.res, header.size]
      split
      next => exact ⟨rfl, still _ rest⟩
      next =>
        split
        next => exact ⟨rfl, still _ header.chunk⟩
        next =>
          split
          next negative => exact absurd negative (by omega)
          next =>
            exact ⟨rfl, rfl, alike.fromOffset, header.chunk, fun _ =>
              ⟨⟨rfl, fun middle => by simp [patchReaderInit, patchReaderHeatshrinkInit] at middle,
                  rfl, rfl⟩, rfl, rfl, rfl, fun data => by split at data <;> simp at data⟩⟩

theorem nextSize_alike (alike : left.Alike right) (patch : left.state.InPatch) :
    (nextSize left).Alike (nextSize right) :=
  patchReaderUnpackSize_alike (alike.patch patch).reader alike.chunk

theorem ApplyPatch.Alike.afterSize (alike : left.Alike right) (patch : left.state.InPatch) :
    left.afterSize.Alike right.afterSize := by
  have read := nextSize_alike alike patch
  have same := alike.patch patch
  refine ⟨alike.state, alike.fromOffset, read.chunk, fun _ =>
    ⟨read.reader, ?_, same.toOffset, same.toSize, same.chunkSize⟩⟩
  have leftSet := patchReaderUnpackSize_destroySet left.patchReader left.chunk
  have rightSet := patchReaderUnpackSize_destroySet right.patchReader right.chunk
  exact rightSet.trans (same.destroySet.trans leftSet.symm)

/-- A failure leaves the state and the chunk to agree on. -/
theorem ApplyPatch.Alike.fail (alike : left.Alike right) :
    ApplyPatch.Alike { left with state := .failed } { right with state := .failed } :=
  ⟨rfl, alike.fromOffset, alike.chunk, fun patch => absurd rfl patch.2⟩

theorem processDfpatchSize_alike (alike : left.Alike right) (state : left.state = .dfpatchSize) :
    SwitchAlike (processDfpatchSize left) (processDfpatchSize right) := by
  have patch : left.state.InPatch := by simp [ApplyPatchState.InPatch, state]
  have read := nextSize_alike alike patch
  have moved := alike.afterSize patch
  have same := moved.patch patch
  rw [processDfpatchSize_eq, processDfpatchSize_eq, read.res, read.size]
  split
  next => exact ⟨rfl, moved⟩
  next =>
    split
    next => exact ⟨rfl, moved⟩
    next =>
      exact ⟨rfl, rfl, moved.fromOffset, moved.chunk, fun _ =>
        ⟨same.reader, same.destroySet, same.toOffset, same.toSize, by simp⟩⟩

theorem processSize_alike (alike : left.Alike right) {next : ApplyPatchState}
    (states : SizedBy left.state next) :
    SwitchAlike (processSize left next) (processSize right next) := by
  have patch : left.state.InPatch := states.reads.1.running
  have read := nextSize_alike alike patch
  have moved := alike.afterSize patch
  have same := moved.patch patch
  have fits : SizeFits right ↔ SizeFits left := by
    unfold SizeFits
    rw [read.size, (alike.patch patch).toOffset, (alike.patch patch).toSize]
  rw [processSize_eq, processSize_eq, read.res, read.size]
  simp only [fits]
  split
  next => exact ⟨rfl, moved⟩
  next =>
    split
    next =>
      exact ⟨rfl, rfl, moved.fromOffset, moved.chunk, fun _ =>
        ⟨same.reader, same.destroySet, same.toOffset, same.toSize, fun _ => rfl⟩⟩
    next => exact ⟨rfl, moved⟩

theorem nextBlock_alike (alike : left.Alike right)
    (state : left.state = .diffData ∨ left.state = .extraData) :
    (nextBlock left).Alike (nextBlock right) ∧ left.afterBlock.Alike right.afterBlock := by
  have patch : left.state.InPatch := readsBlock_running state
  have same := alike.patch patch
  have room : blockRoom right = blockRoom left := by rw [blockRoom, same.chunkSize state, blockRoom]
  have read := patchReaderDecompress_alike (blockRoom left) same.reader alike.chunk
  have reader := same.reader.decompressed (blockRoom left) alike.chunk
  have leftSet := (afterBlock_same left).destroySet
  have rightSet := (afterBlock_same right).destroySet
  refine ⟨?_, alike.state, alike.fromOffset, ?_, fun _ =>
    ⟨?_, rightSet.trans (same.destroySet.trans leftSet.symm), same.toOffset, same.toSize,
      same.chunkSize⟩⟩
  · rw [nextBlock, nextBlock, room]
    exact read
  · simp only [ApplyPatch.afterBlock, nextBlock, room]
    exact read.chunk
  · simp only [ApplyPatch.afterBlock, nextBlock, room]
    exact reader

end

end DeltaUpdate.Detools
