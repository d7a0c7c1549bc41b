import DeltaUpdate.Detools.Driver
import DeltaUpdate.Library.Loop

/-!
Owns the termination of the loops that applying a patch enters. Each loop of the source
is written out as one iteration, and the function that stands for the loop in the model
computes it: its iterations end from every state, reachable or not, and whatever the
callbacks return.
-/

namespace DeltaUpdate.Detools

open DeltaUpdate.Heatshrink
open DeltaUpdate.Library

/-! ### The decoder -/

/-- One iteration of the loop of `heatshrink_decoder_poll`. -/
def pollIteration (state : HeatshrinkDecoder × OutputInfo) :
    HeatshrinkDecoder × OutputInfo ⊕ HsdPollRes × OutputInfo × HeatshrinkDecoder :=
  let next := pollStep state.1 state.2
  if next.1.state = state.1.state then
    .inr (if next.2.out.length = next.2.bufSize then .more else .empty, next.2, next.1)
  else .inl next

theorem pollLoop_computes : Computes pollIteration fun state => pollLoop state.1 state.2 := by
  refine computes_of_follows (goesOn_wellFounded (fun state => pollMeasure state.1) ?_) ?_
  · intro before after goes
    unfold pollIteration at goes
    simp only at goes
    split at goes
    next => cases goes
    next changes =>
      cases goes
      exact pollStep_measure before.1 before.2 changes
  · rintro ⟨hsd, oi⟩
    by_cases stays : (pollStep hsd oi).1.state = hsd.state
    · simp only [pollIteration, if_pos stays, pollLoop_stays stays]
    · simp only [pollIteration, if_neg stays, pollLoop_advances stays]

/-! ### The reader -/

/-- The variables of the loop of `patch_reader_heatshrink_decompress`. -/
structure Decompressing where
  reader : PatchReader
  chunk : Chunk
  left : Nat
  data : List UInt8

/-- One iteration of the loop of `patch_reader_heatshrink_decompress`. -/
def decompressIteration (size : Nat) (state : Decompressing) : Decompressing ⊕ Decompressed :=
  let polled := heatshrinkDecoderPoll state.reader.decoder state.left
  let stored := state.data ++ polled.2.1
  let room := state.left - polled.2.1.length
  let reader := { state.reader with decoder := polled.2.2 }
  if polled.1.isNegative then
    .inr ⟨DetoolsError.heatshrinkPoll.result, state.data, reader, state.chunk⟩
  else if room = 0 then .inr ⟨0, stored, reader, state.chunk⟩
  else
    match chunkGet state.chunk with
    | some (byte, rest) =>
        let sunk := heatshrinkDecoderSink polled.2.2 [byte]
        let reader := { state.reader with decoder := sunk.2.2 }
        if sunk.1.isNegative ∨ sunk.2.1 ≠ 1 then
          .inr ⟨DetoolsError.heatshrinkSink.result, stored, reader, rest⟩
        else .inl ⟨reader, rest, room, stored⟩
    | none =>
        if room ≠ size then .inr ⟨0, stored, reader, state.chunk⟩
        else .inr ⟨1, stored, reader, state.chunk⟩

theorem decompressLoop_computes (size : Nat) :
    Computes (decompressIteration size)
      fun state => decompressLoop state.reader state.chunk size state.left state.data := by
  refine computes_of_follows (goesOn_wellFounded (fun state => chunkLeft state.chunk) ?_) ?_
  · intro before after goes
    unfold decompressIteration at goes
    simp only at goes
    split at goes
    next => cases goes
    next =>
      split at goes
      next => cases goes
      next =>
        split at goes
        next read =>
          split at goes
          next => cases goes
          next =>
            cases goes
            have left := chunkGet_left read
            simp only
            omega
        next =>
          split at goes
          next => cases goes
          next => cases goes
  · rintro ⟨reader, chunk, left, data⟩
    unfold decompressIteration
    rw [decompressLoop]
    simp only
    split
    next => rfl
    next =>
      split
      next => rfl
      next =>
        split
        next byte rest read =>
          rw [read]
          simp only
          split <;> rfl
        next read =>
          rw [read]
          simp only
          split <;> rfl

/-- One iteration of the loop of `patch_reader_unpack_size`. -/
def unpackIteration (state : PatchReader × Chunk) : PatchReader × Chunk ⊕ Unpacked :=
  let read := patchReaderDecompress state.1 state.2 1
  if read.res ≠ 0 then .inr ⟨read.res, 0, read.reader, read.chunk⟩
  else
    let byte := read.data.headD 0
    match state.1.sizeState with
    | .first =>
        let next := { read.reader with
          isSigned := decide (byte &&& 0x40 = 0x40)
          sizeValue := (byte &&& 0x3f).toNat
          sizeOffset := 6
          sizeState := .consecutive }
        if byte &&& 0x80 ≠ 0 then .inl (next, read.chunk) else .inr (finishSize next read.chunk)
    | .consecutive =>
        if isOverflow state.1.sizeOffset then
          .inr ⟨DetoolsError.corruptPatchOverflow.result, 0, read.reader, read.chunk⟩
        else
          let next := { read.reader with
            isSigned := state.1.isSigned
            sizeValue := state.1.sizeValue ||| (byte &&& 0x7f).toNat <<< state.1.sizeOffset
            sizeOffset := state.1.sizeOffset + 7
            sizeState := .consecutive }
          if byte &&& 0x80 ≠ 0 then .inl (next, read.chunk) else .inr (finishSize next read.chunk)

theorem patchReaderUnpackSize_computes :
    Computes unpackIteration fun state => patchReaderUnpackSize state.1 state.2 := by
  refine computes_of_follows (goesOn_wellFounded (fun state => sizeRank state.1) ?_) ?_
  · intro before after goes
    unfold unpackIteration at goes
    simp only at goes
    split at goes
    next => cases goes
    next =>
      split at goes
      next state =>
        split at goes
        next =>
          cases goes
          simp [sizeRank, state]
        next => cases goes
      next state =>
        split at goes
        next => cases goes
        next fits =>
          split at goes
          next =>
            cases goes
            simp only [isOverflow, decide_eq_true_eq] at fits
            simp only [sizeRank, state]
            omega
          next => cases goes
  · rintro ⟨reader, chunk⟩
    unfold unpackIteration
    rw [patchReaderUnpackSize]
    simp only
    split
    next => rfl
    next =>
      split
      next state =>
        rw [state]
        simp only
        split <;> rfl
      next state =>
        rw [state]
        simp only
        split
        next => rfl
        next => split <;> rfl

/-- The variables of the loop of `chunk_unpack_header_size`. -/
structure UnpackingHeader where
  byte : UInt8
  size : Nat
  offset : Nat
  chunk : Chunk

/-- One iteration of the loop of `chunk_unpack_header_size`. -/
def headerIteration (state : UnpackingHeader) : UnpackingHeader ⊕ Int × Nat × Chunk :=
  if state.byte &&& 0x80 ≠ 0 then
    match chunkGet state.chunk with
    | none => .inr (DetoolsError.shortHeader.result, state.size, state.chunk)
    | some (next, rest) =>
        if isOverflow state.offset then
          .inr (DetoolsError.corruptPatchOverflow.result, state.size, rest)
        else
          .inl ⟨next, state.size ||| (next &&& 0x7f).toNat <<< state.offset, state.offset + 7, rest⟩
  else .inr (0, state.size, state.chunk)

theorem unpackHeaderLoop_computes :
    Computes headerIteration
      fun state => unpackHeaderLoop state.byte state.size state.offset state.chunk := by
  refine computes_of_follows (goesOn_wellFounded (fun state => chunkLeft state.chunk) ?_) ?_
  · intro before after goes
    unfold headerIteration at goes
    split at goes
    next =>
      split at goes
      next => cases goes
      next read =>
        split at goes
        next => cases goes
        next =>
          cases goes
          have left := chunkGet_left read
          simp only
          omega
    next => cases goes
  · rintro ⟨byte, size, offset, chunk⟩
    unfold headerIteration
    rw [unpackHeaderLoop]
    simp only
    split
    next =>
      split
      next read =>
        rw [read]
      next next rest read =>
        rw [read]
        simp only
        split <;> rfl
    next => rfl

/-! ### The engine -/

section

variable {World : Type} (callbacks : Callbacks World)

/-- One iteration of the loop of `detools_apply_patch_process`. -/
def processIteration (stepped : Stepped World) : Stepped World ⊕ Stepped World :=
  if chunkAvailable stepped.self.chunk = true ∧ stepped.res ≥ 0 then
    .inl (applyPatchProcessOnce callbacks stepped.self stepped.world)
  else .inr stepped

theorem processLoop_computes : Computes (processIteration callbacks) (processLoop callbacks) := by
  refine computes_of_follows (goesOn_wellFounded processMeasure ?_) ?_
  · intro before after goes
    unfold processIteration at goes
    split at goes
    next continues =>
      cases goes
      exact processMeasure_drops callbacks continues.1 continues.2
    next => cases goes
  · intro stepped
    unfold processIteration
    rw [processLoop]
    split <;> rfl

/-- One iteration of the loop of `detools_apply_patch_finalize`. -/
def finalizeIteration (state : ApplyPatch × World) : ApplyPatch × World ⊕ Stepped World :=
  let stepped := applyPatchProcessOnce callbacks state.1 state.2
  if stepped.res = 0 then .inl (stepped.self, stepped.world) else .inr stepped

theorem finalizeLoop_computes :
    Computes (finalizeIteration callbacks) fun state => finalizeLoop callbacks state.1 state.2 := by
  refine computes_of_follows (goesOn_wellFounded (fun state => enginePotential state.1) ?_) ?_
  · intro before after goes
    unfold finalizeIteration at goes
    simp only at goes
    split at goes
    next again =>
      cases goes
      exact enginePotential_drops callbacks again
    next => cases goes
  · rintro ⟨self, world⟩
    unfold finalizeIteration
    rw [finalizeLoop]
    simp only
    split <;> rfl

/-- One iteration of the loop of `callbacks_process`, with the patch offset. -/
def chunkIteration (patchSize : Nat) (state : Nat × Stepped World) :
    Nat × Stepped World ⊕ Stepped World :=
  if state.1 < patchSize ∧ state.2.res = 0 then
    let chunkSize := min (patchSize - state.1) 512
    let read := callbacks.patchRead state.2.world chunkSize
    if read.1 = 0 then
      .inl (state.1 + chunkSize,
        detoolsApplyPatchProcess callbacks state.2.self read.2.2 read.2.1 chunkSize)
    else .inr ⟨DetoolsError.ioFailed.result, state.2.self, read.2.2⟩
  else .inr state.2

theorem callbacksLoop_computes (patchSize : Nat) :
    Computes (chunkIteration callbacks patchSize)
      fun state => callbacksLoop callbacks patchSize state.1 state.2 := by
  refine computes_of_follows (goesOn_wellFounded (fun state => patchSize - state.1) ?_) ?_
  · intro before after goes
    unfold chunkIteration at goes
    split at goes
    next continues =>
      simp only at goes
      split at goes
      next =>
        cases goes
        have below := continues.1
        simp only
        omega
      next => cases goes
    next => cases goes
  · rintro ⟨patchOffset, stepped⟩
    unfold chunkIteration
    rw [callbacksLoop]
    simp only
    split
    next => split <;> rfl
    next => rfl

/-! ### Applying a patch -/

/-- Every loop that applying a patch enters ends, from every state of its variables. -/
structure LoopsEnd (patchSize : Nat) : Prop where
  poll : Computes pollIteration fun state => pollLoop state.1 state.2
  decompress (size : Nat) : Computes (decompressIteration size)
    fun state => decompressLoop state.reader state.chunk size state.left state.data
  unpackSize : Computes unpackIteration fun state => patchReaderUnpackSize state.1 state.2
  unpackHeaderSize : Computes headerIteration
    fun state => unpackHeaderLoop state.byte state.size state.offset state.chunk
  process : Computes (processIteration callbacks) (processLoop callbacks)
  finalize : Computes (finalizeIteration callbacks)
    fun state => finalizeLoop callbacks state.1 state.2
  chunks : Computes (chunkIteration callbacks patchSize)
    fun state => callbacksLoop callbacks patchSize state.1 state.2

/-- The loops of a patch end for every patch size, whatever the callbacks return, and
the run over all of them stops after finitely many steps of the engine with the outcome of
`detools_apply_patch_callbacks`. -/
theorem apply_terminates (stack : ApplyPatch) (world : World) (patchSize : Nat) :
    LoopsEnd callbacks patchSize ∧
      ∃ count, (driverStep callbacks patchSize)^[count]
          (driverStart (detoolsApplyPatchInit stack patchSize) world) =
        ⟨.stop (detoolsApplyPatchCallbacks callbacks stack world patchSize).res,
          (detoolsApplyPatchCallbacks callbacks stack world patchSize).self,
          (detoolsApplyPatchCallbacks callbacks stack world patchSize).world⟩ :=
  ⟨⟨pollLoop_computes, decompressLoop_computes, patchReaderUnpackSize_computes,
      unpackHeaderLoop_computes, processLoop_computes callbacks, finalizeLoop_computes callbacks,
      callbacksLoop_computes callbacks patchSize⟩,
    detoolsApplyPatchCallbacks_visits callbacks stack world patchSize⟩

end

end DeltaUpdate.Detools
