import DeltaUpdate.Detools.Potential

/-!
Owns the sequential apply engine of `detools.c`: the nine states, the step of each,
and the loops over chunks, steps and finalization. The engine is generic in its
callbacks, as the source is; `World` is what the callback argument points to.

Dumping and restoring the state are in `Resume`: nothing in the program calls them.
-/

namespace DeltaUpdate.Detools

open DeltaUpdate.Heatshrink

/-- `PATCH_TYPE_SEQUENTIAL`. -/
def patchTypeSequential : Nat := 0

/-- `detools_apply_patch_state_t`. -/
inductive ApplyPatchState where
  | init
  | dfpatchSize
  | diffSize
  | diffData
  | extraSize
  | extraData
  | adjustment
  | done
  | failed
deriving DecidableEq, Repr

/-- The callbacks of the engine. A result of zero is success. -/
structure Callbacks (World : Type) where
  fromRead : World → Nat → Int × (Nat → UInt8) × World
  fromSeek : World → Int → Int × World
  patchRead : World → Nat → Int × (Nat → UInt8) × World
  toWrite : World → List UInt8 → Int × World

/-- `detools_apply_patch_t` without the callbacks and their argument. -/
structure ApplyPatch where
  patchSize : Nat
  state : ApplyPatchState
  compression : Nat
  patchOffset : Nat
  toOffset : Nat
  toSize : Nat
  fromOffset : Int
  chunkSize : Nat
  patchReader : PatchReader
  chunk : Chunk

/-- The outcome of an engine function that calls back. -/
structure Stepped (World : Type) where
  res : Int
  self : ApplyPatch
  world : World

/-! ### Steps without callbacks -/

/-- `process_init`. -/
def processInit (self : ApplyPatch) : Int × ApplyPatch :=
  match chunkGet self.chunk with
  | none => (DetoolsError.shortHeader.result, self)
  | some (byte, chunk) =>
      let patchType := (byte >>> 4 &&& 0x7).toNat
      let self := { self with chunk := chunk, compression := (byte &&& 0xf).toNat }
      if patchType ≠ patchTypeSequential then (DetoolsError.badPatchType.result, self)
      else
        let header := chunkUnpackHeaderSize chunk
        let self := { self with chunk := header.2.2 }
        if header.1 ≠ 0 then (header.1, self)
        else
          let toSize : Int := header.2.1
          let self := { self with patchReader := patchReaderInit self.patchReader }
          if toSize < 0 then (DetoolsError.corruptPatch.result, self)
          else
            (0, { self with
              toOffset := 0
              toSize := sizeOfInt toSize
              state := if toSize > 0 then .dfpatchSize else .done })

/-- `process_dfpatch_size`. -/
def processDfpatchSize (self : ApplyPatch) : Int × ApplyPatch :=
  let unpacked := patchReaderUnpackSize self.patchReader self.chunk
  let self := { self with patchReader := unpacked.reader, chunk := unpacked.chunk }
  if unpacked.res ≠ 0 then (unpacked.res, self)
  else if unpacked.size > 0 then (DetoolsError.notImplemented.result, self)
  else (0, { self with state := .diffSize })

/-- `common_process_size`. -/
def commonProcessSize (reader : PatchReader) (chunk : Chunk) (toPos toSize : Nat) : Unpacked :=
  let unpacked := patchReaderUnpackSize reader chunk
  if unpacked.res ≠ 0 then unpacked
  else if sizeT (toPos + sizeOfInt unpacked.size) > toSize then
    { unpacked with res := DetoolsError.corruptPatch.result }
  else unpacked

/-- `process_size`. -/
def processSize (self : ApplyPatch) (nextState : ApplyPatchState) : Int × ApplyPatch :=
  let unpacked := commonProcessSize self.patchReader self.chunk self.toOffset self.toSize
  let self := { self with patchReader := unpacked.reader, chunk := unpacked.chunk }
  if unpacked.res ≠ 0 then (unpacked.res, self)
  else (unpacked.res, { self with state := nextState, chunkSize := sizeOfInt unpacked.size })

/-- `process_diff_size`. -/
def processDiffSize (self : ApplyPatch) : Int × ApplyPatch := processSize self .diffData

/-- `process_extra_size`. -/
def processExtraSize (self : ApplyPatch) : Int × ApplyPatch := processSize self .extraData

/-! ### Steps with callbacks -/

section

variable {World : Type} (callbacks : Callbacks World)

/-- The end of `process_data`: the offsets move on and the block is written. -/
def writeBlock (self : ApplyPatch) (world : World) (block : List UInt8) : Stepped World :=
  let self := { self with
    toOffset := sizeT (self.toOffset + block.length)
    chunkSize := self.chunkSize - block.length }
  let written := callbacks.toWrite world block
  if written.1 ≠ 0 then ⟨DetoolsError.ioFailed.result, self, written.2⟩
  else ⟨0, self, written.2⟩

/-- The middle of `process_data` in the diff state: the source bytes are read and
added to the block. -/
def addSource (self : ApplyPatch) (world : World) (data : List UInt8) : Stepped World :=
  let read := callbacks.fromRead world data.length
  if read.1 ≠ 0 then ⟨DetoolsError.ioFailed.result, self, read.2.2⟩
  else
    writeBlock callbacks { self with fromOffset := intT (self.fromOffset + data.length) }
      read.2.2 (data.mapIdx fun index byte => byte + read.2.1 index)

/-- `process_data`; `to` and `from` hold 128 bytes. -/
def processData (self : ApplyPatch) (world : World) (nextState : ApplyPatchState) :
    Stepped World :=
  let toSize := min 128 self.chunkSize
  if toSize = 0 then ⟨0, { self with state := nextState }, world⟩
  else
    let read := patchReaderDecompress self.patchReader self.chunk toSize
    let self := { self with patchReader := read.reader, chunk := read.chunk }
    if read.res ≠ 0 then ⟨read.res, self, world⟩
    else if nextState = .extraSize then addSource callbacks self world read.data
    else writeBlock callbacks self world read.data

/-- `process_diff_data`. -/
def processDiffData (self : ApplyPatch) (world : World) : Stepped World :=
  processData callbacks self world .extraSize

/-- `process_extra_data`. -/
def processExtraData (self : ApplyPatch) (world : World) : Stepped World :=
  processData callbacks self world .adjustment

/-- `process_adjustment`. -/
def processAdjustment (self : ApplyPatch) (world : World) : Stepped World :=
  let unpacked := patchReaderUnpackSize self.patchReader self.chunk
  let self := { self with patchReader := unpacked.reader, chunk := unpacked.chunk }
  if unpacked.res ≠ 0 then ⟨unpacked.res, self, world⟩
  else
    let sought := callbacks.fromSeek world unpacked.size
    if sought.1 ≠ 0 then ⟨DetoolsError.ioFailed.result, self, sought.2⟩
    else
      ⟨0, { self with
        fromOffset := intT (self.fromOffset + unpacked.size)
        state := if self.toOffset = self.toSize then .done else .diffSize }, sought.2⟩

/-- The switch of `apply_patch_process_once`. -/
def processState (self : ApplyPatch) (world : World) : Stepped World :=
  match self.state with
  | .init => ⟨(processInit self).1, (processInit self).2, world⟩
  | .dfpatchSize => ⟨(processDfpatchSize self).1, (processDfpatchSize self).2, world⟩
  | .diffSize => ⟨(processDiffSize self).1, (processDiffSize self).2, world⟩
  | .diffData => processDiffData callbacks self world
  | .extraSize => ⟨(processExtraSize self).1, (processExtraSize self).2, world⟩
  | .extraData => processExtraData callbacks self world
  | .adjustment => processAdjustment callbacks self world
  | .done => ⟨DetoolsError.alreadyDone.result, self, world⟩
  | .failed => ⟨DetoolsError.alreadyFailed.result, self, world⟩

/-- `apply_patch_process_once`. -/
def applyPatchProcessOnce (self : ApplyPatch) (world : World) : Stepped World :=
  let stepped := processState callbacks self world
  if stepped.res < 0 then
    { stepped with self := { stepped.self with state := .failed } }
  else stepped

/-- `apply_patch_common_finalize`. -/
def applyPatchCommonFinalize (res : Int) (reader : PatchReader) (toSize : Nat) : Int :=
  let res := if res = 1 then DetoolsError.notEnoughPatchData.result else res
  let res := if res = DetoolsError.alreadyDone.result then 0 else res
  let res :=
    if reader.destroySet then
      if res = 0 then patchReaderHeatshrinkDestroy reader else res
    else res
  if res = 0 then intT toSize else res

/-- `detools_apply_patch_init`. The other fields keep what the stack held. -/
def detoolsApplyPatchInit (stack : ApplyPatch) (patchSize : Nat) : ApplyPatch :=
  { stack with
    patchSize := patchSize
    patchOffset := 0
    fromOffset := 0
    state := .init
    patchReader := { stack.patchReader with destroySet := false } }

end

end DeltaUpdate.Detools
