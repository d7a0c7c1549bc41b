import DeltaUpdate.Detools.Engine

/-!
Owns the loops of the engine and the reason they end. A step with a non-negative
result lowers the potential of the engine, except that a step which asks for more
input leaves it unchanged when the chunk was empty already.
-/

namespace DeltaUpdate.Detools

open DeltaUpdate.Heatshrink

/-- States that a step can leave without reading the patch. -/
def ApplyPatchState.rank : ApplyPatchState → Nat
  | .diffData | .extraData => 1
  | _ => 0

/-- The measure of the step loops. -/
def enginePotential (self : ApplyPatch) : Nat :=
  2 * readerPotential self.patchReader self.chunk + self.state.rank

/-- What a step does to the potential of the engine. -/
inductive StepBound (before after : ApplyPatch) (res : Int) : Prop where
  | advanced (zero : res = 0) (drops : enginePotential after < enginePotential before)
  | waiting (one : res = 1) (chunkEmpty : chunkLeft after.chunk = 0)
      (drops : 0 < chunkLeft before.chunk → enginePotential after < enginePotential before)
  | failed (negative : res < 0)

theorem unpackHeaderLoop_left (byte : UInt8) (size offset : Nat) (chunk : Chunk) :
    chunkLeft (unpackHeaderLoop byte size offset chunk).2.2 ≤ chunkLeft chunk ∧
      ((unpackHeaderLoop byte size offset chunk).1 = 0 ∨
        Rejected (unpackHeaderLoop byte size offset chunk).1) := by
  fun_induction unpackHeaderLoop byte size offset chunk
  case case1 => exact ⟨le_refl _, Or.inr (DetoolsError.rejected (by decide))⟩
  case case2 => exact ⟨by simp only; omega, Or.inr (DetoolsError.rejected (by decide))⟩
  case case3 inductionHypothesis => exact ⟨by omega, inductionHypothesis.2⟩
  case case4 => exact ⟨le_refl _, Or.inl rfl⟩

theorem chunkUnpackHeaderSize_left (chunk : Chunk) :
    chunkLeft (chunkUnpackHeaderSize chunk).2.2 ≤ chunkLeft chunk ∧
      ((chunkUnpackHeaderSize chunk).1 = 0 ∨ Rejected (chunkUnpackHeaderSize chunk).1) := by
  unfold chunkUnpackHeaderSize
  cases read : chunkGet chunk with
  | none => exact ⟨le_refl _, Or.inr (DetoolsError.rejected (by decide))⟩
  | some taken =>
      have left := chunkGet_left read
      have rest := unpackHeaderLoop_left taken.1 (taken.1 &&& 0x3f).toNat 6 taken.2
      exact ⟨by simp only; omega, rest.2⟩

theorem processInit_bound (self : ApplyPatch) (state : self.state = .init) :
    StepBound self (processInit self).2 (processInit self).1 := by
  unfold processInit
  cases read : chunkGet self.chunk with
  | none => exact .failed (DetoolsError.result_neg _)
  | some taken =>
      have left := chunkGet_left read
      obtain ⟨shrinks, nonpositive⟩ := chunkUnpackHeaderSize_left taken.2
      simp only
      split
      next => exact .failed (DetoolsError.result_neg _)
      next =>
        split
        next nonzero => exact .failed ((nonpositive.resolve_left nonzero).1)
        next =>
          split
          next => exact .failed (DetoolsError.result_neg _)
          next =>
            refine .advanced rfl ?_
            have idle : outputPotential heatshrinkDecoderReset = 0 := by decide
            simp only [enginePotential, readerPotential, patchReaderInit,
              patchReaderHeatshrinkInit, idle, state]
            split <;> simp only [ApplyPatchState.rank] <;> omega

theorem processDfpatchSize_bound (self : ApplyPatch) (state : self.state = .dfpatchSize) :
    StepBound self (processDfpatchSize self).2 (processDfpatchSize self).1 := by
  unfold processDfpatchSize
  cases patchReaderUnpackSize_bound self.patchReader self.chunk with
  | read res potential =>
      rw [if_neg (by omega)]
      split
      next => exact .failed (DetoolsError.result_neg _)
      next =>
        refine .advanced rfl ?_
        simp only [enginePotential, state, ApplyPatchState.rank]
        omega
  | starved res chunkEmpty potential drops =>
      rw [if_pos (by omega)]
      refine .waiting res chunkEmpty fun available => ?_
      have := drops available
      simp only [enginePotential, state, ApplyPatchState.rank]
      omega
  | failed res =>
      have negative := res.1
      rw [if_pos (by omega)]
      exact .failed negative

theorem commonProcessSize_bound (reader : PatchReader) (chunk : Chunk) (toPos toSize : Nat) :
    UnpackBound (chunkLeft chunk) (readerPotential reader chunk)
      (commonProcessSize reader chunk toPos toSize) := by
  have unpacked := patchReaderUnpackSize_bound reader chunk
  unfold commonProcessSize
  simp only
  split
  · exact unpacked
  · split
    · exact .failed (DetoolsError.rejected (by decide))
    · exact unpacked

theorem processSize_bound (self : ApplyPatch) (nextState : ApplyPatchState)
    (rank : self.state.rank = 0) (nextRank : nextState.rank = 1) :
    StepBound self (processSize self nextState).2 (processSize self nextState).1 := by
  unfold processSize
  simp only
  cases commonProcessSize_bound self.patchReader self.chunk self.toOffset self.toSize with
  | read res potential =>
      rw [if_neg (by omega)]
      refine .advanced res ?_
      simp only [enginePotential, rank, nextRank]
      omega
  | starved res chunkEmpty potential drops =>
      rw [if_pos (by omega)]
      refine .waiting res chunkEmpty fun available => ?_
      have := drops available
      simp only [enginePotential, rank]
      omega
  | failed res =>
      have negative := res.1
      rw [if_pos (by omega)]
      exact .failed negative

/-- The start of `detools_apply_patch_process`: the engine is given a chunk. -/
def loadChunk (self : ApplyPatch) (patch : Nat → UInt8) (size : Nat) : ApplyPatch :=
  { self with
    patchOffset := sizeT (self.patchOffset + size)
    chunk := { buf := patch, size := size, offset := 0, offsetWithin := Nat.zero_le _ } }

/-- The start of `detools_apply_patch_finalize`: the chunk is made empty. -/
def clearChunk (self : ApplyPatch) : ApplyPatch :=
  { self with chunk := { self.chunk with size := 0, offset := 0, offsetWithin := Nat.le_refl _ } }

/-- A stack that holds zeros where the engine state will lie. -/
def zeroStack : ApplyPatch where
  patchSize := 0
  state := .init
  compression := 0
  patchOffset := 0
  toOffset := 0
  toSize := 0
  fromOffset := 0
  chunkSize := 0
  patchReader :=
    { sizeState := .first
      sizeValue := 0
      sizeOffset := 0
      isSigned := false
      windowSz2 := 0
      lookaheadSz2 := 0
      decoder := heatshrinkDecoderReset
      destroySet := false }
  chunk := { buf := fun _ => 0, size := 0, offset := 0, offsetWithin := Nat.le_refl 0 }

section

variable {World : Type} (callbacks : Callbacks World)

theorem writeBlock_frame (self : ApplyPatch) (world : World) (block : List UInt8) :
    (writeBlock callbacks self world block).self.patchReader = self.patchReader ∧
      (writeBlock callbacks self world block).self.chunk = self.chunk ∧
      (writeBlock callbacks self world block).self.state = self.state ∧
      ((writeBlock callbacks self world block).res = 0 ∨
        (writeBlock callbacks self world block).res < 0) := by
  unfold writeBlock
  simp only
  split
  · exact ⟨rfl, rfl, rfl, Or.inr (DetoolsError.result_neg _)⟩
  · exact ⟨rfl, rfl, rfl, Or.inl rfl⟩

theorem addSource_frame (self : ApplyPatch) (world : World) (data : List UInt8) :
    (addSource callbacks self world data).self.patchReader = self.patchReader ∧
      (addSource callbacks self world data).self.chunk = self.chunk ∧
      (addSource callbacks self world data).self.state = self.state ∧
      ((addSource callbacks self world data).res = 0 ∨
        (addSource callbacks self world data).res < 0) := by
  unfold addSource
  simp only
  split
  · exact ⟨rfl, rfl, rfl, Or.inr (DetoolsError.result_neg _)⟩
  · exact writeBlock_frame callbacks _ _ _

theorem processData_bound (self : ApplyPatch) (world : World) (nextState : ApplyPatchState)
    (rank : self.state.rank = 1) (nextRank : nextState.rank = 0) :
    StepBound self (processData callbacks self world nextState).self
      (processData callbacks self world nextState).res := by
  unfold processData
  simp only
  split
  next =>
    refine .advanced rfl ?_
    simp only [enginePotential, rank, nextRank]
    omega
  next nonempty =>
    rcases patchReaderDecompress_bound self.patchReader self.chunk
        (min 128 self.chunkSize) (by omega) with filled | starved | failed
    · rw [if_neg (by simp [filled.res])]
      have pays := filled.potential
      have some := filled.nonempty
      have drops (stepped : Stepped World)
          (frame : stepped.self.patchReader =
              (patchReaderDecompress self.patchReader self.chunk
                (min 128 self.chunkSize)).reader ∧
            stepped.self.chunk =
              (patchReaderDecompress self.patchReader self.chunk
                (min 128 self.chunkSize)).chunk ∧
            stepped.self.state = self.state ∧ (stepped.res = 0 ∨ stepped.res < 0)) :
          StepBound self stepped.self stepped.res := by
        obtain ⟨reader, chunk, state, zero | negative⟩ := frame
        · refine .advanced zero ?_
          simp only [enginePotential, reader, chunk, state]
          omega
        · exact .failed negative
      split
      next => exact drops _ (addSource_frame callbacks _ _ _)
      next => exact drops _ (writeBlock_frame callbacks _ _ _)
    · rw [if_pos (by simp [starved.res])]
      refine .waiting starved.res starved.chunkEmpty fun available => ?_
      have := starved.drops available
      simp only [enginePotential]
      omega
    · have negative := failed.1
      rw [if_pos (by omega)]
      exact .failed negative

theorem processAdjustment_bound (self : ApplyPatch) (world : World)
    (state : self.state = .adjustment) :
    StepBound self (processAdjustment callbacks self world).self
      (processAdjustment callbacks self world).res := by
  unfold processAdjustment
  cases patchReaderUnpackSize_bound self.patchReader self.chunk with
  | read res potential =>
      rw [if_neg (by omega)]
      simp only
      split
      next => exact .failed (DetoolsError.result_neg _)
      next =>
        refine .advanced rfl ?_
        simp only [enginePotential, state]
        split <;> simp only [ApplyPatchState.rank] <;> omega
  | starved res chunkEmpty potential drops =>
      rw [if_pos (by omega)]
      refine .waiting res chunkEmpty fun available => ?_
      have := drops available
      simp only [enginePotential]
      omega
  | failed res =>
      have negative := res.1
      rw [if_pos (by omega)]
      exact .failed negative

theorem processState_bound (self : ApplyPatch) (world : World) :
    StepBound self (processState callbacks self world).self
      (processState callbacks self world).res := by
  unfold processState
  cases state : self.state <;> simp only
  case init => exact processInit_bound self state
  case dfpatchSize => exact processDfpatchSize_bound self state
  case diffSize => exact processSize_bound self _ (by rw [state]; rfl) rfl
  case diffData => exact processData_bound callbacks self world _ (by rw [state]; rfl) rfl
  case extraSize => exact processSize_bound self _ (by rw [state]; rfl) rfl
  case extraData => exact processData_bound callbacks self world _ (by rw [state]; rfl) rfl
  case adjustment => exact processAdjustment_bound callbacks self world state
  case done => exact .failed (DetoolsError.result_neg _)
  case failed => exact .failed (DetoolsError.result_neg _)

/-- Every step of the engine lowers its potential, waits for input or fails. -/
theorem applyPatchProcessOnce_bound (self : ApplyPatch) (world : World) :
    StepBound self (applyPatchProcessOnce callbacks self world).self
      (applyPatchProcessOnce callbacks self world).res := by
  unfold applyPatchProcessOnce
  simp only
  split
  next negative => exact .failed negative
  next => exact processState_bound callbacks self world

/-! ### The loops -/

/-- The measure of the loop of `detools_apply_patch_process`. -/
def processMeasure (stepped : Stepped World) : Nat :=
  if stepped.res < 0 then 0 else enginePotential stepped.self + 1

/-- A step with input at hand lowers the measure. -/
theorem processMeasure_drops {stepped : Stepped World}
    (available : chunkAvailable stepped.self.chunk = true) (nonneg : stepped.res ≥ 0) :
    processMeasure (applyPatchProcessOnce callbacks stepped.self stepped.world) <
      processMeasure stepped := by
  have left := (chunkAvailable_iff _).mp available
  have notFailed : ¬ stepped.res < 0 := by omega
  unfold processMeasure
  rw [if_neg notFailed]
  cases applyPatchProcessOnce_bound callbacks stepped.self stepped.world with
  | advanced zero drops => rw [if_neg (by omega)]; omega
  | waiting one chunkEmpty drops =>
      have := drops left
      rw [if_neg (by omega)]
      omega
  | failed negative => rw [if_pos negative]; omega

/-- A step with a result of zero lowers the potential. -/
theorem enginePotential_drops {self : ApplyPatch} {world : World}
    (again : (applyPatchProcessOnce callbacks self world).res = 0) :
    enginePotential (applyPatchProcessOnce callbacks self world).self < enginePotential self := by
  cases applyPatchProcessOnce_bound callbacks self world with
  | advanced zero drops => exact drops
  | waiting one => omega
  | failed negative => omega

/-- The loop of `detools_apply_patch_process`. -/
def processLoop (stepped : Stepped World) : Stepped World :=
  if continues : chunkAvailable stepped.self.chunk = true ∧ stepped.res ≥ 0 then
    have := processMeasure_drops callbacks continues.1 continues.2
    processLoop (applyPatchProcessOnce callbacks stepped.self stepped.world)
  else stepped
termination_by processMeasure stepped

/-- The end of `detools_apply_patch_process`: waiting for input is no error. -/
def settle (looped : Stepped World) : Stepped World :=
  if looped.res = 1 then { looped with res := 0 } else looped

/-- `detools_apply_patch_process`. -/
def detoolsApplyPatchProcess (self : ApplyPatch) (world : World) (patch : Nat → UInt8)
    (size : Nat) : Stepped World :=
  settle (processLoop callbacks ⟨0, loadChunk self patch size, world⟩)

/-- The loop of `detools_apply_patch_finalize`. -/
def finalizeLoop (self : ApplyPatch) (world : World) : Stepped World :=
  let stepped := applyPatchProcessOnce callbacks self world
  if again : stepped.res = 0 then
    have := enginePotential_drops callbacks again
    finalizeLoop stepped.self stepped.world
  else stepped
termination_by enginePotential self

/-- `detools_apply_patch_finalize`. -/
def detoolsApplyPatchFinalize (self : ApplyPatch) (world : World) : Stepped World :=
  let looped := finalizeLoop callbacks (clearChunk self) world
  { looped with
    res := applyPatchCommonFinalize looped.res looped.self.patchReader looped.self.toSize }

/-- The loop of `callbacks_process`, with the result of the last chunk. -/
def callbacksLoop (patchSize patchOffset : Nat) (stepped : Stepped World) : Stepped World :=
  if patchOffset < patchSize ∧ stepped.res = 0 then
    let chunkSize := min (patchSize - patchOffset) 512
    let read := callbacks.patchRead stepped.world chunkSize
    if read.1 = 0 then
      callbacksLoop patchSize (patchOffset + chunkSize)
        (detoolsApplyPatchProcess callbacks stepped.self read.2.2 read.2.1 chunkSize)
    else ⟨DetoolsError.ioFailed.result, stepped.self, read.2.2⟩
  else stepped
termination_by patchSize - patchOffset

/-- `callbacks_process`: the finalization counts only after a run without errors. -/
def callbacksProcess (self : ApplyPatch) (world : World) (patchSize : Nat) : Stepped World :=
  let looped := callbacksLoop callbacks patchSize 0 ⟨0, self, world⟩
  let final := detoolsApplyPatchFinalize callbacks looped.self looped.world
  if looped.res = 0 then final else { final with res := looped.res }

/-- `detools_apply_patch_callbacks`; the engine starts on uninitialized stack. -/
def detoolsApplyPatchCallbacks (stack : ApplyPatch) (world : World) (patchSize : Nat) :
    Stepped World :=
  callbacksProcess callbacks (detoolsApplyPatchInit stack patchSize) world patchSize

end

end DeltaUpdate.Detools
