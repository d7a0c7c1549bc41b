import DeltaUpdate.Detools.Loops

/-!
Owns what one step of the engine can do. `EngineStep` lists every outcome of
`apply_patch_process_once` with the results of the calls it makes, and the proofs
about runs are case analyses on it.
-/

namespace DeltaUpdate.Detools

/-- The states that read a size. -/
def ApplyPatchState.ReadsSize (state : ApplyPatchState) : Prop :=
  state = .dfpatchSize ∨ state = .diffSize ∨ state = .extraSize ∨ state = .adjustment

/-- The size of the block `process_data` asks for. -/
def blockRoom (self : ApplyPatch) : Nat := min 128 self.chunkSize

/-- The decompression `process_data` starts with. -/
def nextBlock (self : ApplyPatch) : Decompressed :=
  patchReaderDecompress self.patchReader self.chunk (blockRoom self)

/-- The size the states that read one start with. -/
def nextSize (self : ApplyPatch) : Unpacked :=
  patchReaderUnpackSize self.patchReader self.chunk

/-- The engine after a decompression. -/
def ApplyPatch.afterBlock (self : ApplyPatch) : ApplyPatch :=
  { self with patchReader := (nextBlock self).reader, chunk := (nextBlock self).chunk }

/-- The engine after a size has been read. -/
def ApplyPatch.afterSize (self : ApplyPatch) : ApplyPatch :=
  { self with patchReader := (nextSize self).reader, chunk := (nextSize self).chunk }

/-- The check of `common_process_size`. -/
def SizeFits (self : ApplyPatch) : Prop :=
  sizeT (self.toOffset + sizeOfInt (nextSize self).size) ≤ self.toSize

instance (self : ApplyPatch) : Decidable (SizeFits self) :=
  inferInstanceAs (Decidable (_ ≤ _))

/-- Why the engine fails without a callback that fails. -/
inductive Rejection (self : ApplyPatch) : Prop
  | header (state : self.state = .init) (error : Rejected (processInit self).1)
  | size (state : self.state.ReadsSize) (error : Rejected (nextSize self).res)
  | dfpatch (state : self.state = .dfpatchSize) (read : (nextSize self).res = 0)
      (positive : 0 < (nextSize self).size)
  | tooLong (state : self.state = .diffSize ∨ self.state = .extraSize)
      (read : (nextSize self).res = 0) (long : ¬ SizeFits self)
  | block (state : self.state = .diffData ∨ self.state = .extraData)
      (nonempty : blockRoom self ≠ 0) (error : Rejected (nextBlock self).res)
  | failed (state : self.state = .failed)

/-- The offsets and sizes of the engine are the same, and so is whether its reader is
set up. -/
structure SameOffsets (before after : ApplyPatch) : Prop where
  toOffset : after.toOffset = before.toOffset
  toSize : after.toSize = before.toSize
  fromOffset : after.fromOffset = before.fromOffset
  chunkSize : after.chunkSize = before.chunkSize
  destroySet : after.patchReader.destroySet = before.patchReader.destroySet

theorem afterBlock_same (self : ApplyPatch) : SameOffsets self self.afterBlock :=
  ⟨rfl, rfl, rfl, rfl, (patchReaderDecompress_sizes _ _ _).destroySet⟩

theorem afterSize_same (self : ApplyPatch) : SameOffsets self self.afterSize :=
  ⟨rfl, rfl, rfl, rfl, patchReaderUnpackSize_destroySet _ _⟩

/-- The size state and the data state of one part of a record. -/
inductive SizedBy : ApplyPatchState → ApplyPatchState → Prop
  | diff : SizedBy .diffSize .diffData
  | extra : SizedBy .extraSize .extraData

/-- The data state of a part and the state behind it. -/
inductive FollowedBy : ApplyPatchState → ApplyPatchState → Prop
  | diff : FollowedBy .diffData .extraSize
  | extra : FollowedBy .extraData .adjustment

theorem FollowedBy.reads {state next : ApplyPatchState} (states : FollowedBy state next) :
    (state = .diffData ∨ state = .extraData) ∧ next ≠ .init := by
  cases states
  · exact ⟨Or.inl rfl, by decide⟩
  · exact ⟨Or.inr rfl, by decide⟩

theorem SizedBy.reads {state next : ApplyPatchState} (states : SizedBy state next) :
    state.ReadsSize ∧ next ≠ .init := by
  cases states
  · exact ⟨Or.inr (Or.inl rfl), by decide⟩
  · exact ⟨Or.inr (Or.inr (Or.inl rfl)), by decide⟩

section

variable {World : Type} (callbacks : Callbacks World)

/-- How `process_data` comes to the block it writes: in the diff state the source
bytes are added to the patch bytes. -/
inductive Gathered (self : ApplyPatch) (world : World) :
    ApplyPatch → World → List UInt8 → Prop
  | diff (state : self.state = .diffData) {bytes : Nat → UInt8} {next : World}
      (read : callbacks.fromRead world (nextBlock self).data.length = (0, bytes, next)) :
      Gathered self world
        { self.afterBlock with
          fromOffset := intT (self.fromOffset + (nextBlock self).data.length) }
        next ((nextBlock self).data.mapIdx fun index byte => byte + bytes index)
  | extra (state : self.state = .extraData) :
      Gathered self world self.afterBlock world (nextBlock self).data

/-- The engine when a block has been gathered: the reader has moved on. -/
theorem Gathered.frame {self middle : ApplyPatch} {world between : World} {block : List UInt8}
    (gathered : Gathered callbacks self world middle between block) :
    (self.state = .diffData ∨ self.state = .extraData) ∧ middle.state = self.state ∧
      middle.patchReader = self.afterBlock.patchReader ∧ middle.toOffset = self.toOffset ∧
      middle.toSize = self.toSize ∧ middle.chunkSize = self.chunkSize ∧
      block.length = (nextBlock self).data.length := by
  cases gathered with
  | diff state => exact ⟨Or.inl state, rfl, rfl, rfl, rfl, rfl, by simp⟩
  | extra state => exact ⟨Or.inr state, rfl, rfl, rfl, rfl, rfl, rfl⟩

/-- The engine when the block is handed over. -/
def ApplyPatch.handed (self : ApplyPatch) (block : List UInt8) : ApplyPatch :=
  { self with
    toOffset := sizeT (self.toOffset + block.length)
    chunkSize := self.chunkSize - block.length }

/-- What `apply_patch_process_once` can do. -/
inductive EngineStep (self : ApplyPatch) (world : World) : Stepped World → Prop
  | rejected {res : Int} {after : ApplyPatch} (reason : Rejection self) (error : Rejected res)
      (offsets : SameOffsets self after) (failed : after.state = .failed) :
      EngineStep self world ⟨res, after, world⟩
  | finished (state : self.state = .done) :
      EngineStep self world
        ⟨DetoolsError.alreadyDone.result, { self with state := .failed }, world⟩
  | opened (state : self.state = .init) (header : (processInit self).1 = 0) :
      EngineStep self world ⟨0, (processInit self).2, world⟩
  | waitingSize (state : self.state.ReadsSize) (starved : (nextSize self).res = 1) :
      EngineStep self world ⟨1, self.afterSize, world⟩
  | waitingBlock (state : self.state = .diffData ∨ self.state = .extraData)
      (nonempty : blockRoom self ≠ 0) (starved : (nextBlock self).res = 1) :
      EngineStep self world ⟨1, self.afterBlock, world⟩
  | dfpatch (state : self.state = .dfpatchSize) (read : (nextSize self).res = 0)
      (nonpositive : (nextSize self).size ≤ 0) :
      EngineStep self world ⟨0, { self.afterSize with state := .diffSize }, world⟩
  | sized {next : ApplyPatchState} (states : SizedBy self.state next)
      (read : (nextSize self).res = 0) (fits : SizeFits self) :
      EngineStep self world
        ⟨0, { self.afterSize with
          state := next, chunkSize := sizeOfInt (nextSize self).size }, world⟩
  | emptied {next : ApplyPatchState} (states : FollowedBy self.state next)
      (empty : self.chunkSize = 0) :
      EngineStep self world ⟨0, { self with state := next }, world⟩
  | sourceFailed (state : self.state = .diffData) (nonempty : blockRoom self ≠ 0)
      (read : (nextBlock self).res = 0)
      (failure : (callbacks.fromRead world (nextBlock self).data.length).1 ≠ 0) :
      EngineStep self world
        ⟨DetoolsError.ioFailed.result, { self.afterBlock with state := .failed },
          (callbacks.fromRead world (nextBlock self).data.length).2.2⟩
  | wrote {middle : ApplyPatch} {between : World} {block : List UInt8}
      (nonempty : blockRoom self ≠ 0) (read : (nextBlock self).res = 0)
      (gathered : Gathered callbacks self world middle between block)
      (written : (callbacks.toWrite between block).1 = 0) :
      EngineStep self world ⟨0, middle.handed block, (callbacks.toWrite between block).2⟩
  | writeFailed {middle : ApplyPatch} {between : World} {block : List UInt8}
      (nonempty : blockRoom self ≠ 0) (read : (nextBlock self).res = 0)
      (gathered : Gathered callbacks self world middle between block)
      (failure : (callbacks.toWrite between block).1 ≠ 0) :
      EngineStep self world
        ⟨DetoolsError.ioFailed.result, { middle.handed block with state := .failed },
          (callbacks.toWrite between block).2⟩
  | sought (state : self.state = .adjustment) (read : (nextSize self).res = 0)
      (found : (callbacks.fromSeek world (nextSize self).size).1 = 0) :
      EngineStep self world
        ⟨0, { self.afterSize with
          fromOffset := intT (self.fromOffset + (nextSize self).size)
          state := if self.toOffset = self.toSize then .done else .diffSize },
          (callbacks.fromSeek world (nextSize self).size).2⟩
  | seekFailed (state : self.state = .adjustment) (read : (nextSize self).res = 0)
      (failure : (callbacks.fromSeek world (nextSize self).size).1 ≠ 0) :
      EngineStep self world
        ⟨DetoolsError.ioFailed.result, { self.afterSize with state := .failed },
          (callbacks.fromSeek world (nextSize self).size).2⟩

/-- A failing outcome of the switch, with the state set. -/
def markFailed (stepped : Stepped World) : Stepped World :=
  { stepped with self := { stepped.self with state := .failed } }

theorem applyPatchProcessOnce_failed {self : ApplyPatch} {world : World}
    (negative : (processState callbacks self world).res < 0) :
    applyPatchProcessOnce callbacks self world =
      markFailed (processState callbacks self world) := by
  simp only [applyPatchProcessOnce, if_pos negative, markFailed]

theorem applyPatchProcessOnce_kept {self : ApplyPatch} {world : World}
    (nonneg : ¬ (processState callbacks self world).res < 0) :
    applyPatchProcessOnce callbacks self world = processState callbacks self world := by
  simp only [applyPatchProcessOnce, if_neg nonneg]

/-- The world of a step is the world of the switch. -/
theorem applyPatchProcessOnce_world (self : ApplyPatch) (world : World) :
    (applyPatchProcessOnce callbacks self world).world =
      (processState callbacks self world).world := by
  by_cases negative : (processState callbacks self world).res < 0
  · rw [applyPatchProcessOnce_failed callbacks negative]
    rfl
  · rw [applyPatchProcessOnce_kept callbacks negative]

/-- A switch that rejects makes a step that rejects. -/
theorem engineStep_rejected {self after : ApplyPatch} {world : World} {res : Int}
    (switch : processState callbacks self world = ⟨res, after, world⟩)
    (reason : Rejection self) (error : Rejected res) (offsets : SameOffsets self after) :
    EngineStep callbacks self world (applyPatchProcessOnce callbacks self world) := by
  rw [applyPatchProcessOnce_failed callbacks (by rw [switch]; exact error.1), switch]
  exact .rejected reason error
    ⟨offsets.toOffset, offsets.toSize, offsets.fromOffset, offsets.chunkSize,
      offsets.destroySet⟩ rfl

/-- A switch that does not fail is the step. -/
theorem engineStep_kept {self : ApplyPatch} {world : World} {stepped : Stepped World}
    (switch : processState callbacks self world = stepped) (nonneg : ¬ stepped.res < 0)
    (step : EngineStep callbacks self world stepped) :
    EngineStep callbacks self world (applyPatchProcessOnce callbacks self world) := by
  rw [applyPatchProcessOnce_kept callbacks (by rw [switch]; exact nonneg), switch]
  exact step

/-! ### The states without callbacks -/

theorem processInit_cases (self : ApplyPatch) :
    (processInit self).1 = 0 ∨
      Rejected (processInit self).1 ∧ SameOffsets self (processInit self).2 := by
  unfold processInit
  cases read : chunkGet self.chunk with
  | none => exact Or.inr ⟨DetoolsError.rejected (by decide), rfl, rfl, rfl, rfl, rfl⟩
  | some taken =>
      obtain ⟨-, outcome⟩ := chunkUnpackHeaderSize_left taken.2
      simp only
      split
      next => exact Or.inr ⟨DetoolsError.rejected (by decide), rfl, rfl, rfl, rfl, rfl⟩
      next =>
        split
        next nonzero => exact Or.inr ⟨outcome.resolve_left nonzero, rfl, rfl, rfl, rfl, rfl⟩
        next =>
          split
          next negative => exact absurd negative (by omega)
          next => exact Or.inl rfl

/-! ### The magnitude of a size -/

/-- The seven value bits of a byte are appended above the bits read so far. -/
theorem appendBits_lt {value offset : Nat} (small : value < 2 ^ offset) (byte : UInt8) :
    value ||| (byte &&& 0x7f).toNat <<< offset < 2 ^ (offset + 7) := by
  have digit : (byte &&& 0x7f).toNat < 2 ^ 7 := by
    rw [UInt8.toNat_and]
    exact lt_of_le_of_lt Nat.and_le_right (by decide)
  apply Nat.or_lt_two_pow
  · exact lt_of_lt_of_le small (Nat.pow_le_pow_right (by decide) (by omega))
  · rw [Nat.shiftLeft_eq, pow_add, Nat.mul_comm (2 ^ offset)]
    exact Nat.mul_lt_mul_of_pos_right digit (Nat.two_pow_pos _)

/-- The offsets at which the bytes of a size are appended. -/
def SizeOffset (offset : Nat) : Prop := offset % 7 = 6 ∧ offset ≤ 27

theorem sizeOffset_next {offset : Nat} (valid : SizeOffset offset)
    (fits : ¬ isOverflow offset = true) : SizeOffset (offset + 7) := by
  unfold SizeOffset at valid ⊢
  simp only [isOverflow, decide_eq_true_eq] at fits
  omega

theorem firstBits_lt (byte : UInt8) : (byte &&& 0x3f).toNat < 2 ^ 6 := by
  rw [UInt8.toNat_and]
  exact lt_of_le_of_lt Nat.and_le_right (by decide)

theorem unpackHeaderLoop_lt (byte : UInt8) (size offset : Nat) (chunk : Chunk)
    (small : size < 2 ^ offset) (valid : SizeOffset offset) :
    (unpackHeaderLoop byte size offset chunk).2.1 < 2 ^ 27 := by
  have widen {value bits : Nat} (low : value < 2 ^ bits) (bound : SizeOffset bits) :
      value < 2 ^ 27 := lt_of_lt_of_le low (Nat.pow_le_pow_right (by decide) bound.2)
  fun_induction unpackHeaderLoop byte size offset chunk
  case case1 => exact widen small valid
  case case2 => exact widen small valid
  case case3 fits inductionHypothesis =>
    exact inductionHypothesis (appendBits_lt small _) (sizeOffset_next valid fits)
  case case4 => exact widen small valid

theorem chunkUnpackHeaderSize_lt (chunk : Chunk) :
    (chunkUnpackHeaderSize chunk).2.1 < 2 ^ 27 := by
  unfold chunkUnpackHeaderSize
  cases chunkGet chunk with
  | none => exact Nat.two_pow_pos 27
  | some taken =>
      exact unpackHeaderLoop_lt taken.1 _ 6 taken.2 (firstBits_lt taken.1) ⟨rfl, by decide⟩

theorem processInit_patchOffset (self : ApplyPatch) :
    (processInit self).2.patchOffset = self.patchOffset := by
  unfold processInit
  cases chunkGet self.chunk with
  | none => rfl
  | some taken =>
      simp only
      split
      next => rfl
      next =>
        split
        next => rfl
        next => split <;> rfl

/-- What reading the header leaves behind. -/
structure Opened (before after : ApplyPatch) : Prop where
  header : ∃ byte rest, chunkGet before.chunk = some (byte, rest) ∧
    (byte >>> 4 &&& 0x7).toNat = patchTypeSequential ∧
    chunkUnpackHeaderSize rest = (0, after.toSize, after.chunk)
  state : after.state = if 0 < after.toSize then .dfpatchSize else .done
  toOffset : after.toOffset = 0
  fromOffset : after.fromOffset = before.fromOffset
  patchReader : after.patchReader = patchReaderInit before.patchReader

theorem processInit_opened {self : ApplyPatch} (success : (processInit self).1 = 0) :
    Opened self (processInit self).2 := by
  cases read : chunkGet self.chunk with
  | none =>
      rw [processInit, read] at success
      exact absurd success (DetoolsError.result_neg _).ne
  | some taken =>
      have small := chunkUnpackHeaderSize_lt taken.2
      rw [processInit, read] at success ⊢
      simp only at success ⊢
      by_cases type : (taken.1 >>> 4 &&& 0x7).toNat ≠ patchTypeSequential
      · rw [if_pos type] at success
        exact absurd success (DetoolsError.result_neg _).ne
      · rw [if_neg type] at success ⊢
        by_cases header : (chunkUnpackHeaderSize taken.2).1 ≠ 0
        · rw [if_pos header] at success
          exact absurd success header
        · rw [if_neg header] at success ⊢
          rw [if_neg (by omega)] at success ⊢
          have value : sizeOfInt ((chunkUnpackHeaderSize taken.2).2.1 : Int) =
              (chunkUnpackHeaderSize taken.2).2.1 := by
            rw [sizeOfInt_of_nonneg (by omega) (by omega), Int.toNat_natCast]
          refine ⟨⟨taken.1, taken.2, read, not_not.mp type, ?_⟩, ?_, rfl, rfl, rfl⟩
          · rw [value]
            exact Prod.ext (not_not.mp header) rfl
          · rw [value]
            simp only [gt_iff_lt, Nat.cast_pos]

theorem Opened.toSize_lt {before after : ApplyPatch} (opened : Opened before after) :
    after.toSize < 2 ^ 27 := by
  obtain ⟨-, rest, -, -, header⟩ := opened.header
  have small := chunkUnpackHeaderSize_lt rest
  rw [header] at small
  exact small

/-- A size is read, or the chunk is used up, or the patch is rejected. -/
theorem nextSize_cases (self : ApplyPatch) :
    (nextSize self).res = 0 ∨ (nextSize self).res = 1 ∨ Rejected (nextSize self).res := by
  cases patchReaderUnpackSize_bound self.patchReader self.chunk with
  | read res => exact Or.inl res
  | starved res => exact Or.inr (Or.inl res)
  | failed res => exact Or.inr (Or.inr res)

/-- Without a size the engine waits or rejects, whichever size it is. -/
theorem engineStep_noSize {self : ApplyPatch} (reads : self.state.ReadsSize)
    (missing : (nextSize self).res ≠ 0) {world : World}
    (switch : processState callbacks self world =
      ⟨(nextSize self).res, self.afterSize, world⟩) :
    EngineStep callbacks self world (applyPatchProcessOnce callbacks self world) := by
  rcases nextSize_cases self with zero | one | error
  · exact absurd zero missing
  · rw [one] at switch
    exact engineStep_kept callbacks switch (by simp) (.waitingSize reads one)
  · exact engineStep_rejected callbacks switch (.size reads error) error (afterSize_same self)

theorem processInit_step {self : ApplyPatch} (state : self.state = .init) (world : World) :
    EngineStep callbacks self world (applyPatchProcessOnce callbacks self world) := by
  have switch : processState callbacks self world =
      ⟨(processInit self).1, (processInit self).2, world⟩ := by
    simp only [processState, state]
  rcases processInit_cases self with zero | ⟨error, offsets⟩
  · apply engineStep_kept callbacks switch (by simp [zero])
    rw [zero]
    exact .opened state zero
  · exact engineStep_rejected callbacks switch (.header state error) error offsets

theorem processDfpatchSize_eq (self : ApplyPatch) :
    processDfpatchSize self =
      if (nextSize self).res ≠ 0 then ((nextSize self).res, self.afterSize)
      else if (nextSize self).size > 0 then (DetoolsError.notImplemented.result, self.afterSize)
      else (0, { self.afterSize with state := .diffSize }) := rfl

theorem processDfpatchSize_step {self : ApplyPatch} (state : self.state = .dfpatchSize)
    (world : World) :
    EngineStep callbacks self world (applyPatchProcessOnce callbacks self world) := by
  have switch : processState callbacks self world =
      ⟨(processDfpatchSize self).1, (processDfpatchSize self).2, world⟩ := by
    simp only [processState, state]
  have reads : self.state.ReadsSize := Or.inl state
  rw [processDfpatchSize_eq] at switch
  by_cases missing : (nextSize self).res ≠ 0
  · rw [if_pos missing] at switch
    exact engineStep_noSize callbacks reads missing switch
  · have zero := not_not.mp missing
    rw [if_neg missing] at switch
    by_cases positive : (nextSize self).size > 0
    · rw [if_pos positive] at switch
      exact engineStep_rejected callbacks switch (.dfpatch state zero positive)
        (DetoolsError.rejected (by decide)) (afterSize_same self)
    · rw [if_neg positive] at switch
      exact engineStep_kept callbacks switch (by simp) (.dfpatch state zero (by omega))

theorem processSize_eq (self : ApplyPatch) (nextState : ApplyPatchState) :
    processSize self nextState =
      if (nextSize self).res ≠ 0 then ((nextSize self).res, self.afterSize)
      else if SizeFits self then
        (0, { self.afterSize with
          state := nextState, chunkSize := sizeOfInt (nextSize self).size })
      else (DetoolsError.corruptPatch.result, self.afterSize) := by
  by_cases zero : (patchReaderUnpackSize self.patchReader self.chunk).res = 0
  · by_cases fits : SizeFits self
    · have notLong : ¬ sizeT (self.toOffset +
          sizeOfInt (patchReaderUnpackSize self.patchReader self.chunk).size) > self.toSize :=
        not_lt.mpr fits
      simp only [processSize, commonProcessSize, nextSize, ApplyPatch.afterSize, zero, ne_eq,
        not_true, if_false, if_neg notLong, if_pos fits]
    · have long : sizeT (self.toOffset +
          sizeOfInt (patchReaderUnpackSize self.patchReader self.chunk).size) > self.toSize :=
        not_le.mp fits
      have error : DetoolsError.corruptPatch.result ≠ 0 := by decide
      simp only [processSize, commonProcessSize, nextSize, ApplyPatch.afterSize, zero, ne_eq,
        not_true, if_false, if_pos long, if_neg fits, error, not_false_iff, if_true]
  · simp only [processSize, commonProcessSize, nextSize, ApplyPatch.afterSize, zero, ne_eq,
      not_false_iff, if_true]

theorem processSize_step {self : ApplyPatch} {next : ApplyPatchState}
    (states : SizedBy self.state next) (world : World) :
    EngineStep callbacks self world (applyPatchProcessOnce callbacks self world) := by
  have switch : processState callbacks self world =
      ⟨(processSize self next).1, (processSize self next).2, world⟩ := by
    generalize state : self.state = before at states
    cases states <;> simp only [processState, state, processDiffSize, processExtraSize]
  have part : self.state = .diffSize ∨ self.state = .extraSize := by
    generalize self.state = before at states
    cases states <;> simp
  have reads := states.reads.1
  rw [processSize_eq] at switch
  by_cases missing : (nextSize self).res ≠ 0
  · rw [if_pos missing] at switch
    exact engineStep_noSize callbacks reads missing switch
  · have zero := not_not.mp missing
    rw [if_neg missing] at switch
    by_cases fits : SizeFits self
    · rw [if_pos fits] at switch
      exact engineStep_kept callbacks switch (by simp) (.sized states zero fits)
    · rw [if_neg fits] at switch
      exact engineStep_rejected callbacks switch (.tooLong part zero fits)
        (DetoolsError.rejected (by decide)) (afterSize_same self)

/-! ### The states with callbacks -/

theorem processData_empty {self : ApplyPatch} (empty : self.chunkSize = 0) (world : World)
    (nextState : ApplyPatchState) :
    processData callbacks self world nextState = ⟨0, { self with state := nextState }, world⟩ := by
  simp [processData, empty]

theorem processData_stopped {self : ApplyPatch} (nonempty : blockRoom self ≠ 0)
    (stopped : (nextBlock self).res ≠ 0) (world : World) (nextState : ApplyPatchState) :
    processData callbacks self world nextState =
      ⟨(nextBlock self).res, self.afterBlock, world⟩ := by
  simp only [processData, ← blockRoom.eq_1, if_neg nonempty, ← nextBlock.eq_1, if_pos stopped,
    ApplyPatch.afterBlock]

theorem processDiffData_block {self : ApplyPatch} (nonempty : blockRoom self ≠ 0)
    (read : (nextBlock self).res = 0) (world : World) :
    processDiffData callbacks self world =
      addSource callbacks self.afterBlock world (nextBlock self).data := by
  simp only [processDiffData, processData, ← blockRoom.eq_1, if_neg nonempty, ← nextBlock.eq_1,
    read, ne_eq, not_true, if_false, if_true, ApplyPatch.afterBlock]

/-- Reading the source is all that is called back, or a block is written behind it. -/
theorem addSource_world (self : ApplyPatch) (world : World) (data : List UInt8) :
    (addSource callbacks self world data).world =
        (callbacks.fromRead world data.length).2.2 ∨
      ∃ block, (addSource callbacks self world data).world =
        (callbacks.toWrite (callbacks.fromRead world data.length).2.2 block).2 := by
  simp only [addSource, writeBlock]
  split
  next => exact Or.inl rfl
  next => exact Or.inr ⟨_, by split <;> rfl⟩

theorem processExtraData_block {self : ApplyPatch} (nonempty : blockRoom self ≠ 0)
    (read : (nextBlock self).res = 0) (world : World) :
    processExtraData callbacks self world =
      writeBlock callbacks self.afterBlock world (nextBlock self).data := by
  have other : ApplyPatchState.adjustment ≠ .extraSize := by decide
  simp only [processExtraData, processData, ← blockRoom.eq_1, if_neg nonempty, ← nextBlock.eq_1,
    read, ne_eq, not_true, if_false, if_neg other, ApplyPatch.afterBlock]

/-- A decompression stores a block, or waits, or is rejected. -/
theorem nextBlock_cases {self : ApplyPatch} (nonempty : blockRoom self ≠ 0) :
    (nextBlock self).res = 0 ∨ (nextBlock self).res = 1 ∨ Rejected (nextBlock self).res := by
  rcases patchReaderDecompress_bound self.patchReader self.chunk (blockRoom self) (by omega) with
    filled | starved | failed
  · exact Or.inl filled.res
  · exact Or.inr (Or.inl starved.res)
  · exact Or.inr (Or.inr failed)

/-- A block is handed to the writer and the engine moves on, or fails. -/
theorem writeBlock_step {self middle : ApplyPatch} {world between : World} {block : List UInt8}
    (switch : processState callbacks self world = writeBlock callbacks middle between block)
    (nonempty : blockRoom self ≠ 0) (read : (nextBlock self).res = 0)
    (gathered : Gathered callbacks self world middle between block) :
    EngineStep callbacks self world (applyPatchProcessOnce callbacks self world) := by
  by_cases written : (callbacks.toWrite between block).1 = 0
  · have value : writeBlock callbacks middle between block =
        ⟨0, middle.handed block, (callbacks.toWrite between block).2⟩ := by
      simp only [writeBlock, written, ne_eq, not_true, if_false, ApplyPatch.handed]
    rw [value] at switch
    exact engineStep_kept callbacks switch (by simp) (.wrote nonempty read gathered written)
  · have value : writeBlock callbacks middle between block =
        ⟨DetoolsError.ioFailed.result, middle.handed block,
          (callbacks.toWrite between block).2⟩ := by
      simp only [writeBlock, ne_eq, written, not_false_iff, if_true, ApplyPatch.handed]
    rw [value] at switch
    rw [applyPatchProcessOnce_failed callbacks
      (by rw [switch]; exact DetoolsError.result_neg _), switch]
    exact .writeFailed nonempty read gathered written

theorem processDiffData_step {self : ApplyPatch} (state : self.state = .diffData)
    (nonempty : blockRoom self ≠ 0) (read : (nextBlock self).res = 0) (world : World) :
    EngineStep callbacks self world (applyPatchProcessOnce callbacks self world) := by
  have switch : processState callbacks self world =
      addSource callbacks self.afterBlock world (nextBlock self).data := by
    rw [← processDiffData_block callbacks nonempty read]
    simp only [processState, state]
  by_cases success : (callbacks.fromRead world (nextBlock self).data.length).1 = 0
  · have value : addSource callbacks self.afterBlock world (nextBlock self).data =
        writeBlock callbacks { self.afterBlock with
            fromOffset := intT (self.fromOffset + (nextBlock self).data.length) }
          (callbacks.fromRead world (nextBlock self).data.length).2.2
          ((nextBlock self).data.mapIdx fun index byte =>
            byte + (callbacks.fromRead world (nextBlock self).data.length).2.1 index) := by
      simp only [addSource, success, ne_eq, not_true, if_false]
      rfl
    rw [value] at switch
    exact writeBlock_step callbacks switch nonempty read
      (.diff state (Prod.ext success rfl))
  · have value : addSource callbacks self.afterBlock world (nextBlock self).data =
        ⟨DetoolsError.ioFailed.result, self.afterBlock,
          (callbacks.fromRead world (nextBlock self).data.length).2.2⟩ := by
      simp only [addSource, ne_eq, success, not_false_iff, if_true]
    rw [value] at switch
    rw [applyPatchProcessOnce_failed callbacks
      (by rw [switch]; exact DetoolsError.result_neg _), switch]
    exact .sourceFailed state nonempty read success

theorem processData_step {self : ApplyPatch} {next : ApplyPatchState}
    (states : FollowedBy self.state next) (world : World) :
    EngineStep callbacks self world (applyPatchProcessOnce callbacks self world) := by
  have switch : processState callbacks self world = processData callbacks self world next := by
    generalize state : self.state = before at states
    cases states <;> simp only [processState, state, processDiffData, processExtraData]
  have part : self.state = .diffData ∨ self.state = .extraData := by
    generalize self.state = before at states
    cases states <;> simp
  by_cases nonempty : blockRoom self = 0
  · have empty : self.chunkSize = 0 := by
      unfold blockRoom at nonempty
      omega
    rw [processData_empty callbacks empty] at switch
    exact engineStep_kept callbacks switch (by simp) (.emptied states empty)
  · rcases nextBlock_cases nonempty with zero | one | error
    · rcases part with diff | extra
      · exact processDiffData_step callbacks diff nonempty zero world
      · have block : processState callbacks self world =
            writeBlock callbacks self.afterBlock world (nextBlock self).data := by
          rw [← processExtraData_block callbacks nonempty zero]
          simp only [processState, extra]
        exact writeBlock_step callbacks block nonempty zero (.extra extra)
    · rw [processData_stopped callbacks nonempty (by omega), one] at switch
      exact engineStep_kept callbacks switch (by simp) (.waitingBlock part nonempty one)
    · have negative := error.1
      rw [processData_stopped callbacks nonempty (by omega)] at switch
      exact engineStep_rejected callbacks switch (.block part nonempty error) error
        (afterBlock_same self)

theorem processAdjustment_eq (self : ApplyPatch) (world : World) :
    processAdjustment callbacks self world =
      if (nextSize self).res ≠ 0 then ⟨(nextSize self).res, self.afterSize, world⟩
      else if (callbacks.fromSeek world (nextSize self).size).1 ≠ 0 then
        ⟨DetoolsError.ioFailed.result, self.afterSize,
          (callbacks.fromSeek world (nextSize self).size).2⟩
      else
        ⟨0, { self.afterSize with
          fromOffset := intT (self.fromOffset + (nextSize self).size)
          state := if self.toOffset = self.toSize then .done else .diffSize },
          (callbacks.fromSeek world (nextSize self).size).2⟩ := rfl

theorem processAdjustment_step {self : ApplyPatch} (state : self.state = .adjustment)
    (world : World) :
    EngineStep callbacks self world (applyPatchProcessOnce callbacks self world) := by
  have switch : processState callbacks self world = processAdjustment callbacks self world := by
    simp only [processState, state]
  have reads : self.state.ReadsSize := Or.inr (Or.inr (Or.inr state))
  rw [processAdjustment_eq] at switch
  by_cases missing : (nextSize self).res ≠ 0
  · rw [if_pos missing] at switch
    exact engineStep_noSize callbacks reads missing switch
  · have zero := not_not.mp missing
    rw [if_neg missing] at switch
    by_cases found : (callbacks.fromSeek world (nextSize self).size).1 = 0
    · rw [if_neg (by omega)] at switch
      exact engineStep_kept callbacks switch (by simp) (.sought state zero found)
    · rw [if_pos found] at switch
      rw [applyPatchProcessOnce_failed callbacks
        (by rw [switch]; exact DetoolsError.result_neg _), switch]
      exact .seekFailed state zero found

/-- Every call of `apply_patch_process_once` is one of the listed outcomes. -/
theorem applyPatchProcessOnce_step (self : ApplyPatch) (world : World) :
    EngineStep callbacks self world (applyPatchProcessOnce callbacks self world) := by
  cases state : self.state with
  | init => exact processInit_step callbacks state world
  | dfpatchSize => exact processDfpatchSize_step callbacks state world
  | diffSize => exact processSize_step callbacks (by rw [state]; exact .diff) world
  | diffData => exact processData_step callbacks (by rw [state]; exact .diff) world
  | extraSize => exact processSize_step callbacks (by rw [state]; exact .extra) world
  | extraData => exact processData_step callbacks (by rw [state]; exact .extra) world
  | adjustment => exact processAdjustment_step callbacks state world
  | done =>
      have switch : processState callbacks self world =
          ⟨DetoolsError.alreadyDone.result, self, world⟩ := by
        simp only [processState, state]
      rw [applyPatchProcessOnce_failed callbacks
        (by rw [switch]; exact DetoolsError.result_neg _), switch]
      exact .finished state
  | failed =>
      have switch : processState callbacks self world =
          ⟨DetoolsError.alreadyFailed.result, self, world⟩ := by
        simp only [processState, state]
      exact engineStep_rejected callbacks switch (.failed state)
        (DetoolsError.rejected (by decide)) ⟨rfl, rfl, rfl, rfl, rfl⟩

/-! ### Blocks -/

/-- A block that is handed over has between 1 and 128 bytes. -/
theorem nextBlock_length {self : ApplyPatch} (nonempty : blockRoom self ≠ 0)
    (read : (nextBlock self).res = 0) :
    0 < (nextBlock self).data.length ∧ (nextBlock self).data.length ≤ 128 ∧
      (nextBlock self).data.length ≤ self.chunkSize := by
  have room : blockRoom self ≤ 128 ∧ blockRoom self ≤ self.chunkSize := by
    unfold blockRoom
    omega
  rcases patchReaderDecompress_bound self.patchReader self.chunk (blockRoom self) (by omega) with
    filled | starved | failed
  · exact ⟨filled.nonempty, filled.within.trans room.1, filled.within.trans room.2⟩
  · exact absurd (starved.res.symm.trans read) (by decide)
  · have negative := failed.1
    rw [← nextBlock, read] at negative
    exact absurd negative (lt_irrefl _)

/-! ### Failure -/

section

variable {callbacks} {self : ApplyPatch} {world : World} {stepped : Stepped World}

/-- Where neither a size nor a block is read nothing is called back: the engine opens
the patch, says that it is done, or rejects. -/
theorem EngineStep.quiet (step : EngineStep callbacks self world stepped)
    (size : ¬ self.state.ReadsSize)
    (block : ¬ (self.state = .diffData ∨ self.state = .extraData)) :
    (self.state = .init ∧ (processInit self).1 = 0 ∧
        stepped = ⟨0, (processInit self).2, world⟩) ∨
      (self.state = .done ∧
        stepped = ⟨DetoolsError.alreadyDone.result, { self with state := .failed }, world⟩) ∨
      ((self.state = .init ∧ (processInit self).1 ≠ 0 ∨ self.state = .failed) ∧
        Rejected stepped.res ∧ stepped.self.state = .failed ∧ stepped.world = world) := by
  cases step with
  | opened state header => exact Or.inl ⟨state, header, rfl⟩
  | finished state => exact Or.inr (Or.inl ⟨state, rfl⟩)
  | rejected reason error offsets failed =>
      refine Or.inr (Or.inr ⟨?_, error, failed, rfl⟩)
      cases reason with
      | header state error => exact Or.inl ⟨state, error.1.ne⟩
      | failed state => exact Or.inr state
      | size reads => exact absurd reads size
      | dfpatch state => exact absurd (Or.inl state) size
      | tooLong part =>
          rcases part with diff | extra
          · exact absurd (Or.inr (Or.inl diff)) size
          · exact absurd (Or.inr (Or.inr (Or.inl extra))) size
      | block reads => exact absurd reads block
  | waitingSize reads => exact absurd reads size
  | waitingBlock reads => exact absurd reads block
  | dfpatch state => exact absurd (Or.inl state) size
  | sized states => exact absurd states.reads.1 size
  | emptied states => exact absurd states.reads.1 block
  | sourceFailed state => exact absurd (Or.inl state) block
  | wrote _ _ gathered => exact absurd gathered.frame.1 block
  | writeFailed _ _ gathered => exact absurd gathered.frame.1 block
  | sought state => exact absurd (Or.inr (Or.inr (Or.inr state))) size
  | seekFailed state => exact absurd (Or.inr (Or.inr (Or.inr state))) size

/-- An engine that has failed rejects and calls nothing back. -/
theorem EngineStep.of_failed (step : EngineStep callbacks self world stepped)
    (state : self.state = .failed) :
    Rejected stepped.res ∧ stepped.self.state = .failed ∧ stepped.world = world := by
  rcases step.quiet (by simp [ApplyPatchState.ReadsSize, state]) (by simp [state]) with
    opened | finished | rejects
  · exact absurd (state.symm.trans opened.1) (by decide)
  · exact absurd (state.symm.trans finished.1) (by decide)
  · exact rejects.2

theorem EngineStep.failed_stays (step : EngineStep callbacks self world stepped)
    (state : self.state = .failed) : stepped.self.state = .failed := (step.of_failed state).2.1

/-- An engine that is done says so and calls nothing back. -/
theorem EngineStep.of_done (step : EngineStep callbacks self world stepped)
    (state : self.state = .done) :
    stepped = ⟨DetoolsError.alreadyDone.result, { self with state := .failed }, world⟩ := by
  rcases step.quiet (by simp [ApplyPatchState.ReadsSize, state]) (by simp [state]) with
    opened | finished | rejects
  · exact absurd (state.symm.trans opened.1) (by decide)
  · exact finished.2
  · simp [state] at rejects

/-- An engine that reads a good header goes on. -/
theorem EngineStep.of_init (step : EngineStep callbacks self world stepped)
    (state : self.state = .init) (header : (processInit self).1 = 0) : stepped.res = 0 := by
  rcases step.quiet (by simp [ApplyPatchState.ReadsSize, state]) (by simp [state]) with
    opened | finished | rejects
  · rw [opened.2.2]
  · exact absurd (state.symm.trans finished.1) (by decide)
  · simp [state, header] at rejects

theorem EngineStep.res_le (step : EngineStep callbacks self world stepped) :
    stepped.res ≤ 1 := by
  cases step with
  | rejected reason error => exact error.1.le.trans (by decide)
  | finished => exact (DetoolsError.result_neg _).le.trans (by decide)
  | sourceFailed => exact (DetoolsError.result_neg _).le.trans (by decide)
  | writeFailed => exact (DetoolsError.result_neg _).le.trans (by decide)
  | seekFailed => exact (DetoolsError.result_neg _).le.trans (by decide)
  | waitingSize => exact le_refl 1
  | waitingBlock => exact le_refl 1
  | _ => exact Int.zero_le_ofNat 1

/-- Only an engine that is done says that it is. -/
theorem EngineStep.of_alreadyDone (step : EngineStep callbacks self world stepped)
    (result : stepped.res = DetoolsError.alreadyDone.result) : self.state = .done := by
  cases step with
  | rejected reason error => exact absurd result error.2
  | finished state => exact state
  | _ => simp [DetoolsError.result, DetoolsError.code] at result

/-- A step fails exactly when its result is negative. -/
theorem EngineStep.failed_iff (step : EngineStep callbacks self world stepped) :
    stepped.self.state = .failed ↔ stepped.res < 0 := by
  cases step with
  | rejected reason error offsets failed => exact iff_of_true failed error.1
  | finished => exact iff_of_true rfl (DetoolsError.result_neg _)
  | opened state header =>
      refine iff_of_false ?_ (by simp)
      rw [(processInit_opened header).state]
      split <;> simp
  | waitingSize state =>
      refine iff_of_false (fun failed => ?_) (by simp)
      change self.state = .failed at failed
      simp [ApplyPatchState.ReadsSize, failed] at state
  | waitingBlock state =>
      refine iff_of_false (fun failed => ?_) (by simp)
      change self.state = .failed at failed
      simp [failed] at state
  | dfpatch => exact iff_of_false (by simp) (by simp)
  | sized states =>
      refine iff_of_false ?_ (by simp)
      generalize self.state = before at states
      cases states <;> simp
  | emptied states =>
      refine iff_of_false ?_ (by simp)
      generalize self.state = before at states
      cases states <;> simp
  | sourceFailed => exact iff_of_true rfl (DetoolsError.result_neg _)
  | wrote nonempty read gathered =>
      refine iff_of_false ?_ (by simp)
      cases gathered with
      | diff state =>
          show self.state ≠ .failed
          simp [state]
      | extra state =>
          show self.state ≠ .failed
          simp [state]
  | writeFailed => exact iff_of_true rfl (DetoolsError.result_neg _)
  | sought =>
      refine iff_of_false ?_ (by simp)
      simp only
      split <;> simp
  | seekFailed => exact iff_of_true rfl (DetoolsError.result_neg _)

/-- A step of the engine that does not fail leaves the patch offset as it is. -/
theorem engineStep_patchOffset (step : EngineStep callbacks self world stepped)
    (running : stepped.self.state ≠ .failed) : stepped.self.patchOffset = self.patchOffset := by
  cases step with
  | rejected _ _ _ failed => exact absurd failed running
  | finished => exact absurd rfl running
  | opened => exact processInit_patchOffset self
  | sourceFailed => exact absurd rfl running
  | wrote nonempty read gathered => cases gathered <;> rfl
  | writeFailed => exact absurd rfl running
  | seekFailed => exact absurd rfl running
  | _ => rfl

end

end

end DeltaUpdate.Detools
