import DeltaUpdate.Detools.Driver

/-!
Owns the bounds on the sizes of the engine. A size read from the patch is below
`2 ^ 27` in magnitude, and the unsigned check on it keeps the output within the
declared size unless the size is negative and no larger than what has been put out.
-/

namespace DeltaUpdate.Detools

/-! ### The magnitude of a size -/

/-- The bits a size decoder has read so far. -/
def SizeWithin (reader : PatchReader) : Prop :=
  reader.sizeState = .consecutive →
    reader.sizeValue < 2 ^ reader.sizeOffset ∧ SizeOffset reader.sizeOffset

theorem SizeWithin.of_same {before after : PatchReader} (within : SizeWithin before)
    (same : SameSizes before after) : SizeWithin after := by
  intro state
  rw [same.sizeState] at state
  rw [same.sizeValue, same.sizeOffset]
  exact within state

theorem SizeWithin.value_lt {reader : PatchReader} (within : SizeWithin reader)
    (state : reader.sizeState = .consecutive) : reader.sizeValue < 2 ^ 27 := by
  obtain ⟨small, valid⟩ := within state
  exact lt_of_lt_of_le small (Nat.pow_le_pow_right (by decide) valid.2)

/-- What unpacking a size does to the bits read so far. -/
structure SmallSize (outcome : Unpacked) : Prop where
  within : SizeWithin outcome.reader
  low : -2 ^ 27 < outcome.size
  high : outcome.size < 2 ^ 27

theorem finishSize_small {reader : PatchReader} (within : SizeWithin reader)
    (state : reader.sizeState = .consecutive) (chunk : Chunk) :
    SmallSize (finishSize reader chunk) := by
  have small := within.value_lt state
  unfold finishSize
  refine ⟨fun again => by simp at again, ?_, ?_⟩ <;> simp only <;> split <;> omega

theorem patchReaderUnpackSize_small {reader : PatchReader} (chunk : Chunk)
    (within : SizeWithin reader) : SmallSize (patchReaderUnpackSize reader chunk) := by
  have kept {reader : PatchReader} (within : SizeWithin reader) (chunk : Chunk) :
      SizeWithin (patchReaderDecompress reader chunk 1).reader :=
    within.of_same (patchReaderDecompress_sizes reader chunk 1)
  have next {reader : PatchReader} (within : SizeWithin reader)
      (state : reader.sizeState = .consecutive) (fits : ¬ isOverflow reader.sizeOffset = true)
      (byte : UInt8) :
      reader.sizeValue ||| (byte &&& 0x7f).toNat <<< reader.sizeOffset <
          2 ^ (reader.sizeOffset + 7) ∧ SizeOffset (reader.sizeOffset + 7) := by
    obtain ⟨small, valid⟩ := within state
    exact ⟨appendBits_lt small byte, sizeOffset_next valid fits⟩
  have first : SizeOffset 6 := ⟨rfl, by decide⟩
  fun_induction patchReaderUnpackSize reader chunk
  case case1 => exact ⟨kept within _, by norm_num, by norm_num⟩
  case case2 inductionHypothesis =>
    exact inductionHypothesis fun _ => ⟨firstBits_lt _, first⟩
  case case3 =>
    exact finishSize_small (fun _ => ⟨firstBits_lt _, first⟩) rfl _
  case case4 => exact ⟨kept within _, by norm_num, by norm_num⟩
  case case5 reader chunk read ok byte state fits next' _ more inductionHypothesis =>
    exact inductionHypothesis fun _ => next within state fits _
  case case6 reader chunk read ok byte state fits next' _ more =>
    exact finishSize_small (fun _ => next within state fits _) rfl _

/-! ### The reader of a run -/

/-- The reader is set up when the header has been read, and its size decoder is sound. -/
structure ReaderSound (engine : ApplyPatch) : Prop where
  unread : engine.state = .init → engine.patchReader.destroySet = false
  opened : engine.state ≠ .init → engine.state ≠ .failed →
    engine.patchReader.destroySet = true ∧ SizeWithin engine.patchReader
  declared : engine.patchReader.destroySet = true → engine.toSize < 2 ^ 27

theorem ReaderSound.nextSize {self : ApplyPatch} (sound : ReaderSound self)
    (opened : self.state ≠ .init) (running : self.state ≠ .failed) : SmallSize (nextSize self) :=
  patchReaderUnpackSize_small self.chunk (sound.opened opened running).2

theorem ReaderSound.afterSize {self : ApplyPatch} (sound : ReaderSound self)
    (opened : self.state ≠ .init) (running : self.state ≠ .failed) :
    self.afterSize.patchReader.destroySet = true ∧ SizeWithin self.afterSize.patchReader :=
  ⟨(afterSize_same self).destroySet.trans (sound.opened opened running).1,
    (sound.nextSize opened running).within⟩

theorem ReaderSound.afterBlock {self : ApplyPatch} (sound : ReaderSound self)
    (opened : self.state ≠ .init) (running : self.state ≠ .failed) :
    self.afterBlock.patchReader.destroySet = true ∧ SizeWithin self.afterBlock.patchReader :=
  ⟨(afterBlock_same self).destroySet.trans (sound.opened opened running).1,
    (sound.opened opened running).2.of_same (patchReaderDecompress_sizes _ _ _)⟩

theorem readerSound_opened {self : ApplyPatch} (opened : self.state ≠ .init)
    (reader : self.patchReader.destroySet = true ∧ SizeWithin self.patchReader)
    (declared : self.toSize < 2 ^ 27) : ReaderSound self :=
  ⟨fun state => absurd state opened, fun _ _ => reader, fun _ => declared⟩

theorem ReaderSound.declared_lt {self : ApplyPatch} (sound : ReaderSound self)
    (opened : self.state ≠ .init) (running : self.state ≠ .failed) : self.toSize < 2 ^ 27 :=
  sound.declared (sound.opened opened running).1

theorem ReaderSound.failed {self after : ApplyPatch} (sound : ReaderSound self)
    (failed : after.state = .failed) (offsets : SameOffsets self after) : ReaderSound after := by
  refine ⟨fun state => by simp [failed] at state, fun _ running => absurd failed running, ?_⟩
  rw [offsets.destroySet, offsets.toSize]
  exact sound.declared

theorem ApplyPatchState.ReadsSize.running {state : ApplyPatchState} (reads : state.ReadsSize) :
    state ≠ .init ∧ state ≠ .failed := by
  rcases reads with rfl | rfl | rfl | rfl <;> decide

/-- A state in which blocks are read. -/
theorem readsBlock_running {state : ApplyPatchState}
    (reads : state = .diffData ∨ state = .extraData) : state ≠ .init ∧ state ≠ .failed := by
  rcases reads with rfl | rfl <;> decide

theorem readerSound_init (stack : ApplyPatch) (patchSize : Nat) :
    ReaderSound (detoolsApplyPatchInit stack patchSize) :=
  ⟨fun _ => rfl, fun opened => absurd rfl opened,
    fun set => by simp [detoolsApplyPatchInit] at set⟩

section

variable {World : Type} {callbacks : Callbacks World}

/-- A step that does not fail only reads the chunk on. -/
theorem EngineStep.chunkLeft {self : ApplyPatch} {world : World} {stepped : Stepped World}
    (step : EngineStep callbacks self world stepped) (running : stepped.self.state ≠ .failed) :
    Detools.chunkLeft stepped.self.chunk ≤ Detools.chunkLeft self.chunk := by
  have size := patchReaderUnpackSize_chunkLeft self.patchReader self.chunk
  have block := patchReaderDecompress_chunkLeft self.patchReader self.chunk (blockRoom self)
  cases step with
  | rejected _ _ _ failed => exact absurd failed running
  | finished => exact absurd rfl running
  | opened state header =>
      obtain ⟨byte, rest, read, -, unpacked⟩ := (processInit_opened header).header
      have first := chunkGet_left read
      have others := (chunkUnpackHeaderSize_left rest).1
      rw [unpacked] at others
      change Detools.chunkLeft (processInit self).2.chunk ≤ _ at others
      change Detools.chunkLeft (processInit self).2.chunk ≤ _
      omega
  | waitingSize => exact size
  | waitingBlock => exact block
  | dfpatch => exact size
  | sized => exact size
  | emptied => exact le_refl _
  | sourceFailed => exact absurd rfl running
  | wrote nonempty read gathered => cases gathered <;> exact block
  | writeFailed => exact absurd rfl running
  | sought => exact size
  | seekFailed => exact absurd rfl running

/-- A step keeps the reader sound. -/
theorem ReaderSound.step {self : ApplyPatch} {world : World} {stepped : Stepped World}
    (sound : ReaderSound self) (step : EngineStep callbacks self world stepped) :
    ReaderSound stepped.self := by
  cases step with
  | rejected _ _ offsets failed => exact sound.failed failed offsets
  | finished => exact sound.failed rfl ⟨rfl, rfl, rfl, rfl, rfl⟩
  | opened state header =>
      have opened := processInit_opened header
      refine readerSound_opened ?_ ?_ opened.toSize_lt
      · rw [opened.state]
        split <;> simp
      · rw [opened.patchReader]
        exact ⟨rfl, fun again => by simp [patchReaderInit, patchReaderHeatshrinkInit] at again⟩
  | waitingSize state =>
      obtain ⟨opened, running⟩ := state.running
      exact readerSound_opened opened (sound.afterSize opened running)
        (sound.declared_lt opened running)
  | waitingBlock state =>
      obtain ⟨opened, running⟩ := readsBlock_running state
      exact readerSound_opened opened (sound.afterBlock opened running)
        (sound.declared_lt opened running)
  | dfpatch state =>
      have opened : self.state ≠ .init := by simp [state]
      have running : self.state ≠ .failed := by simp [state]
      exact readerSound_opened (by simp) (sound.afterSize opened running)
        (sound.declared_lt opened running)
  | sized states =>
      obtain ⟨reads, next⟩ := states.reads
      obtain ⟨opened, running⟩ := reads.running
      exact readerSound_opened next (sound.afterSize opened running)
        (sound.declared_lt opened running)
  | emptied states =>
      obtain ⟨reads, next⟩ := states.reads
      obtain ⟨opened, running⟩ := readsBlock_running reads
      exact readerSound_opened next (sound.opened opened running)
        (sound.declared_lt opened running)
  | sourceFailed => exact sound.failed rfl ⟨rfl, rfl, rfl, rfl, (afterBlock_same self).destroySet⟩
  | @wrote middle between block nonempty read gathered =>
      obtain ⟨state, middleState, reader, -, toSize, -⟩ := gathered.frame
      obtain ⟨opened, running⟩ := readsBlock_running state
      apply readerSound_opened
      · show middle.state ≠ .init
        rw [middleState]
        exact opened
      · show middle.patchReader.destroySet = true ∧ SizeWithin middle.patchReader
        rw [reader]
        exact sound.afterBlock opened running
      · change middle.toSize < _
        rw [toSize]
        exact sound.declared_lt opened running
  | @writeFailed middle between block nonempty read gathered =>
      obtain ⟨state, -, reader, -, toSize, -⟩ := gathered.frame
      obtain ⟨opened, running⟩ := readsBlock_running state
      refine ⟨fun init => by simp at init, fun _ running => absurd rfl running, fun _ => ?_⟩
      change middle.toSize < _
      rw [toSize]
      exact sound.declared_lt opened running
  | sought state =>
      have opened : self.state ≠ .init := by simp [state]
      have running : self.state ≠ .failed := by simp [state]
      refine readerSound_opened ?_ (sound.afterSize opened running)
        (sound.declared_lt opened running)
      simp only
      split <;> simp
  | seekFailed => exact sound.failed rfl ⟨rfl, rfl, rfl, rfl, (afterSize_same self).destroySet⟩

/-! ### The output of a run -/

/-- The size the next step reads is negative, and the check does not reject it. -/
structure NegativeSize (engine : ApplyPatch) : Prop where
  state : engine.state = .diffSize ∨ engine.state = .extraSize
  read : (Detools.nextSize engine).res = 0
  negative : (Detools.nextSize engine).size < 0
  within : 0 ≤ engine.toOffset + (Detools.nextSize engine).size

/-- Only a state that reads a size can have a negative one at hand. -/
theorem NegativeSize.elsewhere {self : ApplyPatch} {state : ApplyPatchState}
    (same : self.state = state) (other : state ≠ .diffSize ∧ state ≠ .extraSize) :
    ¬ NegativeSize self := by
  intro negative
  rcases negative.state with diff | extra
  · exact other.1 (same.symm.trans diff)
  · exact other.2 (same.symm.trans extra)

theorem NegativeSize.inBlock {self : ApplyPatch}
    (reads : self.state = .diffData ∨ self.state = .extraData) : ¬ NegativeSize self := by
  rcases reads with diff | extra
  · exact NegativeSize.elsewhere diff (by decide)
  · exact NegativeSize.elsewhere extra (by decide)

/-- The output of an engine that has read the header is within the declared size. -/
structure OutputWithin (engine : ApplyPatch) : Prop where
  offset : engine.toOffset ≤ engine.toSize
  chunk : engine.state = .diffData ∨ engine.state = .extraData →
    engine.chunkSize ≤ engine.toSize - engine.toOffset

/-- The invariant behind `OutputWithin`. -/
structure Bounded (engine : ApplyPatch) : Prop extends ReaderSound engine where
  output : engine.patchReader.destroySet = true → OutputWithin engine

/-- A size that passes the check fits into the rest of the output, unless it is negative. -/
theorem sizeFits_within {self : ApplyPatch} (small : SmallSize (Detools.nextSize self))
    (declared : self.toSize < 2 ^ 27) (offset : self.toOffset ≤ self.toSize)
    (fits : SizeFits self)
    (notNegative : ¬ ((Detools.nextSize self).size < 0 ∧
      0 ≤ self.toOffset + (Detools.nextSize self).size)) :
    sizeOfInt (Detools.nextSize self).size ≤ self.toSize - self.toOffset := by
  have low := small.low
  have high := small.high
  unfold SizeFits at fits
  by_cases negative : (Detools.nextSize self).size < 0
  · rw [sizeOfInt_of_neg negative (by omega), sizeT_of_lt (by omega)] at fits
    omega
  · rw [sizeOfInt_of_nonneg (by omega) (by omega)] at fits ⊢
    rw [sizeT_of_lt (by omega)] at fits
    omega

/-- A negative size that passes the check leaves more to put out than has been declared. -/
theorem negativeSize_exceeds {self : ApplyPatch} (small : SmallSize (Detools.nextSize self))
    (declared : self.toSize < 2 ^ 27) (negative : NegativeSize self) :
    self.toSize < sizeOfInt (Detools.nextSize self).size := by
  have low := small.low
  rw [sizeOfInt_of_neg negative.negative (by omega)]
  omega

/-- A negative size up to what has been put out passes the check. -/
theorem negativeSize_fits {self : ApplyPatch} (small : SmallSize (Detools.nextSize self))
    (declared : self.toSize < 2 ^ 27) (offset : self.toOffset ≤ self.toSize)
    (negative : NegativeSize self) : SizeFits self := by
  have low := small.low
  have within := negative.within
  have below := negative.negative
  unfold SizeFits
  rw [sizeOfInt_of_neg below (by omega), sizeT]
  omega

theorem outputWithin_other {engine : ApplyPatch} (offset : engine.toOffset ≤ engine.toSize)
    (state : engine.state ≠ .diffData ∧ engine.state ≠ .extraData) : OutputWithin engine :=
  ⟨offset, fun data => by
    rcases data with diff | extra
    · exact absurd diff state.1
    · exact absurd extra state.2⟩

theorem SameOffsets.outputWithin {before after : ApplyPatch} (same : SameOffsets before after)
    (output : OutputWithin before)
    (state : after.state ≠ .diffData ∧ after.state ≠ .extraData ∨ after.state = before.state) :
    OutputWithin after := by
  rcases state with other | kept
  · exact outputWithin_other (by rw [same.toOffset, same.toSize]; exact output.offset) other
  · refine ⟨by rw [same.toOffset, same.toSize]; exact output.offset, fun data => ?_⟩
    rw [same.chunkSize, same.toOffset, same.toSize]
    exact output.chunk (kept ▸ data)

/-- A block that is handed over is output that had been left. -/
theorem Gathered.handed_within {self middle : ApplyPatch} {world between : World}
    {block : List UInt8} (gathered : Gathered callbacks self world middle between block)
    (within : block.length ≤ self.chunkSize) (declared : self.toSize < 2 ^ 27)
    (output : OutputWithin self) : OutputWithin (middle.handed block) := by
  obtain ⟨state, -, -, toOffset, toSize, chunkSize, -⟩ := gathered.frame
  have offset := output.offset
  have chunk := output.chunk state
  have moved : (middle.handed block).toOffset = self.toOffset + block.length := by
    simp only [ApplyPatch.handed]
    rw [toOffset, sizeT_of_lt (by omega)]
  have left : (middle.handed block).chunkSize = self.chunkSize - block.length := by
    simp only [ApplyPatch.handed]
    rw [chunkSize]
  have declaredSame : (middle.handed block).toSize = self.toSize := toSize
  refine ⟨?_, fun _ => ?_⟩
  · rw [moved, declaredSame]
    omega
  · rw [moved, declaredSame, left]
    omega

/-- A step keeps the output within the declared size, unless it reads a negative size. -/
theorem Bounded.step {self : ApplyPatch} {world : World} {stepped : Stepped World}
    (bounded : Bounded self) (step : EngineStep callbacks self world stepped)
    (notNegative : ¬ NegativeSize self) : Bounded stepped.self := by
  refine ⟨bounded.toReaderSound.step step, fun read => ?_⟩
  have before (opened : self.state ≠ .init) (running : self.state ≠ .failed) :
      OutputWithin self := bounded.output (bounded.opened opened running).1
  cases step with
  | rejected _ _ offsets failed =>
      have output := bounded.output (by rw [← offsets.destroySet]; exact read)
      exact offsets.outputWithin output (Or.inl (by simp [failed]))
  | finished state =>
      have output := before (by simp [state]) (by simp [state])
      exact outputWithin_other output.offset (by simp)
  | opened state header =>
      have opened := processInit_opened header
      apply outputWithin_other (by simp [opened.toOffset])
      rw [opened.state]
      split <;> simp
  | waitingSize state =>
      have output := before state.running.1 state.running.2
      exact (afterSize_same self).outputWithin output (Or.inr rfl)
  | waitingBlock state =>
      obtain ⟨opened, running⟩ := readsBlock_running state
      exact (afterBlock_same self).outputWithin (before opened running) (Or.inr rfl)
  | dfpatch state =>
      have output := before (by simp [state]) (by simp [state])
      exact outputWithin_other output.offset (by simp)
  | sized states success fits =>
      obtain ⟨reads, -⟩ := states.reads
      obtain ⟨opened, running⟩ := reads.running
      have output := before opened running
      have part : self.state = .diffSize ∨ self.state = .extraSize := by
        generalize self.state = state at states
        cases states <;> simp
      refine ⟨output.offset, fun _ => ?_⟩
      exact sizeFits_within (bounded.nextSize opened running)
        (bounded.declared_lt opened running) output.offset fits
        fun negative => notNegative ⟨part, success, negative.1, negative.2⟩
  | emptied states =>
      obtain ⟨opened, running⟩ := readsBlock_running states.reads.1
      have output := before opened running
      refine outputWithin_other output.offset ?_
      generalize self.state = part at states
      cases states <;> simp
  | sourceFailed state =>
      have output := before (by simp [state]) (by simp [state])
      exact outputWithin_other output.offset (by simp)
  | @wrote middle between block nonempty success gathered =>
      obtain ⟨state, -, -, -, -, -, length⟩ := gathered.frame
      obtain ⟨opened, running⟩ := readsBlock_running state
      have within := nextBlock_length nonempty success
      exact gathered.handed_within (by omega) (bounded.declared_lt opened running)
        (before opened running)
  | @writeFailed middle between block nonempty success gathered =>
      obtain ⟨state, -, -, -, -, -, length⟩ := gathered.frame
      obtain ⟨opened, running⟩ := readsBlock_running state
      have within := nextBlock_length nonempty success
      have handed := gathered.handed_within (by omega) (bounded.declared_lt opened running)
        (before opened running)
      exact outputWithin_other handed.offset (by simp)
  | sought state =>
      have output := before (by simp [state]) (by simp [state])
      refine outputWithin_other output.offset ?_
      simp only
      split <;> simp
  | seekFailed state =>
      have output := before (by simp [state]) (by simp [state])
      exact outputWithin_other output.offset (by simp)

/-- A step that reads a negative size leaves more to put out than has been declared. -/
theorem NegativeSize.exceeds {self : ApplyPatch} (negative : NegativeSize self)
    (bounded : Bounded self) (world : World) :
    (applyPatchProcessOnce callbacks self world).self.patchReader.destroySet = true ∧
      ¬ OutputWithin (applyPatchProcessOnce callbacks self world).self := by
  obtain ⟨opened, running⟩ : self.state ≠ .init ∧ self.state ≠ .failed := by
    rcases negative.state with state | state <;> simp [state]
  obtain ⟨set, -⟩ := bounded.opened opened running
  have declared := bounded.declared set
  have output := bounded.output set
  have small := bounded.nextSize opened running
  have fits := negativeSize_fits small declared output.offset negative
  obtain ⟨next, states⟩ : ∃ next, SizedBy self.state next := by
    rcases negative.state with state | state <;> rw [state]
    · exact ⟨_, .diff⟩
    · exact ⟨_, .extra⟩
  have outcome : applyPatchProcessOnce callbacks self world =
      ⟨0, { self.afterSize with
        state := next, chunkSize := sizeOfInt (Detools.nextSize self).size }, world⟩ := by
    have switch : processState callbacks self world =
        ⟨(processSize self next).1, (processSize self next).2, world⟩ := by
      generalize state : self.state = before at states
      cases states <;> simp only [processState, state, processDiffSize, processExtraSize]
    rw [processSize_eq, if_neg (not_not.mpr negative.read), if_pos fits] at switch
    rw [applyPatchProcessOnce_kept callbacks (by rw [switch]; simp), switch]
  rw [outcome]
  refine ⟨(afterSize_same self).destroySet.trans set, fun within => ?_⟩
  have exceeds := negativeSize_exceeds small declared negative
  have data : next = .diffData ∨ next = .extraData := by
    generalize self.state = before at states
    cases states <;> simp
  have bound := within.chunk data
  have left : self.toSize - self.toOffset ≤ self.toSize := Nat.sub_le _ _
  exact absurd (le_trans bound left) (not_le.mpr exceeds)

end

end DeltaUpdate.Detools
