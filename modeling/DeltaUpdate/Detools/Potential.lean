import DeltaUpdate.Detools.Reader

/-!
Owns the potential of a patch reader: a bound on what it can still output from the
bits its decoder holds and the bytes of its chunk. A byte still in the chunk weighs
more than the same byte in the decoder, so taking one lowers the potential as well.
-/

namespace DeltaUpdate.Detools

open DeltaUpdate.Heatshrink

def readerPotential (reader : PatchReader) (chunk : Chunk) : Nat :=
  outputPotential reader.decoder + 128 * (257 * chunkLeft chunk)

/-- A decompression that stored bytes. -/
structure Filled (size start : Nat) (outcome : Decompressed) : Prop where
  res : outcome.res = 0
  nonempty : 0 < outcome.data.length
  within : outcome.data.length ≤ size
  potential : readerPotential outcome.reader outcome.chunk + outcome.data.length ≤ start

/-- A decompression that needs more input: the chunk is used up. -/
structure Starved (available start : Nat) (outcome : Decompressed) : Prop where
  res : outcome.res = 1
  empty : outcome.data = []
  chunkEmpty : chunkLeft outcome.chunk = 0
  potential : readerPotential outcome.reader outcome.chunk ≤ start
  drops : 0 < available → readerPotential outcome.reader outcome.chunk < start

theorem decompressLoop_bound (reader : PatchReader) (chunk : Chunk) (size left : Nat)
    (data : List UInt8) (positive : 0 < left) (balance : data.length + left = size) :
    Filled size (readerPotential reader chunk + data.length)
        (decompressLoop reader chunk size left data) ∨
      Starved (chunkLeft chunk) (readerPotential reader chunk)
        (decompressLoop reader chunk size left data) ∨
      Rejected (decompressLoop reader chunk size left data).res := by
  fun_induction decompressLoop reader chunk size left data
  case case1 => exact Or.inr (Or.inr (DetoolsError.rejected (by decide)))
  case case2 reader chunk left data polled stored room positiveRes full =>
    obtain ⟨potential, within⟩ := heatshrinkDecoderPoll_bound reader.decoder left
    left
    refine ⟨rfl, ?_, ?_, ?_⟩ <;>
      simp only [stored, room, polled, readerPotential, List.length_append] at * <;> omega
  case case3 => exact Or.inr (Or.inr (DetoolsError.rejected (by decide)))
  case case4 reader chunk left data polled stored room _ rest byte next read taken sunk _
      inductionHypothesis =>
    obtain ⟨potential, within⟩ := heatshrinkDecoderPoll_bound reader.decoder left
    have sinks := heatshrinkDecoderSink_potential polled.2.2 byte
    rcases inductionHypothesis (by omega) (by
      simp only [stored, room, polled, List.length_append]; omega) with filled | starved | failed
    · left
      refine ⟨filled.res, filled.nonempty, filled.within, ?_⟩
      have rest := filled.potential
      simp only [stored, polled, sunk, readerPotential, List.length_append] at *
      omega
    · right; left
      have rest := starved.potential
      refine ⟨starved.res, starved.empty, starved.chunkEmpty, ?_, fun _ => ?_⟩ <;>
        simp only [polled, sunk, readerPotential] at * <;> omega
    · exact Or.inr (Or.inr failed)
  case case5 reader chunk left data polled stored room _ _ read partly =>
    obtain ⟨potential, within⟩ := heatshrinkDecoderPoll_bound reader.decoder left
    left
    refine ⟨rfl, ?_, ?_, ?_⟩ <;>
      simp only [stored, room, polled, readerPotential, List.length_append] at * <;> omega
  case case6 reader chunk left data polled stored room _ _ read nothing =>
    obtain ⟨potential, within⟩ := heatshrinkDecoderPoll_bound reader.decoder left
    right; left
    have empty := chunkGet_none read
    refine ⟨rfl, ?_, empty, ?_, fun available => by omega⟩
    · apply List.eq_nil_of_length_eq_zero
      simp only [stored, room, polled, List.length_append] at *
      omega
    · simp only [polled, readerPotential] at *
      omega

/-- What a decompression can do: store bytes that the potential pays for, use up the
chunk, or fail. -/
theorem patchReaderDecompress_bound (reader : PatchReader) (chunk : Chunk) (size : Nat)
    (positive : 0 < size) :
    Filled size (readerPotential reader chunk) (patchReaderDecompress reader chunk size) ∨
      Starved (chunkLeft chunk) (readerPotential reader chunk)
        (patchReaderDecompress reader chunk size) ∨
      Rejected (patchReaderDecompress reader chunk size).res := by
  unfold patchReaderDecompress patchReaderHeatshrinkDecompress
  split
  next =>
    cases read : chunkGet chunk with
    | none =>
        have empty := chunkGet_none read
        exact Or.inr (Or.inl ⟨rfl, rfl, empty, le_refl _, fun available => by omega⟩)
    | some taken =>
        have left := chunkGet_left read
        simp only
        split
        next => exact Or.inr (Or.inr (DetoolsError.rejected (by decide)))
        next =>
          rcases decompressLoop_bound { reader with
              windowSz2 := (unpackHeatshrinkHeader taken.1).1
              lookaheadSz2 := (unpackHeatshrinkHeader taken.1).2 } taken.2 size size []
              positive (by simp) with filled | starved | failed
          · left
            refine ⟨filled.res, filled.nonempty, filled.within, ?_⟩
            have rest := filled.potential
            simp only [readerPotential, List.length_nil] at *
            omega
          · right; left
            have rest := starved.potential
            refine ⟨starved.res, starved.empty, starved.chunkEmpty, ?_, fun _ => ?_⟩ <;>
              simp only [readerPotential] at * <;> omega
          · exact Or.inr (Or.inr failed)
  next => simpa using decompressLoop_bound reader chunk size size [] positive (by simp)

/-- What unpacking a size can do: read it, use up the chunk, or fail. -/
inductive UnpackBound (available start : Nat) (outcome : Unpacked) : Prop where
  | read (res : outcome.res = 0)
      (potential : readerPotential outcome.reader outcome.chunk < start)
  | starved (res : outcome.res = 1) (chunkEmpty : chunkLeft outcome.chunk = 0)
      (potential : readerPotential outcome.reader outcome.chunk ≤ start)
      (drops : 0 < available → readerPotential outcome.reader outcome.chunk < start)
  | failed (res : Rejected outcome.res)

/-- Bytes read before the rest of a size only strengthen its bound. -/
theorem UnpackBound.before {available available' start start' : Nat} {outcome : Unpacked}
    (rest : UnpackBound available start outcome) (pays : start < start') :
    UnpackBound available' start' outcome := by
  cases rest with
  | read res potential => exact .read res (by omega)
  | starved res chunkEmpty potential drops =>
      exact .starved res chunkEmpty (by omega) (fun _ => by omega)
  | failed res => exact .failed res

theorem patchReaderUnpackSize_bound (reader : PatchReader) (chunk : Chunk) :
    UnpackBound (chunkLeft chunk) (readerPotential reader chunk)
      (patchReaderUnpackSize reader chunk) := by
  have first (reader : PatchReader) (chunk : Chunk)
      (ok : (patchReaderDecompress reader chunk 1).res = 0) :
      readerPotential (patchReaderDecompress reader chunk 1).reader
        (patchReaderDecompress reader chunk 1).chunk < readerPotential reader chunk := by
    rcases patchReaderDecompress_bound reader chunk 1 (by decide) with
      filled | starved | negative
    · have := filled.potential
      have := filled.nonempty
      omega
    · rw [starved.res] at ok; omega
    · exact absurd negative.1 (by omega)
  fun_induction patchReaderUnpackSize reader chunk
  case case1 reader chunk read failed =>
    rcases patchReaderDecompress_bound reader chunk 1 (by decide) with
      filled | starved | negative
    · exact absurd filled.res failed
    · exact .starved starved.res starved.chunkEmpty starved.potential starved.drops
    · exact .failed negative
  case case2 reader chunk read ok _ _ _ _ _ inductionHypothesis =>
    exact inductionHypothesis.before (first reader chunk (by simpa [read] using ok))
  case case3 reader chunk read ok _ _ _ _ _ =>
    exact .read rfl (first reader chunk (by simpa [read] using ok))
  case case4 => exact .failed (DetoolsError.rejected (by decide))
  case case5 reader chunk read ok _ _ _ _ _ _ inductionHypothesis =>
    exact inductionHypothesis.before (first reader chunk (by simpa [read] using ok))
  case case6 reader chunk read ok _ _ _ _ _ _ =>
    exact .read rfl (first reader chunk (by simpa [read] using ok))

end DeltaUpdate.Detools
