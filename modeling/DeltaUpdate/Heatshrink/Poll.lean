import DeltaUpdate.Heatshrink.Steps

/-!
Owns the polling loop of the decoder, its invariant rule, and the bounds on what
a poll may output.
-/

namespace DeltaUpdate.Heatshrink

/-- `heatshrink_decoder_poll` from the top of its loop. -/
def pollLoop (hsd : HeatshrinkDecoder) (oi : OutputInfo) :
    HsdPollRes × OutputInfo × HeatshrinkDecoder :=
  let next := pollStep hsd oi
  if stays : next.1.state = hsd.state then
    (if next.2.out.length = next.2.bufSize then .more else .empty, next.2, next.1)
  else
    have := pollStep_measure hsd oi stays
    pollLoop next.1 next.2
termination_by pollMeasure hsd

/-- `heatshrink_decoder_poll`: the result, the bytes written and the decoder. -/
def heatshrinkDecoderPoll (hsd : HeatshrinkDecoder) (outBufSize : Nat) :
    HsdPollRes × List UInt8 × HeatshrinkDecoder :=
  let polled := pollLoop hsd { bufSize := outBufSize, out := [] }
  (polled.1, polled.2.1.out, polled.2.2)

/-! ### Output bounds -/

/-- Reading bits never raises the bound. -/
theorem getBits_outputPotential (hsd : HeatshrinkDecoder) (count : Nat) :
    outputPotential (getBits hsd count).2 ≤ outputPotential hsd := by
  have drop := getBits_potential_le hsd count
  unfold outputPotential
  rw [getBits_outputCount]
  omega

/-- A bit read leaves room for the 128 bytes a count of 7 bits can ask for. -/
theorem getBits_pays {hsd : HeatshrinkDecoder} {count bits : Nat}
    (positive : 0 < count) (read : (getBits hsd count).1 = some bits) :
    outputPotential (getBits hsd count).2 + 128 ≤ outputPotential hsd := by
  have drop := getBits_potential_lt positive read
  unfold outputPotential
  rw [getBits_outputCount]
  omega

/-- A step pays for every byte it outputs. -/
theorem pollStep_outputPotential (hsd : HeatshrinkDecoder) (oi : OutputInfo) :
    outputPotential (pollStep hsd oi).1 + (pollStep hsd oi).2.out.length ≤
      outputPotential hsd + oi.out.length := by
  -- a state that only reads
  have reads (count : Nat) :
      outputPotential (getBits hsd count).2 + oi.out.length ≤
        outputPotential hsd + oi.out.length :=
    Nat.add_le_add_right (getBits_outputPotential hsd count) _
  unfold pollStep
  cases hsd.state <;> simp only
  case tagBit =>
    cases read : (getBits hsd 1).1 with
    | none =>
        rw [stTagBit_none read]
        exact reads 1
    | some bits =>
        by_cases set : bits = 0
        · subst set
          rw [stTagBit_clear read]
          exact reads 1
        · rw [stTagBit_set read set]
          exact reads 1
  case yieldLiteral =>
    by_cases room : oi.out.length < oi.bufSize
    · cases read : (getBits hsd 8).1 with
      | none =>
          rw [stYieldLiteral_none room read]
          exact reads 8
      | some bits =>
          have pays := getBits_pays (by decide) read
          rw [stYieldLiteral_some room read]
          simp only [outputPotential, inputPotential, writeWindow, pushByte, List.length_append,
            List.length_cons, List.length_nil] at pays ⊢
          omega
    · rw [stYieldLiteral_full room]
      exact le_refl _
  case backrefIndexMsb =>
    cases read : (getBits hsd 0).1 with
    | none =>
        rw [stBackrefIndexMsb_none read]
        exact reads 0
    | some bits =>
        rw [stBackrefIndexMsb_some read]
        exact reads 0
  case backrefIndexLsb =>
    cases read : (getBits hsd 8).1 with
    | none =>
        rw [stBackrefIndexLsb_none read]
        exact reads 8
    | some bits =>
        have drop := reads 8
        rw [stBackrefIndexLsb_some read]
        simp only [outputPotential, inputPotential] at drop ⊢
        omega
  case backrefCountMsb => exact le_refl _
  case backrefCountLsb =>
    cases read : (getBits hsd 7).1 with
    | none =>
        rw [stBackrefCountLsb_none read]
        exact reads 7
    | some bits =>
        have pays := getBits_pays (by decide) read
        have small := getBits_lt read
        have merged := or_le_add hsd.outputCount bits
        have reduced := Nat.mod_le ((hsd.outputCount ||| bits) + 1) (2 ^ 16)
        have same := getBits_outputCount hsd 7
        rw [stBackrefCountLsb_some read]
        simp only [outputPotential, inputPotential] at pays ⊢
        omega
  case yieldBackref =>
    by_cases room : oi.out.length < oi.bufSize
    · obtain ⟨same, -, -, length⟩ := copyLoop_frame (yieldCount hsd oi) hsd oi
      have within : yieldCount hsd oi ≤ hsd.outputCount := by
        unfold yieldCount
        split <;> omega
      rw [stYieldBackref_room room]
      simp only [outputPotential, inputPotential] at same ⊢
      omega
    · rw [stYieldBackref_full room]
      exact le_refl _

/-- The output buffer keeps its capacity and is not overrun. -/
theorem pollStep_capacity (hsd : HeatshrinkDecoder) (oi : OutputInfo) :
    (pollStep hsd oi).2.bufSize = oi.bufSize ∧
      (oi.out.length ≤ oi.bufSize → (pollStep hsd oi).2.out.length ≤ oi.bufSize) := by
  unfold pollStep
  cases hsd.state <;> simp only
  case yieldLiteral =>
    by_cases room : oi.out.length < oi.bufSize
    · cases read : (getBits hsd 8).1 with
      | none =>
          rw [stYieldLiteral_none room read]
          exact ⟨rfl, id⟩
      | some bits =>
          rw [stYieldLiteral_some room read]
          refine ⟨rfl, fun _ => ?_⟩
          simp only [pushByte, List.length_append, List.length_cons, List.length_nil]
          omega
    · rw [stYieldLiteral_full room]
      exact ⟨rfl, id⟩
  case yieldBackref =>
    by_cases room : oi.out.length < oi.bufSize
    · obtain ⟨-, -, size, length⟩ := copyLoop_frame (yieldCount hsd oi) hsd oi
      rw [stYieldBackref_room room]
      refine ⟨size, fun _ => ?_⟩
      rw [length]
      unfold yieldCount
      split <;> omega
    · rw [stYieldBackref_full room]
      exact ⟨rfl, id⟩
  all_goals exact ⟨trivial, id⟩

theorem pollLoop_stays {hsd : HeatshrinkDecoder} {oi : OutputInfo}
    (stays : (pollStep hsd oi).1.state = hsd.state) :
    pollLoop hsd oi =
      (if (pollStep hsd oi).2.out.length = (pollStep hsd oi).2.bufSize then .more else .empty,
        (pollStep hsd oi).2, (pollStep hsd oi).1) := by
  rw [pollLoop, dif_pos stays]

theorem pollLoop_advances {hsd : HeatshrinkDecoder} {oi : OutputInfo}
    (advances : (pollStep hsd oi).1.state ≠ hsd.state) :
    pollLoop hsd oi = pollLoop (pollStep hsd oi).1 (pollStep hsd oi).2 := by
  rw [pollLoop, dif_neg advances]

/-- What holds before the loop and is kept by every step holds after it. -/
theorem pollLoop_invariant (Invariant : HeatshrinkDecoder → OutputInfo → Prop)
    (step : ∀ hsd oi, Invariant hsd oi → Invariant (pollStep hsd oi).1 (pollStep hsd oi).2)
    (hsd : HeatshrinkDecoder) (oi : OutputInfo) (start : Invariant hsd oi) :
    Invariant (pollLoop hsd oi).2.2 (pollLoop hsd oi).2.1 := by
  induction hsd, oi using pollLoop.induct with
  | case1 hsd oi _ stays =>
      rw [pollLoop_stays stays]
      exact step hsd oi start
  | case2 hsd oi _ advances _ inductionHypothesis =>
      rw [pollLoop_advances advances]
      exact inductionHypothesis (step hsd oi start)

theorem heatshrinkDecoderPoll_bound (hsd : HeatshrinkDecoder) (outBufSize : Nat) :
    outputPotential (heatshrinkDecoderPoll hsd outBufSize).2.2 +
        (heatshrinkDecoderPoll hsd outBufSize).2.1.length ≤ outputPotential hsd ∧
      (heatshrinkDecoderPoll hsd outBufSize).2.1.length ≤ outBufSize := by
  have kept := pollLoop_invariant
    (fun current oi => outputPotential current + oi.out.length ≤ outputPotential hsd ∧
      oi.bufSize = outBufSize ∧ oi.out.length ≤ outBufSize)
    (by
      rintro current oi ⟨potential, size, within⟩
      have pays := pollStep_outputPotential current oi
      obtain ⟨sameSize, fits⟩ := pollStep_capacity current oi
      exact ⟨by omega, by rw [sameSize, size], by rw [size] at fits; exact fits within⟩)
    hsd { bufSize := outBufSize, out := [] } ⟨by simp, rfl, by simp⟩
  exact ⟨kept.1, kept.2.2⟩

theorem heatshrinkDecoderPoll_res (hsd : HeatshrinkDecoder) (outBufSize : Nat) :
    (heatshrinkDecoderPoll hsd outBufSize).1.isNegative = false := by
  have kept : ∀ hsd oi, (pollLoop hsd oi).1.isNegative = false := by
    intro hsd oi
    induction hsd, oi using pollLoop.induct with
    | case1 hsd oi _ stays =>
        rw [pollLoop_stays stays]
        simp only
        split <;> rfl
    | case2 hsd oi _ advances _ inductionHypothesis =>
        rw [pollLoop_advances advances]
        exact inductionHypothesis
  exact kept _ _

theorem heatshrinkDecoderSink_potential (hsd : HeatshrinkDecoder) (byte : UInt8) :
    outputPotential (heatshrinkDecoderSink hsd [byte]).2.2 ≤ outputPotential hsd + 128 * 256 := by
  have := hsd.indexBelow
  unfold heatshrinkDecoderSink
  simp only
  split
  · exact Nat.le_add_right _ _
  · simp only [outputPotential, inputPotential, List.length_cons, List.length_nil]
    split <;> omega

end DeltaUpdate.Heatshrink
