import DeltaUpdate.Heatshrink.Decoder

/-!
Owns what one step of the decoder does: the fields that reading bits leaves
alone, the equation of every state, and the potentials. Reading a bit lowers the
input potential, and every byte output is paid for by the output potential.
-/

namespace DeltaUpdate.Heatshrink

/-! ### Frames

Reading bits touches the input side of the decoder only. -/

/-- A field that neither pulling a byte nor shifting changes is not changed by
reading bits. -/
theorem getBitsLoop_frame {Field : Type} (field : HeatshrinkDecoder → Field)
    (pull : ∀ hsd present, field (pullByte hsd present) = field hsd)
    (shift : ∀ hsd, field (shiftBit hsd) = field hsd)
    (count accumulator : Nat) (hsd : HeatshrinkDecoder) :
    field (getBitsLoop count accumulator hsd).2 = field hsd := by
  induction count generalizing accumulator hsd with
  | zero => rfl
  | succ count inductionHypothesis =>
      unfold getBitsLoop
      split
      next =>
        split
        next present => rw [inductionHypothesis, shift, pull]
        next => rfl
      next => rw [inductionHypothesis, shift]

theorem getBits_frame {Field : Type} (field : HeatshrinkDecoder → Field)
    (pull : ∀ hsd present, field (pullByte hsd present) = field hsd)
    (shift : ∀ hsd, field (shiftBit hsd) = field hsd)
    (hsd : HeatshrinkDecoder) (count : Nat) :
    field (getBits hsd count).2 = field hsd := by
  unfold getBits
  split
  · rfl
  · split
    · rfl
    · exact getBitsLoop_frame field pull shift count 0 hsd

section Frames

variable (hsd : HeatshrinkDecoder) (count : Nat)

@[simp] theorem getBits_state : (getBits hsd count).2.state = hsd.state :=
  getBits_frame HeatshrinkDecoder.state
    (fun hsd present => by unfold pullByte; split <;> rfl) (fun _ => rfl) hsd count

@[simp] theorem getBits_outputCount : (getBits hsd count).2.outputCount = hsd.outputCount :=
  getBits_frame HeatshrinkDecoder.outputCount
    (fun hsd present => by unfold pullByte; split <;> rfl) (fun _ => rfl) hsd count

@[simp] theorem getBits_outputIndex : (getBits hsd count).2.outputIndex = hsd.outputIndex :=
  getBits_frame HeatshrinkDecoder.outputIndex
    (fun hsd present => by unfold pullByte; split <;> rfl) (fun _ => rfl) hsd count

@[simp] theorem getBits_headIndex : (getBits hsd count).2.headIndex = hsd.headIndex :=
  getBits_frame HeatshrinkDecoder.headIndex
    (fun hsd present => by unfold pullByte; split <;> rfl) (fun _ => rfl) hsd count

@[simp] theorem getBits_buffers : (getBits hsd count).2.buffers = hsd.buffers :=
  getBits_frame HeatshrinkDecoder.buffers
    (fun hsd present => by unfold pullByte; split <;> rfl) (fun _ => rfl) hsd count

end Frames

/-! ### Potentials -/

/-- Input not yet read: every bit read lowers it. -/
def inputPotential (hsd : HeatshrinkDecoder) : Nat :=
  256 * (hsd.inputSize - hsd.inputIndex) + hsd.bitIndex

/-- A bound on the output still to come from the bits the decoder holds. -/
def outputPotential (hsd : HeatshrinkDecoder) : Nat :=
  hsd.outputCount + 128 * inputPotential hsd

theorem shiftBit_potential {hsd : HeatshrinkDecoder} (present : hsd.bitIndex ≠ 0) :
    inputPotential (shiftBit hsd) < inputPotential hsd := by
  simp only [inputPotential, shiftBit]
  omega

theorem pullByte_potential {hsd : HeatshrinkDecoder} (present : hsd.inputSize ≠ 0)
    (empty : hsd.bitIndex = 0) :
    inputPotential (shiftBit (pullByte hsd present)) < inputPotential hsd := by
  have := hsd.indexBelow
  unfold pullByte
  split <;> simp only [inputPotential, shiftBit] <;> omega

theorem getBitsLoop_potential (count accumulator : Nat) (hsd : HeatshrinkDecoder) :
    inputPotential (getBitsLoop count accumulator hsd).2 ≤ inputPotential hsd ∧
      (0 < count → (getBitsLoop count accumulator hsd).1.isSome →
        inputPotential (getBitsLoop count accumulator hsd).2 < inputPotential hsd) := by
  induction count generalizing accumulator hsd with
  | zero => exact ⟨le_refl _, fun positive => absurd positive (lt_irrefl _)⟩
  | succ count inductionHypothesis =>
      unfold getBitsLoop
      split
      next empty =>
        split
        next present =>
          have rest := (inductionHypothesis
            (2 * accumulator + currentBit (pullByte hsd present))
            (shiftBit (pullByte hsd present))).1
          have step := pullByte_potential present empty
          exact ⟨le_trans rest step.le, fun _ _ => lt_of_le_of_lt rest step⟩
        next => exact ⟨le_refl _, fun _ read => by simp at read⟩
      next present =>
        have rest := (inductionHypothesis (2 * accumulator + currentBit hsd) (shiftBit hsd)).1
        have step := shiftBit_potential present
        exact ⟨le_trans rest step.le, fun _ _ => lt_of_le_of_lt rest step⟩

theorem getBits_potential_le (hsd : HeatshrinkDecoder) (count : Nat) :
    inputPotential (getBits hsd count).2 ≤ inputPotential hsd := by
  unfold getBits
  split
  · exact le_refl _
  · split
    · exact le_refl _
    · exact (getBitsLoop_potential count 0 hsd).1

theorem getBits_potential_lt {hsd : HeatshrinkDecoder} {count bits : Nat}
    (positive : 0 < count) (read : (getBits hsd count).1 = some bits) :
    inputPotential (getBits hsd count).2 < inputPotential hsd := by
  unfold getBits at read ⊢
  split at read
  · simp at read
  · split at read
    · simp at read
    next narrow enough =>
      rw [if_neg narrow, if_neg enough]
      exact (getBitsLoop_potential count 0 hsd).2 positive (by rw [read]; rfl)

theorem currentBit_le (hsd : HeatshrinkDecoder) : currentBit hsd ≤ 1 := by
  unfold currentBit
  split <;> omega

theorem getBitsLoop_lt {count accumulator bits : Nat} {hsd : HeatshrinkDecoder}
    (read : (getBitsLoop count accumulator hsd).1 = some bits) :
    bits < (accumulator + 1) * 2 ^ count := by
  induction count generalizing accumulator hsd with
  | zero =>
      simp only [getBitsLoop, Option.some.injEq] at read
      omega
  | succ count inductionHypothesis =>
      have next (bit : Nat) (small : bit ≤ 1)
          (below : bits < (2 * accumulator + bit + 1) * 2 ^ count) :
          bits < (accumulator + 1) * 2 ^ (count + 1) := by
        calc bits < (2 * accumulator + bit + 1) * 2 ^ count := below
          _ ≤ (2 * accumulator + 2) * 2 ^ count := Nat.mul_le_mul_right _ (by omega)
          _ = (accumulator + 1) * 2 ^ (count + 1) := by rw [pow_succ]; ring
      unfold getBitsLoop at read
      split at read
      next =>
        split at read
        next present => exact next _ (currentBit_le _) (inductionHypothesis read)
        next => simp at read
      next => exact next _ (currentBit_le _) (inductionHypothesis read)

/-- The value of `count` bits is below `2 ^ count`. -/
theorem getBits_lt {hsd : HeatshrinkDecoder} {count bits : Nat}
    (read : (getBits hsd count).1 = some bits) : bits < 2 ^ count := by
  unfold getBits at read
  split at read
  · simp at read
  · split at read
    · simp at read
    · simpa using getBitsLoop_lt read

theorem or_le_add (left right : Nat) : left ||| right ≤ left + right := by
  induction left using Nat.strongRecOn generalizing right with
  | ind left inductionHypothesis =>
      by_cases zero : left = 0
      · simp [zero]
      · have half := inductionHypothesis (left / 2) (by omega) (right / 2)
        rw [← Nat.or_div_two] at half
        have low := Nat.or_mod_two_eq_one (a := left) (b := right)
        omega

theorem copyLoop_frame (count : Nat) (hsd : HeatshrinkDecoder) (oi : OutputInfo) :
    inputPotential (copyLoop count hsd oi).1 = inputPotential hsd ∧
      (copyLoop count hsd oi).1.outputIndex = hsd.outputIndex ∧
      (copyLoop count hsd oi).2.bufSize = oi.bufSize ∧
      (copyLoop count hsd oi).2.out.length = oi.out.length + count := by
  induction count generalizing hsd oi with
  | zero => exact ⟨rfl, rfl, rfl, rfl⟩
  | succ count inductionHypothesis =>
      unfold copyLoop
      obtain ⟨potential, index, size, length⟩ := inductionHypothesis
        (writeWindow hsd (hsd.buffers (inputBufferSize +
          (((hsd.headIndex : Int) - hsd.outputIndex) % 2 ^ windowBits).toNat)))
        (pushByte oi (hsd.buffers (inputBufferSize +
          (((hsd.headIndex : Int) - hsd.outputIndex) % 2 ^ windowBits).toNat)))
      refine ⟨potential, index, size, ?_⟩
      rw [length]
      simp only [pushByte, List.length_append, List.length_cons, List.length_nil]
      omega

/-- States that the polling loop can leave without reading a bit. -/
def stateRank : HsdState → Nat
  | .backrefIndexMsb | .backrefCountMsb | .yieldBackref => 1
  | _ => 0

/-- The measure of the polling loop. -/
def pollMeasure (hsd : HeatshrinkDecoder) : Nat :=
  2 * inputPotential hsd + stateRank hsd.state

theorem stateRank_le (state : HsdState) : stateRank state ≤ 1 := by
  cases state <;> decide

/-- After a bit read the measure is lower, whatever the state that follows. -/
theorem getBits_measure {hsd next : HeatshrinkDecoder} {count bits : Nat}
    (positive : 0 < count) (read : (getBits hsd count).1 = some bits)
    (same : inputPotential next = inputPotential (getBits hsd count).2) :
    pollMeasure next < pollMeasure hsd := by
  have drop := getBits_potential_lt positive read
  have rank := stateRank_le next.state
  unfold pollMeasure
  omega

/-! ### What each state does

The configuration fixes the widths: an index has 8 bits and a count 7. -/

section Steps

variable {hsd : HeatshrinkDecoder} {oi : OutputInfo} {bits : Nat}

theorem stTagBit_none (read : (getBits hsd 1).1 = none) :
    stTagBit hsd = { (getBits hsd 1).2 with state := .tagBit } := by
  simp only [stTagBit, read]

theorem stTagBit_set (read : (getBits hsd 1).1 = some bits) (set : bits ≠ 0) :
    stTagBit hsd = { (getBits hsd 1).2 with state := .yieldLiteral } := by
  simp only [stTagBit, read, if_pos set]

theorem stTagBit_clear (read : (getBits hsd 1).1 = some 0) :
    stTagBit hsd =
      { (getBits hsd 1).2 with outputIndex := 0, state := .backrefIndexLsb } := by
  simp only [stTagBit, read]
  rfl

theorem stYieldLiteral_full (full : ¬ oi.out.length < oi.bufSize) :
    stYieldLiteral hsd oi = ({ hsd with state := .yieldLiteral }, oi) := by
  simp only [stYieldLiteral, if_neg full]

theorem stYieldLiteral_none (room : oi.out.length < oi.bufSize)
    (read : (getBits hsd 8).1 = none) :
    stYieldLiteral hsd oi = ({ (getBits hsd 8).2 with state := .yieldLiteral }, oi) := by
  simp only [stYieldLiteral, if_pos room, read]

theorem stYieldLiteral_some (room : oi.out.length < oi.bufSize)
    (read : (getBits hsd 8).1 = some bits) :
    stYieldLiteral hsd oi =
      ({ writeWindow (getBits hsd 8).2 (UInt8.ofNat bits) with state := .tagBit },
        pushByte oi (UInt8.ofNat bits)) := by
  simp only [stYieldLiteral, if_pos room, read]

theorem stBackrefIndexMsb_none (read : (getBits hsd 0).1 = none) :
    stBackrefIndexMsb hsd = { (getBits hsd 0).2 with state := .backrefIndexMsb } := by
  simp only [stBackrefIndexMsb, show backrefIndexBits - 8 = 0 from rfl, read]

theorem stBackrefIndexMsb_some (read : (getBits hsd 0).1 = some bits) :
    stBackrefIndexMsb hsd = { (getBits hsd 0).2 with
      outputIndex := bits <<< 8 % 2 ^ 16, state := .backrefIndexLsb } := by
  simp only [stBackrefIndexMsb, show backrefIndexBits - 8 = 0 from rfl, read]

theorem stBackrefIndexLsb_none (read : (getBits hsd 8).1 = none) :
    stBackrefIndexLsb hsd = { (getBits hsd 8).2 with state := .backrefIndexLsb } := by
  have width : (if backrefIndexBits < 8 then backrefIndexBits else 8) = 8 := rfl
  simp only [stBackrefIndexLsb, width, read]

theorem stBackrefIndexLsb_some (read : (getBits hsd 8).1 = some bits) :
    stBackrefIndexLsb hsd = { (getBits hsd 8).2 with
      outputIndex := ((hsd.outputIndex ||| bits) + 1) % 2 ^ 16
      outputCount := 0
      state := .backrefCountLsb } := by
  have width : (if backrefIndexBits < 8 then backrefIndexBits else 8) = 8 := rfl
  simp only [stBackrefIndexLsb, width, read]
  rfl

theorem stBackrefCountMsb_eq (hsd : HeatshrinkDecoder) :
    stBackrefCountMsb hsd = { hsd with state := .backrefCountMsb } := rfl

theorem stBackrefCountLsb_none (read : (getBits hsd 7).1 = none) :
    stBackrefCountLsb hsd = { (getBits hsd 7).2 with state := .backrefCountLsb } := by
  have width : (if backrefCountBits < 8 then backrefCountBits else 8) = 7 := rfl
  simp only [stBackrefCountLsb, width, read]

theorem stBackrefCountLsb_some (read : (getBits hsd 7).1 = some bits) :
    stBackrefCountLsb hsd = { (getBits hsd 7).2 with
      outputCount := ((hsd.outputCount ||| bits) + 1) % 2 ^ 16
      state := .yieldBackref } := by
  have width : (if backrefCountBits < 8 then backrefCountBits else 8) = 7 := rfl
  simp only [stBackrefCountLsb, width, read]

theorem stYieldBackref_full (full : ¬ oi.out.length < oi.bufSize) :
    stYieldBackref hsd oi = ({ hsd with state := .yieldBackref }, oi) := by
  rw [stYieldBackref, if_neg (by omega)]

theorem stYieldBackref_room (room : oi.out.length < oi.bufSize) :
    stYieldBackref hsd oi =
      ({ (copyLoop (yieldCount hsd oi) hsd oi).1 with
          outputCount := hsd.outputCount - yieldCount hsd oi
          state := if hsd.outputCount - yieldCount hsd oi = 0 then .tagBit else .yieldBackref },
        (copyLoop (yieldCount hsd oi) hsd oi).2) := by
  rw [stYieldBackref, if_pos (by omega)]

end Steps

/-- An iteration that changes the state lowers the measure: it reads a bit, or it
leaves one of the ranked states. -/
theorem pollStep_measure (hsd : HeatshrinkDecoder) (oi : OutputInfo)
    (advanced : (pollStep hsd oi).1.state ≠ hsd.state) :
    pollMeasure (pollStep hsd oi).1 < pollMeasure hsd := by
  unfold pollStep at advanced ⊢
  cases state : hsd.state <;> rw [state] at advanced <;> simp only at advanced ⊢
  case tagBit =>
    cases read : (getBits hsd 1).1 with
    | none => simp [stTagBit_none read] at advanced
    | some bits =>
        by_cases set : bits = 0
        · subst set
          rw [stTagBit_clear read]
          exact getBits_measure (by decide) read rfl
        · rw [stTagBit_set read set]
          exact getBits_measure (by decide) read rfl
  case yieldLiteral =>
    by_cases room : oi.out.length < oi.bufSize
    · cases read : (getBits hsd 8).1 with
      | none => simp [stYieldLiteral_none room read] at advanced
      | some bits =>
          rw [stYieldLiteral_some room read]
          exact getBits_measure (by decide) read rfl
    · simp [stYieldLiteral_full room] at advanced
  case backrefIndexMsb =>
    -- an index of 8 bits leaves none for this state: it reads nothing
    have drop := getBits_potential_le hsd 0
    cases read : (getBits hsd 0).1 with
    | none => simp [stBackrefIndexMsb_none read] at advanced
    | some bits =>
        rw [stBackrefIndexMsb_some read]
        simp only [pollMeasure, inputPotential, state, stateRank] at drop ⊢
        omega
  case backrefIndexLsb =>
    cases read : (getBits hsd 8).1 with
    | none => simp [stBackrefIndexLsb_none read] at advanced
    | some bits =>
        rw [stBackrefIndexLsb_some read]
        exact getBits_measure (by decide) read rfl
  case backrefCountMsb => simp [stBackrefCountMsb_eq] at advanced
  case backrefCountLsb =>
    cases read : (getBits hsd 7).1 with
    | none => simp [stBackrefCountLsb_none read] at advanced
    | some bits =>
        rw [stBackrefCountLsb_some read]
        exact getBits_measure (by decide) read rfl
  case yieldBackref =>
    by_cases room : oi.out.length < oi.bufSize
    · have same := (copyLoop_frame (yieldCount hsd oi) hsd oi).1
      rw [stYieldBackref_room room] at advanced ⊢
      by_cases drained : hsd.outputCount - yieldCount hsd oi = 0
      · simp only [pollMeasure, inputPotential, if_pos drained, state, stateRank] at same ⊢
        omega
      · simp [drained] at advanced
    · simp [stYieldBackref_full room] at advanced

end DeltaUpdate.Heatshrink
