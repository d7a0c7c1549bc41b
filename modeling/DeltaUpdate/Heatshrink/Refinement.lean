import DeltaUpdate.Heatshrink.Poll
import DeltaUpdate.Library.Lzss
import Mathlib.Data.List.GetD
import Mathlib.Data.Nat.Bitwise
import Mathlib.Data.Nat.Size

/-!
Owns the refinement of the LZSS format by the decoder. The bits a decoder holds
and the window it keeps determine the bytes it has still to output, whatever bits
follow; a step outputs the first of them and keeps the rest. A poll stops only
when the output buffer is full or when the bits it holds complete no token.
-/

namespace DeltaUpdate.Heatshrink

open DeltaUpdate.Library

/-! ### The bits held -/

/-- The input bytes that have not been pulled. -/
def unreadInput (hsd : HeatshrinkDecoder) : List UInt8 :=
  (List.range (hsd.inputSize - hsd.inputIndex)).map fun index : Nat =>
    hsd.buffers (hsd.inputIndex + index)

/-- The bits that have not been read: the rest of the current byte, then the input. -/
def heldBits (hsd : HeatshrinkDecoder) : List Bool :=
  bitsOfNat hsd.bitIndex.size hsd.currentByte.toNat ++ bitsOfBytes (unreadInput hsd)

theorem heldBits_length (hsd : HeatshrinkDecoder) :
    (heldBits hsd).length = hsd.bitIndex.size + 8 * (hsd.inputSize - hsd.inputIndex) := by
  simp [heldBits, bitsOfBytes_length, unreadInput]

theorem heldBits_congr {before after : HeatshrinkDecoder}
    (bitIndex : after.bitIndex = before.bitIndex)
    (currentByte : after.currentByte = before.currentByte)
    (unread : unreadInput after = unreadInput before) : heldBits after = heldBits before := by
  rw [heldBits, heldBits, bitIndex, currentByte, unread]

/-- Shifting the bit index takes the bit under it. -/
theorem heldBits_shiftBit {hsd : HeatshrinkDecoder} (present : hsd.bitIndex ≠ 0) :
    ∃ bit : Bool, currentBit hsd = bit.toNat ∧ heldBits hsd = bit :: heldBits (shiftBit hsd) := by
  obtain ⟨count, small, equal⟩ := hsd.oneBit
  cases count with
  | zero => exact absurd (by rw [equal]; rfl) present
  | succ count =>
      have selected : hsd.bitIndex = 2 ^ count := by rw [equal, pow_succ]; omega
      have rest : heldBits (shiftBit hsd) =
          bitsOfNat count hsd.currentByte.toNat ++ bitsOfBytes (unreadInput hsd) := by
        have size : (hsd.bitIndex / 2).size = count := by
          rw [selected]
          cases count with
          | zero => rfl
          | succ lower =>
              rw [pow_succ, Nat.mul_div_cancel _ (by decide), Nat.size_pow]
        simp only [heldBits, shiftBit, size, unreadInput]
      refine ⟨hsd.currentByte.toNat.testBit count, ?_, ?_⟩
      · rw [currentBit, selected, Nat.and_two_pow]
        cases hsd.currentByte.toNat.testBit count <;> simp
      · rw [rest, heldBits, selected, Nat.size_pow, bitsOfNat_succ, List.cons_append]

/-- Pulling a byte moves it from the input to the current byte. -/
theorem heldBits_pullByte {hsd : HeatshrinkDecoder} (present : hsd.inputSize ≠ 0)
    (empty : hsd.bitIndex = 0) :
    (pullByte hsd present).bitIndex = 0x80 ∧ heldBits (pullByte hsd present) = heldBits hsd := by
  have below := hsd.indexBelow
  have split : unreadInput hsd = hsd.buffers hsd.inputIndex ::
      (List.range (hsd.inputSize - (hsd.inputIndex + 1))).map fun index : Nat =>
        hsd.buffers (hsd.inputIndex + 1 + index) := by
    have count : hsd.inputSize - hsd.inputIndex =
        hsd.inputSize - (hsd.inputIndex + 1) + 1 := by omega
    rw [unreadInput, count, List.range_succ_eq_map]
    simp only [List.map_cons, List.map_map, Nat.add_zero, List.cons.injEq, true_and]
    apply List.map_congr_left
    intro index _
    simp only [Function.comp_apply, Nat.succ_eq_add_one]
    rw [Nat.add_right_comm, Nat.add_assoc]
  have width : Nat.size 0x80 = 8 := by decide
  have before : heldBits hsd = bitsOfByte (hsd.buffers hsd.inputIndex) ++
      bitsOfBytes ((List.range (hsd.inputSize - (hsd.inputIndex + 1))).map fun index : Nat =>
        hsd.buffers (hsd.inputIndex + 1 + index)) := by
    rw [heldBits, empty, split]
    rfl
  unfold pullByte
  split
  next last =>
    have none : hsd.inputSize - (hsd.inputIndex + 1) = 0 := by omega
    refine ⟨rfl, ?_⟩
    rw [before, none]
    simp only [heldBits, unreadInput, width]
    rfl
  next =>
    refine ⟨rfl, ?_⟩
    rw [before]
    simp only [heldBits, unreadInput, width]
    rfl

/-- Reading bits that are held takes them off the front. -/
theorem getBitsLoop_held (count accumulator : Nat) (hsd : HeatshrinkDecoder)
    (enough : count ≤ (heldBits hsd).length) :
    (getBitsLoop count accumulator hsd).1 =
        some (accumulator * 2 ^ count + natOfBits ((heldBits hsd).take count)) ∧
      heldBits (getBitsLoop count accumulator hsd).2 = (heldBits hsd).drop count := by
  -- one bit, then the rest of the loop
  have advance {count accumulator : Nat} {hsd : HeatshrinkDecoder} (present : hsd.bitIndex ≠ 0)
      (rest : (getBitsLoop count (2 * accumulator + currentBit hsd) (shiftBit hsd)).1 =
          some ((2 * accumulator + currentBit hsd) * 2 ^ count +
            natOfBits ((heldBits (shiftBit hsd)).take count)) ∧
        heldBits (getBitsLoop count (2 * accumulator + currentBit hsd) (shiftBit hsd)).2 =
          (heldBits (shiftBit hsd)).drop count)
      (enough : count + 1 ≤ (heldBits hsd).length) :
      (getBitsLoop count (2 * accumulator + currentBit hsd) (shiftBit hsd)).1 =
          some (accumulator * 2 ^ (count + 1) +
            natOfBits ((heldBits hsd).take (count + 1))) ∧
        heldBits (getBitsLoop count (2 * accumulator + currentBit hsd) (shiftBit hsd)).2 =
          (heldBits hsd).drop (count + 1) := by
    obtain ⟨bit, value, held⟩ := heldBits_shiftBit present
    rw [held, List.length_cons] at enough
    have taken : ((heldBits (shiftBit hsd)).take count).length = count := by
      rw [List.length_take]
      omega
    rw [rest.1, rest.2, held, List.take_succ_cons, List.drop_succ_cons, natOfBits_cons, taken,
      value, pow_succ]
    exact ⟨by congr 1; ring, rfl⟩
  induction count generalizing accumulator hsd with
  | zero => simp [getBitsLoop]
  | succ count inductionHypothesis =>
      have shorter {current : HeatshrinkDecoder} (present : current.bitIndex ≠ 0)
          (enough : count + 1 ≤ (heldBits current).length) :
          count ≤ (heldBits (shiftBit current)).length := by
        obtain ⟨bit, -, held⟩ := heldBits_shiftBit present
        rw [held, List.length_cons] at enough
        omega
      unfold getBitsLoop
      by_cases empty : hsd.bitIndex = 0
      · rw [if_pos empty]
        have length := heldBits_length hsd
        have present : hsd.inputSize ≠ 0 := by
          intro none
          rw [empty, none, Nat.size_zero] at length
          omega
        obtain ⟨index, held⟩ := heldBits_pullByte present empty
        have nonzero : (pullByte hsd present).bitIndex ≠ 0 := by rw [index]; decide
        rw [dif_pos present, ← held]
        rw [← held] at enough
        exact advance nonzero (inductionHypothesis _ _ (shorter nonzero enough)) enough
      · rw [if_neg empty]
        exact advance empty (inductionHypothesis _ _ (shorter empty enough)) enough

theorem getBits_enough {hsd : HeatshrinkDecoder} {count : Nat} (small : count ≤ 8)
    (positive : 0 < count) (enough : count ≤ (heldBits hsd).length) :
    (getBits hsd count).1 = some (natOfBits ((heldBits hsd).take count)) ∧
      heldBits (getBits hsd count).2 = (heldBits hsd).drop count := by
  have present : ¬ (hsd.inputSize = 0 ∧ hsd.bitIndex < 1 <<< (count - 1)) := by
    rintro ⟨none, low⟩
    have length := heldBits_length hsd
    rw [none, Nat.zero_sub, Nat.mul_zero, Nat.add_zero] at length
    rw [Nat.shiftLeft_eq, Nat.one_mul, ← Nat.size_le] at low
    omega
  have loop := getBitsLoop_held count 0 hsd enough
  rw [Nat.zero_mul, Nat.zero_add] at loop
  rw [getBits, if_neg (by omega), if_neg present]
  exact loop

theorem getBits_short {hsd : HeatshrinkDecoder} {count : Nat} (small : count ≤ 8)
    (short : (heldBits hsd).length < count) : getBits hsd count = (none, hsd) := by
  have length := heldBits_length hsd
  have below := hsd.indexBelow
  have none : hsd.inputSize = 0 := by omega
  have low : hsd.bitIndex < 1 <<< (count - 1) := by
    rw [Nat.shiftLeft_eq, Nat.one_mul, ← Nat.size_le]
    omega
  rw [getBits, if_neg (by omega), if_pos ⟨none, low⟩]

/-! ### The window and the stream -/

/-- The window holds the output so far, newest byte first, over zeros. -/
def WindowHolds (history : List UInt8) (hsd : HeatshrinkDecoder) : Prop :=
  ∀ distance < 256, hsd.buffers (inputBufferSize +
    (((hsd.headIndex : Int) - (distance + 1 : Nat)) % 2 ^ windowBits).toNat) =
      history.getD distance 0

/-- The fields agree with the state. The two states for the upper bits of wider
fields do not occur in this configuration. -/
def Shaped (hsd : HeatshrinkDecoder) : Prop :=
  match hsd.state with
  | .tagBit | .yieldLiteral => True
  | .backrefIndexLsb => hsd.outputIndex = 0
  | .backrefCountLsb => 1 ≤ hsd.outputIndex ∧ hsd.outputIndex ≤ 256 ∧ hsd.outputCount = 0
  | .yieldBackref => 1 ≤ hsd.outputIndex ∧ hsd.outputIndex ≤ 256 ∧ 0 < hsd.outputCount
  | .backrefIndexMsb | .backrefCountMsb => False

/-- The decoder has output the history. -/
structure Coupled (history : List UInt8) (hsd : HeatshrinkDecoder) : Prop where
  window : WindowHolds history hsd
  shape : Shaped hsd

/-- The bits of an unfinished token that the decoder has already read. -/
def partialBits (hsd : HeatshrinkDecoder) : List Bool :=
  match hsd.state with
  | .tagBit | .yieldBackref => []
  | .yieldLiteral => [true]
  | .backrefIndexMsb | .backrefIndexLsb => [false]
  | .backrefCountMsb | .backrefCountLsb => false :: bitsOfNat 8 (hsd.outputIndex - 1)

/-- The bytes left of a back-reference in progress. -/
def pendingCount (hsd : HeatshrinkDecoder) : Nat :=
  match hsd.state with
  | .yieldBackref => hsd.outputCount
  | _ => 0

/-- The bits from the first unfinished token on. -/
def virtualBits (hsd : HeatshrinkDecoder) : List Bool := partialBits hsd ++ heldBits hsd

/-- The bytes still to come, when `more` follows the bits held. -/
def streamOf (history : List UInt8) (hsd : HeatshrinkDecoder) (more : List Bool) : List UInt8 :=
  Lzss.remaining windowBits lookaheadBits history hsd.outputIndex (pendingCount hsd)
    (virtualBits hsd ++ more)

/-- The bits behind the last complete token, when `more` follows the bits held. -/
def paddingOf (hsd : HeatshrinkDecoder) (more : List Bool) : List Bool :=
  (Lzss.parse windowBits lookaheadBits (virtualBits hsd ++ more)).2

/-- The bits a state reads at once. -/
def bitsNeeded : HsdState → Nat
  | .tagBit => 1
  | .yieldLiteral | .backrefIndexLsb => 8
  | .backrefCountLsb => 7
  | .backrefIndexMsb | .backrefCountMsb | .yieldBackref => 0

theorem writeWindow_held (hsd : HeatshrinkDecoder) (byte : UInt8) :
    heldBits (writeWindow hsd byte) = heldBits hsd := by
  have below := hsd.sizeBelow
  have order := hsd.indexBelow
  refine heldBits_congr rfl rfl ?_
  apply List.map_congr_left
  intro index inside
  rw [List.mem_range] at inside
  simp only [writeWindow] at inside ⊢
  rw [if_neg (by omega)]

theorem writeWindow_holds {history : List UInt8} {hsd : HeatshrinkDecoder}
    (window : WindowHolds history hsd) (byte : UInt8) :
    WindowHolds (byte :: history) (writeWindow hsd byte) := by
  intro distance below
  have width : windowBits = 8 := rfl
  cases distance with
  | zero =>
      have written : inputBufferSize +
          ((((hsd.headIndex + 1) % 2 ^ 16 : Nat) - (0 + 1 : Nat) : Int) %
            2 ^ windowBits).toNat = inputBufferSize + hsd.headIndex % 2 ^ windowBits := by
        rw [width]
        omega
      simp only [writeWindow]
      rw [if_pos written, List.getD_cons_zero]
  | succ distance =>
      have held := window distance (by omega)
      have moved : inputBufferSize +
          ((((hsd.headIndex + 1) % 2 ^ 16 : Nat) - (distance + 1 + 1 : Nat) : Int) %
            2 ^ windowBits).toNat =
          inputBufferSize + (((hsd.headIndex : Int) - (distance + 1 : Nat)) %
            2 ^ windowBits).toNat := by
        rw [width]
        omega
      have other : ¬ inputBufferSize + (((hsd.headIndex : Int) - (distance + 1 : Nat)) %
          2 ^ windowBits).toNat = inputBufferSize + hsd.headIndex % 2 ^ windowBits := by
        rw [width]
        omega
      simp only [writeWindow]
      rw [moved, if_neg other, held, List.getD_cons_succ]

/-- Copying from the window repeats the history. -/
theorem copyLoop_copies (count : Nat) {history : List UInt8} {hsd : HeatshrinkDecoder}
    (window : WindowHolds history hsd) (positive : 1 ≤ hsd.outputIndex)
    (small : hsd.outputIndex ≤ 256) (oi : OutputInfo) :
    (copyLoop count hsd oi).2.out = oi.out ++ Lzss.copyBack history hsd.outputIndex count ∧
      WindowHolds ((Lzss.copyBack history hsd.outputIndex count).reverse ++ history)
        (copyLoop count hsd oi).1 ∧
      heldBits (copyLoop count hsd oi).1 = heldBits hsd := by
  induction count generalizing history hsd oi with
  | zero => exact ⟨by simp [copyLoop], window, rfl⟩
  | succ count inductionHypothesis =>
      have source : hsd.buffers (inputBufferSize +
          (((hsd.headIndex : Int) - hsd.outputIndex) % 2 ^ windowBits).toNat) =
            history.getD (hsd.outputIndex - 1) 0 := by
        have held := window (hsd.outputIndex - 1) (by omega)
        rwa [Nat.sub_add_cancel positive] at held
      unfold copyLoop
      rw [source]
      obtain ⟨out, rest, bits⟩ := inductionHypothesis
        (writeWindow_holds window (history.getD (hsd.outputIndex - 1) 0)) positive small
        (pushByte oi (history.getD (hsd.outputIndex - 1) 0))
      refine ⟨?_, ?_, bits.trans (writeWindow_held _ _)⟩
      · rw [out, Lzss.copyBack_succ]
        simp only [pushByte, List.append_assoc, List.cons_append, List.nil_append]
        rfl
      · rw [Lzss.copyBack_succ, List.reverse_cons, List.append_assoc]
        exact rest

/-! ### One step -/

/-- The decoder has output the first bytes of the stream, and the rest is still to come. -/
structure Outputs (history : List UInt8) (hsd : HeatshrinkDecoder) (data : List UInt8)
    (next : HeatshrinkDecoder) : Prop where
  coupled : Coupled (data.reverse ++ history) next
  stream (more : List Bool) :
    streamOf history hsd more = data ++ streamOf (data.reverse ++ history) next more
  padding (more : List Bool) : paddingOf hsd more = paddingOf next more

theorem Outputs.refl {history : List UInt8} {hsd : HeatshrinkDecoder}
    (coupled : Coupled history hsd) : Outputs history hsd [] hsd :=
  ⟨coupled, fun _ => rfl, fun _ => rfl⟩

theorem Outputs.trans {history first second : List UInt8} {hsd middle next : HeatshrinkDecoder}
    (left : Outputs history hsd first middle)
    (right : Outputs (first.reverse ++ history) middle second next) :
    Outputs history hsd (first ++ second) next where
  coupled := by
    rw [List.reverse_append, List.append_assoc]
    exact right.coupled
  stream more := by
    rw [left.stream, right.stream, List.reverse_append, List.append_assoc, List.append_assoc]
  padding more := (left.padding more).trans (right.padding more)

/-- A step that outputs the first bytes of the stream and keeps the rest. -/
def Refines (history : List UInt8) (hsd : HeatshrinkDecoder) (oi : OutputInfo)
    (next : HeatshrinkDecoder × OutputInfo) : Prop :=
  ∃ data, next.2.out = oi.out ++ data ∧ Outputs history hsd data next.1

theorem Refines.silent {history : List UInt8} {hsd next : HeatshrinkDecoder} {oi : OutputInfo}
    (outputs : Outputs history hsd [] next) : Refines history hsd oi (next, oi) :=
  ⟨[], by simp, outputs⟩

theorem setState_same {hsd : HeatshrinkDecoder} {state : HsdState} (same : hsd.state = state) :
    { hsd with state := state } = hsd := by
  subst same
  rfl

/-- A step without the bits it needs changes nothing. -/
theorem pollStep_short {hsd : HeatshrinkDecoder}
    (short : (heldBits hsd).length < bitsNeeded hsd.state) (oi : OutputInfo) :
    pollStep hsd oi = (hsd, oi) := by
  cases state : hsd.state <;> rw [state] at short <;> simp only [bitsNeeded] at short
  case tagBit =>
    have read := getBits_short (by decide) short
    simp only [pollStep, state]
    rw [stTagBit_none (by rw [read]), read, setState_same state]
  case yieldLiteral =>
    have read := getBits_short (by decide) short
    simp only [pollStep, state]
    by_cases room : oi.out.length < oi.bufSize
    · rw [stYieldLiteral_none room (by rw [read]), read, setState_same state]
    · rw [stYieldLiteral_full room, setState_same state]
  case backrefIndexLsb =>
    have read := getBits_short (by decide) short
    simp only [pollStep, state]
    rw [stBackrefIndexLsb_none (by rw [read]), read, setState_same state]
  case backrefCountLsb =>
    have read := getBits_short (by decide) short
    simp only [pollStep, state]
    rw [stBackrefCountLsb_none (by rw [read]), read, setState_same state]
  all_goals exact absurd short (Nat.not_lt_zero _)

theorem getBits_window {history : List UInt8} {hsd : HeatshrinkDecoder}
    (window : WindowHolds history hsd) (count : Nat) :
    WindowHolds history (getBits hsd count).2 := by
  unfold WindowHolds
  rw [getBits_buffers, getBits_headIndex]
  exact window

/-- Outside a back-reference the tokens of the bits are still to come. -/
theorem streamOf_idle {hsd : HeatshrinkDecoder} (idle : hsd.state ≠ .yieldBackref)
    (history : List UInt8) (more : List Bool) :
    streamOf history hsd more =
      Lzss.remaining windowBits lookaheadBits history 0 0 (virtualBits hsd ++ more) := by
  have none : pendingCount hsd = 0 := by
    unfold pendingCount
    split
    next state => exact absurd state idle
    next => rfl
  rw [streamOf, none, Lzss.remaining_idle, Lzss.remaining_idle]

theorem streamOf_backref {hsd : HeatshrinkDecoder} (state : hsd.state = .yieldBackref)
    (history : List UInt8) (more : List Bool) :
    streamOf history hsd more =
      Lzss.remaining windowBits lookaheadBits history hsd.outputIndex hsd.outputCount
        (heldBits hsd ++ more) := by
  simp only [streamOf, pendingCount, virtualBits, partialBits, state, List.nil_append]

/-- A step that has the bits and the room it needs. -/
structure Advances (history : List UInt8) (hsd : HeatshrinkDecoder) (oi : OutputInfo)
    (next : HeatshrinkDecoder × OutputInfo) : Prop where
  refines : Refines history hsd oi next
  held : heldBits next.1 = (heldBits hsd).drop (bitsNeeded hsd.state)
  /-- Only a back-reference that does not fit keeps its state. -/
  fills : next.1.state = hsd.state →
    next.1.state = .yieldBackref ∧ oi.bufSize ≤ next.2.out.length
  /-- The bits from the first unfinished token on only get fewer. -/
  shrinks : (virtualBits next.1).length ≤ (virtualBits hsd).length
  /-- Output comes at the end of a token. -/
  whole : next.2.out ≠ oi.out → partialBits next.1 = []

/-- Between idle states the same bits give the same stream. -/
theorem Advances.moved {history : List UInt8} {hsd next : HeatshrinkDecoder} {oi : OutputInfo}
    (coupled : Coupled history next) (idle : hsd.state ≠ .yieldBackref)
    (idleNext : next.state ≠ .yieldBackref) (same : virtualBits next = virtualBits hsd)
    (held : heldBits next = (heldBits hsd).drop (bitsNeeded hsd.state))
    (changes : next.state ≠ hsd.state) : Advances history hsd oi (next, oi) where
  refines := by
    refine Refines.silent ⟨coupled, fun more => ?_, fun more => ?_⟩
    · rw [streamOf_idle idle, streamOf_idle idleNext, same]
      rfl
    · rw [paddingOf, paddingOf, same]
  held := held
  fills := fun stays => absurd stays changes
  shrinks := by rw [same]
  whole := fun written => absurd rfl written

/-- A step at the end of a token: no bits of an unfinished token are left. -/
theorem Advances.endsToken {history : List UInt8} {hsd : HeatshrinkDecoder} {oi : OutputInfo}
    {next : HeatshrinkDecoder × OutputInfo} (refines : Refines history hsd oi next)
    (held : heldBits next.1 = (heldBits hsd).drop (bitsNeeded hsd.state))
    (whole : partialBits next.1 = []) (changes : next.1.state ≠ hsd.state) :
    Advances history hsd oi next where
  refines := refines
  held := held
  fills := fun stays => absurd stays changes
  shrinks := by
    simp only [virtualBits, whole, held, List.nil_append, List.length_drop, List.length_append]
    omega
  whole := fun _ => whole

section Step

variable {history : List UInt8} {hsd : HeatshrinkDecoder}

theorem stTagBit_refines (coupled : Coupled history hsd) (state : hsd.state = .tagBit)
    (enough : 1 ≤ (heldBits hsd).length) (oi : OutputInfo) :
    Advances history hsd oi (stTagBit hsd, oi) := by
  obtain ⟨read, rest⟩ := getBits_enough (by decide) (by decide) enough
  have window := getBits_window coupled.window 1
  have idle : hsd.state ≠ .yieldBackref := by rw [state]; decide
  have before : virtualBits hsd = heldBits hsd := by
    simp only [virtualBits, partialBits, state, List.nil_append]
  cases held : heldBits hsd with
  | nil => rw [held] at enough; exact absurd enough (by decide)
  | cons bit tail =>
      rw [held] at read rest before
      rw [List.take_succ_cons, List.take_zero] at read
      cases bit with
      | true =>
          rw [stTagBit_set read (by decide)]
          refine Advances.moved ⟨window, trivial⟩ idle (by simp) ?_ ?_ ?_
          · rw [before]
            exact congrArg (true :: ·) rest
          · rw [state, held]
            exact rest
          · rw [state]
            exact nofun
      | false =>
          rw [stTagBit_clear read]
          refine Advances.moved ⟨window, rfl⟩ idle (by simp) ?_ ?_ ?_
          · rw [before]
            exact congrArg (false :: ·) rest
          · rw [state, held]
            exact rest
          · rw [state]
            exact nofun

theorem stYieldLiteral_refines (coupled : Coupled history hsd)
    (state : hsd.state = .yieldLiteral) (enough : 8 ≤ (heldBits hsd).length) {oi : OutputInfo}
    (room : oi.out.length < oi.bufSize) :
    Advances history hsd oi (stYieldLiteral hsd oi) := by
  obtain ⟨read, rest⟩ := getBits_enough (by decide) (by decide) enough
  have window := getBits_window coupled.window 8
  have idle : hsd.state ≠ .yieldBackref := by rw [state]; decide
  have before : virtualBits hsd = true :: heldBits hsd := by
    simp only [virtualBits, partialBits, state, List.cons_append, List.nil_append]
  have length : ((heldBits hsd).take 8).length = 8 := by simp [enough]
  have small := natOfBits_lt ((heldBits hsd).take 8)
  rw [length] at small
  have token : virtualBits hsd =
      (Lzss.Token.literal (UInt8.ofNat (natOfBits ((heldBits hsd).take 8))) :
        Lzss.Token windowBits lookaheadBits).bits ++ (heldBits hsd).drop 8 := by
    have byteBits := bitsOfNat_natOfBits ((heldBits hsd).take 8)
    rw [length] at byteBits
    rw [before, Lzss.Token.bits, bitsOfByte, UInt8.toNat_ofNat_of_lt' small, byteBits,
      List.cons_append, List.take_append_drop]
  have after : heldBits (stYieldLiteral hsd oi).1 = (heldBits hsd).drop 8 := by
    rw [stYieldLiteral_some room read]
    exact (writeWindow_held _ _).trans rest
  rw [stYieldLiteral_some room read] at after ⊢
  apply Advances.endsToken
  case refines =>
    refine ⟨[UInt8.ofNat (natOfBits ((heldBits hsd).take 8))], rfl,
      ⟨writeWindow_holds window _, trivial⟩, fun more => ?_, fun more => ?_⟩
    · rw [streamOf_idle idle, streamOf_idle (by simp), token, List.append_assoc,
        Lzss.remaining_literal]
      simp only [virtualBits, partialBits, after, List.nil_append, List.reverse_cons,
        List.reverse_nil, List.cons_append]
    · rw [paddingOf, token, List.append_assoc, Lzss.parse_token]
      simp only [paddingOf, virtualBits, partialBits, after, List.nil_append]
  case held => rw [state]; exact after
  case whole => rfl
  case changes => simp [state]

theorem stBackrefIndexLsb_refines (coupled : Coupled history hsd)
    (state : hsd.state = .backrefIndexLsb) (enough : 8 ≤ (heldBits hsd).length)
    (oi : OutputInfo) :
    Advances history hsd oi (stBackrefIndexLsb hsd, oi) := by
  obtain ⟨read, rest⟩ := getBits_enough (by decide) (by decide) enough
  have window := getBits_window coupled.window 8
  have idle : hsd.state ≠ .yieldBackref := by rw [state]; decide
  have before : virtualBits hsd = false :: heldBits hsd := by
    simp only [virtualBits, partialBits, state, List.cons_append, List.nil_append]
  have length : ((heldBits hsd).take 8).length = 8 := by simp [enough]
  have small := natOfBits_lt ((heldBits hsd).take 8)
  have indexBits := bitsOfNat_natOfBits ((heldBits hsd).take 8)
  rw [length] at small indexBits
  have zero : hsd.outputIndex = 0 := by
    have shape := coupled.shape
    simpa only [Shaped, state] using shape
  have index : ((hsd.outputIndex ||| natOfBits ((heldBits hsd).take 8)) + 1) % 2 ^ 16 =
      natOfBits ((heldBits hsd).take 8) + 1 := by
    rw [zero, Nat.zero_or]
    exact Nat.mod_eq_of_lt (by omega)
  have after : heldBits (stBackrefIndexLsb hsd) = (heldBits hsd).drop 8 := by
    rw [stBackrefIndexLsb_some read]
    exact rest
  rw [stBackrefIndexLsb_some read, index] at after ⊢
  refine Advances.moved ⟨window, ?_⟩ idle (by simp) ?_ ?_ ?_
  · exact ⟨by simp only; omega, by simp only; omega, rfl⟩
  · rw [before]
    simp only [virtualBits, partialBits, Nat.add_sub_cancel, indexBits, after,
      List.cons_append, List.take_append_drop]
  · rw [state]
    exact after
  · rw [state]
    intro stays
    cases stays

theorem stBackrefCountLsb_refines (coupled : Coupled history hsd)
    (state : hsd.state = .backrefCountLsb) (enough : 7 ≤ (heldBits hsd).length)
    (oi : OutputInfo) :
    Advances history hsd oi (stBackrefCountLsb hsd, oi) := by
  obtain ⟨read, rest⟩ := getBits_enough (by decide) (by decide) enough
  have window := getBits_window coupled.window 7
  have sameIndex := getBits_outputIndex hsd 7
  have idle : hsd.state ≠ .yieldBackref := by rw [state]; decide
  have before : virtualBits hsd =
      false :: (bitsOfNat 8 (hsd.outputIndex - 1) ++ heldBits hsd) := by
    simp only [virtualBits, partialBits, state, List.cons_append]
  have length : ((heldBits hsd).take 7).length = 7 := by simp [enough]
  have small := natOfBits_lt ((heldBits hsd).take 7)
  have countBits := bitsOfNat_natOfBits ((heldBits hsd).take 7)
  rw [length] at small countBits
  obtain ⟨positive, within, zero⟩ :
      1 ≤ hsd.outputIndex ∧ hsd.outputIndex ≤ 256 ∧ hsd.outputCount = 0 := by
    have shape := coupled.shape
    simpa only [Shaped, state] using shape
  have count : ((hsd.outputCount ||| natOfBits ((heldBits hsd).take 7)) + 1) % 2 ^ 16 =
      natOfBits ((heldBits hsd).take 7) + 1 := by
    rw [zero, Nat.zero_or]
    exact Nat.mod_eq_of_lt (by omega)
  have token : virtualBits hsd =
      (Lzss.Token.backref ⟨hsd.outputIndex - 1, by rw [windowBits]; omega⟩
        ⟨natOfBits ((heldBits hsd).take 7), small⟩ :
          Lzss.Token windowBits lookaheadBits).bits ++ (heldBits hsd).drop 7 := by
    rw [before, Lzss.Token.bits]
    simp only [windowBits, lookaheadBits, countBits, List.cons_append, List.append_assoc,
      List.take_append_drop]
  have after : heldBits (stBackrefCountLsb hsd) = (heldBits hsd).drop 7 := by
    rw [stBackrefCountLsb_some read]
    exact rest
  rw [stBackrefCountLsb_some read, count] at after ⊢
  apply Advances.endsToken
  case refines =>
    refine Refines.silent ⟨⟨window, ?_⟩, fun more => ?_, fun more => ?_⟩
    · exact ⟨by simpa using positive, by simpa using within, Nat.succ_pos _⟩
    · rw [streamOf_idle idle, streamOf_backref rfl, token, List.append_assoc,
        Lzss.remaining_backref, after]
      simp only [sameIndex, Nat.sub_add_cancel positive]
      rfl
    · rw [paddingOf, token, List.append_assoc, Lzss.parse_token]
      simp only [paddingOf, virtualBits, partialBits, after, List.nil_append]
  case held => rw [state]; exact after
  case whole => rfl
  case changes => simp [state]

theorem stYieldBackref_refines (coupled : Coupled history hsd)
    (state : hsd.state = .yieldBackref) {oi : OutputInfo}
    (room : oi.out.length < oi.bufSize) :
    Advances history hsd oi (stYieldBackref hsd oi) := by
  obtain ⟨positive, within, nonzero⟩ :
      1 ≤ hsd.outputIndex ∧ hsd.outputIndex ≤ 256 ∧ 0 < hsd.outputCount := by
    have shape := coupled.shape
    simpa only [Shaped, state] using shape
  obtain ⟨out, window, bits⟩ :=
    copyLoop_copies (yieldCount hsd oi) coupled.window positive within oi
  obtain ⟨-, sameIndex, -, length⟩ := copyLoop_frame (yieldCount hsd oi) hsd oi
  have paid : yieldCount hsd oi ≤ hsd.outputCount := by
    unfold yieldCount
    split <;> omega
  have total : hsd.outputCount = yieldCount hsd oi + (hsd.outputCount - yieldCount hsd oi) := by
    omega
  have after : heldBits (stYieldBackref hsd oi).1 = heldBits hsd := by
    rw [stYieldBackref_room room]
    exact bits
  have before : virtualBits hsd = heldBits hsd := by
    simp only [virtualBits, partialBits, state, List.nil_append]
  rw [stYieldBackref_room room] at after ⊢
  constructor
  case refines =>
    refine ⟨_, out, ⟨window, ?_⟩, fun more => ?_, fun more => ?_⟩
    · by_cases drained : hsd.outputCount - yieldCount hsd oi = 0
      · simp only [Shaped, if_pos drained]
      · simp only [Shaped, if_neg drained]
        omega
    · have stream := streamOf_backref state history more
      rw [total, Lzss.remaining_copy] at stream
      rw [stream]
      congr 1
      by_cases drained : hsd.outputCount - yieldCount hsd oi = 0
      · rw [drained, streamOf_idle (by simp), Lzss.remaining_idle, Lzss.remaining_idle]
        simp only [drained, if_true] at after
        simp only [virtualBits, partialBits, if_true, List.nil_append, after]
      · rw [streamOf_backref (by simp [drained]), sameIndex, after]
    · rw [paddingOf, before, paddingOf, virtualBits, after]
      by_cases drained : hsd.outputCount - yieldCount hsd oi = 0
      · simp only [partialBits, drained, if_true, List.nil_append]
      · simp only [partialBits, if_neg drained, List.nil_append]
  case held => rw [state]; exact after
  case fills =>
    -- the state stays when the rest of the back-reference did not fit
    have all := total
    rw [state]
    intro stays
    refine ⟨stays, ?_⟩
    simp only [length]
    unfold yieldCount at stays all ⊢
    split at stays
    next fits =>
      rw [if_pos (by omega)] at stays
      cases stays
    next fits =>
      rw [if_neg fits]
      omega
  case shrinks =>
    rw [before, virtualBits, after, List.length_append]
    by_cases drained : hsd.outputCount - yieldCount hsd oi = 0
    · simp only [partialBits, drained, if_true, List.length_nil, Nat.zero_add, le_refl]
    · simp only [partialBits, if_neg drained, List.length_nil, Nat.zero_add, le_refl]
  case whole =>
    intro _
    by_cases drained : hsd.outputCount - yieldCount hsd oi = 0
    · simp only [partialBits, drained, if_true]
    · simp only [partialBits, if_neg drained]

/-- A step lacks bits, lacks room, or advances. -/
inductive StepCase (history : List UInt8) (hsd : HeatshrinkDecoder) (oi : OutputInfo) : Prop where
  | short (stuck : pollStep hsd oi = (hsd, oi))
      (short : (heldBits hsd).length < bitsNeeded hsd.state)
  | full (stuck : pollStep hsd oi = (hsd, oi))
      (state : hsd.state = .yieldLiteral ∨ hsd.state = .yieldBackref)
      (full : oi.bufSize ≤ oi.out.length)
  | advances (enough : bitsNeeded hsd.state ≤ (heldBits hsd).length)
      (advances : Advances history hsd oi (pollStep hsd oi))

theorem pollStep_cases (coupled : Coupled history hsd) (oi : OutputInfo) :
    StepCase history hsd oi := by
  rcases Nat.lt_or_ge (heldBits hsd).length (bitsNeeded hsd.state) with short | enough
  · exact .short (pollStep_short short oi) short
  · have shape := coupled.shape
    have step : pollStep hsd oi = pollStep hsd oi := rfl
    conv at step => rhs; unfold pollStep
    cases state : hsd.state <;> rw [Shaped, state] at shape <;> rw [state] at enough step <;>
      simp only at step
    case tagBit =>
      exact .advances (by rwa [state])
        (by rw [step]; exact stTagBit_refines coupled state enough oi)
    case yieldLiteral =>
      by_cases room : oi.out.length < oi.bufSize
      · exact .advances (by rwa [state])
          (by rw [step]; exact stYieldLiteral_refines coupled state enough room)
      · exact .full (by rw [step, stYieldLiteral_full room, setState_same state])
          (Or.inl state) (by omega)
    case backrefIndexLsb =>
      exact .advances (by rwa [state])
        (by rw [step]; exact stBackrefIndexLsb_refines coupled state enough oi)
    case backrefCountLsb =>
      exact .advances (by rwa [state])
        (by rw [step]; exact stBackrefCountLsb_refines coupled state enough oi)
    case yieldBackref =>
      by_cases room : oi.out.length < oi.bufSize
      · exact .advances (by rwa [state])
          (by rw [step]; exact stYieldBackref_refines coupled state room)
      · exact .full (by rw [step, stYieldBackref_full room, setState_same state])
          (Or.inr state) (by omega)
    all_goals exact absurd shape id

end Step

/-! ### A poll -/

/-- Less than a byte is held. -/
def Tight (hsd : HeatshrinkDecoder) : Prop := (heldBits hsd).length < 8

/-- The bits held do not suffice for the state. -/
def OutOfBits (hsd : HeatshrinkDecoder) : Prop :=
  (heldBits hsd).length < bitsNeeded hsd.state

/-- A decoder that was out of bits has been given a byte. -/
structure Supplied (hsd : HeatshrinkDecoder) : Prop where
  enough : bitsNeeded hsd.state ≤ (heldBits hsd).length
  below : (heldBits hsd).length < bitsNeeded hsd.state + 8
  reads : hsd.state ≠ .yieldBackref

theorem bitsNeeded_le (state : HsdState) : bitsNeeded state ≤ 8 := by
  cases state <;> decide

theorem OutOfBits.tight {hsd : HeatshrinkDecoder} (out : OutOfBits hsd) : Tight hsd :=
  lt_of_lt_of_le out (bitsNeeded_le hsd.state)

theorem OutOfBits.reads {hsd : HeatshrinkDecoder} (out : OutOfBits hsd) :
    hsd.state ≠ .yieldBackref := by
  intro state
  rw [OutOfBits, state] at out
  exact absurd out (Nat.not_lt_zero _)

/-- The bits of a decoder that is out of bits complete no token. -/
theorem OutOfBits.stuck {history : List UInt8} {hsd : HeatshrinkDecoder}
    (coupled : Coupled history hsd) (out : OutOfBits hsd) :
    Lzss.nextToken windowBits lookaheadBits (virtualBits hsd) = none := by
  have shape := coupled.shape
  unfold OutOfBits at out
  cases state : hsd.state <;> rw [Shaped, state] at shape <;> rw [state] at out <;>
    simp only [bitsNeeded] at out <;> simp only [virtualBits, partialBits, state]
  case backrefCountLsb =>
    rw [List.cons_append, Lzss.nextToken, dif_neg]
    rw [List.length_append, bitsOfNat_length, windowBits, lookaheadBits]
    omega
  case yieldBackref => exact absurd out (Nat.not_lt_zero _)
  all_goals first
    | exact absurd shape id
    | exact Lzss.nextToken_of_short (by simp; omega) (by decide)

theorem OutOfBits.stream {history : List UInt8} {hsd : HeatshrinkDecoder}
    (coupled : Coupled history hsd) (out : OutOfBits hsd) : streamOf history hsd [] = [] := by
  rw [streamOf_idle out.reads, List.append_nil]
  exact Lzss.remaining_stuck (out.stuck coupled) _ _

theorem OutOfBits.padding {history : List UInt8} {hsd : HeatshrinkDecoder}
    (coupled : Coupled history hsd) (out : OutOfBits hsd) : paddingOf hsd [] = virtualBits hsd := by
  rw [paddingOf, List.append_nil, Lzss.parse_of_none (out.stuck coupled)]

/-- What a poll leaves behind, having output `data`. -/
structure Polled (history : List UInt8) (hsd : HeatshrinkDecoder) (room : Nat)
    (data : List UInt8) (after : HeatshrinkDecoder) : Prop
    extends Outputs history hsd data after where
  tight : Tight after
  /-- A poll goes on until it lacks bits or room. -/
  ends : OutOfBits after ∨ after.state = .yieldBackref
  drained : data.length < room → OutOfBits after
  /-- Less than a byte follows the token that output the last byte. -/
  whole : data ≠ [] ∨ (virtualBits hsd).length < 8 → (virtualBits after).length < 8

/-- A step leaves less than a byte when it finds a byte at most supplied. -/
theorem pollStep_tight {history : List UInt8} {hsd : HeatshrinkDecoder} {oi : OutputInfo}
    (coupled : Coupled history hsd)
    (ready : Tight hsd ∨ Supplied hsd ∧ oi.out.length < oi.bufSize) :
    Tight (pollStep hsd oi).1 := by
  cases pollStep_cases coupled oi with
  | short stuck short =>
      rw [stuck]
      exact OutOfBits.tight short
  | full stuck state full =>
      rw [stuck]
      rcases ready with tight | ⟨-, room⟩
      · exact tight
      · omega
  | advances enough advances =>
      rw [Tight, advances.held, List.length_drop]
      rcases ready with tight | ⟨supplied, -⟩
      · unfold Tight at tight
        omega
      · have := supplied.below
        omega

theorem pollLoop_refines {history : List UInt8} {hsd : HeatshrinkDecoder} {oi : OutputInfo}
    (coupled : Coupled history hsd)
    (ready : Tight hsd ∨ Supplied hsd ∧ oi.out.length < oi.bufSize)
    (within : oi.out.length ≤ oi.bufSize) :
    ∃ data, (pollLoop hsd oi).2.1.out = oi.out ++ data ∧
      Polled history hsd (oi.bufSize - oi.out.length) data (pollLoop hsd oi).2.2 := by
  induction hsd, oi using pollLoop.induct generalizing history with
  | case1 hsd oi =>
      rename_i stays
      have tight := pollStep_tight coupled ready
      rw [pollLoop_stays stays]
      cases pollStep_cases coupled oi with
      | short stuck short =>
          rw [stuck]
          exact ⟨[], by simp, ⟨Outputs.refl coupled, OutOfBits.tight short, Or.inl short,
            fun _ => short, fun reason => reason.resolve_left (by simp)⟩⟩
      | full stuck state full =>
          rw [stuck] at tight ⊢
          refine ⟨[], by simp, ⟨Outputs.refl coupled, tight, ?_, fun room => ?_,
            fun reason => reason.resolve_left (by simp)⟩⟩
          · rcases state with literal | backref
            · left
              rw [OutOfBits, literal]
              exact tight
            · exact Or.inr backref
          · simp only [List.length_nil] at room
            omega
      | advances enough advances =>
          obtain ⟨data, out, outputs⟩ := advances.refines
          obtain ⟨state, full⟩ := advances.fills stays
          refine ⟨data, out, ⟨outputs, tight, Or.inr state, fun room => ?_, fun reason => ?_⟩⟩
          · rw [out, List.length_append] at full
            omega
          · have idle : partialBits (pollStep hsd oi).1 = [] := by
              simp only [partialBits, state]
            rw [virtualBits, idle, List.nil_append]
            exact tight
  | case2 hsd oi =>
      rename_i moves _ inductionHypothesis
      have tight := pollStep_tight coupled ready
      obtain ⟨size, capacity⟩ := pollStep_capacity hsd oi
      have fits := capacity within
      rw [pollLoop_advances moves]
      cases pollStep_cases coupled oi with
      | short stuck => exact absurd (congrArg (·.1.state) stuck) moves
      | full stuck => exact absurd (congrArg (·.1.state) stuck) moves
      | advances enough advances =>
          obtain ⟨first, out, outputs⟩ := advances.refines
          obtain ⟨rest, outRest, polled⟩ : ∃ rest,
              (pollLoop (pollStep hsd oi).1 (pollStep hsd oi).2).2.1.out =
                (pollStep hsd oi).2.out ++ rest ∧
              Polled (first.reverse ++ history) (pollStep hsd oi).1
                ((pollStep hsd oi).2.bufSize - (pollStep hsd oi).2.out.length) rest
                (pollLoop (pollStep hsd oi).1 (pollStep hsd oi).2).2.2 :=
            inductionHypothesis outputs.coupled (Or.inl tight)
              (le_of_le_of_eq fits size.symm)
          refine ⟨first ++ rest, by rw [outRest, out, List.append_assoc],
            outputs.trans polled.toOutputs, polled.tight, polled.ends, fun room => ?_,
            fun reason => ?_⟩
          · apply polled.drained
            rw [size, out, List.length_append]
            rw [List.length_append] at room
            omega
          · apply polled.whole
            by_cases silent : rest = []
            · right
              rcases reason with written | settled
              · have idle := advances.whole (by
                  rw [out]
                  intro same
                  apply written
                  rw [silent, List.append_nil]
                  simpa using same)
                rw [virtualBits, idle, List.nil_append]
                exact tight
              · exact lt_of_le_of_lt advances.shrinks settled
            · exact Or.inl silent

/-- A poll outputs the first bytes of the stream. -/
theorem heatshrinkDecoderPoll_refines {history : List UInt8} {hsd : HeatshrinkDecoder}
    (coupled : Coupled history hsd) (ready : Tight hsd ∨ Supplied hsd) {outBufSize : Nat}
    (room : 0 < outBufSize) :
    Polled history hsd outBufSize (heatshrinkDecoderPoll hsd outBufSize).2.1
      (heatshrinkDecoderPoll hsd outBufSize).2.2 := by
  obtain ⟨data, out, polled⟩ :=
    @pollLoop_refines history hsd { bufSize := outBufSize, out := [] } coupled
      (ready.imp_right fun supplied => ⟨supplied, room⟩) (Nat.zero_le _)
  have written : (heatshrinkDecoderPoll hsd outBufSize).2.1 = data := out
  rw [written]
  exact polled

/-! ### Sinking, resetting and finishing -/

/-- A decoder without input has no byte to pull. -/
theorem Tight.inputSize {hsd : HeatshrinkDecoder} (tight : Tight hsd) : hsd.inputSize = 0 := by
  have length := heldBits_length hsd
  have below := hsd.indexBelow
  unfold Tight at tight
  omega

/-- What sinking one byte does to a decoder that is out of bits. -/
structure Sunk (history : List UInt8) (hsd : HeatshrinkDecoder) (byte : UInt8)
    (outcome : HsdSinkRes × Nat × HeatshrinkDecoder) : Prop where
  res : outcome.1 = .ok
  size : outcome.2.1 = 1
  coupled : Coupled history outcome.2.2
  supplied : Supplied outcome.2.2
  stream (more : List Bool) :
    streamOf history outcome.2.2 more = streamOf history hsd (bitsOfByte byte ++ more)
  padding (more : List Bool) :
    paddingOf outcome.2.2 more = paddingOf hsd (bitsOfByte byte ++ more)

theorem heatshrinkDecoderSink_refines {history : List UInt8} {hsd : HeatshrinkDecoder}
    (coupled : Coupled history hsd) (out : OutOfBits hsd) (byte : UInt8) :
    Sunk history hsd byte (heatshrinkDecoderSink hsd [byte]) := by
  have empty := out.tight.inputSize
  have index : hsd.inputIndex = 0 := by
    have := hsd.indexBelow
    omega
  have room : ¬ inputBufferSize - hsd.inputSize = 0 := by rw [empty]; decide
  have one : (if inputBufferSize - hsd.inputSize < [byte].length then
      inputBufferSize - hsd.inputSize else [byte].length) = 1 := by
    rw [empty, List.length_singleton]
    decide
  have before : heldBits hsd = bitsOfNat hsd.bitIndex.size hsd.currentByte.toNat := by
    rw [heldBits, unreadInput, empty, index]
    simp
  have held : heldBits (heatshrinkDecoderSink hsd [byte]).2.2 =
      heldBits hsd ++ bitsOfByte byte := by
    have sunk : (heatshrinkDecoderSink hsd [byte]).2.2.inputSize = 1 ∧
        (heatshrinkDecoderSink hsd [byte]).2.2.inputIndex = 0 ∧
        (heatshrinkDecoderSink hsd [byte]).2.2.buffers 0 = byte ∧
        (heatshrinkDecoderSink hsd [byte]).2.2.bitIndex = hsd.bitIndex ∧
        (heatshrinkDecoderSink hsd [byte]).2.2.currentByte = hsd.currentByte := by
      rw [heatshrinkDecoderSink]
      simp only [if_neg room, one]
      exact ⟨by rw [empty], index, by rw [empty]; rfl, trivial, trivial⟩
    obtain ⟨size, start, first, bit, current⟩ := sunk
    have unread : unreadInput (heatshrinkDecoderSink hsd [byte]).2.2 = [byte] := by
      simp [unreadInput, size, start, first]
    rw [before, heldBits, unread, bit, current, bitsOfBytes_cons, bitsOfBytes_nil,
      List.append_nil]
  have bits : virtualBits (heatshrinkDecoderSink hsd [byte]).2.2 =
      virtualBits hsd ++ bitsOfByte byte := by
    rw [virtualBits, held, virtualBits, List.append_assoc, heatshrinkDecoderSink]
    simp only [if_neg room, partialBits]
  have fields : (heatshrinkDecoderSink hsd [byte]).1 = .ok ∧
      (heatshrinkDecoderSink hsd [byte]).2.1 = 1 ∧
      (heatshrinkDecoderSink hsd [byte]).2.2.state = hsd.state ∧
      Coupled history (heatshrinkDecoderSink hsd [byte]).2.2 := by
    rw [heatshrinkDecoderSink]
    simp only [if_neg room]
    refine ⟨trivial, one, trivial, fun distance below => ?_, coupled.shape⟩
    have window := coupled.window distance below
    -- the input buffer ends where the window begins
    rw [← window]
    simp only
    rw [if_neg (by omega)]
  obtain ⟨res, size, state, after⟩ := fields
  refine ⟨res, size, after, ⟨?_, ?_, ?_⟩, fun more => ?_, fun more => ?_⟩
  · have := bitsNeeded_le hsd.state
    rw [state, held, List.length_append, bitsOfByte_length]
    omega
  · unfold OutOfBits at out
    rw [state, held, List.length_append, bitsOfByte_length]
    omega
  · rw [state]
    exact out.reads
  · have idle : (heatshrinkDecoderSink hsd [byte]).2.2.state ≠ .yieldBackref := by
      rw [state]
      exact out.reads
    rw [streamOf_idle idle, streamOf_idle out.reads, bits, List.append_assoc]
  · rw [paddingOf, bits, List.append_assoc, paddingOf]

theorem heatshrinkDecoderReset_coupled : Coupled [] heatshrinkDecoderReset :=
  ⟨fun _ _ => rfl, trivial⟩

theorem heatshrinkDecoderReset_outOfBits : OutOfBits heatshrinkDecoderReset := by
  unfold OutOfBits
  decide +kernel

/-- A decoder that was reset outputs the expansion of the bits it is given. -/
theorem heatshrinkDecoderReset_stream (more : List Bool) :
    streamOf [] heatshrinkDecoderReset more =
      Lzss.expand [] (Lzss.parse windowBits lookaheadBits more).1 := by
  have idle : heatshrinkDecoderReset.state ≠ .yieldBackref := nofun
  rw [streamOf_idle idle, Lzss.remaining_idle]
  rfl

theorem heatshrinkDecoderReset_padding (more : List Bool) :
    paddingOf heatshrinkDecoderReset more = (Lzss.parse windowBits lookaheadBits more).2 := rfl

/-- A back-reference in progress has bytes to come. -/
theorem Coupled.stream_pending {history : List UInt8} {hsd : HeatshrinkDecoder}
    (coupled : Coupled history hsd) (state : hsd.state = .yieldBackref) (more : List Bool) :
    streamOf history hsd more ≠ [] := by
  have shape := coupled.shape
  rw [Shaped, state] at shape
  intro none
  have length := congrArg List.length none
  rw [streamOf_backref state, Lzss.remaining, List.length_append, Lzss.copyBack_length,
    List.length_nil] at length
  omega

/-- Without bytes to come all bits are padding. -/
theorem Coupled.padding_exhausted {history : List UInt8} {hsd : HeatshrinkDecoder}
    (coupled : Coupled history hsd) {more : List Bool} (none : streamOf history hsd more = []) :
    paddingOf hsd more = virtualBits hsd ++ more := by
  have idle : hsd.state ≠ .yieldBackref := fun state => coupled.stream_pending state more none
  rw [streamOf_idle idle, Lzss.remaining_idle, Lzss.expand_eq_nil] at none
  have whole := @Lzss.bits_of_parse windowBits lookaheadBits (virtualBits hsd ++ more)
  rw [none] at whole
  exact whole.symm

/-- A decoder with less than a byte is finished outside a back-reference. -/
theorem heatshrinkDecoderFinish_done {hsd : HeatshrinkDecoder} (tight : Tight hsd) :
    heatshrinkDecoderFinish hsd = .done ↔ hsd.state ≠ .yieldBackref := by
  have empty := tight.inputSize
  unfold heatshrinkDecoderFinish
  cases hsd.state <;> simp [empty]

end DeltaUpdate.Heatshrink
