import DeltaUpdate.Machine

/-!
Owns the decoder of `heatshrink_decoder.c` in its static configuration: the bit
reader, the seven states of the polling machine, sinking and finishing. The
polling loop itself is in `Poll`, behind the bound that ends it.

The decoder and output pointers of the source are never null here, so the
`ERROR_NULL` results do not arise; the result types keep them, because the
caller tests for them. The logging macros are compiled out and are not modelled.
-/

namespace DeltaUpdate.Heatshrink

/-- `HEATSHRINK_STATIC_INPUT_BUFFER_SIZE`. -/
def inputBufferSize : Nat := 256

/-- `HEATSHRINK_STATIC_WINDOW_BITS`. -/
def windowBits : Nat := 8

/-- `HEATSHRINK_STATIC_LOOKAHEAD_BITS`. -/
def lookaheadBits : Nat := 7

/-- `BACKREF_INDEX_BITS`. -/
def backrefIndexBits : Nat := windowBits

/-- `BACKREF_COUNT_BITS`. -/
def backrefCountBits : Nat := lookaheadBits

/-- `HSD_state`. -/
inductive HsdState where
  | tagBit
  | yieldLiteral
  | backrefIndexMsb
  | backrefIndexLsb
  | backrefCountMsb
  | backrefCountLsb
  | yieldBackref
deriving DecidableEq, Repr

/-- `HSD_sink_res`. -/
inductive HsdSinkRes where
  | ok
  | full
  | errorNull
deriving DecidableEq, Repr

/-- `HSD_poll_res`. -/
inductive HsdPollRes where
  | empty
  | more
  | errorNull
  | errorUnknown
deriving DecidableEq, Repr

/-- `HSD_finish_res`. -/
inductive HsdFinishRes where
  | done
  | more
  | errorNull
deriving DecidableEq, Repr

/-- The negative members of `HSD_sink_res`. -/
def HsdSinkRes.isNegative : HsdSinkRes → Bool
  | .errorNull => true
  | _ => false

/-- The negative members of `HSD_poll_res`. -/
def HsdPollRes.isNegative : HsdPollRes → Bool
  | .errorNull | .errorUnknown => true
  | _ => false

/-- `heatshrink_decoder`. The input buffer is `buffers` from 0 and the expansion
window is `buffers` from `inputBufferSize`. -/
structure HeatshrinkDecoder where
  inputSize : Nat
  inputIndex : Nat
  outputCount : Nat
  outputIndex : Nat
  headIndex : Nat
  state : HsdState
  currentByte : UInt8
  bitIndex : Nat
  buffers : Nat → UInt8
  /-- Unread input lies below the input size, and an empty buffer is reset. -/
  indexBelow : inputIndex < inputSize ∨ inputIndex = 0 ∧ inputSize = 0
  sizeBelow : inputSize ≤ inputBufferSize
  /-- The bit index selects one bit of the current byte, or none. -/
  oneBit : ∃ count ≤ 8, bitIndex = 2 ^ count / 2

/-- `output_info`: the capacity of the output buffer and the bytes pushed so far. -/
structure OutputInfo where
  bufSize : Nat
  out : List UInt8

/-- `heatshrink_decoder_reset`. -/
def heatshrinkDecoderReset : HeatshrinkDecoder where
  inputSize := 0
  inputIndex := 0
  outputCount := 0
  outputIndex := 0
  headIndex := 0
  state := .tagBit
  currentByte := 0
  bitIndex := 0
  buffers := fun _ => 0
  indexBelow := Or.inr ⟨rfl, rfl⟩
  sizeBelow := Nat.zero_le _
  oneBit := ⟨0, by decide, rfl⟩

/-- `heatshrink_decoder_sink`: the result, the number of bytes taken and the decoder. -/
def heatshrinkDecoderSink (hsd : HeatshrinkDecoder) (inBuf : List UInt8) :
    HsdSinkRes × Nat × HeatshrinkDecoder :=
  let rem := inputBufferSize - hsd.inputSize
  if rem = 0 then (.full, 0, hsd)
  else
    let size := if rem < inBuf.length then rem else inBuf.length
    (.ok, size,
      { hsd with
        buffers := fun index =>
          if hsd.inputSize ≤ index ∧ index < hsd.inputSize + size then
            inBuf.getD (index - hsd.inputSize) 0
          else hsd.buffers index
        inputSize := hsd.inputSize + size
        indexBelow := by
          have := hsd.indexBelow
          omega
        sizeBelow := by
          have := hsd.sizeBelow
          simp only [size, rem]
          split <;> omega })

/-! ### Bits -/

/-- The next input byte becomes the current byte. -/
def pullByte (hsd : HeatshrinkDecoder) (present : hsd.inputSize ≠ 0) : HeatshrinkDecoder :=
  if last : hsd.inputIndex + 1 = hsd.inputSize then
    { hsd with
      currentByte := hsd.buffers hsd.inputIndex
      inputIndex := 0
      inputSize := 0
      bitIndex := 0x80
      indexBelow := Or.inr ⟨rfl, rfl⟩
      sizeBelow := Nat.zero_le _
      oneBit := ⟨8, by decide, by decide⟩ }
  else
    { hsd with
      currentByte := hsd.buffers hsd.inputIndex
      inputIndex := hsd.inputIndex + 1
      bitIndex := 0x80
      indexBelow := by
        have := hsd.indexBelow
        omega
      oneBit := ⟨8, by decide, by decide⟩ }

/-- `hsd->bit_index >>= 1`. -/
def shiftBit (hsd : HeatshrinkDecoder) : HeatshrinkDecoder :=
  { hsd with
    bitIndex := hsd.bitIndex / 2
    oneBit := by
      obtain ⟨count, small, equal⟩ := hsd.oneBit
      cases count with
      | zero => exact ⟨0, by decide, by rw [equal]; rfl⟩
      | succ count => exact ⟨count, by omega, by rw [equal, pow_succ]; omega⟩ }

/-- The value of the bit under the bit index. -/
def currentBit (hsd : HeatshrinkDecoder) : Nat :=
  if hsd.currentByte.toNat &&& hsd.bitIndex ≠ 0 then 1 else 0

/-- The loop of `get_bits` over the bits still to read. -/
def getBitsLoop : Nat → Nat → HeatshrinkDecoder → Option Nat × HeatshrinkDecoder
  | 0, accumulator, hsd => (some accumulator, hsd)
  | count + 1, accumulator, hsd =>
      if hsd.bitIndex = 0 then
        if present : hsd.inputSize ≠ 0 then
          let pulled := pullByte hsd present
          getBitsLoop count (2 * accumulator + currentBit pulled) (shiftBit pulled)
        else (none, hsd)
      else getBitsLoop count (2 * accumulator + currentBit hsd) (shiftBit hsd)

/-- `get_bits`; `none` is `NO_BITS`. -/
def getBits (hsd : HeatshrinkDecoder) (count : Nat) : Option Nat × HeatshrinkDecoder :=
  if count > 15 then (none, hsd)
  else if hsd.inputSize = 0 ∧ hsd.bitIndex < 1 <<< (count - 1) then (none, hsd)
  else getBitsLoop count 0 hsd

/-! ### States -/

/-- `push_byte`. -/
def pushByte (oi : OutputInfo) (byte : UInt8) : OutputInfo :=
  { oi with out := oi.out ++ [byte] }

/-- `st_tag_bit`. -/
def stTagBit (hsd : HeatshrinkDecoder) : HeatshrinkDecoder :=
  let read := getBits hsd 1
  match read.1 with
  | none => { read.2 with state := .tagBit }
  | some bits =>
      if bits ≠ 0 then { read.2 with state := .yieldLiteral }
      else if windowBits > 8 then { read.2 with state := .backrefIndexMsb }
      else { read.2 with outputIndex := 0, state := .backrefIndexLsb }

/-- `buf[hsd->head_index++ & mask] = byte` on the window. -/
def writeWindow (hsd : HeatshrinkDecoder) (byte : UInt8) : HeatshrinkDecoder :=
  { hsd with
    buffers := fun index =>
      if index = inputBufferSize + hsd.headIndex % 2 ^ windowBits then byte
      else hsd.buffers index
    headIndex := (hsd.headIndex + 1) % 2 ^ 16 }

/-- `st_yield_literal`. -/
def stYieldLiteral (hsd : HeatshrinkDecoder) (oi : OutputInfo) :
    HeatshrinkDecoder × OutputInfo :=
  if oi.out.length < oi.bufSize then
    let read := getBits hsd 8
    match read.1 with
    | none => ({ read.2 with state := .yieldLiteral }, oi)
    | some byte =>
        let c := UInt8.ofNat byte
        ({ writeWindow read.2 c with state := .tagBit }, pushByte oi c)
  else ({ hsd with state := .yieldLiteral }, oi)

/-- `st_backref_index_msb`. -/
def stBackrefIndexMsb (hsd : HeatshrinkDecoder) : HeatshrinkDecoder :=
  let read := getBits hsd (backrefIndexBits - 8)
  match read.1 with
  | none => { read.2 with state := .backrefIndexMsb }
  | some bits =>
      { read.2 with outputIndex := bits <<< 8 % 2 ^ 16, state := .backrefIndexLsb }

/-- `st_backref_index_lsb`. -/
def stBackrefIndexLsb (hsd : HeatshrinkDecoder) : HeatshrinkDecoder :=
  let read := getBits hsd (if backrefIndexBits < 8 then backrefIndexBits else 8)
  match read.1 with
  | none => { read.2 with state := .backrefIndexLsb }
  | some bits =>
      { read.2 with
        outputIndex := ((hsd.outputIndex ||| bits) + 1) % 2 ^ 16
        outputCount := 0
        state := if backrefCountBits > 8 then .backrefCountMsb else .backrefCountLsb }

/-- `st_backref_count_msb`; the count argument is a `uint8_t`. -/
def stBackrefCountMsb (hsd : HeatshrinkDecoder) : HeatshrinkDecoder :=
  let read := getBits hsd ((backrefCountBits + 256 - 8) % 256)
  match read.1 with
  | none => { read.2 with state := .backrefCountMsb }
  | some bits =>
      { read.2 with outputCount := bits <<< 8 % 2 ^ 16, state := .backrefCountLsb }

/-- `st_backref_count_lsb`. -/
def stBackrefCountLsb (hsd : HeatshrinkDecoder) : HeatshrinkDecoder :=
  let read := getBits hsd (if backrefCountBits < 8 then backrefCountBits else 8)
  match read.1 with
  | none => { read.2 with state := .backrefCountLsb }
  | some bits =>
      { read.2 with
        outputCount := ((hsd.outputCount ||| bits) + 1) % 2 ^ 16
        state := .yieldBackref }

/-- The copying loop of `st_yield_backref`. -/
def copyLoop : Nat → HeatshrinkDecoder → OutputInfo → HeatshrinkDecoder × OutputInfo
  | 0, hsd, oi => (hsd, oi)
  | count + 1, hsd, oi =>
      let c := hsd.buffers (inputBufferSize +
        (((hsd.headIndex : Int) - hsd.outputIndex) % 2 ^ windowBits).toNat)
      copyLoop count (writeWindow hsd c) (pushByte oi c)

/-- The number of bytes `st_yield_backref` copies: the room left in the output
buffer, or the rest of the back-reference when that is shorter. -/
def yieldCount (hsd : HeatshrinkDecoder) (oi : OutputInfo) : Nat :=
  if hsd.outputCount < oi.bufSize - oi.out.length then hsd.outputCount
  else oi.bufSize - oi.out.length

/-- `st_yield_backref`. -/
def stYieldBackref (hsd : HeatshrinkDecoder) (oi : OutputInfo) :
    HeatshrinkDecoder × OutputInfo :=
  if oi.bufSize - oi.out.length > 0 then
    let count := yieldCount hsd oi
    let copied := copyLoop count hsd oi
    ({ copied.1 with
        outputCount := hsd.outputCount - count
        state := if hsd.outputCount - count = 0 then .tagBit else .yieldBackref },
      copied.2)
  else ({ hsd with state := .yieldBackref }, oi)

/-- The switch of `heatshrink_decoder_poll`. -/
def pollStep (hsd : HeatshrinkDecoder) (oi : OutputInfo) : HeatshrinkDecoder × OutputInfo :=
  match hsd.state with
  | .tagBit => (stTagBit hsd, oi)
  | .yieldLiteral => stYieldLiteral hsd oi
  | .backrefIndexMsb => (stBackrefIndexMsb hsd, oi)
  | .backrefIndexLsb => (stBackrefIndexLsb hsd, oi)
  | .backrefCountMsb => (stBackrefCountMsb hsd, oi)
  | .backrefCountLsb => (stBackrefCountLsb hsd, oi)
  | .yieldBackref => stYieldBackref hsd oi

/-- `heatshrink_decoder_finish`. -/
def heatshrinkDecoderFinish (hsd : HeatshrinkDecoder) : HsdFinishRes :=
  match hsd.state with
  | .tagBit => if hsd.inputSize = 0 then .done else .more
  | .backrefIndexLsb | .backrefIndexMsb | .backrefCountLsb | .backrefCountMsb =>
      if hsd.inputSize = 0 then .done else .more
  | .yieldLiteral => if hsd.inputSize = 0 then .done else .more
  | .yieldBackref => .more

end DeltaUpdate.Heatshrink
