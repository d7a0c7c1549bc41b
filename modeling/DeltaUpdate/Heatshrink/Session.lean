import DeltaUpdate.Heatshrink.Refinement

/-!
Owns the use of the decoder by any client: input is sunk and output is polled in any order
and in pieces of any size. The decoder is a queue of the expansion of the input it has
taken: a poll outputs the next bytes of the expansion, as many as there are and as fit, and
the decoder is finished when all of them have been output.
-/

namespace DeltaUpdate.Heatshrink

open DeltaUpdate.Library

/-- The bytes that the complete tokens of some input stand for. -/
def expansion (input : List UInt8) : List UInt8 :=
  Lzss.expand [] (Lzss.parse windowBits lookaheadBits (bitsOfBytes input)).1

/-- What a client asks of the decoder. -/
inductive Request
  | sink (inBuf : List UInt8)
  | poll (outBufSize : Nat)

/-- A decoder, the input it has taken and the output it has given. -/
structure Session where
  hsd : HeatshrinkDecoder
  accepted : List UInt8
  output : List UInt8

/-- The session after a request. The sink reports how many bytes it has taken. -/
def Session.serve (session : Session) : Request → Session
  | .sink inBuf =>
      let sunk := heatshrinkDecoderSink session.hsd inBuf
      { session with hsd := sunk.2.2, accepted := session.accepted ++ inBuf.take sunk.2.1 }
  | .poll outBufSize =>
      let polled := heatshrinkDecoderPoll session.hsd outBufSize
      { session with hsd := polled.2.2, output := session.output ++ polled.2.1 }

/-- The session after some requests to a decoder that was reset. -/
def serveAll (requests : List Request) : Session :=
  requests.foldl Session.serve ⟨heatshrinkDecoderReset, [], []⟩

/-! ### The bit index -/

/-- A byte is only pulled to be read, so a whole byte is never held as the current byte. -/
def BitRead (hsd : HeatshrinkDecoder) : Prop := hsd.bitIndex ≤ 64

theorem shiftBit_bitRead (hsd : HeatshrinkDecoder) : BitRead (shiftBit hsd) := by
  obtain ⟨count, small, equal⟩ := hsd.oneBit
  have power : 2 ^ count ≤ 2 ^ 8 := Nat.pow_le_pow_right (by decide) small
  unfold BitRead shiftBit
  simp only
  omega

theorem getBitsLoop_bitRead (count accumulator : Nat) {hsd : HeatshrinkDecoder}
    (read : BitRead hsd) : BitRead (getBitsLoop count accumulator hsd).2 := by
  induction count generalizing accumulator hsd with
  | zero => exact read
  | succ count inductionHypothesis =>
      unfold getBitsLoop
      split
      · split
        · exact inductionHypothesis _ (shiftBit_bitRead _)
        · exact read
      · exact inductionHypothesis _ (shiftBit_bitRead _)

theorem getBits_bitRead {hsd : HeatshrinkDecoder} (read : BitRead hsd) (count : Nat) :
    BitRead (getBits hsd count).2 := by
  unfold getBits
  split
  · exact read
  · split
    · exact read
    · exact getBitsLoop_bitRead count 0 read

theorem copyLoop_bitIndex (count : Nat) (hsd : HeatshrinkDecoder) (oi : OutputInfo) :
    (copyLoop count hsd oi).1.bitIndex = hsd.bitIndex := by
  induction count generalizing hsd oi with
  | zero => rfl
  | succ count inductionHypothesis => exact inductionHypothesis _ _

theorem pollStep_bitRead {hsd : HeatshrinkDecoder} (read : BitRead hsd) (oi : OutputInfo) :
    BitRead (pollStep hsd oi).1 := by
  have reads := getBits_bitRead read
  unfold pollStep
  cases hsd.state <;> simp only
  case tagBit =>
    cases bits : (getBits hsd 1).1 with
    | none =>
        rw [stTagBit_none bits]
        exact reads 1
    | some tag =>
        by_cases set : tag = 0
        · subst set
          rw [stTagBit_clear bits]
          exact reads 1
        · rw [stTagBit_set bits set]
          exact reads 1
  case yieldLiteral =>
    by_cases room : oi.out.length < oi.bufSize
    · cases bits : (getBits hsd 8).1 with
      | none =>
          rw [stYieldLiteral_none room bits]
          exact reads 8
      | some byte =>
          rw [stYieldLiteral_some room bits]
          exact reads 8
    · rw [stYieldLiteral_full room]
      exact read
  case backrefIndexMsb =>
    cases bits : (getBits hsd 0).1 with
    | none =>
        rw [stBackrefIndexMsb_none bits]
        exact reads 0
    | some index =>
        rw [stBackrefIndexMsb_some bits]
        exact reads 0
  case backrefIndexLsb =>
    cases bits : (getBits hsd 8).1 with
    | none =>
        rw [stBackrefIndexLsb_none bits]
        exact reads 8
    | some index =>
        rw [stBackrefIndexLsb_some bits]
        exact reads 8
  case backrefCountMsb =>
    rw [stBackrefCountMsb_eq]
    exact read
  case backrefCountLsb =>
    cases bits : (getBits hsd 7).1 with
    | none =>
        rw [stBackrefCountLsb_none bits]
        exact reads 7
    | some count =>
        rw [stBackrefCountLsb_some bits]
        exact reads 7
  case yieldBackref =>
    by_cases room : oi.out.length < oi.bufSize
    · rw [stYieldBackref_room room]
      exact (copyLoop_bitIndex _ _ _).trans_le read
    · rw [stYieldBackref_full room]
      exact read

/-- Without input less than a byte is held. -/
theorem BitRead.tight {hsd : HeatshrinkDecoder} (read : BitRead hsd)
    (empty : hsd.inputSize = 0) : Tight hsd := by
  have size : hsd.bitIndex.size ≤ 7 := Nat.size_le.mpr (lt_of_le_of_lt read (by decide))
  rw [Tight, heldBits_length, empty]
  omega

/-! ### Polling -/

/-- What a poll does with room for some bytes. -/
structure Takes (history : List UInt8) (hsd : HeatshrinkDecoder) (room : Nat)
    (data : List UInt8) (res : HsdPollRes) (after : HeatshrinkDecoder) : Prop
    extends Outputs history hsd data after where
  empty : res = .empty → data.length < room ∧ OutOfBits after
  more : res ≠ .empty → res = .more ∧ data.length = room
  ends : OutOfBits after ∨ after.state = .yieldLiteral ∨ after.state = .yieldBackref

theorem pollLoop_takes {history : List UInt8} {hsd : HeatshrinkDecoder} {oi : OutputInfo}
    (coupled : Coupled history hsd) (within : oi.out.length ≤ oi.bufSize) :
    ∃ data, (pollLoop hsd oi).2.1.out = oi.out ++ data ∧
      Takes history hsd (oi.bufSize - oi.out.length) data (pollLoop hsd oi).1
        (pollLoop hsd oi).2.2 := by
  induction hsd, oi using pollLoop.induct generalizing history with
  | case1 hsd oi =>
      rename_i stays
      obtain ⟨size, capacity⟩ := pollStep_capacity hsd oi
      have fits := capacity within
      rw [pollLoop_stays stays, size]
      cases pollStep_cases coupled oi with
      | short stuck short =>
          rw [stuck]
          refine ⟨[], by simp, ⟨Outputs.refl coupled, ?_, ?_, Or.inl short⟩⟩
          · simp only [ite_eq_right_iff, reduceCtorEq, imp_false, List.length_nil]
            exact fun unfilled => ⟨by omega, short⟩
          · simp only [ne_eq, ite_eq_right_iff, reduceCtorEq, imp_false, not_not,
              List.length_nil]
            exact fun filled => ⟨if_pos filled, by omega⟩
      | full stuck state full =>
          rw [stuck, if_pos (le_antisymm within full)]
          exact ⟨[], by simp, ⟨Outputs.refl coupled, fun empty => absurd empty (by simp),
            fun _ => ⟨rfl, by simp; omega⟩, Or.inr state⟩⟩
      | advances enough advances =>
          obtain ⟨data, out, outputs⟩ := advances.refines
          obtain ⟨state, full⟩ := advances.fills stays
          have length := congrArg List.length out
          rw [List.length_append] at length
          rw [if_pos (le_antisymm fits full)]
          refine ⟨data, out, ⟨outputs, fun empty => absurd empty (by simp),
            fun _ => ⟨rfl, ?_⟩, Or.inr (Or.inr state)⟩⟩
          omega
  | case2 hsd oi =>
      rename_i moves _ inductionHypothesis
      obtain ⟨size, capacity⟩ := pollStep_capacity hsd oi
      have fits := capacity within
      rw [pollLoop_advances moves]
      cases pollStep_cases coupled oi with
      | short stuck => exact absurd (congrArg (·.1.state) stuck) moves
      | full stuck => exact absurd (congrArg (·.1.state) stuck) moves
      | advances enough advances =>
          obtain ⟨first, out, outputs⟩ := advances.refines
          obtain ⟨rest, outRest, takes⟩ : ∃ rest,
              (pollLoop (pollStep hsd oi).1 (pollStep hsd oi).2).2.1.out =
                (pollStep hsd oi).2.out ++ rest ∧
              Takes (first.reverse ++ history) (pollStep hsd oi).1
                ((pollStep hsd oi).2.bufSize - (pollStep hsd oi).2.out.length) rest
                (pollLoop (pollStep hsd oi).1 (pollStep hsd oi).2).1
                (pollLoop (pollStep hsd oi).1 (pollStep hsd oi).2).2.2 :=
            inductionHypothesis outputs.coupled (le_of_le_of_eq fits size.symm)
          have length := congrArg List.length out
          rw [List.length_append] at length
          rw [size] at takes
          refine ⟨first ++ rest, by rw [outRest, out, List.append_assoc],
            outputs.trans takes.toOutputs, fun empty => ?_, fun other => ?_, takes.ends⟩
          · obtain ⟨short, bits⟩ := takes.empty empty
            exact ⟨by rw [List.length_append]; omega, bits⟩
          · obtain ⟨more, full⟩ := takes.more other
            exact ⟨more, by rw [List.length_append]; omega⟩

/-- A poll outputs the first bytes of the stream, as many as there are and as fit. -/
theorem heatshrinkDecoderPoll_takes {history : List UInt8} {hsd : HeatshrinkDecoder}
    (coupled : Coupled history hsd) (outBufSize : Nat) :
    Takes history hsd outBufSize (heatshrinkDecoderPoll hsd outBufSize).2.1
      (heatshrinkDecoderPoll hsd outBufSize).1 (heatshrinkDecoderPoll hsd outBufSize).2.2 := by
  obtain ⟨data, out, takes⟩ :=
    @pollLoop_takes history hsd { bufSize := outBufSize, out := [] } coupled (Nat.zero_le _)
  have written : (heatshrinkDecoderPoll hsd outBufSize).2.1 = data := out
  rw [written]
  exact takes

/-! ### Sinking -/

/-- What sinking does to the fields: the bytes taken are behind the input, and the rest is
the same. -/
structure SinkCase (hsd : HeatshrinkDecoder) (inBuf : List UInt8) (size : Nat)
    (after : HeatshrinkDecoder) : Prop where
  taken : size ≤ inBuf.length
  within : hsd.inputSize + size ≤ inputBufferSize
  inputSize : after.inputSize = hsd.inputSize + size
  inputIndex : after.inputIndex = hsd.inputIndex
  buffers : ∀ index, after.buffers index =
    if hsd.inputSize ≤ index ∧ index < hsd.inputSize + size then
      inBuf.getD (index - hsd.inputSize) 0
    else hsd.buffers index
  state : after.state = hsd.state
  bitIndex : after.bitIndex = hsd.bitIndex
  currentByte : after.currentByte = hsd.currentByte
  outputIndex : after.outputIndex = hsd.outputIndex
  outputCount : after.outputCount = hsd.outputCount
  headIndex : after.headIndex = hsd.headIndex

theorem heatshrinkDecoderSink_case (hsd : HeatshrinkDecoder) (inBuf : List UInt8) :
    SinkCase hsd inBuf (heatshrinkDecoderSink hsd inBuf).2.1
      (heatshrinkDecoderSink hsd inBuf).2.2 := by
  have below := hsd.sizeBelow
  unfold heatshrinkDecoderSink
  by_cases full : inputBufferSize - hsd.inputSize = 0
  · simp only [if_pos full]
    exact ⟨Nat.zero_le _, below, rfl, rfl, fun index => (if_neg (by omega)).symm, rfl, rfl, rfl,
      rfl, rfl, rfl⟩
  · simp only [if_neg full]
    refine ⟨?_, ?_, rfl, rfl, fun _ => rfl, rfl, rfl, rfl, rfl, rfl, rfl⟩
    · split <;> omega
    · split <;> omega

section

variable {history : List UInt8} {hsd after : HeatshrinkDecoder} {inBuf : List UInt8} {size : Nat}

theorem SinkCase.unread (sunk : SinkCase hsd inBuf size after) :
    unreadInput after = unreadInput hsd ++ inBuf.take size := by
  have order := hsd.indexBelow
  have within := sunk.taken
  have count : hsd.inputSize + size - hsd.inputIndex =
      (hsd.inputSize - hsd.inputIndex) + size := by omega
  rw [unreadInput, sunk.inputSize, sunk.inputIndex, count, List.range_add, List.map_append,
    List.map_map]
  congr 1
  · apply List.map_congr_left
    intro index among
    rw [List.mem_range] at among
    rw [sunk.buffers, if_neg (by omega)]
  · apply List.ext_getElem
    · simp [within]
    · intro index below _
      simp only [List.length_map, List.length_range] at below
      have place : hsd.inputIndex + (hsd.inputSize - hsd.inputIndex + index) - hsd.inputSize =
          index := by omega
      simp only [List.getElem_map, List.getElem_range, Function.comp_apply, List.getElem_take]
      rw [sunk.buffers, if_pos (by omega), place, List.getD_eq_getElem _ _ (by omega)]

theorem SinkCase.virtualBits (sunk : SinkCase hsd inBuf size after) :
    virtualBits after = virtualBits hsd ++ bitsOfBytes (inBuf.take size) := by
  have partialSame : partialBits after = partialBits hsd := by
    rw [partialBits, partialBits, sunk.state, sunk.outputIndex]
  rw [Heatshrink.virtualBits, Heatshrink.virtualBits, partialSame, heldBits, heldBits,
    sunk.unread, sunk.bitIndex, sunk.currentByte, bitsOfBytes_append]
  simp only [List.append_assoc]

/-- The bytes that are sunk are read before any that follow. -/
theorem SinkCase.stream (sunk : SinkCase hsd inBuf size after) (more : List Bool) :
    streamOf history after more =
      streamOf history hsd (bitsOfBytes (inBuf.take size) ++ more) := by
  have pending : pendingCount after = pendingCount hsd := by
    rw [pendingCount, pendingCount, sunk.state, sunk.outputCount]
  rw [streamOf, streamOf, sunk.virtualBits, sunk.outputIndex, pending, List.append_assoc]

/-- The input buffer ends where the window begins. -/
theorem SinkCase.coupled (sunk : SinkCase hsd inBuf size after) (coupled : Coupled history hsd) :
    Coupled history after where
  window distance below := by
    have within := sunk.within
    rw [sunk.headIndex, sunk.buffers, if_neg (by omega)]
    exact coupled.window distance below
  shape := by
    have shape := coupled.shape
    unfold Shaped at shape ⊢
    rw [sunk.state, sunk.outputIndex, sunk.outputCount]
    exact shape

end

/-! ### Sessions -/

/-- Without input, the decoder lacks bits or has bytes of a back-reference to output. -/
structure Settled (hsd : HeatshrinkDecoder) : Prop where
  bitRead : BitRead hsd
  waits : hsd.inputSize = 0 → OutOfBits hsd ∨ hsd.state = .yieldBackref

/-- The output and the bytes still to come are the expansion of the input. -/
structure Faithful (session : Session) : Prop where
  coupled : Coupled session.output.reverse session.hsd
  settled : Settled session.hsd
  stream (more : List Bool) :
    Lzss.expand [] (Lzss.parse windowBits lookaheadBits
        (bitsOfBytes session.accepted ++ more)).1 =
      session.output ++ streamOf session.output.reverse session.hsd more

theorem faithful_start : Faithful ⟨heatshrinkDecoderReset, [], []⟩ where
  coupled := heatshrinkDecoderReset_coupled
  settled := ⟨Nat.zero_le _, fun _ => Or.inl heatshrinkDecoderReset_outOfBits⟩
  stream more := (heatshrinkDecoderReset_stream more).symm

theorem Faithful.sink {session : Session} (faithful : Faithful session) (inBuf : List UInt8) :
    Faithful (session.serve (.sink inBuf)) := by
  have sunk := heatshrinkDecoderSink_case session.hsd inBuf
  refine ⟨sunk.coupled faithful.coupled, ⟨?_, ?_⟩, fun more => ?_⟩
  · exact sunk.bitIndex.trans_le faithful.settled.bitRead
  · -- nothing was taken, so the decoder waits as before
    intro empty
    have size := sunk.inputSize
    change (heatshrinkDecoderSink session.hsd inBuf).2.2.inputSize = 0 at empty
    have before : session.hsd.inputSize = 0 := by omega
    have unread := sunk.unread
    rw [show (heatshrinkDecoderSink session.hsd inBuf).2.1 = 0 by omega, List.take_zero,
      List.append_nil] at unread
    refine (faithful.settled.waits before).imp (fun short => ?_) sunk.state.trans
    have held := heldBits_congr sunk.bitIndex sunk.currentByte unread
    exact lt_of_eq_of_lt (congrArg List.length held) (sunk.state ▸ short)
  · simp only [Session.serve]
    rw [bitsOfBytes_append, List.append_assoc, faithful.stream, sunk.stream]

theorem heatshrinkDecoderPoll_bitRead {hsd : HeatshrinkDecoder} (read : BitRead hsd)
    (outBufSize : Nat) : BitRead (heatshrinkDecoderPoll hsd outBufSize).2.2 :=
  pollLoop_invariant (fun current _ => BitRead current)
    (fun _ oi kept => pollStep_bitRead kept oi) hsd _ read

theorem Faithful.poll {session : Session} (faithful : Faithful session) (outBufSize : Nat) :
    Faithful (session.serve (.poll outBufSize)) := by
  have takes := heatshrinkDecoderPoll_takes faithful.coupled outBufSize
  have read := heatshrinkDecoderPoll_bitRead faithful.settled.bitRead outBufSize
  refine ⟨?_, ⟨read, fun empty => ?_⟩, fun more => ?_⟩
  · have coupled := takes.coupled
    rw [← List.reverse_append] at coupled
    exact coupled
  · -- without input a literal lacks bits too
    rcases takes.ends with short | literal | backref
    · exact Or.inl short
    · refine Or.inl ?_
      have tight := read.tight empty
      change (heldBits (heatshrinkDecoderPoll session.hsd outBufSize).2.2).length <
        bitsNeeded (heatshrinkDecoderPoll session.hsd outBufSize).2.2.state
      rw [literal]
      exact tight
    · exact Or.inr backref
  · have stream := takes.stream more
    rw [← List.reverse_append] at stream
    rw [show (session.serve (.poll outBufSize)).accepted = session.accepted from rfl,
      faithful.stream, stream, ← List.append_assoc]
    rfl

theorem serveAll_faithful (requests : List Request) : Faithful (serveAll requests) := by
  unfold serveAll
  induction requests using List.reverseRecOn with
  | nil => exact faithful_start
  | append_singleton requests request inductionHypothesis =>
      rw [List.foldl_append]
      cases request with
      | sink inBuf => exact inductionHypothesis.sink inBuf
      | poll outBufSize => exact inductionHypothesis.poll outBufSize

theorem heatshrinkDecoderFinish_empty {hsd : HeatshrinkDecoder}
    (done : heatshrinkDecoderFinish hsd = .done) :
    hsd.inputSize = 0 := by
  by_contra present
  unfold heatshrinkDecoderFinish at done
  cases state : hsd.state <;> simp [state, present] at done

/-- What a session says of the bytes that have been accepted. -/
structure Serves (session : Session) (waiting : List UInt8) : Prop where
  output : expansion session.accepted = session.output ++ waiting
  /-- A poll outputs the next bytes, as many as there are and as fit. -/
  poll : ∀ outBufSize,
    (heatshrinkDecoderPoll session.hsd outBufSize).2.1 = waiting.take outBufSize ∧
      (heatshrinkDecoderPoll session.hsd outBufSize).1 =
        if waiting.length < outBufSize then .empty else .more
  finish : heatshrinkDecoderFinish session.hsd = .done ↔
    waiting = [] ∧ session.hsd.inputSize = 0

/-- Whatever a client asks, and in whatever order and pieces, the decoder gives the expansion
of the input it has accepted: what it has output is the first part of it, each poll takes the
next bytes of the rest, and it is finished when nothing is left of it or of the input. -/
theorem serveAll_serves (requests : List Request) :
    ∃ waiting, Serves (serveAll requests) waiting := by
  have faithful := serveAll_faithful requests
  generalize serveAll requests = session at faithful
  have stream := faithful.stream []
  rw [List.append_nil] at stream
  refine ⟨streamOf session.output.reverse session.hsd [], stream, fun outBufSize => ?_, ?_⟩
  · have takes := heatshrinkDecoderPoll_takes faithful.coupled outBufSize
    rw [takes.stream []]
    by_cases empty : (heatshrinkDecoderPoll session.hsd outBufSize).1 = .empty
    · obtain ⟨short, bits⟩ := takes.empty empty
      rw [bits.stream takes.coupled, List.append_nil, List.take_of_length_le short.le,
        if_pos short]
      exact ⟨rfl, empty⟩
    · obtain ⟨more, full⟩ := takes.more empty
      rw [List.take_left' full, if_neg (by rw [List.length_append]; omega)]
      exact ⟨rfl, more⟩
  · constructor
    · intro done
      have empty := heatshrinkDecoderFinish_empty done
      have backref :=
        (heatshrinkDecoderFinish_done (faithful.settled.bitRead.tight empty)).mp done
      have short := (faithful.settled.waits empty).resolve_right backref
      exact ⟨short.stream faithful.coupled, empty⟩
    · rintro ⟨none, empty⟩
      refine (heatshrinkDecoderFinish_done (faithful.settled.bitRead.tight empty)).mpr ?_
      exact fun backref => faithful.coupled.stream_pending backref [] none

end DeltaUpdate.Heatshrink
