import DeltaUpdate.Heatshrink.Refinement
import DeltaUpdate.Detools.Reader
import DeltaUpdate.Patch.Sizes

/-!
Owns the patch reader as a source of decompressed bytes. The chunk and what follows it
determine the bytes still to come; a decompression takes the first of them, and
unpacking a size takes the bytes of the size, whatever the chunks are.
-/

namespace DeltaUpdate.Detools

open DeltaUpdate.Library
open DeltaUpdate.Heatshrink
open DeltaUpdate.Patch

/-! ### The bytes to come -/

/-- The bits to come from the rest of a patch. A reader that has not read the header has
none when the header is another one. -/
def bitsToCome (reader : PatchReader) (future : List UInt8) : Option (List Bool) :=
  if reader.windowSz2 = -1 then
    match future with
    | [] => none
    | byte :: rest => if byte = heatshrinkHeader then some (bitsOfBytes rest) else none
  else some (bitsOfBytes future)

/-- The decompressed bytes to come from the rest of a patch. -/
def plainBytes (history : List UInt8) (reader : PatchReader) (future : List UInt8) :
    Option (List UInt8) :=
  (bitsToCome reader future).map (streamOf history reader.decoder)

/-- The bits behind the last token of a patch. -/
def paddingBits (reader : PatchReader) (future : List UInt8) : Option (List Bool) :=
  (bitsToCome reader future).map (paddingOf reader.decoder)

/-- A reader between two calls, having output the history. -/
structure Ready (history : List UInt8) (reader : PatchReader) : Prop where
  coupled : Coupled history reader.decoder
  tight : Tight reader.decoder
  ends : OutOfBits reader.decoder ∨ reader.decoder.state = .yieldBackref
  fresh : reader.windowSz2 = -1 → OutOfBits reader.decoder

/-- A reader has taken `data` off the front of the bytes to come. -/
structure Takes (history : List UInt8) (reader : PatchReader) (chunk : Chunk)
    (data : List UInt8) (after : PatchReader) (rest : Chunk) : Prop where
  stream (later : List UInt8) :
    plainBytes history reader (chunk.bytes ++ later) =
      (plainBytes (data.reverse ++ history) after (rest.bytes ++ later)).map (data ++ ·)
  padding (later : List UInt8) :
    paddingBits reader (chunk.bytes ++ later) = paddingBits after (rest.bytes ++ later)

theorem Takes.refl (history : List UInt8) (reader : PatchReader) (chunk : Chunk) :
    Takes history reader chunk [] reader chunk :=
  ⟨fun _ => by simp, fun _ => rfl⟩

theorem Takes.trans {history first second : List UInt8} {reader middle after : PatchReader}
    {chunk between rest : Chunk} (left : Takes history reader chunk first middle between)
    (right : Takes (first.reverse ++ history) middle between second after rest) :
    Takes history reader chunk (first ++ second) after rest where
  stream later := by
    rw [left.stream, right.stream, List.reverse_append, List.append_assoc, Option.map_map]
    congr 1
    funext data
    exact (List.append_assoc first second data).symm
  padding later := (left.padding later).trans (right.padding later)

theorem bitsToCome_opened {reader : PatchReader} (opened : reader.windowSz2 ≠ -1)
    (future : List UInt8) : bitsToCome reader future = some (bitsOfBytes future) := by
  unfold bitsToCome
  rw [if_neg opened]

theorem bitsToCome_fresh {reader : PatchReader} (fresh : reader.windowSz2 = -1) :
    bitsToCome reader [] = none := by
  unfold bitsToCome
  rw [if_pos fresh]

theorem plainBytes_opened {reader : PatchReader} (opened : reader.windowSz2 ≠ -1)
    (history future : List UInt8) :
    plainBytes history reader future =
      some (streamOf history reader.decoder (bitsOfBytes future)) := by
  rw [plainBytes, bitsToCome_opened opened, Option.map_some]

theorem paddingBits_opened {reader : PatchReader} (opened : reader.windowSz2 ≠ -1)
    (future : List UInt8) :
    paddingBits reader future = some (paddingOf reader.decoder (bitsOfBytes future)) := by
  rw [paddingBits, bitsToCome_opened opened, Option.map_some]

/-- A reader that is out of bits has nothing to come at the end of the patch. -/
theorem plainBytes_end {history : List UInt8} {reader : PatchReader}
    (ready : Ready history reader) (out : OutOfBits reader.decoder) :
    plainBytes history reader [] = none ∨ plainBytes history reader [] = some [] := by
  by_cases fresh : reader.windowSz2 = -1
  · left
    rw [plainBytes, bitsToCome_fresh fresh, Option.map_none]
  · right
    rw [plainBytes_opened fresh, bitsOfBytes_nil, out.stream ready.coupled]

/-- The output of a decoder is taken by its reader. -/
theorem takes_outputs {history data : List UInt8} {reader : PatchReader}
    {after : HeatshrinkDecoder} (opened : reader.windowSz2 ≠ -1)
    (outputs : Outputs history reader.decoder data after) (chunk : Chunk) :
    Takes history reader chunk data { reader with decoder := after } chunk where
  stream later := by
    rw [plainBytes_opened opened, plainBytes_opened (by exact opened), outputs.stream,
      Option.map_some]
  padding later := by
    rw [paddingBits_opened opened, paddingBits_opened (by exact opened), outputs.padding]

/-- A byte that is sunk is the first byte of the chunk. -/
theorem takes_sunk {history : List UInt8} {reader : PatchReader} {byte : UInt8}
    {chunk rest : Chunk} (opened : reader.windowSz2 ≠ -1)
    (read : chunkGet chunk = some (byte, rest))
    (sunk : Sunk history reader.decoder byte (heatshrinkDecoderSink reader.decoder [byte])) :
    Takes history reader chunk []
      { reader with decoder := (heatshrinkDecoderSink reader.decoder [byte]).2.2 } rest where
  stream later := by
    rw [plainBytes_opened opened, plainBytes_opened (by exact opened), chunkGet_bytes read,
      List.cons_append, bitsOfBytes_cons, ← sunk.stream]
    rfl
  padding later := by
    rw [paddingBits_opened opened, paddingBits_opened (by exact opened), chunkGet_bytes read,
      List.cons_append, bitsOfBytes_cons, ← sunk.padding]

/-! ### Decompression -/

/-- What polling the decoder of a reader does. -/
structure PolledReader (history : List UInt8) (reader : PatchReader) (chunk : Chunk)
    (room : Nat) (data : List UInt8) (after : PatchReader) : Prop where
  takes : Takes history reader chunk data after chunk
  ready : Ready (data.reverse ++ history) after
  drained : data.length < room → OutOfBits after.decoder
  whole : data ≠ [] → (virtualBits after.decoder).length < 8

theorem poll_takes {history : List UInt8} {reader : PatchReader} {room : Nat}
    (coupled : Coupled history reader.decoder)
    (supplied : Tight reader.decoder ∨ Supplied reader.decoder)
    (opened : reader.windowSz2 ≠ -1) (positive : 0 < room) (chunk : Chunk) :
    PolledReader history reader chunk room (heatshrinkDecoderPoll reader.decoder room).2.1
      { reader with decoder := (heatshrinkDecoderPoll reader.decoder room).2.2 } := by
  have poll := heatshrinkDecoderPoll_refines coupled supplied positive
  exact ⟨takes_outputs opened poll.toOutputs chunk,
    ⟨poll.coupled, poll.tight, poll.ends, fun fresh => absurd fresh opened⟩, poll.drained,
    fun some => poll.whole (Or.inl some)⟩

/-- How the loop of a decompression ends, having stored `new` behind the bytes before. -/
structure Looped (history : List UInt8) (reader : PatchReader) (chunk : Chunk) (size : Nat)
    (new : List UInt8) (outcome : Decompressed) : Prop where
  takes : Takes history reader chunk new outcome.reader outcome.chunk
  ready : Ready (new.reverse ++ history) outcome.reader
  opened : outcome.reader.windowSz2 ≠ -1
  within : outcome.data.length ≤ size
  ends : outcome.res = 0 ∧ outcome.data ≠ [] ∧
      (outcome.data.length = size → (virtualBits outcome.reader.decoder).length < 8) ∨
    outcome.res = 1 ∧ outcome.data = [] ∧ chunkLeft outcome.chunk = 0 ∧
      OutOfBits outcome.reader.decoder

theorem decompressLoop_looped (reader : PatchReader) (chunk : Chunk) (size left : Nat)
    (data : List UInt8) (opened : reader.windowSz2 ≠ -1) (positive : 0 < left)
    (balance : data.length + left = size) :
    ∀ history, Coupled history reader.decoder →
      (Tight reader.decoder ∨ Supplied reader.decoder) →
      ∃ new, (decompressLoop reader chunk size left data).data = data ++ new ∧
        Looped history reader chunk size new (decompressLoop reader chunk size left data) := by
  fun_induction decompressLoop reader chunk size left data
  case case1 reader chunk left data polled negative =>
    rw [heatshrinkDecoderPoll_res] at negative
    exact absurd negative (by decide)
  case case2 reader chunk left data polled stored room _ full =>
    intro history coupled supplied
    have poll := poll_takes coupled supplied opened positive chunk
    have within := (heatshrinkDecoderPoll_bound reader.decoder left).2
    have some : polled.2.1 ≠ [] := by
      intro none
      simp only [room, none, List.length_nil] at full
      omega
    refine ⟨polled.2.1, rfl, poll.takes, poll.ready, opened, ?_,
      Or.inl ⟨rfl, by simp [stored, some], fun _ => poll.whole some⟩⟩
    simp only [stored, polled, List.length_append]
    omega
  case case3 reader chunk left data polled stored room _ more byte rest read _ sunk rejected =>
    intro history coupled supplied
    have poll := poll_takes coupled supplied opened positive chunk
    have sinks := heatshrinkDecoderSink_refines poll.ready.coupled
      (poll.drained (by simp only [room, polled] at more; omega)) byte
    rcases rejected with negative | other
    · rw [show sunk.1 = .ok from sinks.res] at negative
      exact absurd negative (by decide)
    · exact absurd sinks.size other
  case case4 reader chunk left data polled stored room _ more byte rest read _ sunk _
      inductionHypothesis =>
    intro history coupled supplied
    have poll := poll_takes coupled supplied opened positive chunk
    have within := (heatshrinkDecoderPoll_bound reader.decoder left).2
    have sinks := heatshrinkDecoderSink_refines poll.ready.coupled
      (poll.drained (by simp only [room, polled] at more; omega)) byte
    obtain ⟨new, stores, looped⟩ := inductionHypothesis opened (by omega)
      (by simp only [stored, room, polled, List.length_append]; omega) _ sinks.coupled
      (Or.inr sinks.supplied)
    have byteTaken : Takes (polled.2.1.reverse ++ history)
        { reader with decoder := polled.2.2 } chunk [] { reader with decoder := sunk.2.2 } rest :=
      takes_sunk opened read sinks
    have takes := poll.takes.trans (byteTaken.trans looped.takes)
    refine ⟨polled.2.1 ++ new, by rw [stores, List.append_assoc], takes, ?_, looped.opened,
      looped.within, looped.ends⟩
    rw [List.reverse_append, List.append_assoc]
    exact looped.ready
  case case5 reader chunk left data polled stored room _ more read partly =>
    intro history coupled supplied
    have poll := poll_takes coupled supplied opened positive chunk
    have within := (heatshrinkDecoderPoll_bound reader.decoder left).2
    simp only [room, polled] at more partly
    refine ⟨polled.2.1, rfl, poll.takes, poll.ready, opened, ?_, Or.inl ⟨rfl, ?_, ?_⟩⟩
    · simp only [stored, polled, List.length_append]
      omega
    · intro none
      have length := congrArg List.length none
      simp only [stored, polled, List.length_append, List.length_nil] at length
      omega
    · intro full
      simp only [stored, polled, List.length_append] at full
      omega
  case case6 reader chunk left data polled stored room _ more read nothing =>
    intro history coupled supplied
    have poll := poll_takes coupled supplied opened positive chunk
    have within := (heatshrinkDecoderPoll_bound reader.decoder left).2
    simp only [room, polled] at more nothing
    have none : stored = [] := by
      apply List.eq_nil_of_length_eq_zero
      simp only [stored, polled, List.length_append]
      omega
    refine ⟨polled.2.1, rfl, poll.takes, poll.ready, opened, ?_,
      Or.inr ⟨rfl, none, chunkGet_none read, poll.drained (by omega)⟩⟩
    simp only [none, List.length_nil]
    omega

/-- What a decompression can do. -/
inductive DecompressCase (history : List UInt8) (reader : PatchReader) (chunk : Chunk)
    (size : Nat) (outcome : Decompressed) : Prop
  | stored (res : outcome.res = 0) (nonempty : outcome.data ≠ [])
      (within : outcome.data.length ≤ size)
      (takes : Takes history reader chunk outcome.data outcome.reader outcome.chunk)
      (ready : Ready (outcome.data.reverse ++ history) outcome.reader)
      (opened : outcome.reader.windowSz2 ≠ -1)
      (whole : outcome.data.length = size → (virtualBits outcome.reader.decoder).length < 8)
  | starved (res : outcome.res = 1) (empty : chunkLeft outcome.chunk = 0)
      (takes : Takes history reader chunk [] outcome.reader outcome.chunk)
      (ready : Ready history outcome.reader) (out : OutOfBits outcome.reader.decoder)
  | badHeader (res : outcome.res = DetoolsError.heatshrinkHeader.result)
      (none : ∀ later, plainBytes history reader (chunk.bytes ++ later) = none)

theorem Looped.cases {history new : List UInt8} {reader : PatchReader} {chunk : Chunk}
    {size : Nat} {outcome : Decompressed} (looped : Looped history reader chunk size new outcome)
    (stores : outcome.data = new) : DecompressCase history reader chunk size outcome := by
  subst stores
  rcases looped.ends with ⟨res, nonempty, whole⟩ | ⟨res, none, empty, out⟩
  · exact .stored res nonempty looped.within looped.takes looped.ready looped.opened whole
  · have takes := looped.takes
    have ready := looped.ready
    rw [none] at takes ready
    exact .starved res empty takes ready out

/-- The byte of the header, and no other, gives the window and the lookahead of the build. -/
theorem unpackHeatshrinkHeader_iff (byte : UInt8) :
    ((unpackHeatshrinkHeader byte).1 ≠ windowBits ∨
      (unpackHeatshrinkHeader byte).2 ≠ lookaheadBits) ↔ byte ≠ heatshrinkHeader := by
  have small := byte.toNat_lt
  have high : (byte >>> 4 &&& 0xf).toNat = byte.toNat / 16 % 16 := by
    rw [UInt8.toNat_and, UInt8.toNat_shiftRight]
    exact (Nat.and_two_pow_sub_one_eq_mod _ 4).trans (by rw [Nat.shiftRight_eq_div_pow]; rfl)
  have low : (byte &&& 0xf).toNat = byte.toNat % 16 := by
    rw [UInt8.toNat_and]
    exact Nat.and_two_pow_sub_one_eq_mod _ 4
  have same : byte = heatshrinkHeader ↔ byte.toNat = 0x44 := UInt8.toNat_inj.symm
  simp only [unpackHeatshrinkHeader, high, low, windowBits, lookaheadBits, ne_eq, same]
  omega

theorem patchReaderDecompress_cases {history : List UInt8} {reader : PatchReader}
    (ready : Ready history reader) (chunk : Chunk) {size : Nat} (positive : 0 < size) :
    DecompressCase history reader chunk size (patchReaderDecompress reader chunk size) := by
  unfold patchReaderDecompress patchReaderHeatshrinkDecompress
  by_cases fresh : reader.windowSz2 = -1
  · rw [if_pos fresh]
    have out := ready.fresh fresh
    cases read : chunkGet chunk with
    | none =>
        exact .starved rfl (chunkGet_none read) (Takes.refl history reader chunk) ready out
    | some taken =>
        obtain ⟨byte, rest⟩ := taken
        have future (later : List UInt8) : bitsToCome reader (chunk.bytes ++ later) =
            if byte = heatshrinkHeader then some (bitsOfBytes (rest.bytes ++ later)) else none := by
          rw [chunkGet_bytes read, List.cons_append]
          unfold bitsToCome
          rw [if_pos fresh]
        simp only [unpackHeatshrinkHeader_iff]
        by_cases other : byte ≠ heatshrinkHeader
        · rw [if_pos other]
          refine .badHeader rfl fun later => ?_
          rw [plainBytes, future, if_neg other, Option.map_none]
        · rw [if_neg other]
          rw [not_not] at other
          have opened : (unpackHeatshrinkHeader byte).1 ≠ -1 := by
            rw [other]
            decide
          obtain ⟨new, stores, looped⟩ := decompressLoop_looped { reader with
            windowSz2 := (unpackHeatshrinkHeader byte).1
            lookaheadSz2 := (unpackHeatshrinkHeader byte).2 } rest size size [] opened positive
            (by simp) history ready.coupled (Or.inl ready.tight)
          rw [List.nil_append] at stores
          have first : Takes history reader chunk [] { reader with
              windowSz2 := (unpackHeatshrinkHeader byte).1
              lookaheadSz2 := (unpackHeatshrinkHeader byte).2 } rest := by
            constructor
            · intro later
              rw [plainBytes, future, if_pos other, plainBytes_opened (by exact opened)]
              rfl
            · intro later
              rw [paddingBits, future, if_pos other, paddingBits_opened (by exact opened)]
              rfl
          have whole : Looped history reader chunk size new _ :=
            ⟨first.trans looped.takes, looped.ready, looped.opened, looped.within, looped.ends⟩
          exact whole.cases stores
  · rw [if_neg fresh]
    obtain ⟨new, stores, looped⟩ := decompressLoop_looped reader chunk size size [] fresh positive
      (by simp) history ready.coupled (Or.inl ready.tight)
    exact looped.cases stores

/-! ### Sizes -/

/-- The part of a size that a reader has read. -/
def partOf (reader : PatchReader) : Option PartialSize :=
  match reader.sizeState with
  | .first => none
  | .consecutive => some ⟨reader.sizeValue, reader.sizeOffset, reader.isSigned⟩

/-- What unpacking a size can do. -/
inductive UnpackCase (history : List UInt8) (reader : PatchReader) (chunk : Chunk)
    (outcome : Unpacked) : Prop
  | read {bytes : List UInt8} (res : outcome.res = 0)
      (sized : sizeFold (.reading (partOf reader)) bytes = .value outcome.size)
      (takes : Takes history reader chunk bytes outcome.reader outcome.chunk)
      (ready : Ready (bytes.reverse ++ history) outcome.reader)
      (first : partOf outcome.reader = none) (opened : outcome.reader.windowSz2 ≠ -1)
      (whole : (virtualBits outcome.reader.decoder).length < 8)
  | starved {bytes : List UInt8} (res : outcome.res = 1)
      (sized : sizeFold (.reading (partOf reader)) bytes = .reading (partOf outcome.reader))
      (takes : Takes history reader chunk bytes outcome.reader outcome.chunk)
      (ready : Ready (bytes.reverse ++ history) outcome.reader)
      (empty : chunkLeft outcome.chunk = 0) (out : OutOfBits outcome.reader.decoder)
  | overflow {bytes : List UInt8} {byte : UInt8} {part : Option PartialSize}
      (res : outcome.res = DetoolsError.corruptPatchOverflow.result)
      (sized : sizeFold (.reading (partOf reader)) bytes = .reading part)
      (exceeds : sizeStep (.reading part) byte = .overflow)
      (takes : Takes history reader chunk (bytes ++ [byte]) outcome.reader outcome.chunk)
  | badHeader (res : outcome.res = DetoolsError.heatshrinkHeader.result)
      (none : ∀ later, plainBytes history reader (chunk.bytes ++ later) = none)

/-- A byte that has been read before the rest of the size. -/
theorem UnpackCase.before {history : List UInt8} {reader next : PatchReader}
    {chunk rest : Chunk} {byte : UInt8} {outcome : Unpacked}
    (takes : Takes history reader chunk [byte] next rest)
    (step : sizeStep (.reading (partOf reader)) byte = .reading (partOf next))
    (others : UnpackCase (byte :: history) next rest outcome) :
    UnpackCase history reader chunk outcome := by
  have fold (bytes : List UInt8) :
      sizeFold (.reading (partOf reader)) (byte :: bytes) =
        sizeFold (.reading (partOf next)) bytes := by
    rw [sizeFold_cons, step]
  cases others with
  | @read bytes res sized takesRest ready first opened whole =>
      have both : Takes history reader chunk (byte :: bytes) outcome.reader outcome.chunk :=
        takes.trans takesRest
      refine .read res ((fold bytes).trans sized) both ?_ first opened whole
      rw [List.reverse_cons, List.append_assoc]
      exact ready
  | @starved bytes res sized takesRest ready empty out =>
      have both : Takes history reader chunk (byte :: bytes) outcome.reader outcome.chunk :=
        takes.trans takesRest
      refine .starved res ((fold bytes).trans sized) both ?_ empty out
      rw [List.reverse_cons, List.append_assoc]
      exact ready
  | @overflow bytes last part res sized exceeds takesRest =>
      have both : Takes history reader chunk (byte :: bytes ++ [last]) outcome.reader
          outcome.chunk := takes.trans takesRest
      exact .overflow res ((fold bytes).trans sized) exceeds both
  | badHeader res none =>
      refine .badHeader res fun later => ?_
      have stream := takes.stream later
      have nothing : plainBytes ([byte].reverse ++ history) next (rest.bytes ++ later) = .none :=
        none later
      rw [stream, nothing, Option.map_none]

/-- The part of a size is the same after a decompression. -/
theorem SameSizes.partOf {before after : PatchReader} (same : SameSizes before after) :
    partOf after = partOf before := by
  unfold Detools.partOf
  rw [same.sizeState, same.sizeValue, same.sizeOffset, same.isSigned]

/-- The bytes to come do not depend on the size decoder. -/
theorem Takes.of_decoder {history data : List UInt8} {reader after other : PatchReader}
    {chunk rest : Chunk} (takes : Takes history reader chunk data after rest)
    (decoder : other.decoder = after.decoder) (windowSz2 : other.windowSz2 = after.windowSz2) :
    Takes history reader chunk data other rest where
  stream later := by
    rw [takes.stream]
    unfold plainBytes bitsToCome
    rw [decoder, windowSz2]
  padding later := by
    rw [takes.padding]
    unfold paddingBits bitsToCome
    rw [decoder, windowSz2]

theorem Ready.of_decoder {history : List UInt8} {reader other : PatchReader}
    (ready : Ready history reader) (decoder : other.decoder = reader.decoder)
    (windowSz2 : other.windowSz2 = reader.windowSz2) : Ready history other := by
  obtain ⟨coupled, tight, ends, fresh⟩ := ready
  exact ⟨by rwa [decoder], by rwa [decoder], by rwa [decoder], by rwa [decoder, windowSz2]⟩

/-- What decompressing one byte of a size can do. -/
inductive ByteCase (history : List UInt8) (reader : PatchReader) (chunk : Chunk)
    (outcome : Decompressed) : Prop
  | stored (res : outcome.res = 0)
      (takes : Takes history reader chunk [outcome.data.headD 0] outcome.reader outcome.chunk)
      (ready : Ready (outcome.data.headD 0 :: history) outcome.reader)
      (opened : outcome.reader.windowSz2 ≠ -1)
      (whole : (virtualBits outcome.reader.decoder).length < 8)
  | starved (res : outcome.res = 1) (empty : chunkLeft outcome.chunk = 0)
      (takes : Takes history reader chunk [] outcome.reader outcome.chunk)
      (ready : Ready history outcome.reader) (out : OutOfBits outcome.reader.decoder)
  | badHeader (res : outcome.res = DetoolsError.heatshrinkHeader.result)
      (none : ∀ later, plainBytes history reader (chunk.bytes ++ later) = none)

theorem patchReaderDecompress_byte {history : List UInt8} {reader : PatchReader}
    (ready : Ready history reader) (chunk : Chunk) :
    ByteCase history reader chunk (patchReaderDecompress reader chunk 1) := by
  have outcome := patchReaderDecompress_cases ready chunk Nat.one_pos
  generalize patchReaderDecompress reader chunk 1 = read at outcome
  cases outcome with
  | stored res nonempty within takes ready opened whole =>
      have one : read.data.length = 1 := by
        have positive := List.length_pos_iff.mpr nonempty
        omega
      obtain ⟨byte, single⟩ := List.length_eq_one_iff.mp one
      rw [single] at takes ready
      refine .stored res ?_ ?_ opened (whole one)
      · rw [single]
        exact takes
      · rw [single]
        exact ready
  | starved res empty takes ready out => exact .starved res empty takes ready out
  | badHeader res none => exact .badHeader res none

/-- A byte that has been read is the next of the contents. -/
theorem ByteCase.byte {history : List UInt8} {reader : PatchReader} {chunk : Chunk}
    {outcome : Decompressed} (read : ByteCase history reader chunk outcome)
    (zero : outcome.res = 0) :
    Takes history reader chunk [outcome.data.headD 0] outcome.reader outcome.chunk ∧
      Ready (outcome.data.headD 0 :: history) outcome.reader ∧
      outcome.reader.windowSz2 ≠ -1 ∧ (virtualBits outcome.reader.decoder).length < 8 := by
  cases read with
  | stored res takes ready opened whole => exact ⟨takes, ready, opened, whole⟩
  | starved res => exact absurd (res.symm.trans zero) (by decide)
  | badHeader res => exact absurd (res.symm.trans zero) (by decide)

/-- The end of a size that has been read. -/
theorem UnpackCase.finished {history : List UInt8} {reader next : PatchReader}
    {chunk rest : Chunk} {byte : UInt8}
    (takes : Takes history reader chunk [byte] next rest) (ready : Ready (byte :: history) next)
    (opened : next.windowSz2 ≠ -1) (whole : (virtualBits next.decoder).length < 8)
    (step : sizeStep (.reading (partOf reader)) byte = .value (finishSize next rest).size) :
    UnpackCase history reader chunk (finishSize next rest) := by
  refine .read rfl ?_ (takes.of_decoder rfl rfl) (ready.of_decoder rfl rfl) rfl opened whole
  rw [sizeFold_cons, step, sizeFold_nil]

theorem partOf_first {reader : PatchReader} (state : reader.sizeState = .first) :
    partOf reader = none := by
  unfold partOf
  rw [state]

theorem partOf_consecutive {reader : PatchReader} (state : reader.sizeState = .consecutive) :
    partOf reader = some ⟨reader.sizeValue, reader.sizeOffset, reader.isSigned⟩ := by
  unfold partOf
  rw [state]

/-- Unpacking a size takes the bytes of the size, wherever the chunks end. -/
theorem patchReaderUnpackSize_cases (reader : PatchReader) (chunk : Chunk) :
    ∀ history, Ready history reader →
      UnpackCase history reader chunk (patchReaderUnpackSize reader chunk) := by
  fun_induction patchReaderUnpackSize reader chunk
  case case1 reader chunk read nonzero =>
    intro history ready
    have same := patchReaderDecompress_sizes reader chunk 1
    cases patchReaderDecompress_byte ready chunk with
    | stored res => exact absurd res nonzero
    | starved res empty takes ready out =>
        refine .starved res ?_ takes ready empty out
        rw [sizeFold_nil]
        exact congrArg SizeState.reading same.partOf.symm
    | badHeader res none => exact .badHeader res none
  case case2 reader chunk read zero byte state next drops goes inductionHypothesis =>
    intro history ready
    obtain ⟨takes, readyNext, -, -⟩ :=
      (patchReaderDecompress_byte ready chunk).byte (not_not.mp zero)
    have first : Takes history reader chunk [byte] next read.chunk := takes.of_decoder rfl rfl
    refine UnpackCase.before first ?_ (inductionHypothesis _ (readyNext.of_decoder rfl rfl))
    rw [partOf_first state, sizeStep, PartialSize.continued, if_pos goes]
    rfl
  case case3 reader chunk read zero byte state next drops ends =>
    intro history ready
    obtain ⟨takes, readyNext, opened, whole⟩ :=
      (patchReaderDecompress_byte ready chunk).byte (not_not.mp zero)
    refine UnpackCase.finished (takes.of_decoder rfl rfl) (readyNext.of_decoder rfl rfl)
      opened whole ?_
    rw [partOf_first state, sizeStep, PartialSize.continued, if_neg ends]
    rfl
  case case4 reader chunk read zero state overflow =>
    intro history ready
    obtain ⟨takes, -, -, -⟩ := (patchReaderDecompress_byte ready chunk).byte (not_not.mp zero)
    refine UnpackCase.overflow rfl (sizeFold_nil _) ?_ takes
    rw [partOf_consecutive state, sizeStep, if_pos]
    exact of_decide_eq_true overflow
  case case5 reader chunk read zero byte state fits next drops goes inductionHypothesis =>
    intro history ready
    obtain ⟨takes, readyNext, -, -⟩ :=
      (patchReaderDecompress_byte ready chunk).byte (not_not.mp zero)
    have first : Takes history reader chunk [byte] next read.chunk := takes.of_decoder rfl rfl
    refine UnpackCase.before first ?_ (inductionHypothesis _ (readyNext.of_decoder rfl rfl))
    rw [partOf_consecutive state, sizeStep, if_neg, PartialSize.continued, if_pos goes]
    · rfl
    · simpa [isOverflow] using fits
  case case6 reader chunk read zero byte state fits next drops ends =>
    intro history ready
    obtain ⟨takes, readyNext, opened, whole⟩ :=
      (patchReaderDecompress_byte ready chunk).byte (not_not.mp zero)
    refine UnpackCase.finished (takes.of_decoder rfl rfl) (readyNext.of_decoder rfl rfl)
      opened whole ?_
    rw [partOf_consecutive state, sizeStep, if_neg, PartialSize.continued, if_neg ends]
    · rfl
    · simpa [isOverflow] using fits

/-! ### The size in the header -/

/-- What reading the header size does behind a byte of it. -/
structure HeaderRead (state : SizeState) (chunk : Chunk) (outcome : Int × Nat × Chunk) : Prop where
  read : outcome.1 = 0 → ∃ front size, chunk.bytes = front ++ outcome.2.2.bytes ∧
    sizeFold state front = .value size ∧ outcome.2.1 = size.natAbs
  reads : ∀ front rest size, chunk.bytes = front ++ rest → sizeFold state front = .value size →
    outcome.1 = 0

/-- The size has not ended, and the next byte of the chunk is not the rest of it. -/
theorem headerRead_failed {state : SizeState} {chunk : Chunk} (error : DetoolsError) (size : Nat)
    (rest : Chunk)
    (never : ∀ front rest size, chunk.bytes = front ++ rest → sizeFold state front ≠ .value size) :
    HeaderRead state chunk (error.result, size, rest) :=
  ⟨fun zero => absurd zero error.result_neg.ne,
    fun front rest size split read => absurd read (never front rest size split)⟩

/-- The size has not ended, and neither has the chunk another byte. -/
theorem headerRead_missing {state : SizeState} {chunk : Chunk} (error : DetoolsError) (size : Nat)
    (rest : Chunk) (reading : ∀ value, state ≠ .value value) (missing : chunkGet chunk = none) :
    HeaderRead state chunk (error.result, size, rest) := by
  apply headerRead_failed error size rest
  intro front behind value split read
  rw [chunk_bytes_nil (chunkGet_none missing)] at split
  rw [(List.append_eq_nil_iff.mp split.symm).1, sizeFold_nil] at read
  exact reading value read

/-- What is read from the next byte on is read from here. -/
theorem HeaderRead.before {state : SizeState} {chunk rest : Chunk} {byte : UInt8}
    {outcome : Int × Nat × Chunk} (reading : ∀ value, state ≠ .value value)
    (taken : chunkGet chunk = some (byte, rest))
    (behind : HeaderRead (sizeStep state byte) rest outcome) : HeaderRead state chunk outcome := by
  constructor
  · intro zero
    obtain ⟨front, value, split, folded, same⟩ := behind.read zero
    refine ⟨byte :: front, value, ?_, ?_, same⟩
    · rw [chunkGet_bytes taken, split, List.cons_append]
    · rw [sizeFold_cons, folded]
  · intro front others value split folded
    rw [chunkGet_bytes taken] at split
    cases front with
    | nil => exact absurd folded (reading value)
    | cons head front =>
        obtain ⟨rfl, behindByte⟩ := List.cons.inj split
        rw [sizeFold_cons] at folded
        exact behind.reads front others value behindByte folded

theorem unpackHeaderLoop_reads (byte : UInt8) (size offset : Nat) (chunk : Chunk) (signed : Bool) :
    HeaderRead (PartialSize.continued ⟨size, offset, signed⟩ byte) chunk
      (unpackHeaderLoop byte size offset chunk) := by
  fun_induction unpackHeaderLoop byte size offset chunk
  case case1 byte size offset chunk goes read =>
    rw [PartialSize.continued, if_pos goes]
    exact headerRead_missing _ _ _ (by simp) read
  case case2 byte size offset chunk goes next rest read drops overflow =>
    rw [PartialSize.continued, if_pos goes]
    apply headerRead_failed _ _ _
    intro front rest value split read'
    rw [chunkGet_bytes read] at split
    cases front with
    | nil => simp at read'
    | cons head front =>
        have long : offset + 7 > 32 := of_decide_eq_true overflow
        rw [sizeFold_cons, sizeStep, if_pos long, sizeFold_overflow] at read'
        simp at read'
  case case3 byte size offset chunk goes next rest read drops fits inductionHypothesis =>
    have short : ¬ offset + 7 > 32 := by simpa [isOverflow] using fits
    rw [PartialSize.continued, if_pos goes]
    apply HeaderRead.before (by simp) read
    rw [sizeStep, if_neg short]
    exact inductionHypothesis
  case case4 byte size offset chunk ends =>
    rw [PartialSize.continued, if_neg ends]
    refine ⟨fun _ => ⟨[], _, rfl, rfl, ?_⟩, fun _ _ _ _ _ => rfl⟩
    unfold PartialSize.finished
    cases signed <;> simp

/-- The header size is read if and only if the chunk starts with a size; the sign of it
is not looked at. -/
theorem chunkUnpackHeaderSize_reads (chunk : Chunk) :
    HeaderRead (.reading none) chunk (chunkUnpackHeaderSize chunk) := by
  unfold chunkUnpackHeaderSize
  cases read : chunkGet chunk with
  | none => exact headerRead_missing _ _ _ (by simp) read
  | some taken =>
      obtain ⟨byte, rest⟩ := taken
      exact HeaderRead.before (by simp) read (unpackHeaderLoop_reads byte (byte &&& 0x3f).toNat 6
        rest (decide (byte &&& 0x40 = 0x40)))

end DeltaUpdate.Detools
