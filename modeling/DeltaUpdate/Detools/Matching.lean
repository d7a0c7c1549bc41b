import DeltaUpdate.Detools.Bounds
import DeltaUpdate.Detools.Stream
import DeltaUpdate.Patch.Verdict

/-!
Owns the match between the engine and the machine that reads the stream of a patch. The
verdict of the machine on the bytes to come is the same before and after every read of
the engine, wherever the chunks and the blocks end.
-/

namespace DeltaUpdate.Detools

open DeltaUpdate.Library
open DeltaUpdate.Heatshrink
open DeltaUpdate.Patch

/-! ### Verdicts -/

/-- The machine has accepted a stream. -/
def Accepted (verdict : Option Progress) : Prop :=
  ∃ progress, verdict = some progress ∧ progress.position = .done

/-- The machine has not rejected a stream. -/
def Alive (verdict : Option Progress) : Prop :=
  ∃ progress, verdict = some progress ∧ progress.position ≠ .failed

theorem Accepted.alive {verdict : Option Progress} (accepted : Accepted verdict) :
    Alive verdict := by
  obtain ⟨progress, found, done⟩ := accepted
  exact ⟨progress, found, by rw [done]; decide⟩

theorem not_alive_none : ¬ Alive none := by
  rintro ⟨progress, found, -⟩
  simp at found

/-- The reader of the engine and the machine, with the verdict on the bytes to come. -/
structure Matched (task : Task) (verdict : Option Progress) (padding : Option (List Bool))
    (history : List UInt8) (progress : Progress) (reader : PatchReader) (future : List UInt8) :
    Prop where
  ready : Ready history reader
  verdict : (plainBytes history reader future).map (feedAll task progress) = verdict
  padding : paddingBits reader future = padding

section

variable {task : Task} {verdict : Option Progress} {padding : Option (List Bool)}
variable {history : List UInt8} {progress : Progress} {reader after : PatchReader}
variable {chunk rest : Chunk} {data later : List UInt8}

/-- A machine that has failed rejects the stream, whatever is to come. -/
theorem not_alive_of_failed (failed : progress.position = .failed)
    {plain : Option (List UInt8)} (same : plain.map (feedAll task progress) = verdict) :
    ¬ Alive verdict := by
  rintro ⟨reached, found, running⟩
  rw [← same] at found
  cases plain with
  | none => simp at found
  | some bytes =>
      rw [Option.map_some, Option.some.injEq] at found
      rw [← found] at running
      exact running (feedAll_failed failed bytes)

/-- The bytes that a reader takes are fed to the machine. -/
theorem verdict_takes
    (same : (plainBytes history reader (chunk.bytes ++ later)).map (feedAll task progress) =
      verdict)
    (takes : Takes history reader chunk data after rest) :
    (plainBytes (data.reverse ++ history) after (rest.bytes ++ later)).map
      (feedAll task (feedAll task progress data)) = verdict := by
  rw [← same, takes.stream, Option.map_map]
  congr 1
  funext bytes
  exact (feedAll_append task progress data bytes).symm

theorem Matched.takes
    (matched : Matched task verdict padding history progress reader (chunk.bytes ++ later))
    (takes : Takes history reader chunk data after rest)
    (ready : Ready (data.reverse ++ history) after) :
    Matched task verdict padding (data.reverse ++ history) (feedAll task progress data) after
      (rest.bytes ++ later) :=
  ⟨ready, verdict_takes matched.verdict takes, (takes.padding later).symm.trans matched.padding⟩

/-- A reader that is out of bits at the end of the patch has the verdict. -/
theorem Matched.ended (matched : Matched task verdict padding history progress reader [])
    (out : OutOfBits reader.decoder) : verdict = none ∨ verdict = some progress := by
  rw [← matched.verdict]
  rcases plainBytes_end matched.ready out with none | empty
  · left
    rw [none, Option.map_none]
  · right
    rw [empty, Option.map_some, feedAll_nil]

/-- A machine that waits for more does not accept at the end of the patch. -/
theorem Matched.not_ended (matched : Matched task verdict padding history progress reader [])
    (out : OutOfBits reader.decoder) (waits : progress.position ≠ .done) : ¬ Accepted verdict := by
  rintro ⟨reached, found, done⟩
  rcases matched.ended out with none | same
  · rw [none] at found
    simp at found
  · rw [same, Option.some.injEq] at found
    exact waits (found ▸ done)

/-- The verdict on a patch is what the machine makes of the bytes to come. -/
theorem Matched.toCome {future : List UInt8}
    (matched : Matched task verdict padding history progress reader future) {final : Progress}
    (found : verdict = some final) :
    ∃ plain, plainBytes history reader future = some plain ∧
      feedAll task progress plain = final := by
  have same := matched.verdict
  rw [found] at same
  cases bytes : plainBytes history reader future with
  | none =>
      rw [bytes] at same
      simp at same
  | some plain =>
      rw [bytes, Option.map_some, Option.some.injEq] at same
      exact ⟨plain, rfl, same⟩

/-- A machine that has accepted accepts in the end, or rejects what follows. -/
theorem Matched.settled {future : List UInt8}
    (matched : Matched task verdict padding history progress reader future)
    (done : progress.position = .done) {final : Progress} (found : verdict = some final) :
    final.position = .done ∨ final.position = .failed := by
  obtain ⟨plain, -, rfl⟩ := matched.toCome found
  by_cases more : plain = []
  · left
    rw [more]
    exact done
  · exact Or.inr (feedAll_done done more)

/-- A machine that has accepted has no bytes to come, if it accepts in the end. -/
theorem Matched.exhausted {future : List UInt8}
    (matched : Matched task verdict padding history progress reader future)
    (done : progress.position = .done) (accepted : Accepted verdict) :
    plainBytes history reader future = some [] := by
  obtain ⟨reached, found, position⟩ := accepted
  obtain ⟨plain, bytes, rfl⟩ := matched.toCome found
  by_cases more : plain = []
  · rw [bytes, more]
  · rw [feedAll_done done more] at position
    simp at position

end

/-! ### Sizes -/

/-- What reading a size does to the match. -/
inductive SizeCase (task : Task) (verdict : Option Progress) (padding : Option (List Bool))
    (progress : Progress) (field : Field) (self : ApplyPatch) (later : List UInt8) : Prop
  | read {history : List UInt8} (res : (nextSize self).res = 0)
      (matched : Matched task verdict padding history
        (progress.sized task field (nextSize self).size) self.afterSize.patchReader
        (self.afterSize.chunk.bytes ++ later))
      (first : partOf self.afterSize.patchReader = none)
      (opened : self.afterSize.patchReader.windowSz2 ≠ -1)
      (whole : (virtualBits self.afterSize.patchReader.decoder).length < 8)
  | starved {history : List UInt8} (res : (nextSize self).res = 1)
      (matched : Matched task verdict padding history
        { progress with position := .size field (partOf self.afterSize.patchReader) }
        self.afterSize.patchReader (self.afterSize.chunk.bytes ++ later))
      (empty : chunkLeft self.afterSize.chunk = 0)
      (out : OutOfBits self.afterSize.patchReader.decoder)
  | rejected (negative : (nextSize self).res < 0) (refused : ¬ Alive verdict)

theorem Matched.nextSize_cases {task : Task} {verdict : Option Progress}
    {padding : Option (List Bool)} {history : List UInt8} {progress : Progress} {field : Field}
    {self : ApplyPatch} {later : List UInt8}
    (matched : Matched task verdict padding history progress self.patchReader
      (self.chunk.bytes ++ later))
    (position : progress.position = .size field (partOf self.patchReader)) :
    SizeCase task verdict padding progress field self later := by
  have outcome := patchReaderUnpackSize_cases self.patchReader self.chunk history matched.ready
  cases outcome with
  | read res sized takes ready first opened whole =>
      have next := matched.takes takes ready
      rw [feedAll_value position sized] at next
      exact .read res next first opened whole
  | starved res sized takes ready empty out =>
      have next := matched.takes takes ready
      rw [feedAll_reading position sized] at next
      exact .starved res next empty out
  | overflow res sized exceeds takes =>
      have negative : (nextSize self).res < 0 := by
        rw [nextSize, res]
        exact DetoolsError.result_neg _
      exact .rejected negative (not_alive_of_failed (feedAll_overflow position sized exceeds)
        (verdict_takes matched.verdict takes))
  | badHeader res none =>
      have negative : (nextSize self).res < 0 := by
        rw [nextSize, res]
        exact DetoolsError.result_neg _
      refine .rejected negative ?_
      rw [← matched.verdict, none, Option.map_none]
      exact not_alive_none

/-! ### Blocks -/

/-- What reading a block does to the match. -/
inductive BlockCase (task : Task) (verdict : Option Progress) (padding : Option (List Bool))
    (progress : Progress) (self : ApplyPatch) (later : List UInt8) : Prop
  | read {history : List UInt8} (res : (nextBlock self).res = 0)
      (matched : Matched task verdict padding history
        (feedAll task progress (nextBlock self).data) self.afterBlock.patchReader
        (self.afterBlock.chunk.bytes ++ later))
  | starved {history : List UInt8} (res : (nextBlock self).res = 1)
      (matched : Matched task verdict padding history progress self.afterBlock.patchReader
        (self.afterBlock.chunk.bytes ++ later))
      (empty : chunkLeft self.afterBlock.chunk = 0)
      (out : OutOfBits self.afterBlock.patchReader.decoder)
  | rejected (negative : (nextBlock self).res < 0) (refused : ¬ Alive verdict)

theorem Matched.nextBlock_cases {task : Task} {verdict : Option Progress}
    {padding : Option (List Bool)} {history : List UInt8} {progress : Progress}
    {self : ApplyPatch} {later : List UInt8}
    (matched : Matched task verdict padding history progress self.patchReader
      (self.chunk.bytes ++ later)) (nonempty : blockRoom self ≠ 0) :
    BlockCase task verdict padding progress self later := by
  have outcome := patchReaderDecompress_cases matched.ready self.chunk
    (Nat.pos_of_ne_zero nonempty)
  cases outcome with
  | stored res some within takes ready => exact .read res (matched.takes takes ready)
  | starved res empty takes ready out => exact .starved res (matched.takes takes ready) empty out
  | badHeader res none =>
      have negative : (nextBlock self).res < 0 := by
        rw [nextBlock, res]
        exact DetoolsError.result_neg _
      refine .rejected negative ?_
      rw [← matched.verdict, none, Option.map_none]
      exact not_alive_none

theorem afterBlock_part (self : ApplyPatch) :
    partOf self.afterBlock.patchReader = partOf self.patchReader :=
  (patchReaderDecompress_sizes self.patchReader self.chunk (blockRoom self)).partOf

/-! ### Positions -/

/-- The states that read a size, and the size they read. -/
inductive ReadsField : ApplyPatchState → Field → Prop
  | dfpatch : ReadsField .dfpatchSize .dfpatch
  | diff : ReadsField .diffSize (.part .diff)
  | extra : ReadsField .extraSize (.part .extra)
  | adjustment : ReadsField .adjustment .adjustment

/-- The states that read bytes, and the part they read. -/
inductive ReadsPart : ApplyPatchState → Part → Prop
  | diff : ReadsPart .diffData .diff
  | extra : ReadsPart .extraData .extra

/-- Where the machine stands when the engine has not failed. -/
inductive StandsAt (self : ApplyPatch) (position : Position) : Prop
  | size {field : Field} (reads : ReadsField self.state field)
      (same : position = .size field (partOf self.patchReader))
  | bytes {part : Part} (reads : ReadsPart self.state part)
      (same : position = partPosition part self.chunkSize)
      (between : partOf self.patchReader = none)
  | done (state : self.state = .done) (same : position = .done)
      (opened : self.patchReader.windowSz2 ≠ -1)
      (whole : (virtualBits self.patchReader.decoder).length < 8)

theorem ReadsField.field_eq {state : ApplyPatchState} {first second : Field}
    (left : ReadsField state first) (right : ReadsField state second) : first = second := by
  cases left <;> cases right <;> rfl

theorem StandsAt.opened {self : ApplyPatch} {position : Position}
    (stands : StandsAt self position) : self.state ≠ .init ∧ self.state ≠ .failed := by
  cases stands with
  | size reads => generalize self.state = state at reads; cases reads <;> decide
  | bytes reads => generalize self.state = state at reads; cases reads <;> decide
  | done state => rw [state]; decide

theorem StandsAt.of_field {self : ApplyPatch} {position : Position} {field : Field}
    (stands : StandsAt self position) (reads : ReadsField self.state field) :
    position = .size field (partOf self.patchReader) := by
  cases stands with
  | size other same => rw [same, other.field_eq reads]
  | bytes other => generalize self.state = state at reads other; cases reads <;> cases other
  | done state => rw [state] at reads; cases reads

theorem StandsAt.of_part {self : ApplyPatch} {position : Position} {part : Part}
    (stands : StandsAt self position) (reads : ReadsPart self.state part) :
    position = partPosition part self.chunkSize ∧ partOf self.patchReader = none := by
  cases stands with
  | size other => generalize self.state = state at reads other; cases reads <;> cases other
  | bytes other same between =>
      generalize self.state = state at reads other
      cases reads <;> cases other <;> exact ⟨same, between⟩
  | done state => rw [state] at reads; cases reads

theorem StandsAt.of_done {self : ApplyPatch} {position : Position}
    (stands : StandsAt self position) (state : self.state = .done) :
    position = .done ∧ self.patchReader.windowSz2 ≠ -1 ∧
      (virtualBits self.patchReader.decoder).length < 8 := by
  cases stands with
  | size reads => rw [state] at reads; cases reads
  | bytes reads => rw [state] at reads; cases reads
  | done _ same opened whole => exact ⟨same, opened, whole⟩

theorem ReadsSize.field {state : ApplyPatchState} (reads : state.ReadsSize) :
    ∃ field, ReadsField state field := by
  rcases reads with rfl | rfl | rfl | rfl
  · exact ⟨_, .dfpatch⟩
  · exact ⟨_, .diff⟩
  · exact ⟨_, .extra⟩
  · exact ⟨_, .adjustment⟩

/-- The state of a size and its part. -/
theorem SizedBy.part {self : ApplyPatch} {next : ApplyPatchState}
    (states : SizedBy self.state next) :
    ∃ part, ReadsField self.state (.part part) ∧ ReadsPart next part := by
  generalize self.state = state at states
  cases states
  · exact ⟨.diff, .diff, .diff⟩
  · exact ⟨.extra, .extra, .extra⟩

theorem readsBlock_part {state : ApplyPatchState} (reads : state = .diffData ∨ state = .extraData) :
    ∃ part, ReadsPart state part := by
  rcases reads with rfl | rfl
  · exact ⟨_, .diff⟩
  · exact ⟨_, .extra⟩

/-! ### The header -/

/-- A body that is still to come is what the machine starts on. -/
theorem plainBytes_start {reader : PatchReader} (fresh : reader.windowSz2 = -1)
    (decoder : reader.decoder = heatshrinkDecoderReset) (body : List UInt8) :
    plainBytes [] reader body = (unpackBody body).map Prod.fst ∧
      paddingBits reader body = (unpackBody body).map Prod.snd := by
  cases body with
  | nil =>
      rw [plainBytes, paddingBits, bitsToCome_fresh fresh]
      exact ⟨rfl, rfl⟩
  | cons byte rest =>
      have bits : bitsToCome reader (byte :: rest) =
          if byte = heatshrinkHeader then some (bitsOfBytes rest) else none := by
        unfold bitsToCome
        rw [if_pos fresh]
      rw [plainBytes, paddingBits, bits, decoder]
      by_cases same : byte = heatshrinkHeader
      · rw [if_pos same, same, unpackBody_header]
        exact ⟨congrArg some (heatshrinkDecoderReset_stream _),
          congrArg some (heatshrinkDecoderReset_padding _)⟩
      · rw [if_neg same, unpackBody, if_neg same]
        exact ⟨rfl, rfl⟩

/-- A reader that has been reset matches the machine before the stream. -/
theorem matched_start (task : Task) {reader : PatchReader} (fresh : reader.windowSz2 = -1)
    (decoder : reader.decoder = heatshrinkDecoderReset) (body : List UInt8) :
    Matched task (((unpackBody body).map Prod.fst).map (feedAll task startProgress))
      ((unpackBody body).map Prod.snd) [] startProgress reader body := by
  obtain ⟨plain, padding⟩ := plainBytes_start fresh decoder body
  have out : OutOfBits reader.decoder := by
    rw [decoder]
    exact heatshrinkDecoderReset_outOfBits
  have coupled : Coupled [] reader.decoder := by
    rw [decoder]
    exact heatshrinkDecoderReset_coupled
  exact ⟨⟨coupled, out.tight, Or.inl out, fun _ => out⟩, by rw [plain], padding⟩

/-- What the engine has read when it has opened a patch. -/
structure OpenedPatch (before after : ApplyPatch) (later : List UInt8) (declared : Int)
    (body : List UInt8) : Prop where
  header : ∃ typeByte, Header typeByte declared body (before.chunk.bytes ++ later)
  rest : body = after.chunk.bytes ++ later
  size : after.toSize = declared.natAbs

/-- The byte of the type, as the code and as the format read it. -/
theorem patchType_iff (byte : UInt8) :
    (byte >>> 4 &&& 0x7).toNat = patchTypeSequential ↔ byte >>> 4 &&& 0x7 = 0 := by
  rw [← UInt8.toNat_inj]
  rfl

theorem Opened.patch {before after : ApplyPatch} (opened : Opened before after)
    (later : List UInt8) :
    ∃ declared body, OpenedPatch before after later declared body := by
  obtain ⟨byte, rest, read, patchType, header⟩ := opened.header
  have reads := chunkUnpackHeaderSize_reads rest
  rw [header] at reads
  obtain ⟨front, size, split, folded, same⟩ := reads.read rfl
  refine ⟨size, after.chunk.bytes ++ later,
    ⟨byte, (patchType_iff byte).mp patchType, front, ?_, (sizeFold_iff _ _).mp folded⟩, rfl, same⟩
  rw [chunkGet_bytes read, split, List.cons_append, List.append_assoc]

/-- A patch whose header is in the first chunk is opened. -/
theorem processInit_opens {self : ApplyPatch} {typeByte : UInt8} {declared : Int}
    {body : List UInt8} (header : Header typeByte declared body self.chunk.bytes) :
    (processInit self).1 = 0 := by
  obtain ⟨sizeBytes, split, sized⟩ := header.layout
  rw [← sizeFold_iff] at sized
  unfold processInit
  cases read : chunkGet self.chunk with
  | none =>
      rw [chunk_bytes_nil (chunkGet_none read)] at split
      simp at split
  | some taken =>
      obtain ⟨byte, rest⟩ := taken
      rw [chunkGet_bytes read] at split
      obtain ⟨rfl, behind⟩ := List.cons.inj split
      have zero := (chunkUnpackHeaderSize_reads rest).reads sizeBytes body declared behind sized
      have nonneg : ¬ ((chunkUnpackHeaderSize rest).2.1 : Int) < 0 := by omega
      simp only [(patchType_iff byte).mpr header.patchType, zero, ne_eq, not_true, if_false,
        if_neg nonneg]

end DeltaUpdate.Detools
