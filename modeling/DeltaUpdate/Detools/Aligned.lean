import DeltaUpdate.Detools.Matching

/-!
Owns the engine and the machine at the same place, whatever the callbacks work on. Each
step of the engine that does not fail is one of the machine, as long as the machine does
not reject, and the engine rejects only where the machine does.
-/

namespace DeltaUpdate.Detools

open DeltaUpdate.Heatshrink
open DeltaUpdate.Library
open DeltaUpdate.Patch

/-- The engine and the machine at the same place. -/
structure Aligned (task : Task) (engine : ApplyPatch) (progress : Progress) : Prop where
  bounded : Bounded engine
  stands : StandsAt engine progress.position
  counted : progress.output.length = engine.toOffset
  declared : engine.toSize = task.targetSize
  low : task.low ≤ progress.source
  high : progress.source < task.high
  whole : engine.state = .done → engine.toOffset = engine.toSize

/-- The engine at the place of a machine with a position in the source and an output, and
the patch matched from there on. -/
inductive Together (task : Task) (verdict : Option Progress) (padding : Option (List Bool))
    (future : List UInt8) (engine : ApplyPatch) (source : Int) (output : List UInt8) : Prop
  | intro {history : List UInt8} {progress : Progress}
      (matched : Matched task verdict padding history progress engine.patchReader future)
      (aligned : Aligned task engine progress) (position : progress.source = source)
      (put : progress.output = output)

section

variable {task : Task} {verdict : Option Progress} {padding : Option (List Bool)}
variable {history later : List UInt8} {progress : Progress} {self : ApplyPatch}

/-- The sizes and the offsets of an engine that is aligned. -/
theorem Aligned.offsets (aligned : Aligned task self progress) :
    self.toOffset ≤ self.toSize ∧ self.toSize < 2 ^ 27 ∧
      (self.state = .diffData ∨ self.state = .extraData →
        self.chunkSize ≤ self.toSize - self.toOffset) := by
  obtain ⟨opened, running⟩ := aligned.stands.opened
  have set := (aligned.bounded.opened opened running).1
  have output := aligned.bounded.output set
  exact ⟨output.offset, aligned.bounded.declared set, output.chunk⟩

/-- The check of the engine accepts what the machine takes, and small negative sizes. -/
theorem Aligned.sizeFits_iff (aligned : Aligned task self progress) :
    SizeFits self ↔
      0 ≤ (nextSize self).size ∧
          progress.output.length + (nextSize self).size.toNat ≤ task.targetSize ∨
        (nextSize self).size < 0 ∧ 0 ≤ self.toOffset + (nextSize self).size := by
  obtain ⟨opened, running⟩ := aligned.stands.opened
  obtain ⟨offset, declared, -⟩ := aligned.offsets
  have small := aligned.bounded.nextSize opened running
  have low := small.low
  have high := small.high
  rw [aligned.counted, ← aligned.declared]
  unfold SizeFits
  by_cases negative : (nextSize self).size < 0
  · rw [sizeOfInt_of_neg negative (by omega), sizeT]
    omega
  · rw [sizeOfInt_of_nonneg (by omega) (by omega), sizeT_of_lt (by omega)]
    omega

/-- An engine that rejects has a reason that makes the machine reject. -/
theorem Aligned.refused (aligned : Aligned task self progress)
    (matched : Matched task verdict padding history progress self.patchReader
      (self.chunk.bytes ++ later))
    (reason : Rejection self) : ¬ Alive verdict := by
  obtain ⟨opened, running⟩ := aligned.stands.opened
  cases reason with
  | header state => exact absurd state opened
  | failed state => exact absurd state running
  | size state error =>
      obtain ⟨field, reads⟩ := ReadsSize.field state
      cases matched.nextSize_cases (aligned.stands.of_field reads) with
      | read res => exact absurd res error.1.ne
      | starved res =>
          have negative := error.1
          omega
      | rejected _ refused => exact refused
  | dfpatch state read positive =>
      have reads : ReadsField self.state .dfpatch := state ▸ .dfpatch
      cases matched.nextSize_cases (aligned.stands.of_field reads) with
      | read _ next =>
          exact not_alive_of_failed (sized_dfpatch_failed positive) next.verdict
      | starved res => exact absurd (read.symm.trans res) (by decide)
      | rejected negative => exact absurd read negative.ne
  | tooLong state read long =>
      obtain ⟨part, reads⟩ : ∃ part, ReadsField self.state (.part part) := by
        rcases state with diff | extra
        · exact ⟨.diff, diff ▸ .diff⟩
        · exact ⟨.extra, extra ▸ .extra⟩
      have tooLong := mt aligned.sizeFits_iff.mpr long
      cases matched.nextSize_cases (aligned.stands.of_field reads) with
      | read _ next =>
          exact not_alive_of_failed (sized_part_failed fun fits => tooLong (Or.inl fits))
            next.verdict
      | starved res => exact absurd (read.symm.trans res) (by decide)
      | rejected negative => exact absurd read negative.ne
  | block state nonempty error =>
      cases matched.nextBlock_cases nonempty with
      | read res => exact absurd res error.1.ne
      | starved res =>
          have negative := error.1
          omega
      | rejected _ refused => exact refused

/-! ### The header -/

/-- An engine that opens a patch, whose target is not empty, starts where the machine does. -/
theorem aligned_opened {World : Type} {callbacks : Callbacks World} {world : World}
    (bounded : Bounded self) (state : self.state = .init) (header : (processInit self).1 = 0)
    (step : EngineStep callbacks self world ⟨0, (processInit self).2, world⟩)
    {declared : Int} {body : List UInt8}
    (found : OpenedPatch self (processInit self).2 later declared body) (nonzero : declared ≠ 0)
    (size : task.targetSize = declared.natAbs) (low : task.low ≤ 0) (high : 0 < task.high) :
    Matched task (((unpackBody body).map Prod.fst).map (feedAll task startProgress))
        ((unpackBody body).map Prod.snd) [] startProgress (processInit self).2.patchReader
        ((processInit self).2.chunk.bytes ++ later) ∧
      Aligned task (processInit self).2 startProgress := by
  have opened := processInit_opened header
  have positive : 0 < (processInit self).2.toSize := by
    rw [found.size]
    exact Int.natAbs_pos.mpr nonzero
  have dfpatch : (processInit self).2.state = .dfpatchSize := by
    rw [opened.state, if_pos positive]
  have reader := opened.patchReader
  have fresh : (processInit self).2.patchReader.windowSz2 = -1 := by rw [reader]; rfl
  have decoder : (processInit self).2.patchReader.decoder = heatshrinkDecoderReset := by
    rw [reader]
    rfl
  have first : partOf (processInit self).2.patchReader = none := by rw [reader]; rfl
  constructor
  · rw [← found.rest]
    exact matched_start task fresh decoder body
  · refine ⟨bounded.step step (NegativeSize.elsewhere state (by decide)), ?_,
      opened.toOffset.symm, by rw [found.size, size], low, high, ?_⟩
    · have reads : ReadsField (processInit self).2.state .dfpatch := dfpatch ▸ .dfpatch
      exact .size reads (congrArg (Position.size _) first.symm)
    · rw [dfpatch]
      exact fun done => absurd done (by decide)

/-! ### Blocks -/

/-- The machine reads what the engine takes for a block. -/
theorem Aligned.readable (aligned : Aligned task self progress)
    (matched : Matched task verdict padding history progress self.patchReader
      (self.chunk.bytes ++ later))
    (alive : Alive verdict) {part : Part} (reads : ReadsPart self.state part)
    (nonempty : blockRoom self ≠ 0) (read : (nextBlock self).res = 0) :
    progress.Reads task part (nextBlock self).data.length := by
  obtain ⟨position, -⟩ := aligned.stands.of_part reads
  have within := nextBlock_length nonempty read
  by_contra outside
  have some : (nextBlock self).data ≠ [] := List.ne_nil_of_length_pos within.1
  cases matched.nextBlock_cases nonempty with
  | starved res => exact absurd (read.symm.trans res) (by decide)
  | rejected negative => exact absurd read negative.ne
  | read res next =>
      exact absurd alive
        (not_alive_of_failed (feedAll_outside position (by omega) some outside) next.verdict)

/-- Bytes that the machine reads leave it between its bounds. -/
theorem Aligned.put_inside (aligned : Aligned task self progress) {part : Part}
    {data : List UInt8} (reads : progress.Reads task part data.length) :
    task.low ≤ (progress.put task part data).source ∧
      (progress.put task part data).source < task.high ∧
      (progress.put task part data).output.length = progress.output.length + data.length := by
  have low := aligned.low
  have high := aligned.high
  cases part with
  | extra => exact ⟨low, high, by simp [Progress.put]⟩
  | diff =>
      have below := reads rfl
      refine ⟨?_, below, by simp [Progress.put]⟩
      simp only [Progress.put]
      omega

section

variable {World : Type} {callbacks : Callbacks World} {world : World}

/-- A step that has handed a block over. -/
theorem Aligned.wrote (aligned : Aligned task self progress)
    (matched : Matched task verdict padding history progress self.patchReader
      (self.chunk.bytes ++ later))
    {part : Part} (reads : ReadsPart self.state part)
    {middle : ApplyPatch} {between : World} {block : List UInt8} (nonempty : blockRoom self ≠ 0)
    (read : (nextBlock self).res = 0)
    (readable : progress.Reads task part (nextBlock self).data.length)
    (gathered : Gathered callbacks self world middle between block)
    (written : (callbacks.toWrite between block).1 = 0) :
    Together task verdict padding ((middle.handed block).chunk.bytes ++ later)
      (middle.handed block) (progress.put task part (nextBlock self).data).source
      (progress.put task part (nextBlock self).data).output := by
  have step : EngineStep callbacks self world
      ⟨0, middle.handed block, (callbacks.toWrite between block).2⟩ :=
    .wrote nonempty read gathered written
  obtain ⟨state, middleState, reader, toOffset, toSize, chunkSize, length⟩ := gathered.frame
  obtain ⟨position, between'⟩ := aligned.stands.of_part reads
  have within := nextBlock_length nonempty read
  obtain ⟨low, high, put⟩ := aligned.put_inside readable
  obtain ⟨offset, declared, left⟩ := aligned.offsets
  have fits := left state
  have chunk : middle.chunk = self.afterBlock.chunk := by cases gathered <;> rfl
  have moved : sizeT (middle.toOffset + block.length) = self.toOffset + block.length := by
    rw [toOffset, sizeT_of_lt (by omega)]
  cases matched.nextBlock_cases nonempty with
  | starved res => exact absurd (read.symm.trans res) (by decide)
  | rejected negative => exact absurd read negative.ne
  | @read next res after =>
      rw [feedAll_part position (by omega) fun _ => readable, ← reader, ← chunk] at after
      have readsNext : ReadsPart (middle.handed block).state part := by
        show ReadsPart middle.state part
        rw [middleState]
        exact reads
      have none : partOf (middle.handed block).patchReader = Option.none := by
        show partOf middle.patchReader = Option.none
        rw [reader, afterBlock_part]
        exact between'
      refine .intro after ⟨aligned.bounded.step step (NegativeSize.inBlock state),
        .bytes readsNext ?_ none, ?_, toSize.trans aligned.declared, low, high, fun done => ?_⟩
        rfl rfl
      · show _ = partPosition part (middle.chunkSize - block.length)
        rw [chunkSize, length]
      · apply put.trans
        show _ = sizeT (middle.toOffset + block.length)
        rw [moved, aligned.counted, length]
      · rw [done] at readsNext
        cases readsNext

/-- The state of a part that has been put out, and the size behind it. -/
theorem FollowedBy.part {state next : ApplyPatchState} (states : FollowedBy state next) :
    ∃ part : Part, ReadsPart state part ∧ ReadsField next part.next := by
  cases states
  · exact ⟨.diff, .diff, .extra⟩
  · exact ⟨.extra, .extra, .adjustment⟩

/-- A part that has been put out. -/
theorem Aligned.emptied (aligned : Aligned task self progress)
    (matched : Matched task verdict padding history progress self.patchReader
      (self.chunk.bytes ++ later))
    {next : ApplyPatchState} (states : FollowedBy self.state next) (empty : self.chunkSize = 0)
    (step : EngineStep callbacks self world ⟨0, { self with state := next }, world⟩) :
    Together task verdict padding (self.chunk.bytes ++ later) { self with state := next }
      progress.source progress.output := by
  obtain ⟨part, reads, readsNext⟩ := states.part
  obtain ⟨position, none⟩ := aligned.stands.of_part reads
  rw [empty, partPosition, if_pos rfl] at position
  refine .intro matched ⟨aligned.bounded.step step (NegativeSize.inBlock states.reads.1),
    .size readsNext (position.trans (congrArg (Position.size _) none.symm)), aligned.counted,
    aligned.declared, aligned.low, aligned.high, ?_⟩ rfl rfl
  rintro rfl
  cases readsNext

/-! ### Sizes -/

/-- The machine takes the size that the engine has read. -/
theorem Aligned.takes (aligned : Aligned task self progress)
    (matched : Matched task verdict padding history progress self.patchReader
      (self.chunk.bytes ++ later))
    (alive : Alive verdict) {next : ApplyPatchState} (states : SizedBy self.state next)
    (read : (nextSize self).res = 0) :
    0 ≤ (nextSize self).size ∧
      progress.output.length + (nextSize self).size.toNat ≤ task.targetSize := by
  obtain ⟨part, reads, -⟩ := states.part
  by_contra long
  cases matched.nextSize_cases (aligned.stands.of_field reads) with
  | starved res => exact absurd (read.symm.trans res) (by decide)
  | rejected negative => exact absurd read negative.ne
  | read res after =>
      exact absurd alive (not_alive_of_failed (sized_part_failed long) after.verdict)

/-- A size of a part that the machine takes. -/
theorem Aligned.sized (aligned : Aligned task self progress)
    (matched : Matched task verdict padding history progress self.patchReader
      (self.chunk.bytes ++ later))
    {next : ApplyPatchState} (states : SizedBy self.state next) (read : (nextSize self).res = 0)
    (takes : 0 ≤ (nextSize self).size ∧
      progress.output.length + (nextSize self).size.toNat ≤ task.targetSize) {after : ApplyPatch}
    (same : after = { self.afterSize with
      state := next, chunkSize := sizeOfInt (nextSize self).size })
    (step : EngineStep callbacks self world ⟨0, after, world⟩) :
    Together task verdict padding (after.chunk.bytes ++ later) after progress.source
      progress.output := by
  subst same
  obtain ⟨opened, running⟩ := aligned.stands.opened
  have small := (aligned.bounded.nextSize opened running).high
  obtain ⟨part, reads, readsNext⟩ := states.part
  obtain ⟨nonneg, within⟩ := takes
  cases matched.nextSize_cases (aligned.stands.of_field reads) with
  | starved res => exact absurd (read.symm.trans res) (by decide)
  | rejected negative => exact absurd read negative.ne
  | read res after first =>
      obtain ⟨size, same⟩ := Int.eq_ofNat_of_zero_le nonneg
      have value : sizeOfInt (nextSize self).size = size := by
        rw [same, sizeOfInt_of_nonneg (by omega) (by omega), Int.toNat_natCast]
      rw [same, Int.toNat_natCast] at within
      rw [same, sized_part within] at after
      refine .intro after ⟨aligned.bounded.step step ?_, .bytes readsNext ?_ first,
        aligned.counted, aligned.declared, aligned.low, aligned.high, ?_⟩ rfl rfl
      · rintro ⟨-, -, negative, -⟩
        omega
      · show _ = partPosition part (sizeOfInt (nextSize self).size)
        rw [value]
      · rintro rfl
        cases readsNext

/-- The first size of a patch. -/
theorem Aligned.dfpatch (aligned : Aligned task self progress)
    (matched : Matched task verdict padding history progress self.patchReader
      (self.chunk.bytes ++ later))
    (state : self.state = .dfpatchSize) (read : (nextSize self).res = 0)
    (nonpositive : (nextSize self).size ≤ 0)
    (step : EngineStep callbacks self world
      ⟨0, { self.afterSize with state := .diffSize }, world⟩) :
    Together task verdict padding (self.afterSize.chunk.bytes ++ later)
      { self.afterSize with state := .diffSize } progress.source progress.output := by
  have reads : ReadsField self.state .dfpatch := state ▸ .dfpatch
  cases matched.nextSize_cases (aligned.stands.of_field reads) with
  | starved res => exact absurd (read.symm.trans res) (by decide)
  | rejected negative => exact absurd read negative.ne
  | read res after first =>
      have notNegative := NegativeSize.elsewhere state (by decide)
      simp only [Progress.sized, if_pos nonpositive] at after
      exact .intro after ⟨aligned.bounded.step step notNegative,
        .size .diff (congrArg (Position.size _) first.symm), aligned.counted, aligned.declared,
        aligned.low, aligned.high, by simp⟩ rfl rfl

/-- The machine seeks where the engine does. -/
theorem Aligned.seekable (aligned : Aligned task self progress)
    (matched : Matched task verdict padding history progress self.patchReader
      (self.chunk.bytes ++ later))
    (alive : Alive verdict) (state : self.state = .adjustment) (read : (nextSize self).res = 0) :
    task.low ≤ progress.source + (nextSize self).size ∧
      progress.source + (nextSize self).size < task.high := by
  have reads : ReadsField self.state .adjustment := state ▸ .adjustment
  by_contra outside
  cases matched.nextSize_cases (aligned.stands.of_field reads) with
  | starved res => exact absurd (read.symm.trans res) (by decide)
  | rejected negative => exact absurd read negative.ne
  | read res after =>
      exact absurd alive (not_alive_of_failed (sized_adjustment_failed outside) after.verdict)

/-- An adjustment, which ends the patch when the target is complete. -/
theorem Aligned.sought (aligned : Aligned task self progress)
    (matched : Matched task verdict padding history progress self.patchReader
      (self.chunk.bytes ++ later))
    (state : self.state = .adjustment) (read : (nextSize self).res = 0)
    (inside : task.low ≤ progress.source + (nextSize self).size ∧
      progress.source + (nextSize self).size < task.high) {after : ApplyPatch} {next : World}
    (same : after = { self.afterSize with
      fromOffset := intT (self.fromOffset + (nextSize self).size)
      state := if self.toOffset = self.toSize then .done else .diffSize })
    (step : EngineStep callbacks self world ⟨0, after, next⟩) :
    Together task verdict padding (after.chunk.bytes ++ later) after
      (progress.source + (nextSize self).size) progress.output := by
  subst same
  have reads : ReadsField self.state .adjustment := state ▸ .adjustment
  cases matched.nextSize_cases (aligned.stands.of_field reads) with
  | starved res => exact absurd (read.symm.trans res) (by decide)
  | rejected negative => exact absurd read negative.ne
  | read res after first windowed whole =>
      rw [sized_adjustment inside] at after
      have complete : progress.output.length = task.targetSize ↔ self.toOffset = self.toSize := by
        rw [aligned.counted, aligned.declared]
      have notNegative := NegativeSize.elsewhere state (by decide)
      refine .intro after ⟨aligned.bounded.step step notNegative, ?_, aligned.counted,
        aligned.declared, inside.1, inside.2, fun done => ?_⟩ rfl rfl
      · by_cases all : self.toOffset = self.toSize
        · exact .done (if_pos all) (if_pos (complete.mpr all)) windowed whole
        · have next : ReadsField (if self.toOffset = self.toSize then
              ApplyPatchState.done else .diffSize) (.part .diff) := by
            rw [if_neg all]
            exact .diff
          refine .size next ?_
          show (if _ then Position.done else _) = Position.size _ (partOf _)
          rw [if_neg (mt complete.mp all), first]
      · by_contra other
        change ¬ self.toOffset = self.toSize at other
        rw [if_neg other] at done
        cases done

/-! ### Waiting -/

/-- An engine that waits has used the chunk up, and the machine does not accept there. -/
inductive Waiting (task : Task) (verdict : Option Progress) (padding : Option (List Bool))
    (later : List UInt8) (engine : ApplyPatch) (source : Int) (output : List UInt8) : Prop
  | intro {history : List UInt8} {progress : Progress}
      (matched : Matched task verdict padding history progress engine.patchReader
        (engine.chunk.bytes ++ later))
      (aligned : Aligned task engine progress) (position : progress.source = source)
      (put : progress.output = output) (empty : chunkLeft engine.chunk = 0)
      (out : OutOfBits engine.patchReader.decoder) (waits : progress.position ≠ .done)

theorem Waiting.together {source : Int} {output : List UInt8}
    (waiting : Waiting task verdict padding later self source output) :
    Together task verdict padding (self.chunk.bytes ++ later) self source output := by
  obtain ⟨matched, aligned, position, put⟩ := waiting
  exact .intro matched aligned position put

/-- Nothing is accepted that ends where the engine waits. -/
theorem Waiting.starves {source : Int} {output : List UInt8}
    (waiting : Waiting task verdict padding [] self source output) : ¬ Accepted verdict := by
  obtain ⟨matched, -, -, -, empty, out, waits⟩ := waiting
  rw [chunk_bytes_nil empty] at matched
  exact matched.not_ended out waits

theorem Aligned.waitingSize (aligned : Aligned task self progress)
    (matched : Matched task verdict padding history progress self.patchReader
      (self.chunk.bytes ++ later))
    (states : self.state.ReadsSize) (starved : (nextSize self).res = 1)
    (step : EngineStep callbacks self world ⟨1, self.afterSize, world⟩) :
    Waiting task verdict padding later self.afterSize progress.source progress.output := by
  obtain ⟨field, reads⟩ := ReadsSize.field states
  cases matched.nextSize_cases (aligned.stands.of_field reads) with
  | read res => exact absurd (res.symm.trans starved) (by decide)
  | rejected negative => omega
  | starved res after empty out =>
      have notNegative : ¬ NegativeSize self := fun negative =>
        absurd (negative.read.symm.trans starved) (by decide)
      exact .intro after ⟨aligned.bounded.step step notNegative, .size reads rfl,
        aligned.counted, aligned.declared, aligned.low, aligned.high, aligned.whole⟩ rfl rfl
        empty out (by simp)

theorem Aligned.waitingBlock (aligned : Aligned task self progress)
    (matched : Matched task verdict padding history progress self.patchReader
      (self.chunk.bytes ++ later))
    (states : self.state = .diffData ∨ self.state = .extraData) (nonempty : blockRoom self ≠ 0)
    (starved : (nextBlock self).res = 1)
    (step : EngineStep callbacks self world ⟨1, self.afterBlock, world⟩) :
    Waiting task verdict padding later self.afterBlock progress.source progress.output := by
  obtain ⟨part, reads⟩ := readsBlock_part states
  obtain ⟨position, none⟩ := aligned.stands.of_part reads
  cases matched.nextBlock_cases nonempty with
  | read res => exact absurd (res.symm.trans starved) (by decide)
  | rejected negative => omega
  | starved res after empty out =>
      have notNegative := NegativeSize.inBlock states
      refine .intro after ⟨aligned.bounded.step step notNegative,
        .bytes reads position ((afterBlock_part self).trans none), aligned.counted,
        aligned.declared, aligned.low, aligned.high, aligned.whole⟩ rfl rfl empty out ?_
      rw [position, partPosition]
      split <;> simp

end

/-! ### The end -/

/-- The decoder of an engine that is done is at rest. -/
theorem Aligned.rests (aligned : Aligned task self progress) {future : List UInt8}
    (matched : Matched task verdict padding history progress self.patchReader future)
    (accepted : Accepted verdict) (state : self.state = .done) :
    heatshrinkDecoderFinish self.patchReader.decoder = .done := by
  obtain ⟨done, opened, -⟩ := aligned.stands.of_done state
  have rest := matched.exhausted done accepted
  rw [plainBytes_opened opened, Option.some.injEq] at rest
  exact (heatshrinkDecoderFinish_done matched.ready.tight).mpr fun pending =>
    matched.ready.coupled.stream_pending pending _ rest

/-- The verdict on a patch that ends where the engine is done, with its decoder at rest. -/
theorem Aligned.concluded (aligned : Aligned task self progress)
    (matched : Matched task verdict padding history progress self.patchReader [])
    (state : self.state = .done)
    (finish : heatshrinkDecoderFinish self.patchReader.decoder = .done) :
    verdict = some progress ∧ progress.position = .done ∧
      ∃ bits, padding = some bits ∧ bits.length < 8 := by
  obtain ⟨done, opened, short⟩ := aligned.stands.of_done state
  have rests := (heatshrinkDecoderFinish_done matched.ready.tight).mp finish
  have out := matched.ready.ends.resolve_right rests
  refine ⟨?_, done, _, ?_, short⟩
  · rw [← matched.verdict, plainBytes_opened opened, bitsOfBytes_nil,
      out.stream matched.ready.coupled, Option.map_some, feedAll_nil]
  · rw [← matched.padding, paddingBits_opened opened, bitsOfBytes_nil,
      out.padding matched.ready.coupled]

/-- An engine that is done has used the chunk up, if less than a byte is behind the patch. -/
theorem Aligned.used (aligned : Aligned task self progress)
    (matched : Matched task verdict padding history progress self.patchReader
      (self.chunk.bytes ++ later))
    (accepted : Accepted verdict) {bits : List Bool} (short : bits.length < 8)
    (behind : padding = some bits) (state : self.state = .done) : chunkLeft self.chunk = 0 := by
  obtain ⟨done, opened, -⟩ := aligned.stands.of_done state
  have rest := matched.exhausted done accepted
  rw [plainBytes_opened opened, Option.some.injEq] at rest
  have left := matched.padding
  rw [paddingBits_opened opened, matched.ready.coupled.padding_exhausted rest, behind,
    Option.some.injEq] at left
  have length := congrArg List.length left
  rw [List.length_append, bitsOfBytes_length, List.length_append, Chunk.bytes_length] at length
  omega

/-! ### Chunks -/

/-- Another chunk leaves the engine where it is. -/
theorem Aligned.chunked (aligned : Aligned task self progress) (patchOffset : Nat)
    (chunk : Chunk) :
    Aligned task { self with patchOffset := patchOffset, chunk := chunk } progress := by
  have bounded := aligned.bounded
  refine ⟨⟨⟨bounded.unread, bounded.opened, bounded.declared⟩, fun set => ?_⟩, ?_,
    aligned.counted, aligned.declared, aligned.low, aligned.high, aligned.whole⟩
  · exact ⟨(bounded.output set).offset, (bounded.output set).chunk⟩
  · cases aligned.stands with
    | size reads same => exact .size reads same
    | bytes reads same between => exact .bytes reads same between
    | done state same opened whole => exact .done state same opened whole

end

end DeltaUpdate.Detools
