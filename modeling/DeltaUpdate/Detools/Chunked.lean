import DeltaUpdate.Detools.Aligned
import DeltaUpdate.Detools.Resume

/-!
Owns the incremental use of the engine where nothing fails: over a source with a position in
it and a target that grows. However a patch is cut into chunks, the engine builds the target
of the patch, provided that no chunk ends inside the header; otherwise it builds nothing.
-/

namespace DeltaUpdate.Detools

open DeltaUpdate.Heatshrink
open DeltaUpdate.Library
open DeltaUpdate.Patch

/-- Callbacks that serve the source of a task while the position in it keeps to the bounds,
and that take every block. -/
structure Streams {World : Type} (callbacks : Callbacks World) (task : Task) where
  /-- The source is there. -/
  Serves : World → Prop
  position : World → Int
  output : World → List UInt8
  fromRead : ∀ (world : World) (size : Nat), Serves world → task.low ≤ position world →
    position world + size < task.high →
      (callbacks.fromRead world size).1 = 0 ∧
        (∀ index < size,
          (callbacks.fromRead world size).2.1 index = task.source (position world + index)) ∧
        Serves (callbacks.fromRead world size).2.2 ∧
        position (callbacks.fromRead world size).2.2 = position world + size ∧
        output (callbacks.fromRead world size).2.2 = output world
  fromSeek : ∀ (world : World) (offset : Int), Serves world →
    task.low ≤ position world + offset → position world + offset < task.high →
      (callbacks.fromSeek world offset).1 = 0 ∧
        Serves (callbacks.fromSeek world offset).2 ∧
        position (callbacks.fromSeek world offset).2 = position world + offset ∧
        output (callbacks.fromSeek world offset).2 = output world
  toWrite : ∀ (world : World) (block : List UInt8), Serves world →
    (callbacks.toWrite world block).1 = 0 ∧
      Serves (callbacks.toWrite world block).2 ∧
      position (callbacks.toWrite world block).2 = position world ∧
      output (callbacks.toWrite world block).2 = output world ++ block

section

variable {World : Type} {callbacks : Callbacks World} {task : Task}
  {streams : Streams callbacks task} {verdict : Option Progress} {padding : Option (List Bool)}
  {before later : List UInt8} {self : ApplyPatch} {world : World} {stepped : Stepped World}

/-! ### Steps -/

/-- The engine reads a patch: the position in the source is that of the machine, and what
the machine has put out has been appended to the target. -/
structure Reading (streams : Streams callbacks task) (verdict : Option Progress)
    (padding : Option (List Bool)) (before future : List UInt8) (engine : ApplyPatch)
    (world : World) : Prop where
  serves : streams.Serves world
  together : ∃ output, streams.output world = before ++ output ∧
    Together task verdict padding future engine (streams.position world) output

/-- What the engine waits for in a part. -/
def partLeft (engine : ApplyPatch) : Nat :=
  if engine.state = .diffData ∨ engine.state = .extraData then engine.chunkSize else 0

/-- An engine that has taken a negative size for a large one: the target and what the engine
waits for are larger than any size. -/
structure Overgrown (streams : Streams callbacks task) (before : List UInt8)
    (engine : ApplyPatch) (world : World) : Prop where
  serves : streams.Serves world
  low : task.low ≤ streams.position world
  high : streams.position world < task.high
  beyond : before.length + 2 ^ 31 ≤ (streams.output world).length + partLeft engine

/-- The callbacks that succeed in a step keep to the bounds. -/
structure Inside (streams : Streams callbacks task) (engine : ApplyPatch) (world : World) :
    Prop where
  reads : engine.state = .diffData → blockRoom engine ≠ 0 → (nextBlock engine).res = 0 →
    (callbacks.fromRead world (nextBlock engine).data.length).1 = 0 →
      streams.position world + (nextBlock engine).data.length < task.high
  seeks : engine.state = .adjustment → (nextSize engine).res = 0 →
    (callbacks.fromSeek world (nextSize engine).size).1 = 0 →
      task.low ≤ streams.position world + (nextSize engine).size ∧
        streams.position world + (nextSize engine).size < task.high

/-- What a step of an engine does that reads a patch. -/
inductive ReadingStep (streams : Streams callbacks task) (verdict : Option Progress)
    (padding : Option (List Bool)) (before later : List UInt8) (self : ApplyPatch)
    (stepped : Stepped World) : Prop
  | moved (res : stepped.res = 0)
      (reading : Reading streams verdict padding before (stepped.self.chunk.bytes ++ later)
        stepped.self stepped.world)
  | waiting (res : stepped.res = 1)
      (reading : Reading streams verdict padding before (stepped.self.chunk.bytes ++ later)
        stepped.self stepped.world)
      (starves : later = [] → ¬ Accepted verdict)
  | finished (state : self.state = .done)
  | refused (refused : ¬ Alive verdict)
      (cause : stepped.res < 0 ∨ Overgrown streams before stepped.self stepped.world)

/-- The source that is read lies inside the bounds. -/
theorem Gathered.below {middle : ApplyPatch} {between : World} {block : List UInt8}
    (gathered : Gathered callbacks self world middle between block)
    (inside : Inside streams self world) (nonempty : blockRoom self ≠ 0)
    (read : (nextBlock self).res = 0) (state : self.state = .diffData) :
    streams.position world + (nextBlock self).data.length < task.high := by
  cases gathered with
  | diff _ success => exact inside.reads state nonempty read (congrArg Prod.fst success)
  | extra other => exact absurd (state.symm.trans other) (by decide)

/-- What gathering a block does to the world: the position moves on as the machine's does. -/
structure Gathers (streams : Streams callbacks task) (engine : ApplyPatch)
    (world between : World) (block : List UInt8) : Prop where
  serves : streams.Serves between
  output : streams.output between = streams.output world
  low : task.low ≤ streams.position between
  high : streams.position world < task.high → streams.position between < task.high
  part : ∀ (progress : Progress) (part : Part), ReadsPart engine.state part →
    progress.source = streams.position world →
      streams.position between = (progress.put task part (nextBlock engine).data).source ∧
        (progress.put task part (nextBlock engine).data).output = progress.output ++ block

/-- A block is gathered from the source where it is read inside the bounds. -/
theorem Streams.gathers (serves : streams.Serves world) (low : task.low ≤ streams.position world)
    (below : self.state = .diffData →
      streams.position world + (nextBlock self).data.length < task.high) {middle : ApplyPatch}
    {between : World} {block : List UInt8}
    (gathered : Gathered callbacks self world middle between block) :
    Gathers streams self world between block := by
  cases gathered with
  | extra state =>
      refine ⟨serves, rfl, low, id, fun progress part reads position => ?_⟩
      rw [state] at reads
      cases reads
      exact ⟨position.symm, rfl⟩
  | @diff state bytes next read =>
      have below := below state
      obtain ⟨-, served, still, moved, same⟩ := streams.fromRead world _ serves low below
      rw [read] at served still moved same
      change streams.position between = _ at moved
      refine ⟨still, same, by omega, fun _ => by omega, fun progress part reads position => ?_⟩
      rw [state] at reads
      cases reads
      refine ⟨?_, ?_⟩
      · simp only [Progress.put]
        rw [position]
        exact moved
      · simp only [Progress.put, List.append_cancel_left_eq]
        apply List.mapIdx_eq_mapIdx_iff.mpr
        intro index within
        rw [position]
        exact congrArg (_ + ·) (served index within).symm

/-- While the machine does not reject, the callbacks keep to the bounds. -/
theorem Reading.inside
    (reading : Reading streams verdict padding before (self.chunk.bytes ++ later) self world)
    (alive : Alive verdict) : Inside streams self world := by
  obtain ⟨output, -, ⟨matched, aligned, position, -⟩⟩ := reading.together
  constructor <;> rw [← position]
  · intro state nonempty read _
    exact aligned.readable matched alive (state ▸ .diff) nonempty read rfl
  · intro state read _
    exact aligned.seekable matched alive state read

/-- Every step goes on, while the machine does not reject and the callbacks keep to the
bounds. -/
theorem Reading.step
    (reading : Reading streams verdict padding before (self.chunk.bytes ++ later) self world)
    (inside : Inside streams self world) (step : EngineStep callbacks self world stepped) :
    ReadingStep streams verdict padding before later self stepped := by
  have serves := reading.serves
  obtain ⟨output, put, @⟨history, progress, matched, aligned, position, rfl⟩⟩ := reading.together
  have low := aligned.low
  have high := aligned.high
  rw [position] at low high
  have taken := step
  cases step with
  | rejected reason error => exact .refused (aligned.refused matched reason) (Or.inl error.1)
  | finished state => exact .finished state
  | opened state => exact absurd state aligned.stands.opened.1
  | waitingSize states starved =>
      have waiting := aligned.waitingSize matched states starved taken
      rw [position] at waiting
      exact .waiting rfl ⟨serves, _, put, waiting.together⟩ fun ended => (ended ▸ waiting).starves
  | waitingBlock states nonempty starved =>
      have waiting := aligned.waitingBlock matched states nonempty starved taken
      rw [position] at waiting
      exact .waiting rfl ⟨serves, _, put, waiting.together⟩ fun ended => (ended ▸ waiting).starves
  | dfpatch state read nonpositive =>
      exact .moved rfl
        ⟨serves, _, put, position ▸ aligned.dfpatch matched state read nonpositive taken⟩
  | @sized next states read fits =>
      by_cases takes : 0 ≤ (nextSize self).size ∧
          progress.output.length + (nextSize self).size.toNat ≤ task.targetSize
      · exact .moved rfl ⟨serves, _, put, position ▸ aligned.sized matched states read takes rfl
          taken⟩
      · obtain ⟨opened, running⟩ := aligned.stands.opened
        have small := (aligned.bounded.nextSize opened running).low
        obtain ⟨negative, -⟩ := (aligned.sizeFits_iff.mp fits).resolve_left takes
        refine .refused (fun alive => takes (aligned.takes matched alive states read))
          (Or.inr ⟨serves, low, high, ?_⟩)
        have large : partLeft { self.afterSize with
            state := next, chunkSize := sizeOfInt (nextSize self).size } =
              sizeOfInt (nextSize self).size := by
          obtain ⟨part, -, reads⟩ := states.part
          exact if_pos (by cases reads <;> simp)
        rw [large, sizeOfInt_of_neg negative (by omega), put, List.length_append]
        omega
  | emptied states empty =>
      exact .moved rfl ⟨serves, _, put, position ▸ aligned.emptied matched states empty taken⟩
  | sourceFailed state nonempty read failure =>
      refine .refused (fun alive => failure ?_) (Or.inl (DetoolsError.result_neg _))
      have below := aligned.readable matched alive (state ▸ .diff) nonempty read rfl
      rw [position] at below
      exact (streams.fromRead world _ serves low below).1
  | @wrote middle between block nonempty read gathered written =>
      obtain ⟨part, reads⟩ := readsBlock_part gathered.frame.1
      have gathers := streams.gathers serves low (gathered.below inside nonempty read) gathered
      obtain ⟨moved, added⟩ := gathers.part progress part reads position
      obtain ⟨-, serves, still, appended⟩ := streams.toWrite between block gathers.serves
      have readable : progress.Reads task part (nextBlock self).data.length := by
        rintro rfl
        have state : self.state = .diffData := by
          generalize self.state = state at reads
          cases reads
          rfl
        rw [position]
        exact gathered.below inside nonempty read state
      refine .moved rfl ⟨serves, progress.output ++ block, ?_, ?_⟩
      · rw [appended, gathers.output, put, List.append_assoc]
      · rw [still, moved, ← added]
        exact aligned.wrote matched reads nonempty read readable gathered written
  | @writeFailed middle between block nonempty read gathered failure =>
      have gathers := streams.gathers serves low (gathered.below inside nonempty read) gathered
      exact absurd (streams.toWrite between block gathers.serves).1 failure
  | sought state read found =>
      obtain ⟨above, below⟩ := inside.seeks state read found
      obtain ⟨-, serves, moved, same⟩ := streams.fromSeek world _ serves above below
      rw [← position] at above below moved
      exact .moved rfl ⟨serves, _, same.trans put, moved ▸ aligned.sought matched state read
        ⟨above, below⟩ rfl taken⟩
  | seekFailed state read failure =>
      refine .refused (fun alive => failure ?_) (Or.inl (DetoolsError.result_neg _))
      obtain ⟨above, below⟩ := aligned.seekable matched alive state read
      rw [position] at above below
      exact (streams.fromSeek world _ serves above below).1

/-! ### Chunks -/

theorem loadChunk_buffer (self : ApplyPatch) (chunk : List UInt8) :
    (loadChunk self (bufferOf chunk) chunk.length).chunk.bytes = chunk := by
  apply List.ext_getElem
  · simp [loadChunk, chunkLeft]
  · intro index left right
    simp [loadChunk, Chunk.bytes, bufferOf, right]

theorem Reading.chunked {future : List UInt8}
    (reading : Reading streams verdict padding before future self world) (patchOffset : Nat)
    (chunk : Chunk) :
    Reading streams verdict padding before future
      { self with patchOffset := patchOffset, chunk := chunk } world := by
  obtain ⟨output, put, ⟨matched, aligned, position, same⟩⟩ := reading.together
  exact ⟨reading.serves, output, put,
    .intro matched (aligned.chunked patchOffset chunk) position same⟩

/-- A patch that is accepted, with less than a byte behind the last token. -/
structure Acceptable (verdict : Option Progress) (padding : Option (List Bool)) : Prop where
  accepted : Accepted verdict
  short : ∃ bits, padding = some bits ∧ bits.length < 8

/-- A loop that does not end with an error has used the chunk up. -/
theorem chunkLeft_of_ends (nonneg : 0 ≤ stepped.res)
    (ends : ¬ (chunkAvailable stepped.self.chunk = true ∧ stepped.res ≥ 0)) :
    chunkLeft stepped.self.chunk = 0 := by
  have unavailable : ¬ chunkAvailable stepped.self.chunk = true := fun available =>
    ends ⟨available, nonneg⟩
  rw [chunkAvailable_iff] at unavailable
  omega

/-- The loop over a chunk uses the chunk up. -/
theorem Reading.looped {stepped : Stepped World} (acceptable : Acceptable verdict padding)
    (nonneg : stepped.res = 0 ∨ stepped.res = 1)
    (reading : Reading streams verdict padding before (stepped.self.chunk.bytes ++ later)
      stepped.self stepped.world) :
    (settle (processLoop callbacks stepped)).res = 0 ∧
      Reading streams verdict padding before later (settle (processLoop callbacks stepped)).self
        (settle (processLoop callbacks stepped)).world := by
  have alive := acceptable.accepted.alive
  have looped := (processLoop_computes callbacks).invariant
    (fun stepped => (stepped.res = 0 ∨ stepped.res = 1) ∧
      Reading streams verdict padding before (stepped.self.chunk.bytes ++ later) stepped.self
        stepped.world)
    (fun stepped => (stepped.res = 0 ∨ stepped.res = 1) ∧
      Reading streams verdict padding before later stepped.self stepped.world) ?_ ?_
    ⟨nonneg, reading⟩
  · obtain ⟨zero | one, reading⟩ := looped
    · rw [settle, if_neg (by omega)]
      exact ⟨zero, reading⟩
    · rw [settle, if_pos one]
      exact ⟨rfl, reading⟩
  · rintro state after goes ⟨-, reading⟩
    unfold processIteration at goes
    split at goes
    next continues =>
      cases goes
      cases reading.step (reading.inside alive)
          (applyPatchProcessOnce_step callbacks state.self state.world) with
      | moved res reading => exact ⟨Or.inl res, reading⟩
      | waiting res reading => exact ⟨Or.inr res, reading⟩
      | refused refused => exact absurd alive refused
      | finished done =>
          obtain ⟨output, -, ⟨matched, aligned, -, -⟩⟩ := reading.together
          obtain ⟨bits, behind, short⟩ := acceptable.short
          have used := aligned.used matched acceptable.accepted short behind done
          have available := (chunkAvailable_iff _).mp continues.1
          omega
    next => cases goes
  · rintro state result leaves ⟨nonneg, reading⟩
    unfold processIteration at leaves
    split at leaves
    next => cases leaves
    next ends =>
      cases leaves
      rw [chunk_bytes_nil (chunkLeft_of_ends (by omega) ends), List.nil_append] at reading
      exact ⟨nonneg, reading⟩

/-- A chunk is read to its end. -/
theorem Reading.process {chunk : List UInt8} (acceptable : Acceptable verdict padding)
    (reading : Reading streams verdict padding before (chunk ++ later) self world) :
    (detoolsApplyPatchProcess callbacks self world (bufferOf chunk) chunk.length).res = 0 ∧
      Reading streams verdict padding before later
        (detoolsApplyPatchProcess callbacks self world (bufferOf chunk) chunk.length).self
        (detoolsApplyPatchProcess callbacks self world (bufferOf chunk) chunk.length).world := by
  have loaded : Reading streams verdict padding before
      ((loadChunk self (bufferOf chunk) chunk.length).chunk.bytes ++ later)
      (loadChunk self (bufferOf chunk) chunk.length) world := by
    rw [loadChunk_buffer]
    exact reading.chunked _ _
  exact Reading.looped acceptable (Or.inl rfl) loaded

/-- All chunks are read. -/
theorem Reading.feed {chunks : List (List UInt8)} (acceptable : Acceptable verdict padding)
    (reading : Reading streams verdict padding before chunks.flatten self world) :
    (feedChunks callbacks chunks self world).res = 0 ∧
      Reading streams verdict padding before [] (feedChunks callbacks chunks self world).self
        (feedChunks callbacks chunks self world).world := by
  induction chunks generalizing self world with
  | nil => exact ⟨rfl, reading⟩
  | cons chunk chunks inductionHypothesis =>
      obtain ⟨res, after⟩ := reading.process acceptable
      rw [feedChunks_cons]
      simp only [res, if_true]
      exact inductionHypothesis after

/-- The finalization of a patch that has been read. -/
theorem Reading.finalize {final : Progress} (acceptable : Acceptable (some final) padding)
    (reading : Reading streams (some final) padding before [] self world) :
    (detoolsApplyPatchFinalize callbacks self world).res = task.targetSize ∧
      streams.output (detoolsApplyPatchFinalize callbacks self world).world =
        before ++ final.output := by
  have alive := acceptable.accepted.alive
  have cleared : Reading streams (some final) padding before
      ((clearChunk self).chunk.bytes ++ []) (clearChunk self) world := by
    rw [chunk_bytes_nil rfl]
    exact reading.chunked self.patchOffset _
  refine @Computes.invariant _ _ _ _ (finalizeLoop_computes callbacks)
    (fun state => Reading streams (some final) padding before (state.1.chunk.bytes ++ []) state.1
      state.2)
    (fun looped => finalResult 0 looped = task.targetSize ∧
      streams.output looped.world = before ++ final.output) ?_ ?_ (clearChunk self, world) cleared
  · intro state after goes reading
    unfold finalizeIteration at goes
    simp only at goes
    split at goes
    next again =>
      cases goes
      cases reading.step (reading.inside alive)
          (applyPatchProcessOnce_step callbacks state.1 state.2) with
      | moved res reading => exact reading
      | waiting res => omega
      | refused refused => exact absurd alive refused
      | finished done =>
          have step := applyPatchProcessOnce_step callbacks state.1 state.2
          rw [step.of_done done] at again
          exact absurd again (DetoolsError.result_neg _).ne
    next => cases goes
  · intro state result leaves reading
    unfold finalizeIteration at leaves
    simp only at leaves
    split at leaves
    next => cases leaves
    next ends =>
      cases leaves
      have step := applyPatchProcessOnce_step callbacks state.1 state.2
      cases reading.step (reading.inside alive) step with
      | moved res => exact absurd res ends
      | waiting res _ starves => exact absurd acceptable.accepted (starves rfl)
      | refused refused => exact absurd alive refused
      | finished done =>
          obtain ⟨output, put, @⟨_, progress, matched, aligned, -, rfl⟩⟩ := reading.together
          have finish := aligned.rests matched acceptable.accepted done
          obtain ⟨-, declared, -⟩ := aligned.offsets
          have verdict := matched.verdict
          rw [matched.exhausted (aligned.stands.of_done done).1 acceptable.accepted,
            Option.map_some, feedAll_nil, Option.some.injEq] at verdict
          rw [step.of_done done, finalResult_done rfl finish, ← verdict]
          refine ⟨?_, put⟩
          show intT state.1.toSize = _
          rw [intT_of_fits (by unfold FitsInt; omega), aligned.declared]

/-! ### The header -/

/-- An engine that has not read a byte. -/
structure Unread (engine : ApplyPatch) : Prop where
  state : engine.state = .init
  bounded : Bounded engine

theorem unread_init (stack : ApplyPatch) (patchSize : Nat) :
    Unread (detoolsApplyPatchInit stack patchSize) := by
  refine ⟨rfl, readerSound_init stack patchSize, fun set => ?_⟩
  simp [detoolsApplyPatchInit] at set

theorem Unread.chunked (unread : Unread self) (patchOffset : Nat) (chunk : Chunk) :
    Unread { self with patchOffset := patchOffset, chunk := chunk } := by
  have bounded := unread.bounded
  exact ⟨unread.state, ⟨bounded.unread, bounded.opened, bounded.declared⟩, fun set =>
    ⟨(bounded.output set).offset, (bounded.output set).chunk⟩⟩

theorem Unread.load (unread : Unread self) (buf : Nat → UInt8) (size : Nat) :
    Unread (loadChunk self buf size) := unread.chunked _ _

/-- A task over a patch that is accepted, with the source at its start. -/
structure Begins (task : Task) (patch plain : List UInt8) (bits : List Bool) : Prop where
  header : ∃ typeByte declared body, Header typeByte declared body patch ∧ declared ≠ 0 ∧
    task.targetSize = declared.natAbs ∧ unpackBody body = some (plain, bits)
  low : task.low ≤ 0
  high : 0 < task.high

/-- The header has been read. -/
theorem Unread.opened (unread : Unread self) {typeByte : UInt8} {declared : Int}
    {body : List UInt8} (first : Header typeByte declared body (self.chunk.bytes ++ later))
    (nonzero : declared ≠ 0) (size : task.targetSize = declared.natAbs) (low : task.low ≤ 0)
    (high : 0 < task.high) (serves : streams.Serves world) (start : streams.position world = 0)
    (header : (processInit self).1 = 0) :
    Reading streams (((unpackBody body).map Prod.fst).map (feedAll task startProgress))
      ((unpackBody body).map Prod.snd) (streams.output world)
      ((processInit self).2.chunk.bytes ++ later) (processInit self).2 world := by
  obtain ⟨other, rest, found⟩ := (processInit_opened header).patch later
  obtain ⟨otherByte, second⟩ := found.header
  obtain ⟨-, rfl, rfl⟩ := first.unique second
  have step : EngineStep callbacks self world ⟨0, (processInit self).2, world⟩ :=
    .opened unread.state header
  obtain ⟨matched, aligned⟩ := aligned_opened unread.bounded unread.state header step found
    nonzero size low high
  exact ⟨serves, [], (List.append_nil _).symm, .intro matched aligned start.symm rfl⟩

theorem processLoop_goes {stepped : Stepped World}
    (available : chunkAvailable stepped.self.chunk = true) (nonneg : stepped.res ≥ 0) :
    processLoop callbacks stepped =
      processLoop callbacks (applyPatchProcessOnce callbacks stepped.self stepped.world) := by
  rw [processLoop, dif_pos ⟨available, nonneg⟩]

theorem processLoop_ends {stepped : Stepped World}
    (ends : ¬ (chunkAvailable stepped.self.chunk = true ∧ stepped.res ≥ 0)) :
    processLoop callbacks stepped = stepped := by
  rw [processLoop, dif_neg ends]

/-- A chunk with the whole header. -/
theorem Unread.process (unread : Unread self) {plain : List UInt8} {bits : List Bool}
    {chunk : List UInt8} (begins : Begins task (chunk ++ later) plain bits)
    (acceptable : Acceptable (some (feedAll task startProgress plain)) (some bits))
    (serves : streams.Serves world) (start : streams.position world = 0) {typeByte : UInt8}
    {declared : Int} {body : List UInt8}
    (whole : Header typeByte declared body chunk) :
    (detoolsApplyPatchProcess callbacks self world (bufferOf chunk) chunk.length).res = 0 ∧
      Reading streams (some (feedAll task startProgress plain)) (some bits)
        (streams.output world) later
        (detoolsApplyPatchProcess callbacks self world (bufferOf chunk) chunk.length).self
        (detoolsApplyPatchProcess callbacks self world (bufferOf chunk) chunk.length).world := by
  have loaded := unread.load (bufferOf chunk) chunk.length
  have bytes := loadChunk_buffer self chunk
  unfold detoolsApplyPatchProcess
  generalize loadChunk self (bufferOf chunk) chunk.length = engine at loaded bytes ⊢
  rw [← bytes] at begins whole
  have opens := processInit_opens whole
  have available : chunkAvailable engine.chunk = true := by
    obtain ⟨sizeBytes, split, -⟩ := whole.layout
    rw [chunkAvailable_iff, ← Chunk.bytes_length, split]
    exact Nat.succ_pos _
  rcases (applyPatchProcessOnce_step callbacks engine world).quiet
      (by simp [ApplyPatchState.ReadsSize, loaded.state]) (by simp [loaded.state]) with
    ⟨-, -, same⟩ | ⟨done, -⟩ | ⟨⟨-, failed⟩ | failed, -⟩
  · obtain ⟨otherByte, other, rest, first, nonzero, size, unpacked⟩ := begins.header
    have reading := loaded.opened first nonzero size begins.low begins.high
      serves start opens
    rw [unpacked] at reading
    rw [processLoop_goes available (le_refl 0), same]
    exact Reading.looped acceptable (Or.inl rfl) reading
  · exact absurd (loaded.state.symm.trans done) (by decide)
  · exact absurd opens failed
  · exact absurd (loaded.state.symm.trans failed) (by decide)

/-! ### A header that is cut -/

/-- A size that goes on has not been read. -/
theorem sizeFold_part {front more : List UInt8} {size : Int}
    (read : sizeFold (.reading none) (front ++ more) = .value size) (cut : more ≠ []) :
    ∃ part, sizeFold (.reading none) front = .reading part := by
  unfold sizeFold at read
  rw [List.foldl_append] at read
  change sizeFold (sizeFold (.reading none) front) more = _ at read
  obtain ⟨byte, rest, rfl⟩ := List.exists_cons_of_ne_nil cut
  cases reached : sizeFold (.reading none) front with
  | reading part => exact ⟨part, rfl⟩
  | value other =>
      rw [reached, sizeFold_cons, sizeStep, sizeFold_overflow] at read
      cases read
  | overflow =>
      rw [reached, sizeFold_overflow] at read
      cases read

theorem unpackHeaderLoop_short {byte : UInt8} {size offset : Nat} {signed : Bool} {chunk : Chunk}
    {part : Option PartialSize}
    (reading : sizeFold (PartialSize.continued ⟨size, offset, signed⟩ byte) chunk.bytes =
      .reading part) :
    (unpackHeaderLoop byte size offset chunk).1 = DetoolsError.shortHeader.result := by
  fun_induction unpackHeaderLoop byte size offset chunk
  case case1 => rfl
  case case2 byte size offset chunk goes next rest read drops overflow =>
    have long : offset + 7 > 32 := of_decide_eq_true overflow
    rw [PartialSize.continued, if_pos goes, chunkGet_bytes read, sizeFold_cons, sizeStep,
      if_pos long, sizeFold_overflow] at reading
    cases reading
  case case3 byte size offset chunk goes next rest read drops fits inductionHypothesis =>
    have short : ¬ offset + 7 > 32 := of_decide_eq_false (Bool.eq_false_iff.mpr fits)
    rw [PartialSize.continued, if_pos goes, chunkGet_bytes read, sizeFold_cons, sizeStep,
      if_neg short] at reading
    exact inductionHypothesis reading
  case case4 byte size offset chunk ends =>
    rw [PartialSize.continued, if_neg ends] at reading
    cases bytes : chunk.bytes with
    | nil =>
        rw [bytes] at reading
        cases reading
    | cons next rest =>
        rw [bytes, sizeFold_cons, sizeStep, sizeFold_overflow] at reading
        cases reading

/-- The error of a chunk that ends inside the header. -/
theorem processInit_short {typeByte : UInt8} {front : List UInt8} {part : Option PartialSize}
    (patchType : typeByte >>> 4 &&& 0x7 = 0) (bytes : self.chunk.bytes = typeByte :: front)
    (reading : sizeFold (.reading none) front = .reading part) :
    (processInit self).1 = DetoolsError.shortHeader.result := by
  cases read : chunkGet self.chunk with
  | none => rw [processInit, read]
  | some taken =>
      obtain ⟨byte, rest⟩ := taken
      rw [chunkGet_bytes read] at bytes
      obtain ⟨rfl, rfl⟩ := List.cons.inj bytes
      have short : (chunkUnpackHeaderSize rest).1 = DetoolsError.shortHeader.result := by
        unfold chunkUnpackHeaderSize
        cases next : chunkGet rest with
        | none => rfl
        | some taken =>
            rw [chunkGet_bytes next, sizeFold_cons] at reading
            exact unpackHeaderLoop_short reading
      have nonzero : (chunkUnpackHeaderSize rest).1 ≠ 0 := by
        rw [short]
        exact (DetoolsError.result_neg _).ne
      rw [processInit, read]
      simp only [(patchType_iff byte).mpr patchType, ne_eq, not_true, if_false, if_pos nonzero]
      exact short

/-- A chunk that is a part of a patch holds the header, or ends inside the size in it. -/
theorem header_cut {typeByte : UInt8} {declared : Int} {body chunk : List UInt8}
    (header : Header typeByte declared body (chunk ++ later)) (some : chunk ≠ []) :
    (∃ rest, Header typeByte declared rest chunk) ∨
      ∃ front part, chunk = typeByte :: front ∧
        sizeFold (.reading none) front = .reading part := by
  obtain ⟨sizeBytes, split, sized⟩ := header.layout
  obtain ⟨byte, front, rfl⟩ := List.exists_cons_of_ne_nil some
  obtain ⟨rfl, behind⟩ := List.cons.inj split
  rcases List.append_eq_append_iff.mp behind with ⟨more, rfl, -⟩ | ⟨rest, rfl, -⟩
  · by_cases ended : more = []
    · left
      subst ended
      rw [List.append_nil] at sized
      exact ⟨[], header.patchType, front, by rw [List.append_nil], sized⟩
    · right
      obtain ⟨part, reading⟩ := sizeFold_part ((sizeFold_iff _ _).mpr sized) ended
      exact ⟨front, part, rfl, reading⟩
  · exact Or.inl ⟨rest, header.patchType, sizeBytes, rfl, sized⟩

/-- A chunk that ends inside the header is an error, and nothing is called back. -/
theorem Unread.short (callbacks : Callbacks World) (unread : Unread self) {typeByte : UInt8}
    {front : List UInt8} {part : Option PartialSize} (patchType : typeByte >>> 4 &&& 0x7 = 0)
    (reading : sizeFold (.reading none) front = .reading part) (world : World) :
    let fed := detoolsApplyPatchProcess callbacks self world (bufferOf (typeByte :: front))
      (typeByte :: front).length
    fed.res = DetoolsError.shortHeader.result ∧ fed.self.state = .failed ∧ fed.world = world := by
  have loaded := unread.load (bufferOf (typeByte :: front)) (typeByte :: front).length
  have bytes := loadChunk_buffer self (typeByte :: front)
  unfold detoolsApplyPatchProcess
  generalize loadChunk self (bufferOf (typeByte :: front)) (typeByte :: front).length = engine
    at loaded bytes ⊢
  have short := processInit_short patchType bytes reading
  have negative := DetoolsError.result_neg .shortHeader
  have available : chunkAvailable engine.chunk = true := by
    rw [chunkAvailable_iff, ← Chunk.bytes_length, bytes]
    exact Nat.succ_pos _
  have switch : processState callbacks engine world =
      ⟨(processInit engine).1, (processInit engine).2, world⟩ := by
    simp only [processState, loaded.state]
  have failed : applyPatchProcessOnce callbacks engine world =
      markFailed ⟨DetoolsError.shortHeader.result, (processInit engine).2, world⟩ := by
    rw [applyPatchProcessOnce_failed callbacks (by rw [switch, short]; exact negative), switch,
      short]
  have settled : settle (markFailed
      ⟨DetoolsError.shortHeader.result, (processInit engine).2, world⟩) =
        markFailed ⟨DetoolsError.shortHeader.result, (processInit engine).2, world⟩ :=
    if_neg (show ¬ DetoolsError.shortHeader.result = 1 by decide)
  rw [processLoop_goes available (le_refl 0), failed,
    processLoop_ends fun again => absurd again.2 (not_le.mpr negative), settled]
  exact ⟨rfl, rfl, rfl⟩

/-- The finalization of an engine that has failed calls nothing back. -/
theorem detoolsApplyPatchFinalize_failed (state : self.state = .failed) (world : World) :
    (detoolsApplyPatchFinalize callbacks self world).world = world := by
  have step := applyPatchProcessOnce_step callbacks (clearChunk self) world
  obtain ⟨error, -, same⟩ := step.of_failed state
  unfold detoolsApplyPatchFinalize
  rw [finalizeLoop]
  simp only [dif_neg error.1.ne]
  exact same

/-! ### Any chunks -/

/-- The first chunk that holds a byte. -/
def firstChunk : List (List UInt8) → List UInt8
  | [] => []
  | chunk :: chunks => if chunk = [] then firstChunk chunks else chunk

/-- The header lies in one chunk. -/
def HeaderWhole (chunks : List (List UInt8)) : Prop :=
  ∃ typeByte declared body, Header typeByte declared body (firstChunk chunks)

theorem detoolsApplyPatchProcess_empty (self : ApplyPatch) (world : World) :
    detoolsApplyPatchProcess callbacks self world (bufferOf []) ([] : List UInt8).length =
      ⟨0, loadChunk self (bufferOf []) 0, world⟩ := by
  have unavailable : ¬ chunkAvailable (loadChunk self (bufferOf []) 0).chunk = true := by
    rw [chunkAvailable_iff]
    exact lt_irrefl 0
  unfold detoolsApplyPatchProcess
  rw [List.length_nil, processLoop_ends fun again => unavailable again.1]
  rfl

/-- Chunks of which the first holds the whole header are all read. -/
theorem Unread.feed {chunks : List (List UInt8)} (unread : Unread self) {plain : List UInt8}
    {bits : List Bool} (begins : Begins task chunks.flatten plain bits)
    (acceptable : Acceptable (some (feedAll task startProgress plain)) (some bits))
    (serves : streams.Serves world) (start : streams.position world = 0)
    (whole : HeaderWhole chunks) :
    (feedChunks callbacks chunks self world).res = 0 ∧
      Reading streams (some (feedAll task startProgress plain)) (some bits)
        (streams.output world) [] (feedChunks callbacks chunks self world).self
        (feedChunks callbacks chunks self world).world := by
  induction chunks generalizing self with
  | nil =>
      obtain ⟨typeByte, declared, body, header⟩ := whole
      obtain ⟨sizeBytes, split, -⟩ := header.layout
      cases split
  | cons chunk chunks inductionHypothesis =>
      rw [feedChunks_cons]
      by_cases none : chunk = []
      · subst none
        rw [detoolsApplyPatchProcess_empty]
        exact inductionHypothesis (unread.load _ _) begins whole
      · rw [HeaderWhole, firstChunk, if_neg none] at whole
        obtain ⟨typeByte, declared, body, header⟩ := whole
        obtain ⟨res, reading⟩ := unread.process begins acceptable serves start header
        simp only [res, if_true]
        exact reading.feed acceptable

/-- Chunks that cut the header end with an error at the first of them. -/
theorem Unread.feed_cut (callbacks : Callbacks World) {chunks : List (List UInt8)}
    (unread : Unread self) {typeByte : UInt8} {declared : Int} {body : List UInt8}
    (header : Header typeByte declared body chunks.flatten) (cut : ¬ HeaderWhole chunks)
    (world : World) :
    (feedChunks callbacks chunks self world).res = DetoolsError.shortHeader.result ∧
      (feedChunks callbacks chunks self world).self.state = .failed ∧
      (feedChunks callbacks chunks self world).world = world := by
  induction chunks generalizing self with
  | nil =>
      obtain ⟨sizeBytes, split, -⟩ := header.layout
      cases split
  | cons chunk chunks inductionHypothesis =>
      rw [feedChunks_cons]
      by_cases none : chunk = []
      · subst none
        rw [detoolsApplyPatchProcess_empty]
        exact inductionHypothesis (unread.load _ _) header cut
      · rw [HeaderWhole, firstChunk, if_neg none] at cut
        rcases header_cut header none with ⟨rest, whole⟩ | ⟨front, part, rfl, reading⟩
        · exact absurd ⟨typeByte, declared, rest, whole⟩ cut
        · obtain ⟨res, state, same⟩ := unread.short callbacks header.patchType reading world
          have failed := (DetoolsError.result_neg .shortHeader).ne
          rw [← res] at failed
          simp only [if_neg failed]
          exact ⟨res, state, same⟩

/-- However a patch is cut into chunks, the engine returns the size of the target and has
appended the target, if the header lies in one chunk; otherwise it has an error and has not
called back. -/
theorem applyChunks_target (streams : Streams callbacks task) {patch : List UInt8}
    {contents : Contents} (lenient : Lenient patch contents)
    (size : task.targetSize = contents.targetSize)
    (fits : FitsFrom task.low task.high 0 contents.records) (low : task.low ≤ 0)
    (high : 0 < task.high) (serves : streams.Serves world) (start : streams.position world = 0)
    (stack : ApplyPatch) (patchSize : Nat) {chunks : List (List UInt8)}
    (cut : chunks.flatten = patch) :
    let applied := applyChunks callbacks chunks (detoolsApplyPatchInit stack patchSize) world
    (HeaderWhole chunks → applied.res = contents.targetSize ∧
      streams.output applied.world =
        streams.output world ++ target task.source contents.records) ∧
    (¬ HeaderWhole chunks →
      applied.res = DetoolsError.shortHeader.result ∧ applied.world = world) := by
  subst cut
  obtain ⟨body, plain, bits, header, unpacked, accepts, output⟩ := lenient.accepted size fits
  have unread := unread_init stack patchSize
  intro applied
  constructor
  · intro whole
    have begins : Begins task chunks.flatten plain bits :=
      ⟨⟨_, _, body, header, lenient.nonzero, size, unpacked⟩, low, high⟩
    have acceptable : Acceptable (some (feedAll task startProgress plain)) (some bits) :=
      ⟨⟨_, rfl, accepts.done⟩, bits, rfl, accepts.short⟩
    obtain ⟨res, reading⟩ := unread.feed begins acceptable serves start whole
    obtain ⟨final, put⟩ := reading.finalize acceptable
    have finished : applied = detoolsApplyPatchFinalize callbacks
        (feedChunks callbacks chunks (detoolsApplyPatchInit stack patchSize) world).self
        (feedChunks callbacks chunks (detoolsApplyPatchInit stack patchSize) world).world :=
      if_pos res
    rw [finished, ← output, ← size]
    exact ⟨final, put⟩
  · intro cut
    obtain ⟨res, state, same⟩ := unread.feed_cut callbacks header cut world
    have stopped : applied = { detoolsApplyPatchFinalize callbacks
          (feedChunks callbacks chunks (detoolsApplyPatchInit stack patchSize) world).self
          (feedChunks callbacks chunks (detoolsApplyPatchInit stack patchSize) world).world with
        res := (feedChunks callbacks chunks (detoolsApplyPatchInit stack patchSize) world).res } :=
      if_neg (by rw [res]; exact (DetoolsError.result_neg _).ne)
    rw [stopped]
    exact ⟨res, (detoolsApplyPatchFinalize_failed state _).trans same⟩

end

/-! ### A run over buffers -/

/-- Buffers serve the source that they hold. -/
def bufferStreams (source : List UInt8) (targetSize : Nat) (low high : Int) :
    Streams bufferCallbacks
      ⟨targetSize, fun position => source.getD position.toNat 0, low, high⟩ where
  Serves world := world.source = source
  position := Buffers.position
  output := Buffers.target
  fromRead world size serves _ _ :=
    ⟨rfl, fun index _ => by simp only [bufferCallbacks, serves], serves, rfl, rfl⟩
  fromSeek _ _ serves _ _ := ⟨rfl, serves, rfl, rfl⟩
  toWrite _ _ serves := ⟨rfl, serves, rfl, rfl⟩

/-- A patch that adds one to the first byte of the source and puts another byte behind it. -/
def twoBytePatch : List UInt8 := [0x04, 0x02, 0x44, 0x80, 0x40, 0x60, 0x30, 0x1d, 0xdc, 0x00]

/-- What that patch says. -/
def twoByteContents : Contents := ⟨0x04, 2, 0, [⟨[0x01], [0xbb], 0⟩]⟩

theorem twoBytePatch_lenient : Lenient twoBytePatch twoByteContents where
  encodes :=
    { stream := by
        refine ⟨[0x00], [0x01, 0x01, 0x01, 0xbb, 0x00], ⟨by decide, [0x02],
          [0x80, 0x40, 0x60, 0x30, 0x1d, 0xdc, 0x00], rfl, ⟨by decide, by decide, by decide⟩,
          [.literal 0x00, .literal 0x01, .literal 0x01, .literal 0x01, .literal 0xbb,
            .literal 0x00], [false, false], by decide, by decide, by decide⟩,
          ⟨by decide, by decide, by decide⟩, ?_⟩
        exact @RecordsEncodedBy.cons _ _ [0x01, 0x01, 0x01, 0xbb, 0x00] [] ⟨[0x01], [0x01], [0x00],
          rfl, ⟨by decide, by decide, by decide⟩, ⟨by decide, by decide, by decide⟩,
          ⟨by decide, by decide, by decide⟩⟩ .nil
      reaches := ⟨by decide, by decide⟩ }
  nonzero := by decide
  dfpatchSize := le_refl 0

theorem applyChunks_target_twoByte :
    let whole := applyChunks bufferCallbacks
      [[], [0x04, 0x02, 0x44], [0x80], [0x40, 0x60, 0x30], [], [0x1d, 0xdc, 0x00]]
      (detoolsApplyPatchInit zeroStack 10) twoByteBuffers
    let cut := applyChunks bufferCallbacks
      [[0x04], [0x02, 0x44, 0x80, 0x40, 0x60, 0x30, 0x1d, 0xdc, 0x00]]
      (detoolsApplyPatchInit zeroStack 10) twoByteBuffers
    (whole.res = 2 ∧ whole.world.target = [0x13, 0xbb]) ∧
      cut.res = DetoolsError.shortHeader.result ∧ cut.world = twoByteBuffers := by
  refine ⟨?_, ?_⟩
  · exact (applyChunks_target (bufferStreams [0x12, 0x34] 2 0 2) twoBytePatch_lenient rfl
      ⟨by decide, by decide, trivial⟩ (by decide) (by decide)
      (rfl : twoByteBuffers.source = [0x12, 0x34]) rfl zeroStack 10 rfl).1
      ⟨0x04, 2, [0x44], by decide, [0x02], rfl, by decide, by decide, by decide⟩
  · refine (applyChunks_target (bufferStreams [0x12, 0x34] 2 0 2) twoBytePatch_lenient rfl
      ⟨by decide, by decide, trivial⟩ (by decide) (by decide)
      (rfl : twoByteBuffers.source = [0x12, 0x34]) rfl zeroStack 10 rfl).2 ?_
    rintro ⟨typeByte, declared, body, -, sizeBytes, split, sized⟩
    have none : sizeBytes ++ body = [] := (List.cons.inj split).2.symm
    rw [(List.append_eq_nil_iff.mp none).1] at sized
    exact sized.terminated

end DeltaUpdate.Detools
