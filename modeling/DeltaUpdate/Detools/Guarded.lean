import DeltaUpdate.Detools.Chunked

/-!
Owns the incremental use of the engine over a source that is not read outside its bounds. A
run with a positive result has read a patch and has appended the target of that patch,
whatever the chunks hold.
-/

namespace DeltaUpdate.Detools

open DeltaUpdate.Heatshrink
open DeltaUpdate.Library
open DeltaUpdate.Patch

section

variable {World : Type} {callbacks : Callbacks World} {task : Task}
  {streams : Streams callbacks task} {patch before later : List UInt8} {self : ApplyPatch}
  {world : World} {stepped : Stepped World}

/-- A source that is neither read nor sought outside its bounds. -/
structure Streams.Guarded (streams : Streams callbacks task) : Prop where
  fromRead : ∀ (world : World) (size : Nat), streams.Serves world → 0 < size →
    (callbacks.fromRead world size).1 = 0 → streams.position world + size < task.high
  fromSeek : ∀ (world : World) (offset : Int), streams.Serves world →
    (callbacks.fromSeek world offset).1 = 0 →
      task.low ≤ streams.position world + offset ∧ streams.position world + offset < task.high

/-- A task whose target has the size that a patch declares, with the source at its start. -/
structure TaskOf (task : Task) (patch : List UInt8) : Prop where
  low : task.low ≤ 0
  high : 0 < task.high
  size : ∀ typeByte declared body, Header typeByte declared body patch →
    task.targetSize = declared.natAbs

theorem Streams.Guarded.inside (guarded : streams.Guarded) (serves : streams.Serves world)
    (self : ApplyPatch) : Inside streams self world where
  reads _ nonempty read := guarded.fromRead world _ serves (nextBlock_length nonempty read).1
  seeks _ _ := guarded.fromSeek world _ serves

/-! ### Steps -/

theorem partLeft_block (state : self.state = .diffData ∨ self.state = .extraData) :
    partLeft self = self.chunkSize := if_pos state

theorem partLeft_other {name : ApplyPatchState} (state : self.state = name)
    (other : name ≠ .diffData ∧ name ≠ .extraData) : partLeft self = 0 := by
  rw [partLeft, if_neg (by rw [state]; exact not_or.mpr other)]

/-- An engine that waits for nothing in a part goes on anywhere. -/
theorem Overgrown.moved (overgrown : Overgrown streams before self world)
    (none : partLeft self = 0) (engine : ApplyPatch) : Overgrown streams before engine world := by
  have beyond := overgrown.beyond
  exact ⟨overgrown.serves, overgrown.low, overgrown.high, by omega⟩

theorem Overgrown.step (overgrown : Overgrown streams before self world)
    (guarded : streams.Guarded) (step : EngineStep callbacks self world stepped)
    (running : stepped.self.state ≠ .failed) :
    Overgrown streams before stepped.self stepped.world := by
  have inside := guarded.inside overgrown.serves self
  have beyond := overgrown.beyond
  cases step with
  | rejected _ _ _ failed => exact absurd failed running
  | finished => exact absurd rfl running
  | opened state => exact overgrown.moved (partLeft_other state (by decide)) _
  | waitingSize => exact ⟨overgrown.serves, overgrown.low, overgrown.high, beyond⟩
  | waitingBlock => exact ⟨overgrown.serves, overgrown.low, overgrown.high, beyond⟩
  | dfpatch state => exact overgrown.moved (partLeft_other state (by decide)) _
  | sized states =>
      refine overgrown.moved ?_ _
      generalize state : self.state = name at states
      cases states <;> exact partLeft_other state (by decide)
  | emptied states empty =>
      obtain ⟨part, reads, -⟩ := states.part
      exact overgrown.moved ((partLeft_block states.reads.1).trans empty) _
  | sourceFailed => exact absurd rfl running
  | @wrote middle between block nonempty read gathered written =>
      obtain ⟨state, middleState, -, -, -, chunkSize, length⟩ := gathered.frame
      have within := nextBlock_length nonempty read
      have gathers := streams.gathers overgrown.serves overgrown.low
        (gathered.below inside nonempty read) gathered
      obtain ⟨-, serves, still, appended⟩ := streams.toWrite between block gathers.serves
      refine ⟨serves, still ▸ gathers.low, still ▸ gathers.high overgrown.high, ?_⟩
      have left : partLeft (middle.handed block) = self.chunkSize - block.length := by
        have reads : (middle.handed block).state = .diffData ∨
            (middle.handed block).state = .extraData := by
          show middle.state = _ ∨ middle.state = _
          rw [middleState]
          exact state
        rw [partLeft_block reads, ApplyPatch.handed, chunkSize]
      rw [partLeft_block state] at beyond
      rw [left, appended, gathers.output, List.length_append]
      omega
  | writeFailed => exact absurd rfl running
  | sought state read found =>
      obtain ⟨above, below⟩ := inside.seeks state read found
      obtain ⟨-, serves, moved, same⟩ :=
        streams.fromSeek world _ overgrown.serves above below
      have none := partLeft_other state (by decide)
      exact ⟨serves, moved ▸ above, moved ▸ below, by rw [same]; omega⟩
  | seekFailed => exact absurd rfl running

/-- Where an engine that has not failed stands in a patch. -/
inductive Standing (streams : Streams callbacks task) (patch before future : List UInt8)
    (engine : ApplyPatch) (world : World) : Prop
  | unread (unread : Unread engine) (whole : future = patch) (serves : streams.Serves world)
      (start : streams.position world = 0) (put : streams.output world = before)
  | empty (state : engine.state = .done) (zero : engine.toSize = 0)
  | reading {typeByte : UInt8} {declared : Int} {body : List UInt8}
      (header : Header typeByte declared body patch) (nonzero : declared ≠ 0)
      (reading : Reading streams (((unpackBody body).map Prod.fst).map (feedAll task startProgress))
        ((unpackBody body).map Prod.snd) before future engine world)
  | overgrown (overgrown : Overgrown streams before engine world)

/-- A step that does not fail goes on in the patch. -/
theorem Standing.step
    (standing : Standing streams patch before (self.chunk.bytes ++ later) self world)
    (guarded : streams.Guarded) (taskOf : TaskOf task patch)
    (step : EngineStep callbacks self world stepped) (running : stepped.self.state ≠ .failed) :
    Standing streams patch before (stepped.self.chunk.bytes ++ later) stepped.self
      stepped.world := by
  cases standing with
  | unread unread whole serves start put =>
      rcases step.quiet (by simp [ApplyPatchState.ReadsSize, unread.state])
        (by simp [unread.state]) with ⟨-, header, rfl⟩ | ⟨done, -⟩ | ⟨-, -, failed, -⟩
      · obtain ⟨declared, body, found⟩ := (processInit_opened header).patch later
        obtain ⟨typeByte, first⟩ := found.header
        by_cases zero : declared = 0
        · have none : (processInit self).2.toSize = 0 := by rw [found.size, zero]; rfl
          refine .empty ?_ none
          show (processInit self).2.state = _
          rw [(processInit_opened header).state, none]
          rfl
        · have size := taskOf.size _ _ _ (whole ▸ first)
          subst put
          exact .reading (whole ▸ first) zero
            (unread.opened first zero size taskOf.low taskOf.high serves start header)
      · exact absurd (unread.state.symm.trans done) (by decide)
      · exact absurd failed running
  | empty state =>
      rw [step.of_done state] at running
      exact absurd rfl running
  | reading header nonzero reading =>
      cases reading.step (guarded.inside reading.serves self) step with
      | moved _ reading => exact .reading header nonzero reading
      | waiting _ reading => exact .reading header nonzero reading
      | finished state =>
          rw [step.of_done state] at running
          exact absurd rfl running
      | refused _ cause =>
          rcases cause with negative | overgrown
          · exact absurd (step.failed_iff.mpr negative) running
          · exact .overgrown overgrown
  | overgrown overgrown => exact .overgrown (overgrown.step guarded step running)

/-! ### Chunks -/

theorem Standing.chunked {future : List UInt8}
    (standing : Standing streams patch before future self world) (patchOffset : Nat)
    (chunk : Chunk) :
    Standing streams patch before future { self with patchOffset := patchOffset, chunk := chunk }
      world := by
  cases standing with
  | unread unread whole serves start put =>
      exact .unread (unread.chunked patchOffset chunk) whole serves start put
  | empty state zero => exact .empty state zero
  | reading header nonzero reading =>
      exact .reading header nonzero (reading.chunked patchOffset chunk)
  | overgrown overgrown =>
      exact .overgrown ⟨overgrown.serves, overgrown.low, overgrown.high, overgrown.beyond⟩

/-- The loop over a chunk uses the chunk up, if it does not fail. -/
theorem Standing.looped (guarded : streams.Guarded) (taskOf : TaskOf task patch)
    (standing : Standing streams patch before (stepped.self.chunk.bytes ++ later) stepped.self
      stepped.world)
    (success : (settle (processLoop callbacks stepped)).res = 0) :
    Standing streams patch before later (settle (processLoop callbacks stepped)).self
      (settle (processLoop callbacks stepped)).world := by
  have looped := (processLoop_computes callbacks).invariant
    (fun stepped => stepped.res < 0 ∨ Standing streams patch before
      (stepped.self.chunk.bytes ++ later) stepped.self stepped.world)
    (fun stepped => stepped.res < 0 ∨ Standing streams patch before later stepped.self
      stepped.world) ?_ ?_ (Or.inr standing)
  · by_cases waiting : (processLoop callbacks stepped).res = 1
    · rw [settle, if_pos waiting]
      exact looped.resolve_left (by omega)
    · rw [settle, if_neg waiting] at success ⊢
      exact looped.resolve_left (by omega)
  · intro state after goes holds
    unfold processIteration at goes
    split at goes
    next continues =>
      cases goes
      have standing := holds.resolve_left (not_lt.mpr continues.2)
      have step := applyPatchProcessOnce_step callbacks state.self state.world
      by_cases failed : (applyPatchProcessOnce callbacks state.self state.world).res < 0
      · exact Or.inl failed
      · exact Or.inr (standing.step guarded taskOf step (mt step.failed_iff.mp failed))
    next => cases goes
  · intro state result leaves holds
    unfold processIteration at leaves
    split at leaves
    next => cases leaves
    next ends =>
      cases leaves
      by_cases failed : state.res < 0
      · exact Or.inl failed
      · have standing := holds.resolve_left failed
        rw [chunk_bytes_nil (chunkLeft_of_ends (not_lt.mp failed) ends), List.nil_append]
          at standing
        exact Or.inr standing

/-- A chunk that is read without an error. -/
theorem Standing.process {chunk : List UInt8} (guarded : streams.Guarded)
    (taskOf : TaskOf task patch)
    (standing : Standing streams patch before (chunk ++ later) self world)
    (success : (detoolsApplyPatchProcess callbacks self world (bufferOf chunk) chunk.length).res =
      0) :
    Standing streams patch before later
      (detoolsApplyPatchProcess callbacks self world (bufferOf chunk) chunk.length).self
      (detoolsApplyPatchProcess callbacks self world (bufferOf chunk) chunk.length).world := by
  have loaded : Standing streams patch before
      ((loadChunk self (bufferOf chunk) chunk.length).chunk.bytes ++ later)
      (loadChunk self (bufferOf chunk) chunk.length) world := by
    rw [loadChunk_buffer]
    exact standing.chunked _ _
  exact Standing.looped guarded taskOf loaded success

/-- Chunks that are read without an error. -/
theorem Standing.feed {chunks : List (List UInt8)} (guarded : streams.Guarded)
    (taskOf : TaskOf task patch)
    (standing : Standing streams patch before chunks.flatten self world)
    (success : (feedChunks callbacks chunks self world).res = 0) :
    Standing streams patch before [] (feedChunks callbacks chunks self world).self
      (feedChunks callbacks chunks self world).world := by
  induction chunks generalizing self world with
  | nil => exact standing
  | cons chunk chunks inductionHypothesis =>
      rw [feedChunks_cons] at success ⊢
      simp only at success ⊢
      split at success
      next processed =>
        rw [if_pos processed]
        exact inductionHypothesis (standing.process guarded taskOf processed) success
      next failed => exact absurd success failed

/-! ### The end -/

/-- A patch has been applied: the target is appended. -/
structure Applied (streams : Streams callbacks task) (patch before : List UInt8) (res : Int)
    (contents : Contents) (world : World) : Prop where
  lenient : Lenient patch contents
  fits : FitsFrom task.low task.high 0 contents.records
  res : res = contents.targetSize
  put : streams.output world = before ++ target task.source contents.records

/-- An engine that is done, with its decoder at rest, has read a patch. -/
theorem Standing.concluded (taskOf : TaskOf task patch)
    (standing : Standing streams patch before [] self world) (state : self.state = .done)
    (finish : self.patchReader.destroySet = true →
      heatshrinkDecoderFinish self.patchReader.decoder = .done)
    (positive : 0 < intT self.toSize)
    (bounded : (streams.output world).length < before.length + 2 ^ 31) :
    ∃ contents, Applied streams patch before (intT self.toSize) contents world := by
  cases standing with
  | unread unread => exact absurd (unread.state.symm.trans state) (by decide)
  | empty _ zero =>
      rw [zero] at positive
      exact absurd positive (by decide)
  | overgrown overgrown =>
      have beyond := overgrown.beyond
      rw [partLeft_other state (by decide)] at beyond
      omega
  | @reading typeByte declared body header nonzero reading =>
      obtain ⟨output, put, @⟨_, progress, matched, aligned, -, rfl⟩⟩ := reading.together
      obtain ⟨opened, running⟩ := aligned.stands.opened
      obtain ⟨verdict, done, bits, padding, short⟩ :=
        aligned.concluded matched state (finish (aligned.bounded.opened opened running).1)
      have size := taskOf.size _ _ _ header
      cases unpacked : unpackBody body with
      | none =>
          rw [unpacked] at verdict
          cases verdict
      | some pair =>
          obtain ⟨plain, rest⟩ := pair
          rw [unpacked, Option.map_some, Option.map_some, Option.some.injEq] at verdict
          rw [unpacked, Option.map_some, Option.some.injEq] at padding
          subst verdict padding
          obtain ⟨contents, lenient, same, fits⟩ :=
            contents_of_accepts header unpacked nonzero size ⟨short, done⟩
          have sized : task.targetSize = contents.targetSize := by
            rw [size, Contents.targetSize, same]
          obtain ⟨other, _, _, second, also, -, output⟩ := lenient.accepted sized fits
          obtain ⟨-, -, rfl⟩ := header.unique second
          obtain ⟨rfl, -⟩ := Prod.mk.inj (Option.some.inj (unpacked.symm.trans also))
          obtain ⟨-, declared, -⟩ := aligned.offsets
          refine ⟨contents, lenient, fits, ?_, by rw [put, output]⟩
          rw [intT_of_fits (by unfold FitsInt; omega), aligned.declared, sized]

theorem Standing.finalize (guarded : streams.Guarded) (taskOf : TaskOf task patch)
    (standing : Standing streams patch before [] self world)
    (positive : 0 < (detoolsApplyPatchFinalize callbacks self world).res)
    (bounded : (streams.output (detoolsApplyPatchFinalize callbacks self world).world).length <
      before.length + 2 ^ 31) :
    ∃ contents, Applied streams patch before (detoolsApplyPatchFinalize callbacks self world).res
      contents (detoolsApplyPatchFinalize callbacks self world).world := by
  have cleared : Standing streams patch before [] (clearChunk self) world :=
    standing.chunked self.patchOffset _
  revert positive bounded
  refine @Computes.invariant _ _ _ _ (finalizeLoop_computes callbacks)
    (fun state => chunkLeft state.1.chunk = 0 ∧ Standing streams patch before [] state.1 state.2)
    (fun looped => 0 < finalResult 0 looped →
      (streams.output looped.world).length < before.length + 2 ^ 31 →
        ∃ contents, Applied streams patch before (finalResult 0 looped) contents looped.world)
    ?_ ?_ (clearChunk self, world) ⟨rfl, cleared⟩
  · rintro state after goes ⟨empty, standing⟩
    unfold finalizeIteration at goes
    simp only at goes
    split at goes
    next again =>
      cases goes
      have step := applyPatchProcessOnce_step callbacks state.1 state.2
      have running : (applyPatchProcessOnce callbacks state.1 state.2).self.state ≠ .failed :=
        mt step.failed_iff.mp (by omega)
      have kept := Nat.eq_zero_of_le_zero (empty ▸ step.chunkLeft running)
      have whole : Standing streams patch before (state.1.chunk.bytes ++ []) state.1 state.2 := by
        rw [chunk_bytes_nil empty]
        exact standing
      have next := whole.step guarded taskOf step running
      rw [chunk_bytes_nil kept] at next
      exact ⟨kept, next⟩
    next => cases goes
  · rintro state result leaves ⟨-, standing⟩ positive bounded
    unfold finalizeIteration at leaves
    simp only at leaves
    split at leaves
    next => cases leaves
    next ends =>
      cases leaves
      have step := applyPatchProcessOnce_step callbacks state.1 state.2
      obtain ⟨-, well⟩ := finalResult_positive (le_refl 0) step.res_le ends positive
      have done := step.of_alreadyDone well.alreadyDone
      have finish := well.finish
      rw [well.result] at positive ⊢
      rw [step.of_done done] at positive bounded finish ⊢
      change ∃ contents, Applied streams patch before (intT state.1.toSize) contents state.2
      exact standing.concluded taskOf done finish positive bounded

/-- Feeding ends with zero or an error. -/
theorem feedChunks_res (callbacks : Callbacks World) (chunks : List (List UInt8))
    (self : ApplyPatch) (world : World) : (feedChunks callbacks chunks self world).res ≤ 0 := by
  induction chunks generalizing self world with
  | nil => exact le_refl 0
  | cons chunk chunks inductionHypothesis =>
      rw [feedChunks_cons]
      simp only
      split
      next => exact inductionHypothesis _ _
      next =>
        have small : (processLoop callbacks
            ⟨0, loadChunk self (bufferOf chunk) chunk.length, world⟩).res ≤ 1 :=
          processLoop_res callbacks (by simp)
        unfold detoolsApplyPatchProcess settle
        split
        next => exact le_refl 0
        next other => omega

/-- Callbacks over a task serve any target size. -/
def Streams.resize (streams : Streams callbacks task) (targetSize : Nat) :
    Streams callbacks { task with targetSize } where
  Serves := streams.Serves
  position := streams.position
  output := streams.output
  fromRead := streams.fromRead
  fromSeek := streams.fromSeek
  toWrite := streams.toWrite

/-- There is a task for every patch. -/
theorem exists_taskOf (low : task.low ≤ 0) (high : 0 < task.high) (patch : List UInt8) :
    ∃ targetSize, TaskOf { task with targetSize } patch := by
  by_cases some : ∃ typeByte declared body, Header typeByte declared body patch
  · obtain ⟨typeByte, declared, body, header⟩ := some
    exact ⟨declared.natAbs, low, high, fun _ _ _ other => by rw [(header.unique other).2.1]⟩
  · exact ⟨0, low, high, fun _ _ _ other => absurd ⟨_, _, _, other⟩ some⟩

/-- Whatever the chunks hold: a run with a positive result, which has not put out 2 GiB, has
read a patch whose header lies in one chunk, has kept to the bounds of the source, and has
appended the target. -/
theorem applyChunks_applied (streams : Streams callbacks task) (guarded : streams.Guarded)
    (low : task.low ≤ 0) (high : 0 < task.high) (serves : streams.Serves world)
    (start : streams.position world = 0) (stack : ApplyPatch) (patchSize : Nat)
    (chunks : List (List UInt8)) :
    let applied := applyChunks callbacks chunks (detoolsApplyPatchInit stack patchSize) world
    0 < applied.res →
      (streams.output applied.world).length < (streams.output world).length + 2 ^ 31 →
        HeaderWhole chunks ∧ ∃ contents, Applied streams chunks.flatten (streams.output world)
          applied.res contents applied.world := by
  intro applied positive bounded
  have unread := unread_init stack patchSize
  have nonpositive := feedChunks_res callbacks chunks
    (detoolsApplyPatchInit stack patchSize) world
  obtain ⟨targetSize, taskOf⟩ := exists_taskOf low high chunks.flatten
  have resized : (streams.resize targetSize).Guarded := ⟨guarded.fromRead, guarded.fromSeek⟩
  have standing : Standing (streams.resize targetSize) chunks.flatten (streams.output world)
      chunks.flatten (detoolsApplyPatchInit stack patchSize) world :=
    .unread unread rfl serves start rfl
  have applies : applied = applyChunks callbacks chunks (detoolsApplyPatchInit stack patchSize)
    world := rfl
  unfold applyChunks at applies
  simp only at applies
  split at applies
  next success =>
    rw [applies] at positive bounded ⊢
    obtain ⟨contents, lenient, fits, res, put⟩ :=
      (standing.feed resized taskOf success).finalize resized taskOf positive bounded
    refine ⟨?_, contents, lenient, fits, res, put⟩
    by_contra cut
    obtain ⟨_, _, frames, -⟩ := lenient.encodes.stream
    obtain ⟨_, _, header, -⟩ := frames_iff.mp frames
    have failed := (unread.feed_cut callbacks header cut world).1
    exact absurd (success.symm.trans failed) (DetoolsError.result_neg _).ne'
  next failed =>
    rw [applies] at positive
    exact absurd positive (not_lt.mpr nonpositive)

end

/-! ### A run inside a source -/

/-- Callbacks over buffers that read and seek inside the source only. -/
def boundedCallbacks : Callbacks Buffers where
  fromRead world size :=
    if world.position + size ≤ world.source.length then bufferCallbacks.fromRead world size
    else (-1, fun _ => 0, world)
  fromSeek world offset :=
    if 0 ≤ world.position + offset ∧ world.position + offset ≤ world.source.length then
      bufferCallbacks.fromSeek world offset
    else (-1, world)
  patchRead := bufferCallbacks.patchRead
  toWrite := bufferCallbacks.toWrite

/-- They serve the source that they hold. -/
def boundedStreams (source : List UInt8) :
    Streams boundedCallbacks
      ⟨0, fun position => source.getD position.toNat 0, 0, source.length + 1⟩ where
  Serves world := world.source = source
  position := Buffers.position
  output := Buffers.target
  fromRead world size serves _ below := by
    have inside : world.position + size ≤ world.source.length :=
      serves ▸ Int.le_of_lt_add_one below
    simp only [boundedCallbacks, if_pos inside]
    exact ⟨rfl, fun index _ => by simp only [bufferCallbacks, serves], serves, rfl, rfl⟩
  fromSeek world offset serves low below := by
    have inside : 0 ≤ world.position + offset ∧
        world.position + offset ≤ world.source.length :=
      ⟨low, serves ▸ Int.le_of_lt_add_one below⟩
    simp only [boundedCallbacks, if_pos inside]
    exact ⟨rfl, serves, rfl, rfl⟩
  toWrite _ _ serves := ⟨rfl, serves, rfl, rfl⟩

theorem boundedStreams_guarded (source : List UInt8) : (boundedStreams source).Guarded where
  fromRead world size serves _ success := by
    by_contra outside
    have serves : world.source = source := serves
    have other : ¬ world.position + size ≤ world.source.length := by
      rw [serves]
      exact fun inside => outside (Int.lt_add_one_of_le inside)
    simp only [boundedCallbacks, if_neg other] at success
    exact absurd success (by decide)
  fromSeek world offset serves success := by
    by_contra outside
    have serves : world.source = source := serves
    have other : ¬ (0 ≤ world.position + offset ∧
        world.position + offset ≤ world.source.length) := by
      rw [serves]
      exact fun inside => outside ⟨inside.1, Int.lt_add_one_of_le inside.2⟩
    simp only [boundedCallbacks, if_neg other] at success
    exact absurd success (by decide)

/-- The patch of two bytes, cut behind the header and inside the stream. -/
def twoByteChunks : List (List UInt8) :=
  [[0x04, 0x02, 0x44], [0x80, 0x40, 0x60], [], [0x30, 0x1d, 0xdc, 0x00]]

theorem applyChunks_applied_twoByte :
    let applied := applyChunks boundedCallbacks twoByteChunks
      (detoolsApplyPatchInit zeroStack 10) twoByteBuffers
    HeaderWhole twoByteChunks ∧ ∃ contents, Applied (boundedStreams [0x12, 0x34]) twoBytePatch []
      applied.res contents applied.world :=
  applyChunks_applied (boundedStreams [0x12, 0x34]) (boundedStreams_guarded [0x12, 0x34])
    (le_refl 0) (by decide) (rfl : twoByteBuffers.source = [0x12, 0x34]) rfl zeroStack 10
    twoByteChunks (by decide +kernel) (by decide +kernel)

end DeltaUpdate.Detools
