import DeltaUpdate.Detools.Alike

/-!
Owns two runs of the engine side by side, each with its own callbacks. Callbacks that
answer alike in related worlds keep the engines alike and the worlds related, from one
step to the loops and to a whole run.
-/

namespace DeltaUpdate.Detools

open DeltaUpdate.Library

/-! ### Callbacks -/

section

variable {Left Right : Type}

/-- Two answers of a callback that moves or writes, and the worlds behind them. -/
structure MoveAlike (Worlds : Left → Right → Prop) (left : Int × Left) (right : Int × Right) :
    Prop where
  res : right.1 = left.1
  worlds : Worlds left.2 right.2

/-- Two answers of a callback that reads: when it succeeds, the bytes that were asked for
are the same. What lies behind them in the buffer may differ. -/
structure ReadAlike (Worlds : Left → Right → Prop) (size : Nat)
    (left : Int × (Nat → UInt8) × Left) (right : Int × (Nat → UInt8) × Right) : Prop where
  res : right.1 = left.1
  bytes : left.1 = 0 → ∀ index < size, right.2.1 index = left.2.1 index
  worlds : Worlds left.2.2 right.2.2

/-- The callbacks that move and write answer alike in related worlds. -/
structure MovesAlike (Worlds : Left → Right → Prop) (callbacks : Callbacks Left)
    (others : Callbacks Right) : Prop where
  fromSeek : ∀ world other offset, Worlds world other →
    MoveAlike Worlds (callbacks.fromSeek world offset) (others.fromSeek other offset)
  toWrite : ∀ world other block, Worlds world other →
    MoveAlike Worlds (callbacks.toWrite world block) (others.toWrite other block)

/-- The source reads alike: blocks of 1 to 128 bytes. -/
def SourceAlike (Worlds : Left → Right → Prop) (callbacks : Callbacks Left)
    (others : Callbacks Right) (world : Left) (other : Right) : Prop :=
  ∀ size, 0 < size → size ≤ 128 →
    ReadAlike Worlds size (callbacks.fromRead world size) (others.fromRead other size)

/-- The outcomes of two steps. -/
structure SteppedAlike (Worlds : Left → Right → Prop) (left : Stepped Left)
    (right : Stepped Right) : Prop where
  res : right.res = left.res
  self : left.self.Alike right.self
  worlds : Worlds left.world right.world

variable {Worlds : Left → Right → Prop} {callbacks : Callbacks Left} {others : Callbacks Right}
  {left right : ApplyPatch} {world : Left} {other : Right}

theorem SwitchAlike.stepped {first second : Int × ApplyPatch} (alike : SwitchAlike first second)
    (worlds : Worlds world other) :
    SteppedAlike Worlds ⟨first.1, first.2, world⟩ ⟨second.1, second.2, other⟩ :=
  ⟨alike.res, alike.self, worlds⟩

theorem writeBlock_alike (moves : MovesAlike Worlds callbacks others) (alike : left.Alike right)
    (state : left.state = .diffData ∨ left.state = .extraData) (worlds : Worlds world other)
    (block : List UInt8) :
    SteppedAlike Worlds (writeBlock callbacks left world block)
      (writeBlock others right other block) := by
  have patch : left.state.InPatch := readsBlock_running state
  have same := alike.patch patch
  have written := moves.toWrite world other block worlds
  have handed : (left.handed block).Alike (right.handed block) :=
    ⟨alike.state, alike.fromOffset, alike.chunk, fun _ =>
      ⟨same.reader, same.destroySet, congrArg (fun offset => sizeT (offset + block.length))
        same.toOffset, same.toSize, fun _ =>
          congrArg (fun size => size - block.length) (same.chunkSize state)⟩⟩
  simp only [writeBlock, written.res]
  split
  next => exact ⟨rfl, handed, written.worlds⟩
  next => exact ⟨rfl, handed, written.worlds⟩

theorem addSource_alike (moves : MovesAlike Worlds callbacks others)
    (source : SourceAlike Worlds callbacks others world other) (alike : left.Alike right)
    (state : left.state = .diffData) {data : List UInt8} (nonempty : 0 < data.length)
    (small : data.length ≤ 128) :
    SteppedAlike Worlds (addSource callbacks left world data)
      (addSource others right other data) := by
  have read := source data.length nonempty small
  simp only [addSource, read.res]
  split
  next => exact ⟨rfl, alike, read.worlds⟩
  next success =>
    have bytes : (data.mapIdx fun index byte =>
          byte + (others.fromRead other data.length).2.1 index) =
        data.mapIdx fun index byte => byte + (callbacks.fromRead world data.length).2.1 index := by
      apply List.ext_getElem (by simp)
      intro index within _
      rw [List.length_mapIdx] at within
      rw [List.getElem_mapIdx, List.getElem_mapIdx, read.bytes (not_not.mp success) index within]
    have moved : ApplyPatch.Alike
        { left with fromOffset := intT (left.fromOffset + data.length) }
        { right with fromOffset := intT (right.fromOffset + data.length) } :=
      ⟨alike.state, congrArg (fun offset => intT (offset + data.length)) alike.fromOffset,
        alike.chunk, fun patch =>
          have same := alike.patch patch
          ⟨same.reader, same.destroySet, same.toOffset, same.toSize, same.chunkSize⟩⟩
    rw [bytes]
    exact writeBlock_alike moves moved (Or.inl state) read.worlds _

theorem processData_alike (moves : MovesAlike Worlds callbacks others)
    (source : left.state = .diffData → SourceAlike Worlds callbacks others world other)
    (alike : left.Alike right) {next : ApplyPatchState} (states : FollowedBy left.state next)
    (worlds : Worlds world other) :
    SteppedAlike Worlds (processData callbacks left world next)
      (processData others right other next) := by
  obtain ⟨data, -⟩ := states.reads
  have same := alike.patch (readsBlock_running data)
  have size := same.chunkSize data
  by_cases empty : blockRoom left = 0
  · have none : left.chunkSize = 0 := by
      unfold blockRoom at empty
      omega
    rw [processData_empty callbacks none, processData_empty others (size.trans none)]
    refine ⟨rfl, ⟨rfl, alike.fromOffset, alike.chunk, fun _ => ⟨same.reader, same.destroySet,
      same.toOffset, same.toSize, fun _ => size⟩⟩, worlds⟩
  · have room : blockRoom right ≠ 0 := by rwa [blockRoom, size]
    obtain ⟨read, moved⟩ := nextBlock_alike alike data
    by_cases stored : (nextBlock left).res = 0
    · have otherStored : (nextBlock right).res = 0 := read.res.trans stored
      have within := nextBlock_length empty stored
      cases stateOf : left.state with
      | diffData =>
          rw [stateOf] at states
          cases states
          have block := addSource_alike moves (source stateOf) moved stateOf within.1 within.2.1
          rw [← processDiffData, ← processDiffData, processDiffData_block callbacks empty stored,
            processDiffData_block others room otherStored, read.data]
          exact block
      | extraData =>
          rw [stateOf] at states
          cases states
          have block := writeBlock_alike moves moved data worlds (nextBlock left).data
          rw [← processExtraData, ← processExtraData, processExtraData_block callbacks empty stored,
            processExtraData_block others room otherStored, read.data]
          exact block
      | _ => simp [stateOf] at data
    · have otherStopped : (nextBlock right).res ≠ 0 := fun zero => stored (read.res.symm.trans zero)
      rw [processData_stopped callbacks empty stored, processData_stopped others room otherStopped]
      exact ⟨read.res, moved, worlds⟩

theorem processAdjustment_alike (moves : MovesAlike Worlds callbacks others)
    (alike : left.Alike right) (state : left.state = .adjustment) (worlds : Worlds world other) :
    SteppedAlike Worlds (processAdjustment callbacks left world)
      (processAdjustment others right other) := by
  have patch : left.state.InPatch := by simp [ApplyPatchState.InPatch, state]
  have read := nextSize_alike alike patch
  have moved := alike.afterSize patch
  have same := moved.patch patch
  have sought := moves.fromSeek world other (nextSize left).size worlds
  rw [processAdjustment_eq, processAdjustment_eq, read.res, read.size, sought.res]
  split
  next => exact ⟨rfl, moved, worlds⟩
  next =>
    split
    next => exact ⟨rfl, moved, sought.worlds⟩
    next =>
      have ends : (right.toOffset = right.toSize) = (left.toOffset = left.toSize) := by
        rw [(alike.patch patch).toOffset, (alike.patch patch).toSize]
      refine ⟨rfl, ⟨?_, congrArg (fun offset => intT (offset + (nextSize left).size))
        alike.fromOffset, moved.chunk, fun _ => ⟨same.reader, same.destroySet, same.toOffset,
          same.toSize, fun data => ?_⟩⟩, sought.worlds⟩
      · simp only [ends]
      · split at data <;> simp at data

/-- Two engines that agree take the same step. -/
theorem applyPatchProcessOnce_alike (moves : MovesAlike Worlds callbacks others)
    (source : left.state = .diffData → SourceAlike Worlds callbacks others world other)
    (alike : left.Alike right) (worlds : Worlds world other) :
    SteppedAlike Worlds (applyPatchProcessOnce callbacks left world)
      (applyPatchProcessOnce others right other) := by
  have switch : SteppedAlike Worlds (processState callbacks left world)
      (processState others right other) := by
    unfold processState
    rw [alike.state]
    cases state : left.state with
    | init => exact (processInit_alike alike state).stepped worlds
    | dfpatchSize => exact (processDfpatchSize_alike alike state).stepped worlds
    | diffSize => exact (processSize_alike alike (by rw [state]; exact .diff)).stepped worlds
    | diffData => exact processData_alike moves source alike (by rw [state]; exact .diff) worlds
    | extraSize => exact (processSize_alike alike (by rw [state]; exact .extra)).stepped worlds
    | extraData => exact processData_alike moves source alike (by rw [state]; exact .extra) worlds
    | adjustment => exact processAdjustment_alike moves alike state worlds
    | done => exact ⟨rfl, alike, worlds⟩
    | failed => exact ⟨rfl, alike, worlds⟩
  simp only [applyPatchProcessOnce, switch.res]
  split
  next => exact ⟨rfl, switch.self.fail, switch.worlds⟩
  next => exact switch

/-! ### Loops -/

/-- Two finalizations have the same result. -/
def FinalAlike (left : Stepped Left) (right : Stepped Right) : Prop :=
  applyPatchCommonFinalize right.res right.self.patchReader right.self.toSize =
    applyPatchCommonFinalize left.res left.self.patchReader left.self.toSize

theorem applyPatchCommonFinalize_error {res : Int} (nonzero : res ≠ 0)
    (other : res ≠ DetoolsError.alreadyDone.result) (reader : PatchReader) (toSize : Nat) :
    applyPatchCommonFinalize res reader toSize =
      if res = 1 then DetoolsError.notEnoughPatchData.result else res := by
  by_cases one : res = 1
  · subst one
    simp [applyPatchCommonFinalize, DetoolsError.result, DetoolsError.code]
  · simp [applyPatchCommonFinalize, one, other, nonzero]

/-- The reader and the target size are only looked at when the engine was done. -/
theorem finalAlike_step (moves : MovesAlike Worlds callbacks others)
    (source : left.state = .diffData → SourceAlike Worlds callbacks others world other)
    (alike : left.Alike right) (worlds : Worlds world other)
    (ends : (applyPatchProcessOnce callbacks left world).res ≠ 0) :
    FinalAlike (applyPatchProcessOnce callbacks left world)
      (applyPatchProcessOnce others right other) := by
  have step := applyPatchProcessOnce_step callbacks left world
  have same := applyPatchProcessOnce_alike moves source alike worlds
  by_cases done : left.state = .done
  · have patch := alike.patch (by simp [ApplyPatchState.InPatch, done])
    have otherStep := applyPatchProcessOnce_step others right other
    rw [FinalAlike, step.of_done done, otherStep.of_done (alike.state.trans done)]
    simp only [applyPatchCommonFinalize, patch.destroySet, patch.toSize,
      patchReaderHeatshrinkDestroy, patch.reader.decoder]
  · have error : (applyPatchProcessOnce callbacks left world).res ≠
        DetoolsError.alreadyDone.result := fun result => done (step.of_alreadyDone result)
    rw [FinalAlike, same.res, applyPatchCommonFinalize_error ends error,
      applyPatchCommonFinalize_error ends error]

/-- All callbacks answer alike in related worlds. -/
structure CallbacksAlike (Worlds : Left → Right → Prop) (callbacks : Callbacks Left)
    (others : Callbacks Right) : Prop extends MovesAlike Worlds callbacks others where
  fromRead : ∀ world other, Worlds world other → SourceAlike Worlds callbacks others world other
  patchRead : ∀ world other size, Worlds world other → size ≤ 512 →
    ReadAlike Worlds size (callbacks.patchRead world size) (others.patchRead other size)

theorem processLoop_alike (same : CallbacksAlike Worlds callbacks others) {first : Stepped Left}
    {second : Stepped Right} (alike : SteppedAlike Worlds first second) :
    SteppedAlike Worlds (processLoop callbacks first) (processLoop others second) := by
  refine (processLoop_computes callbacks).related (processLoop_computes others) ?_ alike
  intro first second alike
  simp only [processIteration, alike.self.chunk.available, alike.res]
  split
  next =>
    exact .inl (applyPatchProcessOnce_alike same.toMovesAlike
      (fun _ => same.fromRead _ _ alike.worlds) alike.self alike.worlds)
  next => exact .inr alike

/-- Feeding the same bytes to two engines. -/
theorem detoolsApplyPatchProcess_alike (same : CallbacksAlike Worlds callbacks others)
    (alike : (clearChunk left).Alike (clearChunk right)) (worlds : Worlds world other)
    {buf otherBuf : Nat → UInt8} {size : Nat}
    (bytes : ∀ index < size, otherBuf index = buf index) :
    SteppedAlike Worlds (detoolsApplyPatchProcess callbacks left world buf size)
      (detoolsApplyPatchProcess others right other otherBuf size) := by
  have looped := processLoop_alike same
    (⟨rfl, alike.load bytes, worlds⟩ : SteppedAlike Worlds ⟨0, loadChunk left buf size, world⟩
      ⟨0, loadChunk right otherBuf size, other⟩)
  simp only [detoolsApplyPatchProcess, settle, looped.res]
  split
  next => exact ⟨rfl, looped.self, looped.worlds⟩
  next => exact looped

/-- The variables of two loops of `detools_apply_patch_finalize`. -/
structure FinalizingAlike (Worlds : Left → Right → Prop) (left : ApplyPatch × Left)
    (right : ApplyPatch × Right) : Prop where
  self : left.1.Alike right.1
  worlds : Worlds left.2 right.2

/-- The outcomes of two loops of `detools_apply_patch_finalize`. -/
structure FinalizedAlike (Worlds : Left → Right → Prop) (left : Stepped Left)
    (right : Stepped Right) : Prop extends SteppedAlike Worlds left right where
  final : FinalAlike left right

theorem finalizeIteration_alike (same : CallbacksAlike Worlds callbacks others)
    (first : ApplyPatch × Left) (second : ApplyPatch × Right)
    (alike : FinalizingAlike Worlds first second) :
    Sum.LiftRel (FinalizingAlike Worlds) (FinalizedAlike Worlds)
      (finalizeIteration callbacks first) (finalizeIteration others second) := by
  have source := same.fromRead _ _ alike.worlds
  have step := applyPatchProcessOnce_alike same.toMovesAlike (fun _ => source) alike.self
    alike.worlds
  simp only [finalizeIteration, step.res]
  split
  next => exact .inl ⟨step.self, step.worlds⟩
  next ends =>
    exact .inr ⟨step, finalAlike_step same.toMovesAlike (fun _ => source) alike.self alike.worlds
      ends⟩

/-- Finalizing two engines. -/
theorem detoolsApplyPatchFinalize_alike (same : CallbacksAlike Worlds callbacks others)
    (alike : (clearChunk left).Alike (clearChunk right)) (worlds : Worlds world other) :
    SteppedAlike Worlds (detoolsApplyPatchFinalize callbacks left world)
      (detoolsApplyPatchFinalize others right other) := by
  have related : FinalizingAlike Worlds (clearChunk left, world) (clearChunk right, other) :=
    ⟨alike, worlds⟩
  have looped := (finalizeLoop_computes callbacks).related (finalizeLoop_computes others)
    (finalizeIteration_alike same) related
  exact ⟨looped.final, looped.self, looped.worlds⟩

/-! ### Runs -/

/-- Two runs that stand at the same place. -/
structure ConfigAlike (Worlds : Left → Right → Prop) (left : Config Left)
    (right : Config Right) : Prop where
  phase : right.phase = left.phase
  self : (clearChunk left.self).Alike (clearChunk right.self)
  chunk : (∀ patchOffset, left.phase ≠ .fetch patchOffset) → left.self.chunk.Alike right.self.chunk
  worlds : Worlds left.world right.world

/-- Behind a chunk that has been loaded the engines agree on it too. -/
theorem ConfigAlike.whole {first : Config Left} {second : Config Right}
    (alike : ConfigAlike Worlds first second)
    (loaded : ∀ patchOffset, first.phase ≠ .fetch patchOffset) : first.self.Alike second.self :=
  ⟨alike.self.state, alike.self.fromOffset, alike.chunk loaded, fun patch =>
    have same := alike.self.patch patch
    ⟨same.reader, same.destroySet, same.toOffset, same.toSize, same.chunkSize⟩⟩

theorem ApplyPatch.Alike.config (alike : left.Alike right) (phase : Phase)
    (worlds : Worlds world other) :
    ConfigAlike Worlds ⟨phase, left, world⟩ ⟨phase, right, other⟩ :=
  ⟨rfl, alike.clear, fun _ => alike.chunk, worlds⟩

theorem fetchStep_alike {patchSize patchOffset : Nat}
    (patch : patchOffset < patchSize → ReadAlike Worlds (min (patchSize - patchOffset) 512)
      (callbacks.patchRead world (min (patchSize - patchOffset) 512))
      (others.patchRead other (min (patchSize - patchOffset) 512)))
    (alike : (clearChunk left).Alike (clearChunk right)) (worlds : Worlds world other) :
    ConfigAlike Worlds (fetchStep callbacks patchSize patchOffset left world)
      (fetchStep others patchSize patchOffset right other) := by
  by_cases below : patchOffset < patchSize
  · have read := patch below
    simp only [fetchStep, if_pos below, read.res]
    split
    next success => exact (alike.load (read.bytes success)).config _ read.worlds
    next => exact alike.config _ read.worlds
  · simp only [fetchStep, if_neg below]
    exact alike.config _ worlds

theorem feedStep_alike (moves : MovesAlike Worlds callbacks others)
    (source : left.state = .diffData → SourceAlike Worlds callbacks others world other)
    (alike : left.Alike right) (worlds : Worlds world other) (patchOffset : Nat) :
    ConfigAlike Worlds (feedStep callbacks patchOffset left world)
      (feedStep others patchOffset right other) := by
  have step := applyPatchProcessOnce_alike moves source alike worlds
  simp only [feedStep, alike.chunk.available, step.res]
  split
  next =>
    split
    next => exact step.self.clear.config _ step.worlds
    next => exact step.self.config _ step.worlds
  next => exact alike.config _ worlds

theorem drainStep_alike (moves : MovesAlike Worlds callbacks others)
    (source : left.state = .diffData → SourceAlike Worlds callbacks others world other)
    (alike : left.Alike right) (worlds : Worlds world other) (res : Int) :
    ConfigAlike Worlds (drainStep callbacks res left world)
      (drainStep others res right other) := by
  have step := applyPatchProcessOnce_alike moves source alike worlds
  simp only [drainStep, step.res]
  split
  next => exact step.self.config _ step.worlds
  next ends =>
    have final : finalResult res (applyPatchProcessOnce others right other) =
        finalResult res (applyPatchProcessOnce callbacks left world) := by
      have same := finalAlike_step moves source alike worlds ends
      unfold finalResult
      rw [same]
    rw [final]
    exact step.self.config _ step.worlds

/-- The runs of two sets of callbacks that answer alike wherever the first run calls them. -/
theorem Visits.alike (moves : MovesAlike Worlds callbacks others) {stack : ApplyPatch}
    (otherStack : ApplyPatch) {patchSize : Nat}
    (source : ∀ config other, Visits callbacks stack world patchSize config →
      config.self.state = .diffData → Worlds config.world other →
        SourceAlike Worlds callbacks others config.world other)
    (patch : ∀ config other patchOffset, Visits callbacks stack world patchSize config →
      config.phase = .fetch patchOffset → patchOffset < patchSize → Worlds config.world other →
        ReadAlike Worlds (min (patchSize - patchOffset) 512)
          (callbacks.patchRead config.world (min (patchSize - patchOffset) 512))
          (others.patchRead other (min (patchSize - patchOffset) 512)))
    (worlds : Worlds world other) {config : Config Left}
    (visited : Visits callbacks stack world patchSize config) :
    ∃ otherConfig, Visits others otherStack other patchSize otherConfig ∧
      ConfigAlike Worlds config otherConfig := by
  refine Reaches.related (ConfigAlike Worlds) ?_ visited
    ⟨rfl, detoolsApplyPatchInit_alike stack otherStack patchSize,
      fun other => absurd rfl (other 0), worlds⟩
  intro config otherConfig before alike
  have same := alike.phase
  have reads := source config otherConfig.world before
  have fetches := patch config otherConfig.world
  unfold driverStep
  rw [same]
  cases phase : config.phase with
  | fetch patchOffset =>
      exact fetchStep_alike (fun below => fetches patchOffset before phase below alike.worlds)
        alike.self alike.worlds
  | feed patchOffset =>
      exact feedStep_alike moves (fun state => reads state alike.worlds)
        (alike.whole (by simp [phase])) alike.worlds patchOffset
  | drain res =>
      exact drainStep_alike moves (fun state => reads state alike.worlds)
        (alike.whole (by simp [phase])) alike.worlds res
  | stop res => exact alike

/-- The outcomes of two such runs. -/
theorem detoolsApplyPatchCallbacks_alike_of_visits (moves : MovesAlike Worlds callbacks others)
    {stack otherStack : ApplyPatch} {patchSize : Nat}
    (source : ∀ config other, Visits callbacks stack world patchSize config →
      config.self.state = .diffData → Worlds config.world other →
        SourceAlike Worlds callbacks others config.world other)
    (patch : ∀ config other patchOffset, Visits callbacks stack world patchSize config →
      config.phase = .fetch patchOffset → patchOffset < patchSize → Worlds config.world other →
        ReadAlike Worlds (min (patchSize - patchOffset) 512)
          (callbacks.patchRead config.world (min (patchSize - patchOffset) 512))
          (others.patchRead other (min (patchSize - patchOffset) 512)))
    (worlds : Worlds world other) :
    (detoolsApplyPatchCallbacks others otherStack other patchSize).res =
        (detoolsApplyPatchCallbacks callbacks stack world patchSize).res ∧
      Worlds (detoolsApplyPatchCallbacks callbacks stack world patchSize).world
        (detoolsApplyPatchCallbacks others otherStack other patchSize).world := by
  have visited := detoolsApplyPatchCallbacks_visits callbacks stack world patchSize
  have otherVisited := detoolsApplyPatchCallbacks_visits others otherStack other patchSize
  obtain ⟨⟨phase, self, after⟩, reached, alike⟩ :=
    Visits.alike moves otherStack source patch worlds visited
  obtain rfl : phase = _ := alike.phase
  have final := Reaches.final_unique reached rfl otherVisited rfl
  injection final with phases _ worlds
  injection phases with res
  exact ⟨res.symm, worlds ▸ alike.worlds⟩

/-- Two runs over the same answers have the same result, whatever the stacks hold and
whatever the callbacks leave in the buffers behind the bytes they were asked for. -/
theorem detoolsApplyPatchCallbacks_alike (same : CallbacksAlike Worlds callbacks others)
    (stack otherStack : ApplyPatch) (patchSize : Nat) (worlds : Worlds world other) :
    (detoolsApplyPatchCallbacks others otherStack other patchSize).res =
        (detoolsApplyPatchCallbacks callbacks stack world patchSize).res ∧
      Worlds (detoolsApplyPatchCallbacks callbacks stack world patchSize).world
        (detoolsApplyPatchCallbacks others otherStack other patchSize).world :=
  detoolsApplyPatchCallbacks_alike_of_visits same.toMovesAlike
    (fun _ _ _ _ worlds => same.fromRead _ _ worlds)
    (fun _ _ _ _ _ _ worlds => same.patchRead _ _ _ worlds (Nat.min_le_right _ _)) worlds

end

end DeltaUpdate.Detools
