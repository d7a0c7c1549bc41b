import DeltaUpdate.Delta.Call
import DeltaUpdate.Detools.Bounds

/-!
Owns the report of a failure: the two tables of error texts, what `main` prints for the
end of a call, and the failure that stopped the call. The codes of `delta.c` are returned
negative and looked up before they are negated, and the engine replaces the code of a
callback with its own, so no such failure is reported as what it is.
-/

namespace DeltaUpdate.Delta

open DeltaUpdate.Detools
open DeltaUpdate.Library

/-! ### The texts -/

/-- `detools_error_as_string`. -/
def detoolsErrorAsString (error : Int) : String :=
  let error := if error < 0 then -error else error
  if error = DetoolsError.notImplemented.code then "Function not implemented."
  else if error = DetoolsError.notDone.code then "Not done."
  else if error = DetoolsError.badPatchType.code then "Bad patch type."
  else if error = DetoolsError.badCompression.code then "Bad compression."
  else if error = DetoolsError.internalError.code then "Internal error."
  else if error = DetoolsError.outOfMemory.code then "Out of memory."
  else if error = DetoolsError.corruptPatch.code then "Corrupt patch."
  else if error = DetoolsError.ioFailed.code then "Input/output failed."
  else if error = DetoolsError.alreadyDone.code then "Already done."
  else if error = DetoolsError.shortHeader.code then "Short header."
  else if error = DetoolsError.notEnoughPatchData.code then "Not enough patch data."
  else if error = DetoolsError.heatshrinkSink.code then "Heatshrink sink."
  else if error = DetoolsError.heatshrinkPoll.code then "Heatshrink poll."
  else if error = DetoolsError.stepSetFailed.code then "Step set failed."
  else if error = DetoolsError.stepGetFailed.code then "Step get failed."
  else if error = DetoolsError.alreadyFailed.code then "Already failed."
  else if error = DetoolsError.corruptPatchOverflow.code then "Corrupt patch, overflow."
  else if error = DetoolsError.heatshrinkHeader.code then "Heatshrink header."
  else "Unknown error."

/-- `delta_error_as_string`. The table of `delta.c` is only reached from 28 on. -/
def deltaErrorAsString (error : Int) : String :=
  if error < 28 then detoolsErrorAsString error
  else
    let error := if error < 0 then -error else error
    if error = DeltaError.slot1OutOfMemory.code then "Slot 1 out of memory."
    else if error = DeltaError.readingPatchError.code then "Error reading patch."
    else if error = DeltaError.readingSourceError.code then "Error reading source image."
    else if error = DeltaError.writingError.code then "Error writing to slot 1."
    else if error = DeltaError.seekingError.code then "Seek error."
    else if error = DeltaError.castingError.code then "Error casting to flash_mem."
    else if error = DeltaError.invalidBufSize.code then "Read/write buffer less or equal to 0."
    else if error = DeltaError.clearingError.code then "Could not clear slot 1."
    else if error = DeltaError.noFlashFound.code then "No flash found."
    else if error = DeltaError.patchHeaderError.code then "Error reading patch header."
    else "Unknown error."

/-- What `main` prints when a call of `delta_check_and_apply` has ended. -/
def mainPrints : Ending → Option String
  | .returned value => if value ≠ 0 then some (deltaErrorAsString value) else none
  | .rebooted => none

/-- The text that is printed for a code of `delta.c` is not the one of its table. -/
theorem deltaErrorAsString_result (error : DeltaError) :
    deltaErrorAsString error.result = "Unknown error." := by
  cases error <;> decide

theorem deltaErrorAsString_code (error : DeltaError) :
    deltaErrorAsString error.code ≠ "Unknown error." ∧
      deltaErrorAsString error.code ≠ "Input/output failed." := by
  cases error <;> decide

/-! ### The first failure -/

/-- Nothing has failed in the run that leads to the state. A patch read that fails leaves
the loop over the chunks with an error, and everything else that fails sets the state. -/
structure Unfailed (config : Config World) : Prop where
  state : config.self.state ≠ .failed
  drained : ∀ res, config.phase = .drain res → res = 0

/-- The next step of a run calls a callback that fails with the result. -/
inductive CallbackFails (env : Env) (patchSize : Nat) (config : Config World) : Int → Prop
  | patchRead {patchOffset : Nat} (phase : config.phase = .fetch patchOffset)
      (below : patchOffset < patchSize)
      (fails : (deltaFlashPatchRead env config.world
        (min (patchSize - patchOffset) 512)).1 ≠ 0) :
      CallbackFails env patchSize config
        (deltaFlashPatchRead env config.world (min (patchSize - patchOffset) 512)).1
  | fromRead (steps : config.Steps) (state : config.self.state = .diffData)
      (nonempty : blockRoom config.self ≠ 0) (read : (nextBlock config.self).res = 0)
      (fails : (deltaFlashFromRead env config.world
        (nextBlock config.self).data.length).1 ≠ 0) :
      CallbackFails env patchSize config
        (deltaFlashFromRead env config.world (nextBlock config.self).data.length).1
  | fromSeek (steps : config.Steps) (state : config.self.state = .adjustment)
      (read : (nextSize config.self).res = 0)
      (fails : (deltaFlashSeek config.world (nextSize config.self).size).1 ≠ 0) :
      CallbackFails env patchSize config
        (deltaFlashSeek config.world (nextSize config.self).size).1
  | toWrite (steps : config.Steps) {middle : ApplyPatch} {between : World} {block : List UInt8}
      (nonempty : blockRoom config.self ≠ 0) (read : (nextBlock config.self).res = 0)
      (gathered : Gathered (deltaCallbacks env) config.self config.world middle between block)
      (fails : (deltaFlashWrite env between block).1 ≠ 0) :
      CallbackFails env patchSize config (deltaFlashWrite env between block).1

/-- The first thing to fail in a call fails with a code of `delta.c`. -/
inductive FirstFailure (env : Env) (stack : ApplyPatch) (world : World) (error : DeltaError) :
    Prop
  | header (fails : (deltaReadPatchHeader env world 0).1 = error.result)
  | erase (read : ¬ (deltaReadPatchHeader env world 0).1 < 0)
      (positive : 0 < (deltaReadPatchHeader env world 0).2.1)
      (fails : (deltaInit env (deltaReadPatchHeader env world 0).2.2).1 = error.result)
  | callback {config : Config World} (visited : CallVisits env stack world config)
      (unfailed : Unfailed config)
      (fails : CallbackFails env (deltaReadPatchHeader env world 0).2.1 config error.result)

/-! ### The engine replaces the code -/

section

variable {env : Env} {self : ApplyPatch} {world : World} {stepped : Stepped World}

/-- A block is gathered in one way. -/
theorem gathered_unique {first second : ApplyPatch} {left right : World}
    {block other : List UInt8} (one : Gathered (deltaCallbacks env) self world first left block)
    (two : Gathered (deltaCallbacks env) self world second right other) :
    left = right ∧ block = other := by
  cases one with
  | diff state read =>
      cases two with
      | diff _ again =>
          rw [read] at again
          cases again
          exact ⟨rfl, rfl⟩
      | extra state' => rw [state] at state'; cases state'
  | extra state =>
      cases two with
      | diff state' => rw [state] at state'; cases state'
      | extra => exact ⟨rfl, rfl⟩

/-- An engine that has a block at hand does not reject. -/
theorem not_rejection_block (state : self.state = .diffData ∨ self.state = .extraData)
    (read : (nextBlock self).res = 0) : ¬ Rejection self := by
  have other {name : ApplyPatchState} (same : self.state = name) :
      name = .diffData ∨ name = .extraData := same ▸ state
  intro reason
  cases reason with
  | header same => exact absurd (other same) (by decide)
  | size reads =>
      rcases reads with same | same | same | same <;> exact absurd (other same) (by decide)
  | dfpatch same => exact absurd (other same) (by decide)
  | tooLong part => rcases part with same | same <;> exact absurd (other same) (by decide)
  | block _ _ error => exact absurd read error.1.ne
  | failed same => exact absurd (other same) (by decide)

/-- A step with a block at hand fails to read the source, or hands the block over. -/
inductive BlockStep (self : ApplyPatch) (world : World) (res : Int) : Prop
  | sourceFailed (state : self.state = .diffData)
      (failure : (deltaFlashFromRead env world (nextBlock self).data.length).1 ≠ 0)
      (failed : res = DetoolsError.ioFailed.result)
  | handed {middle : ApplyPatch} {between : World} {block : List UInt8}
      (gathered : Gathered (deltaCallbacks env) self world middle between block)
      (written : (deltaFlashWrite env between block).1 ≠ 0 → res = DetoolsError.ioFailed.result)

theorem engineStep_block (step : EngineStep (deltaCallbacks env) self world stepped)
    (state : self.state = .diffData ∨ self.state = .extraData) (nonempty : blockRoom self ≠ 0)
    (read : (nextBlock self).res = 0) : @BlockStep env self world stepped.res := by
  have other {name : ApplyPatchState} (same : self.state = name) :
      name = .diffData ∨ name = .extraData := same ▸ state
  cases step with
  | rejected reason => exact absurd reason (not_rejection_block state read)
  | finished same => exact absurd (other same) (by decide)
  | opened same => exact absurd (other same) (by decide)
  | waitingSize reads =>
      rcases reads with same | same | same | same <;> exact absurd (other same) (by decide)
  | waitingBlock _ _ starved => exact absurd (read.symm.trans starved) (by decide)
  | dfpatch same => exact absurd (other same) (by decide)
  | sized states =>
      generalize self.state = before at state states
      cases states <;> simp at state
  | emptied _ empty => exact absurd empty fun zero => nonempty (by simp [blockRoom, zero])
  | sourceFailed state _ _ failure => exact .sourceFailed state failure rfl
  | wrote _ _ gathered written => exact .handed gathered fun failure => absurd written failure
  | writeFailed _ _ gathered => exact .handed gathered fun _ => rfl
  | sought same => exact absurd (other same) (by decide)
  | seekFailed same => exact absurd (other same) (by decide)

/-- Reading the source fails the step with the code of the engine. -/
theorem engineStep_fromRead (step : EngineStep (deltaCallbacks env) self world stepped)
    (state : self.state = .diffData) (nonempty : blockRoom self ≠ 0)
    (read : (nextBlock self).res = 0)
    (fails : (deltaFlashFromRead env world (nextBlock self).data.length).1 ≠ 0) :
    stepped.res = DetoolsError.ioFailed.result := by
  cases engineStep_block step (Or.inl state) nonempty read with
  | sourceFailed _ _ failed => exact failed
  | handed gathered =>
      cases gathered with
      | diff _ succeeds => exact absurd (congrArg Prod.fst succeeds) fails
      | extra same => rw [state] at same; cases same

/-- Writing the target fails the step with the code of the engine. -/
theorem engineStep_toWrite (step : EngineStep (deltaCallbacks env) self world stepped)
    {middle : ApplyPatch} {between : World} {block : List UInt8} (nonempty : blockRoom self ≠ 0)
    (read : (nextBlock self).res = 0)
    (gathered : Gathered (deltaCallbacks env) self world middle between block)
    (fails : (deltaFlashWrite env between block).1 ≠ 0) :
    stepped.res = DetoolsError.ioFailed.result := by
  cases engineStep_block step gathered.frame.1 nonempty read with
  | sourceFailed _ _ failed => exact failed
  | handed again written =>
      obtain ⟨rfl, rfl⟩ := gathered_unique gathered again
      exact written fails

/-- Seeking fails the step with the code of the engine. -/
theorem engineStep_fromSeek (step : EngineStep (deltaCallbacks env) self world stepped)
    (state : self.state = .adjustment) (read : (nextSize self).res = 0)
    (fails : (deltaFlashSeek world (nextSize self).size).1 ≠ 0) :
    stepped.res = DetoolsError.ioFailed.result := by
  cases step with
  | rejected reason =>
      cases reason with
      | header other => rw [state] at other; cases other
      | size _ error => exact absurd read error.1.ne
      | dfpatch other => rw [state] at other; cases other
      | tooLong other => rw [state] at other; simp at other
      | block other => rw [state] at other; simp at other
      | failed other => rw [state] at other; cases other
  | finished other => rw [state] at other; cases other
  | opened other => rw [state] at other; cases other
  | waitingSize _ starved => exact absurd (read.symm.trans starved) (by decide)
  | waitingBlock other => rw [state] at other; simp at other
  | dfpatch other => rw [state] at other; cases other
  | sized states => rw [state] at states; cases states
  | emptied states => rw [state] at states; cases states
  | sourceFailed => rfl
  | wrote _ _ gathered =>
      have other := gathered.frame.1
      rw [state] at other
      simp at other
  | writeFailed => rfl
  | sought _ _ found => exact absurd found fails
  | seekFailed => rfl

end

/-! ### The run ends with the code of the engine -/

/-- The run is over but for finalization, or over, with an input or output error. -/
def IoFailed (config : Config World) : Prop :=
  config.phase = .drain DetoolsError.ioFailed.result ∨
    config.phase = .stop DetoolsError.ioFailed.result

theorem ioFailed_kept {env : Env} {patchSize : Nat} {config : Config World}
    (failed : IoFailed config) :
    IoFailed (driverStep (deltaCallbacks env) patchSize config) := by
  have step := driverStep_cases (deltaCallbacks env) patchSize config
  generalize driverStep (deltaCallbacks env) patchSize config = after at step
  rcases failed with draining | stopped
  · cases step with
    | drained => exact Or.inl draining
    | stopped =>
        cases draining
        exact Or.inr (congrArg Phase.stop (finalResult_error (DetoolsError.result_neg _)))
    | halted => exact Or.inl draining
    | _ => cases draining
  · cases step with
    | halted => exact Or.inr stopped
    | _ => cases stopped

theorem finalResult_ioFailed {looped : Stepped World}
    (failed : looped.res = DetoolsError.ioFailed.result) :
    finalResult 0 looped = DetoolsError.ioFailed.result := by
  rw [finalResult, if_pos rfl, failed]
  unfold applyPatchCommonFinalize
  have one : DetoolsError.ioFailed.result ≠ 1 := by decide
  have done : DetoolsError.ioFailed.result ≠ DetoolsError.alreadyDone.result := by decide
  have zero : DetoolsError.ioFailed.result ≠ 0 := by decide
  simp only [if_neg one, if_neg done, if_neg zero, ite_self]

section

variable {env : Env} {patchSize : Nat} {config : Config World} {code : Int}

/-- A callback that fails is called by the engine, or it reads the next chunk. -/
theorem CallbackFails.caller (fails : CallbackFails env patchSize config code) :
    config.Steps ∨ ∃ patchOffset, config.phase = .fetch patchOffset ∧ patchOffset < patchSize ∧
      (deltaFlashPatchRead env config.world (min (patchSize - patchOffset) 512)).1 ≠ 0 := by
  cases fails with
  | patchRead phase below failure => exact Or.inr ⟨_, phase, below, failure⟩
  | fromRead steps => exact Or.inl steps
  | fromSeek steps => exact Or.inl steps
  | toWrite steps => exact Or.inl steps

/-- The step of the engine that calls it has an input or output error as its result. -/
theorem CallbackFails.engineStep {stepped : Stepped World}
    (fails : CallbackFails env patchSize config code) (steps : config.Steps)
    (step : EngineStep (deltaCallbacks env) config.self config.world stepped) :
    stepped.res = DetoolsError.ioFailed.result := by
  cases fails with
  | patchRead phase =>
      rw [Config.Steps, phase] at steps
      exact steps.elim
  | fromRead _ state nonempty read fails =>
      exact engineStep_fromRead step state nonempty read fails
  | fromSeek _ state read fails => exact engineStep_fromSeek step state read fails
  | toWrite _ nonempty read gathered fails =>
      exact engineStep_toWrite step nonempty read gathered fails

/-- A callback that fails ends the loops with an input or output error. -/
theorem callbackFails_ioFailed (unfailed : Unfailed config)
    (fails : CallbackFails env patchSize config code) :
    IoFailed (driverStep (deltaCallbacks env) patchSize config) := by
  have step := driverStep_cases (deltaCallbacks env) patchSize config
  have negative := DetoolsError.result_neg .ioFailed
  generalize driverStep (deltaCallbacks env) patchSize config = after at step
  rcases fails.caller with steps | ⟨patchOffset, phase, below, failure⟩
  · cases step with
    | used empty => exact absurd empty (Nat.ne_of_gt steps)
    | fed available step nonneg =>
        have failed := fails.engineStep steps step
        omega
    | fedFailed available step =>
        exact Or.inl (congrArg Phase.drain (fails.engineStep steps step))
    | drained step again =>
        have failed := fails.engineStep steps step
        omega
    | stopped step =>
        have zero := unfailed.drained _ rfl
        rw [zero]
        exact Or.inr (congrArg Phase.stop (finalResult_ioFailed (fails.engineStep steps step)))
    | _ => exact steps.elim
  · cases step with
    | fetched below success =>
        cases phase
        exact absurd success failure
    | fetchFailed => exact Or.inl rfl
    | fetchedAll all =>
        cases phase
        exact absurd below all
    | _ => cases phase

end

/-! ### What is printed -/

/-- No failure of a call is reported as what it is: whatever callback, erase or header access
is the first to fail, the text that `main` prints is not the text of its code. A failure
of a callback is printed as one of input or output, and the others as unknown. -/
theorem failure_misreported {env : Env} {stack : ApplyPatch} {world : World} {error : DeltaError}
    (first : FirstFailure env stack world error) :
    mainPrints (deltaCheckAndApply env stack world).1 ≠ some (deltaErrorAsString error.code) ∧
      (mainPrints (deltaCheckAndApply env stack world).1 = some "Unknown error." ∨
        mainPrints (deltaCheckAndApply env stack world).1 = some "Input/output failed.") := by
  have texts := deltaErrorAsString_code error
  suffices printed : mainPrints (deltaCheckAndApply env stack world).1 = some "Unknown error." ∨
      mainPrints (deltaCheckAndApply env stack world).1 = some "Input/output failed." by
    refine ⟨fun same => ?_, printed⟩
    rcases printed with unknown | failed
    · exact texts.1 (Option.some.inj (same.symm.trans unknown))
    · exact texts.2 (Option.some.inj (same.symm.trans failed))
  have negative := error.result_neg
  have unknown {ending : Ending} (returned : ending = .returned error.result) :
      mainPrints ending = some "Unknown error." := by
    rw [returned, mainPrints, if_pos negative.ne, deltaErrorAsString_result]
  cases first with
  | header fails =>
      left
      apply unknown
      simp only [deltaCheckAndApply, fails, if_pos negative]
  | erase read positive fails =>
      left
      apply unknown
      simp only [deltaCheckAndApply, if_neg read, if_pos positive, applyPatch, fails,
        if_pos negative.ne]
  | @callback config visited unfailed fails =>
      right
      have outcome := deltaCheckAndApply_runs env stack world
      generalize deltaCheckAndApply env stack world = called at outcome
      cases outcome with
      | early _ _ none => exact absurd visited (none config)
      | @engine res self after marker positive visits stops =>
          obtain ⟨-, -, -, reached⟩ := visited
          obtain ⟨-, -, -, stopped⟩ := stops
          have failed := callbackFails_ioFailed unfailed fails
          have last := Reaches.last (Reaches.next reached) stopped rfl
          have ended := Reaches.invariant IoFailed (fun _ => ioFailed_kept) last failed
          have code : res = DetoolsError.ioFailed.result := by
            rcases ended with draining | stop
            · cases draining
            · exact Phase.stop.inj stop
          rw [code]
          rfl

/-- An environment in which every flash operation fails. -/
def brokenFlash : Env where
  map := buildMap
  fails := fun _ _ => true
  upgradeFails := false

/-- The header cannot be read, and `main` prints that the error is unknown. -/
theorem failure_misreported_header :
    mainPrints (deltaCheckAndApply brokenFlash zeroStack
        ⟨deltaInitFlashMem buildMap, fun _ => 0xFF, []⟩).1 ≠
        some (deltaErrorAsString DeltaError.patchHeaderError.code) ∧
      (mainPrints (deltaCheckAndApply brokenFlash zeroStack
          ⟨deltaInitFlashMem buildMap, fun _ => 0xFF, []⟩).1 = some "Unknown error." ∨
        mainPrints (deltaCheckAndApply brokenFlash zeroStack
          ⟨deltaInitFlashMem buildMap, fun _ => 0xFF, []⟩).1 = some "Input/output failed.") :=
  failure_misreported (.header rfl)

/-- The report is not that of the failure. -/
theorem header_failure_unknown :
    ¬ ∀ (env : Env) (stack : ApplyPatch) (world : World) (error : DeltaError),
      FirstFailure env stack world error →
        mainPrints (deltaCheckAndApply env stack world).1 =
          some (deltaErrorAsString error.code) := by
  intro reported
  have text := reported brokenFlash zeroStack ⟨deltaInitFlashMem buildMap, fun _ => 0xFF, []⟩
    .patchHeaderError (.header rfl)
  revert text
  decide +kernel

end DeltaUpdate.Delta
