import DeltaUpdate.Detools.Transition
import DeltaUpdate.Library.Run

/-!
Owns the run of the engine as a machine that takes one step at a time: fetching a
chunk, feeding it to the engine, draining the engine, stopping. The loops of
`callbacks_process` follow this machine, so that what holds in every state it
reaches holds of the run.
-/

namespace DeltaUpdate.Detools

open DeltaUpdate.Library

/-- Where `callbacks_process` stands. -/
inductive Phase where
  /-- At the top of its loop, with the patch offset and a result of zero. -/
  | fetch (patchOffset : Nat)
  /-- In the loop of `detools_apply_patch_process`, with a non-negative result. -/
  | feed (patchOffset : Nat)
  /-- In the loop of `detools_apply_patch_finalize`, with the result before it. -/
  | drain (res : Int)
  /-- Returned. -/
  | stop (res : Int)
deriving DecidableEq, Repr

/-- A state of the run. -/
structure Config (World : Type) where
  phase : Phase
  self : ApplyPatch
  world : World

section

variable {World : Type} (callbacks : Callbacks World)

/-- The top of the loop of `callbacks_process`. -/
def fetchStep (patchSize patchOffset : Nat) (self : ApplyPatch) (world : World) :
    Config World :=
  if patchOffset < patchSize then
    let chunkSize := min (patchSize - patchOffset) 512
    let read := callbacks.patchRead world chunkSize
    if read.1 = 0 then
      ⟨.feed (patchOffset + chunkSize), loadChunk self read.2.1 chunkSize, read.2.2⟩
    else ⟨.drain DetoolsError.ioFailed.result, clearChunk self, read.2.2⟩
  else ⟨.drain 0, clearChunk self, world⟩

/-- The loop of `detools_apply_patch_process`. -/
def feedStep (patchOffset : Nat) (self : ApplyPatch) (world : World) : Config World :=
  if chunkAvailable self.chunk = true then
    let stepped := applyPatchProcessOnce callbacks self world
    if stepped.res < 0 then ⟨.drain stepped.res, clearChunk stepped.self, stepped.world⟩
    else ⟨.feed patchOffset, stepped.self, stepped.world⟩
  else ⟨.fetch patchOffset, self, world⟩

/-- The result of `callbacks_process`, from the result of its loop and the outcome
of the loop of `detools_apply_patch_finalize`. -/
def finalResult (res : Int) (looped : Stepped World) : Int :=
  if res = 0 then
    applyPatchCommonFinalize looped.res looped.self.patchReader looped.self.toSize
  else res

/-- The loop of `detools_apply_patch_finalize`. -/
def drainStep (res : Int) (self : ApplyPatch) (world : World) : Config World :=
  let stepped := applyPatchProcessOnce callbacks self world
  if stepped.res = 0 then ⟨.drain res, stepped.self, stepped.world⟩
  else ⟨.stop (finalResult res stepped), stepped.self, stepped.world⟩

/-- One step of the run. -/
def driverStep (patchSize : Nat) (config : Config World) : Config World :=
  match config.phase with
  | .fetch patchOffset => fetchStep callbacks patchSize patchOffset config.self config.world
  | .feed patchOffset => feedStep callbacks patchOffset config.self config.world
  | .drain res => drainStep callbacks res config.self config.world
  | .stop _ => config

/-- A run starts at the first chunk. -/
def driverStart (self : ApplyPatch) (world : World) : Config World := ⟨.fetch 0, self, world⟩

/-- The states of a run of `detools_apply_patch_callbacks`. -/
def Visits (stack : ApplyPatch) (world : World) (patchSize : Nat) (config : Config World) :
    Prop :=
  Reaches (driverStep callbacks patchSize)
    (driverStart (detoolsApplyPatchInit stack patchSize) world) config

/-! ### The loops follow the machine -/

/-- Where a run stands after the loop of `detools_apply_patch_process`. -/
def afterProcess (patchOffset : Nat) (stepped : Stepped World) : Config World :=
  if stepped.res < 0 then ⟨.drain stepped.res, clearChunk stepped.self, stepped.world⟩
  else ⟨.fetch patchOffset, stepped.self, stepped.world⟩

theorem feedStep_used {self : ApplyPatch} (used : ¬ chunkAvailable self.chunk = true)
    (patchOffset : Nat) (world : World) :
    feedStep callbacks patchOffset self world = ⟨.fetch patchOffset, self, world⟩ :=
  if_neg used

theorem feedStep_failed {self : ApplyPatch} {world : World}
    (available : chunkAvailable self.chunk = true)
    (negative : (applyPatchProcessOnce callbacks self world).res < 0) (patchOffset : Nat) :
    feedStep callbacks patchOffset self world =
      ⟨.drain (applyPatchProcessOnce callbacks self world).res,
        clearChunk (applyPatchProcessOnce callbacks self world).self,
        (applyPatchProcessOnce callbacks self world).world⟩ := by
  simp only [feedStep, if_pos available, if_pos negative]

theorem feedStep_advanced {self : ApplyPatch} {world : World}
    (available : chunkAvailable self.chunk = true)
    (nonneg : ¬ (applyPatchProcessOnce callbacks self world).res < 0) (patchOffset : Nat) :
    feedStep callbacks patchOffset self world =
      ⟨.feed patchOffset, (applyPatchProcessOnce callbacks self world).self,
        (applyPatchProcessOnce callbacks self world).world⟩ := by
  simp only [feedStep, if_pos available, if_neg nonneg]

theorem drainStep_again {self : ApplyPatch} {world : World}
    (again : (applyPatchProcessOnce callbacks self world).res = 0) (res : Int) :
    drainStep callbacks res self world =
      ⟨.drain res, (applyPatchProcessOnce callbacks self world).self,
        (applyPatchProcessOnce callbacks self world).world⟩ := by
  simp only [drainStep, if_pos again]

theorem drainStep_ends {self : ApplyPatch} {world : World}
    (ends : (applyPatchProcessOnce callbacks self world).res ≠ 0) (res : Int) :
    drainStep callbacks res self world =
      ⟨.stop (finalResult res (applyPatchProcessOnce callbacks self world)),
        (applyPatchProcessOnce callbacks self world).self,
        (applyPatchProcessOnce callbacks self world).world⟩ := by
  simp only [drainStep, if_neg ends]

theorem fetchStep_end {patchSize patchOffset : Nat} (all : ¬ patchOffset < patchSize)
    (self : ApplyPatch) (world : World) :
    fetchStep callbacks patchSize patchOffset self world =
      ⟨.drain 0, clearChunk self, world⟩ := by
  simp only [fetchStep, if_neg all]

theorem fetchStep_failed {patchSize patchOffset : Nat} (below : patchOffset < patchSize)
    {world : World} (failure : (callbacks.patchRead world
      (min (patchSize - patchOffset) 512)).1 ≠ 0) (self : ApplyPatch) :
    fetchStep callbacks patchSize patchOffset self world =
      ⟨.drain DetoolsError.ioFailed.result, clearChunk self,
        (callbacks.patchRead world (min (patchSize - patchOffset) 512)).2.2⟩ := by
  simp only [fetchStep, if_pos below, if_neg failure]

theorem fetchStep_read {patchSize patchOffset : Nat} (below : patchOffset < patchSize)
    {world : World} (success : (callbacks.patchRead world
      (min (patchSize - patchOffset) 512)).1 = 0) (self : ApplyPatch) :
    fetchStep callbacks patchSize patchOffset self world =
      ⟨.feed (patchOffset + min (patchSize - patchOffset) 512),
        loadChunk self (callbacks.patchRead world (min (patchSize - patchOffset) 512)).2.1
          (min (patchSize - patchOffset) 512),
        (callbacks.patchRead world (min (patchSize - patchOffset) 512)).2.2⟩ := by
  simp only [fetchStep, if_pos below, if_pos success]

theorem processLoop_reaches (patchSize patchOffset : Nat) (stepped : Stepped World)
    (nonneg : 0 ≤ stepped.res) :
    Reaches (driverStep callbacks patchSize) ⟨.feed patchOffset, stepped.self, stepped.world⟩
      (afterProcess patchOffset (processLoop callbacks stepped)) := by
  fun_induction processLoop callbacks stepped
  case case1 stepped continues _ inductionHypothesis =>
    by_cases negative : (applyPatchProcessOnce callbacks stepped.self stepped.world).res < 0
    · refine Reaches.head (feedStep_failed callbacks continues.1 negative patchOffset) ?_
      have ended : processLoop callbacks
          (applyPatchProcessOnce callbacks stepped.self stepped.world) =
            applyPatchProcessOnce callbacks stepped.self stepped.world := by
        rw [processLoop, dif_neg fun again => absurd again.2 (by omega)]
      rw [ended, afterProcess, if_pos negative]
      exact Reaches.refl _
    · exact Reaches.head (feedStep_advanced callbacks continues.1 negative patchOffset)
        (inductionHypothesis (by omega))
  case case2 stepped ends =>
    have used : ¬ chunkAvailable stepped.self.chunk = true := fun available =>
      ends ⟨available, nonneg⟩
    rw [afterProcess, if_neg (by omega)]
    exact Reaches.head (feedStep_used callbacks used patchOffset stepped.world) (Reaches.refl _)

theorem finalizeLoop_reaches (patchSize : Nat) (res : Int) (self : ApplyPatch) (world : World) :
    Reaches (driverStep callbacks patchSize) ⟨.drain res, self, world⟩
      ⟨.stop (finalResult res (finalizeLoop callbacks self world)),
        (finalizeLoop callbacks self world).self, (finalizeLoop callbacks self world).world⟩ := by
  fun_induction finalizeLoop callbacks self world
  case case1 self world stepped again _ inductionHypothesis =>
    exact Reaches.head (drainStep_again callbacks again res) inductionHypothesis
  case case2 self world stepped ends =>
    exact Reaches.head (drainStep_ends callbacks ends res) (Reaches.refl _)

/-- Where a run stands after the loop of `callbacks_process`. -/
def afterLoop (stepped : Stepped World) : Config World :=
  ⟨.drain stepped.res, clearChunk stepped.self, stepped.world⟩

theorem callbacksLoop_failed (patchSize patchOffset : Nat) (stepped : Stepped World)
    (failure : stepped.res ≠ 0) :
    callbacksLoop callbacks patchSize patchOffset stepped = stepped := by
  rw [callbacksLoop, if_neg fun continues => failure continues.2]

theorem applyPatchProcessOnce_res (self : ApplyPatch) (world : World) :
    (applyPatchProcessOnce callbacks self world).res ≤ 1 := by
  cases applyPatchProcessOnce_bound callbacks self world with
  | advanced zero => omega
  | waiting one => omega
  | failed negative => omega

theorem processLoop_res {stepped : Stepped World} (small : stepped.res ≤ 1) :
    (processLoop callbacks stepped).res ≤ 1 := by
  fun_induction processLoop callbacks stepped
  case case1 stepped continues _ inductionHypothesis =>
    exact inductionHypothesis (applyPatchProcessOnce_res callbacks _ _)
  case case2 => exact small

/-- A result of `detools_apply_patch_process` is zero or an error. -/
theorem afterProcess_eq (patchOffset : Nat) {looped : Stepped World} (small : looped.res ≤ 1) :
    afterProcess patchOffset looped =
      if (settle looped).res = 0 then
        ⟨.fetch patchOffset, (settle looped).self, (settle looped).world⟩
      else afterLoop (settle looped) := by
  unfold afterProcess settle
  by_cases waiting : looped.res = 1
  · rw [if_pos waiting, if_neg (by omega), if_pos rfl]
  · rw [if_neg waiting]
    by_cases zero : looped.res = 0
    · rw [if_pos zero, if_neg (by omega)]
    · rw [if_neg zero, if_pos (by omega)]
      rfl

theorem callbacksLoop_reaches (patchSize patchOffset : Nat) (stepped : Stepped World)
    (zero : stepped.res = 0) :
    Reaches (driverStep callbacks patchSize) ⟨.fetch patchOffset, stepped.self, stepped.world⟩
      (afterLoop (callbacksLoop callbacks patchSize patchOffset stepped)) := by
  fun_induction callbacksLoop callbacks patchSize patchOffset stepped
  case case1 patchOffset stepped continues chunkSize read success inductionHypothesis =>
    refine Reaches.head (fetchStep_read callbacks continues.1 success stepped.self) ?_
    refine (processLoop_reaches callbacks patchSize (patchOffset + chunkSize)
      ⟨0, loadChunk stepped.self read.2.1 chunkSize, read.2.2⟩ (le_refl _)).trans ?_
    rw [afterProcess_eq _ (processLoop_res callbacks (by simp))]
    split
    next processed => exact inductionHypothesis processed
    next rejected =>
      have ended := callbacksLoop_failed callbacks patchSize (patchOffset + chunkSize)
        (detoolsApplyPatchProcess callbacks stepped.self read.2.2 read.2.1 chunkSize) rejected
      rw [ended]
      exact Reaches.refl _
  case case2 patchOffset stepped continues chunkSize read failure =>
    exact Reaches.head (fetchStep_failed callbacks continues.1 failure stepped.self)
      (Reaches.refl _)
  case case3 patchOffset stepped ends =>
    have all : ¬ patchOffset < patchSize := fun below => ends ⟨below, zero⟩
    rw [afterLoop, zero]
    exact Reaches.head (fetchStep_end callbacks all stepped.self stepped.world) (Reaches.refl _)

/-- A run of `detools_apply_patch_callbacks` ends in the stop of its outcome. -/
theorem detoolsApplyPatchCallbacks_visits (stack : ApplyPatch) (world : World)
    (patchSize : Nat) :
    let outcome := detoolsApplyPatchCallbacks callbacks stack world patchSize
    Visits callbacks stack world patchSize ⟨.stop outcome.res, outcome.self, outcome.world⟩ := by
  have looped := callbacksLoop_reaches callbacks patchSize 0
    ⟨0, detoolsApplyPatchInit stack patchSize, world⟩ rfl
  simp only [detoolsApplyPatchCallbacks, callbacksProcess]
  generalize callbacksLoop callbacks patchSize 0
    ⟨0, detoolsApplyPatchInit stack patchSize, world⟩ = outcome at looped ⊢
  have drained := finalizeLoop_reaches callbacks patchSize outcome.res
    (clearChunk outcome.self) outcome.world
  apply looped.trans
  split
  next zero =>
    rw [finalResult, if_pos zero] at drained
    exact drained
  next failure =>
    rw [finalResult, if_neg failure] at drained
    exact drained

/-! ### What one step of the run can do -/

inductive DriverStep (patchSize : Nat) : Config World → Config World → Prop
  | fetched {patchOffset : Nat} {self : ApplyPatch} {world : World}
      (below : patchOffset < patchSize)
      (success : (callbacks.patchRead world (min (patchSize - patchOffset) 512)).1 = 0) :
      DriverStep patchSize ⟨.fetch patchOffset, self, world⟩
        ⟨.feed (patchOffset + min (patchSize - patchOffset) 512),
          loadChunk self (callbacks.patchRead world (min (patchSize - patchOffset) 512)).2.1
            (min (patchSize - patchOffset) 512),
          (callbacks.patchRead world (min (patchSize - patchOffset) 512)).2.2⟩
  | fetchFailed {patchOffset : Nat} {self : ApplyPatch} {world : World}
      (below : patchOffset < patchSize)
      (failure : (callbacks.patchRead world (min (patchSize - patchOffset) 512)).1 ≠ 0) :
      DriverStep patchSize ⟨.fetch patchOffset, self, world⟩
        ⟨.drain DetoolsError.ioFailed.result, clearChunk self,
          (callbacks.patchRead world (min (patchSize - patchOffset) 512)).2.2⟩
  | fetchedAll {patchOffset : Nat} {self : ApplyPatch} {world : World}
      (all : ¬ patchOffset < patchSize) :
      DriverStep patchSize ⟨.fetch patchOffset, self, world⟩ ⟨.drain 0, clearChunk self, world⟩
  | used {patchOffset : Nat} {self : ApplyPatch} {world : World}
      (empty : chunkLeft self.chunk = 0) :
      DriverStep patchSize ⟨.feed patchOffset, self, world⟩ ⟨.fetch patchOffset, self, world⟩
  | fed {patchOffset : Nat} {self : ApplyPatch} {world : World} {stepped : Stepped World}
      (available : 0 < chunkLeft self.chunk) (step : EngineStep callbacks self world stepped)
      (nonneg : 0 ≤ stepped.res) :
      DriverStep patchSize ⟨.feed patchOffset, self, world⟩
        ⟨.feed patchOffset, stepped.self, stepped.world⟩
  | fedFailed {patchOffset : Nat} {self : ApplyPatch} {world : World} {stepped : Stepped World}
      (available : 0 < chunkLeft self.chunk) (step : EngineStep callbacks self world stepped)
      (negative : stepped.res < 0) :
      DriverStep patchSize ⟨.feed patchOffset, self, world⟩
        ⟨.drain stepped.res, clearChunk stepped.self, stepped.world⟩
  | drained {res : Int} {self : ApplyPatch} {world : World} {stepped : Stepped World}
      (step : EngineStep callbacks self world stepped) (again : stepped.res = 0) :
      DriverStep patchSize ⟨.drain res, self, world⟩ ⟨.drain res, stepped.self, stepped.world⟩
  | stopped {res : Int} {self : ApplyPatch} {world : World} {stepped : Stepped World}
      (step : EngineStep callbacks self world stepped) (ends : stepped.res ≠ 0) :
      DriverStep patchSize ⟨.drain res, self, world⟩
        ⟨.stop (finalResult res stepped), stepped.self, stepped.world⟩
  | halted {res : Int} {self : ApplyPatch} {world : World} :
      DriverStep patchSize ⟨.stop res, self, world⟩ ⟨.stop res, self, world⟩

theorem driverStep_cases (patchSize : Nat) (config : Config World) :
    DriverStep callbacks patchSize config (driverStep callbacks patchSize config) := by
  obtain ⟨phase, self, world⟩ := config
  have step := applyPatchProcessOnce_step callbacks self world
  cases phase with
  | fetch patchOffset =>
      show DriverStep callbacks patchSize _ (fetchStep callbacks patchSize patchOffset self world)
      by_cases below : patchOffset < patchSize
      · by_cases success :
            (callbacks.patchRead world (min (patchSize - patchOffset) 512)).1 = 0
        · rw [fetchStep_read callbacks below success]
          exact .fetched below success
        · rw [fetchStep_failed callbacks below success]
          exact .fetchFailed below success
      · rw [fetchStep_end callbacks below]
        exact .fetchedAll below
  | feed patchOffset =>
      show DriverStep callbacks patchSize _ (feedStep callbacks patchOffset self world)
      by_cases available : chunkAvailable self.chunk = true
      · have left := (chunkAvailable_iff _).mp available
        by_cases negative : (applyPatchProcessOnce callbacks self world).res < 0
        · rw [feedStep_failed callbacks available negative]
          exact .fedFailed left step negative
        · rw [feedStep_advanced callbacks available negative]
          exact .fed left step (not_lt.mp negative)
      · rw [feedStep_used callbacks available]
        refine .used ?_
        rw [chunkAvailable_iff] at available
        omega
  | drain res =>
      show DriverStep callbacks patchSize _ (drainStep callbacks res self world)
      by_cases again : (applyPatchProcessOnce callbacks self world).res = 0
      · rw [drainStep_again callbacks again]
        exact .drained step again
      · rw [drainStep_ends callbacks again]
        exact .stopped step again
  | stop res => exact .halted

/-- An error of the last step is the result of a finalization without an earlier one. -/
theorem finalResult_rejected {res : Int} {looped : Stepped World} (nonpositive : res ≤ 0)
    (error : Rejected looped.res) : finalResult res looped < 0 := by
  unfold finalResult
  split
  next =>
    have negative := error.1
    have kept : applyPatchCommonFinalize looped.res looped.self.patchReader
        looped.self.toSize = looped.res := by
      have notOne : looped.res ≠ 1 := by omega
      have notZero : looped.res ≠ 0 := by omega
      simp only [applyPatchCommonFinalize, if_neg notOne, if_neg error.2, if_neg notZero, ite_self]
    rw [kept]
    exact negative
  next nonzero => omega

theorem finalResult_error {res : Int} {looped : Stepped World} (negative : res < 0) :
    finalResult res looped = res := if_neg negative.ne

/-- What a positive result says about the last step and the decoder. -/
structure FinishedWell (looped : Stepped World) (final : Int) : Prop where
  alreadyDone : looped.res = DetoolsError.alreadyDone.result
  finish : looped.self.patchReader.destroySet = true →
    Heatshrink.heatshrinkDecoderFinish looped.self.patchReader.decoder = .done
  result : final = intT looped.self.toSize

theorem finalResult_positive {res : Int} {looped : Stepped World} (nonpositive : res ≤ 0)
    (small : looped.res ≤ 1) (ends : looped.res ≠ 0) (positive : 0 < finalResult res looped) :
    res = 0 ∧ FinishedWell looped (finalResult res looped) := by
  by_cases zero : res = 0
  · refine ⟨zero, ?_⟩
    have done : looped.res = DetoolsError.alreadyDone.result := by
      by_contra other
      by_cases waiting : looped.res = 1
      · rw [finalResult, if_pos zero, waiting] at positive
        simp [applyPatchCommonFinalize, DetoolsError.result, DetoolsError.code] at positive
      · exact absurd (finalResult_rejected nonpositive ⟨by omega, other⟩) (by omega)
    rw [finalResult, if_pos zero, done] at positive ⊢
    by_cases set : looped.self.patchReader.destroySet = true
    · by_cases finish :
          Heatshrink.heatshrinkDecoderFinish looped.self.patchReader.decoder = .done
      · exact ⟨done, fun _ => finish, by
          simp [applyPatchCommonFinalize, set, patchReaderHeatshrinkDestroy, finish,
            DetoolsError.result, DetoolsError.code]⟩
      · simp [applyPatchCommonFinalize, set, patchReaderHeatshrinkDestroy, finish,
          DetoolsError.result, DetoolsError.code] at positive
    · exact ⟨done, fun other => absurd other set, by
        simp [applyPatchCommonFinalize, set, DetoolsError.result, DetoolsError.code]⟩
  · rw [finalResult, if_neg zero] at positive
    omega

/-- A run that has read the whole patch and has a decoder at rest returns the target size. -/
theorem finalResult_done {looped : Stepped World}
    (done : looped.res = DetoolsError.alreadyDone.result)
    (finish : Heatshrink.heatshrinkDecoderFinish looped.self.patchReader.decoder = .done) :
    finalResult 0 looped = intT looped.self.toSize := by
  rw [finalResult, if_pos rfl, done]
  simp [applyPatchCommonFinalize, patchReaderHeatshrinkDestroy, finish, DetoolsError.result,
    DetoolsError.code]

/-- The invariant rule for runs of `detools_apply_patch_callbacks`. -/
theorem Visits.invariant {callbacks : Callbacks World} (Invariant : Config World → Prop)
    {stack : ApplyPatch} {world : World} {patchSize : Nat}
    (kept : ∀ before after, DriverStep callbacks patchSize before after →
      Invariant before → Invariant after)
    (initial : Invariant (driverStart (detoolsApplyPatchInit stack patchSize) world))
    {config : Config World} (visited : Visits callbacks stack world patchSize config) :
    Invariant config :=
  Reaches.invariant Invariant
    (fun before holds => kept before _ (driverStep_cases callbacks patchSize before) holds)
    visited initial

/-- The invariant rule with the states of the run at hand. -/
theorem Visits.invariant_of {callbacks : Callbacks World} (Invariant : Config World → Prop)
    {stack : ApplyPatch} {world : World} {patchSize : Nat}
    (kept : ∀ before after, Visits callbacks stack world patchSize before →
      DriverStep callbacks patchSize before after → Invariant before → Invariant after)
    (initial : Invariant (driverStart (detoolsApplyPatchInit stack patchSize) world))
    {config : Config World} (visited : Visits callbacks stack world patchSize config) :
    Invariant config :=
  Reaches.invariant_of Invariant
    (fun before reached holds =>
      kept before _ reached (driverStep_cases callbacks patchSize before) holds)
    visited initial

/-- The next chunk cannot be read. -/
def Config.Unread (patchSize : Nat) (config : Config World) : Prop :=
  ∃ patchOffset, config.phase = .fetch patchOffset ∧ patchOffset < patchSize ∧
    (callbacks.patchRead config.world (min (patchSize - patchOffset) 512)).1 ≠ 0

/-- The engine refuses the chunk that it has, with an error. -/
structure Config.Refuses (config : Config World) (error : Int) : Prop where
  feeding : ∃ patchOffset, config.phase = .feed patchOffset
  available : chunkAvailable config.self.chunk = true
  negative : error < 0
  result : (applyPatchProcessOnce callbacks config.self config.world).res = error

/-- An error of the loop has its cause in a state of the run. -/
theorem Visits.endsEarly {callbacks : Callbacks World} {stack : ApplyPatch} {world : World}
    {patchSize : Nat} {config : Config World}
    (visited : Visits callbacks stack world patchSize config) {res : Int}
    (draining : config.phase = .drain res) (failure : res ≠ 0) :
    ∃ cause, Visits callbacks stack world patchSize cause ∧
      (cause.Unread callbacks patchSize ∨ cause.Refuses callbacks res) := by
  refine Reaches.invariant_of (fun config : Config World => ∀ res : Int,
    config.phase = .drain res → res ≠ 0 → ∃ cause, Visits callbacks stack world patchSize cause ∧
      (cause.Unread callbacks patchSize ∨ cause.Refuses callbacks res)) ?_ visited ?_ res draining
        failure
  · intro before reached holds res draining failure
    obtain ⟨phase, self, between⟩ := before
    cases phase with
    | fetch patchOffset =>
        change (fetchStep callbacks patchSize patchOffset self between).phase = _ at draining
        by_cases below : patchOffset < patchSize
        · by_cases success :
              (callbacks.patchRead between (min (patchSize - patchOffset) 512)).1 = 0
          · rw [fetchStep_read callbacks below success] at draining
            cases draining
          · rw [fetchStep_failed callbacks below success] at draining
            cases draining
            exact ⟨_, reached, Or.inl ⟨patchOffset, rfl, below, success⟩⟩
        · rw [fetchStep_end callbacks below] at draining
          cases draining
          exact absurd rfl failure
    | feed patchOffset =>
        change (feedStep callbacks patchOffset self between).phase = _ at draining
        by_cases available : chunkAvailable self.chunk = true
        · by_cases negative : (applyPatchProcessOnce callbacks self between).res < 0
          · rw [feedStep_failed callbacks available negative] at draining
            cases draining
            exact ⟨_, reached, Or.inr ⟨⟨patchOffset, rfl⟩, available, negative, rfl⟩⟩
          · rw [feedStep_advanced callbacks available negative] at draining
            cases draining
        · rw [feedStep_used callbacks available] at draining
          cases draining
    | drain earlier =>
        change (drainStep callbacks earlier self between).phase = _ at draining
        by_cases again : (applyPatchProcessOnce callbacks self between).res = 0
        · rw [drainStep_again callbacks again] at draining
          cases draining
          exact holds res rfl failure
        · rw [drainStep_ends callbacks again] at draining
          cases draining
    | stop => cases draining
  · intro res draining
    cases draining

/-- The next step of the run calls `apply_patch_process_once`. -/
def Config.Steps (config : Config World) : Prop :=
  match config.phase with
  | .feed _ => 0 < chunkLeft config.self.chunk
  | .drain _ => True
  | _ => False

/-- The invariant rule for the engine and the world of a run: an invariant that does not
depend on the chunk is kept by reading the patch and by the steps of the engine. -/
theorem Visits.engine_invariant {callbacks : Callbacks World}
    (Invariant : ApplyPatch → World → Prop) {stack : ApplyPatch} {world : World}
    {patchSize : Nat}
    (chunked : ∀ self world patchOffset chunk, Invariant self world →
      Invariant { self with patchOffset := patchOffset, chunk := chunk } world)
    (read : ∀ self world size, Invariant self world →
      Invariant self (callbacks.patchRead world size).2.2)
    (moved : ∀ config, Visits callbacks stack world patchSize config → config.Steps →
      ∀ stepped, EngineStep callbacks config.self config.world stepped →
        Invariant config.self config.world → Invariant stepped.self stepped.world)
    (initial : Invariant (detoolsApplyPatchInit stack patchSize) world)
    {config : Config World} (visited : Visits callbacks stack world patchSize config) :
    Invariant config.self config.world := by
  refine Visits.invariant_of (fun config => Invariant config.self config.world) ?_ initial visited
  intro before after reached step holds
  cases step with
  | fetched => exact chunked _ _ _ _ (read _ _ _ holds)
  | fetchFailed => exact chunked _ _ _ _ (read _ _ _ holds)
  | fetchedAll => exact chunked _ _ _ _ holds
  | used => exact holds
  | fed available step => exact moved _ reached available _ step holds
  | fedFailed available step =>
      exact chunked _ _ _ _ (moved _ reached available _ step holds)
  | drained step => exact moved _ reached trivial _ step holds
  | stopped step => exact moved _ reached trivial _ step holds
  | halted => exact holds

/-- A state that is about to step is followed by the outcome of the step. -/
theorem Visits.steps {callbacks : Callbacks World} {stack : ApplyPatch} {world : World}
    {patchSize : Nat} {config : Config World}
    (visited : Visits callbacks stack world patchSize config) (steps : config.Steps) :
    ∃ after, Visits callbacks stack world patchSize after ∧
      after.world = (applyPatchProcessOnce callbacks config.self config.world).world ∧
      ∃ chunk, after.self =
        { (applyPatchProcessOnce callbacks config.self config.world).self with
          chunk := chunk } := by
  have next : Visits callbacks stack world patchSize (driverStep callbacks patchSize config) :=
    Reaches.next visited
  obtain ⟨phase, self, before⟩ := config
  refine ⟨_, next, ?_⟩
  cases phase with
  | fetch => exact absurd steps id
  | stop => exact absurd steps id
  | feed patchOffset =>
      have available := (chunkAvailable_iff _).mpr steps
      by_cases negative : (applyPatchProcessOnce callbacks self before).res < 0
      · simp only [driverStep, feedStep_failed callbacks available negative]
        exact ⟨trivial, _, rfl⟩
      · simp only [driverStep, feedStep_advanced callbacks available negative]
        exact ⟨trivial, _, rfl⟩
  | drain res =>
      by_cases again : (applyPatchProcessOnce callbacks self before).res = 0
      · simp only [driverStep, drainStep_again callbacks again]
        exact ⟨trivial, _, rfl⟩
      · simp only [driverStep, drainStep_ends callbacks again]
        exact ⟨trivial, _, rfl⟩

end

end DeltaUpdate.Detools
