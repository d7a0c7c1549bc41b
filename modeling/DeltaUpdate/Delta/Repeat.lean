import DeltaUpdate.Delta.Alike
import DeltaUpdate.Delta.PatchCursor

/-!
Owns what a call of `delta_check_and_apply` does not depend on: what the stack and the
cursors held before it, and what the secondary slot holds. Two calls that agree on the
rest of the memory do the same, so that a patch flashed again after any history of calls,
failures and resets is applied as it would have been the first time.
-/

namespace DeltaUpdate.Delta

open DeltaUpdate.Detools

/-! ### The bytes a call may change -/

/-- The primary slot lies below the secondary slot, and the patch partition lies a page
or more above it. -/
structure FlashMap.Stacked (map : FlashMap) : Prop where
  source : map.primary.offset + map.primary.size ≤ map.secondary.offset
  patch : map.secondary.offset + map.secondary.size + pageSize ≤ map.storage.offset

theorem deviceMap_stacked (storage : { partition : Partition // partition.offset = 0xf8000 }) :
    (deviceMap storage).Stacked := by
  obtain ⟨-, sourceEnd, slot, slotEnd, patch⟩ := deviceMap_layout storage
  exact ⟨by omega, by unfold pageSize; omega⟩

/-- The secondary slot and the page behind it, which the slot writer can erase. -/
def FlashMap.SlotReach (map : FlashMap) (address : Int) : Prop :=
  map.secondary.offset ≤ address ∧
    address < map.secondary.offset + map.secondary.size + pageSize

/-- Two memories that agree outside the reach of the slot writer. -/
def SameOutside (map : FlashMap) (left right : Memory) : Prop :=
  ∀ address, ¬ map.SlotReach address → right address = left address

/-- Two worlds with the same history that agree outside the reach of the slot writer. -/
structure SameHistory (map : FlashMap) (left right : World) : Prop where
  log : right.log = left.log
  memory : SameOutside map left.memory right.memory

theorem FlashOp.apply_sameOutside (op : FlashOp) {map : FlashMap} {left right : Memory}
    (same : SameOutside map left right) : SameOutside map (op.apply left) (op.apply right) := by
  intro address outside
  cases op with
  | read => exact same address outside
  | write => simp only [FlashOp.apply, same address outside]
  | erase => simp only [FlashOp.apply, same address outside]

/-- Such worlds answer alike. -/
theorem sameHistory_twins (env : Env) (map : FlashMap) : Twins env env (SameHistory map) where
  map := rfl
  upgradeFails := rfl
  cursors same _ _ := ⟨same.log, same.memory⟩
  record same event := ⟨congrArg (· ++ [event]) same.log, same.memory⟩
  issue same issuer op := by
    unfold issue
    rw [same.log]
    split
    next => exact ⟨rfl, congrArg (· ++ [Event.flash issuer op false]) same.log, same.memory⟩
    next => exact ⟨rfl, rfl, op.apply_sameOutside same.memory⟩

/-! ### Runs of the engine -/

section

variable {env : Env} {stack : ApplyPatch} {memory : Memory} {log : List Event} {patchSize : Nat}

/-- A block that is accepted leaves the source cursor where it is. -/
theorem deltaFlashWrite_fromCurrent {world : World} {block : List UInt8}
    (accepted : (deltaFlashWrite env world block).1 = 0) :
    (deltaFlashWrite env world block).2.flash.fromCurrent = world.flash.fromCurrent := by
  obtain ⟨ready, prepared, -, outcome⟩ := deltaFlashWrite_accepted accepted
  obtain ⟨count, -, flash⟩ := prepared.flash
  rw [outcome]
  simp only [World.written, flash]

/-- The source cursor lies below the end of the source. -/
def SourceBelow (map : FlashMap) (world : World) : Prop :=
  world.flash.fromCurrent < map.primary.offset + map.primary.size

/-- A step that does not fail leaves the source cursor below the end of the source. -/
theorem sourceBelow_step {self : ApplyPatch} {world : World} {stepped : Stepped World}
    (live : Live env.map self world) (below : SourceBelow env.map world)
    (step : EngineStep (deltaCallbacks env) self world stepped)
    (running : stepped.self.state ≠ .failed) : SourceBelow env.map stepped.world := by
  cases step with
  | rejected _ _ _ failed => exact absurd failed running
  | sourceFailed => exact absurd rfl running
  | writeFailed => exact absurd rfl running
  | seekFailed => exact absurd rfl running
  | wrote nonempty read gathered written =>
      have same := deltaFlashWrite_fromCurrent written
      change (deltaFlashWrite env _ _).2.flash.fromCurrent < _
      rw [same]
      cases gathered with
      | diff state read =>
          obtain ⟨inside, -, rfl⟩ := deltaFlashFromRead_accepted read
          rw [live.fromEnd] at inside
          exact inside
      | extra => exact below
  | sought state read found =>
      obtain ⟨inside, outcome⟩ := deltaFlashSeek_accepted found
      change (deltaFlashSeek world _).2.flash.fromCurrent < _
      rw [live.fromEnd] at inside
      rw [outcome]
      exact inside
  | _ => exact below

/-- The source cursor stays below the end of the source until the engine fails. -/
theorem runs_sourceBelow {config : Config World}
    (runs : Runs env stack memory log patchSize config) :
    config.self.state ≠ .failed → SourceBelow env.map config.world := by
  refine Visits.engine_invariant
    (fun self world => self.state ≠ .failed → SourceBelow env.map world) ?_ ?_ ?_ ?_ runs
  · exact fun _ _ _ _ below => below
  · intro self world size below running
    have outcome := deltaFlashPatchRead_cases env world size
    change SourceBelow env.map (deltaFlashPatchRead env world size).2.2
    generalize deltaFlashPatchRead env world size = read at outcome
    cases outcome <;> exact below running
  · intro config visited _ stepped step below running
    have before : config.self.state ≠ .failed := fun failed => running (step.failed_stays failed)
    exact sourceBelow_step (runs_live visited before) (below before) step running
  · intro _
    have positive := env.map.primary.positive
    simp only [SourceBelow, startWorld, deltaInitFlashMem]
    omega

/-- A source read that succeeds ends below the end of the source, which lies below the
slot, and the patch lies above it. -/
theorem runs_same (stacked : env.map.Stacked) (stack otherStack : ApplyPatch) :
    EnginesAlike env env (SameHistory env.map) stack otherStack := by
  intro memory otherMemory log otherLog patchSize same
  have twins := sameHistory_twins env env.map
  have order := stacked.source
  have above := stacked.patch
  suffices outcome : _ ∧ Abreast (SameHistory env.map) _ _ from ⟨outcome.1, outcome.2.past⟩
  refine detoolsApplyPatchCallbacks_alike_of_visits (movesAlike twins) ?_ ?_ ⟨same, rfl⟩
  · intro config other visited state abreast size _ small
    have running : config.self.state ≠ .failed := by simp [state]
    have sourceEnd := (runs_live visited running).fromEnd
    have below := runs_sourceBelow visited running
    have range := env.map.primary.below
    refine deltaFlashFromRead_alike twins abreast fun inside index within =>
      abreast.past.memory _ fun reach => ?_
    have low := reach.1
    have exact : intT (config.world.flash.fromCurrent + size) =
        config.world.flash.fromCurrent + size :=
      intT_of_fits (by unfold SourceBelow at below; unfold FitsInt; omega)
    rw [exact] at inside
    omega
  · intro config other patchOffset visited phase below abreast
    have cursor := ((runs_patchPaced visited).fetching patchOffset (Or.inl phase)).cursor
    refine deltaFlashPatchRead_alike twins abreast fun index =>
      abreast.past.memory _ fun reach => ?_
    have high := reach.2
    rw [cursor] at high
    omega

end

/-! ### Calls -/

section

variable {env : Env} {left right : World}

/-- Two calls in worlds that agree outside the slot do the same. -/
theorem deltaCheckAndApply_same (stacked : env.map.Stacked) (stack otherStack : ApplyPatch)
    (same : SameHistory env.map left right) :
    CallAlike (SameHistory env.map) (deltaCheckAndApply env stack left)
      (deltaCheckAndApply env otherStack right) := by
  refine deltaCheckAndApply_alike (sameHistory_twins env env.map) same (fun index _ => ?_)
    (runs_same stacked stack otherStack)
  refine same.memory _ fun reach => ?_
  have high := reach.2
  have order := stacked.patch
  omega

/-- What a call does depends neither on the stack and the cursors it starts with nor on
what the secondary slot and the page behind it hold. -/
theorem callOn_same (stacked : env.map.Stacked) (stack otherStack : ApplyPatch)
    (flash otherFlash : FlashMem) {memory otherMemory : Memory}
    (same : SameOutside env.map memory otherMemory) :
    CallAlike (SameHistory env.map) (callOn env stack flash memory)
      (callOn env otherStack otherFlash otherMemory) :=
  deltaCheckAndApply_same stacked stack otherStack ⟨rfl, same⟩

end

/-- A patch of one byte in flash, behind a first page of the slot that has been written. -/
def scribbledSlot : Memory := fun address =>
  if 0x73000 ≤ address ∧ address < 0x74000 then 0
  else placeAt 0xf8000 (Script.packed oneBytePatch) address

theorem callOn_same_oneByte :
    CallAlike (SameHistory buildMap)
      (callOn (Env.flawless buildMap) zeroStack (deltaInitFlashMem buildMap)
        (placeAt 0xf8000 (Script.packed oneBytePatch)))
      (callOn (Env.flawless buildMap) onePutOut.self onePutOut.world.flash scribbledSlot) :=
  @callOn_same (Env.flawless buildMap) (deviceMap_stacked _) zeroStack onePutOut.self
    (deltaInitFlashMem buildMap) onePutOut.world.flash
    (placeAt 0xf8000 (Script.packed oneBytePatch)) scribbledSlot fun address outside =>
      if_neg fun inside => outside ⟨inside.1, inside.2.trans (by decide)⟩

/-! ### Flashing a patch again -/

section

variable (storage : { partition : Partition // partition.offset = 0xf8000 })

/-- The events of a call change the slot, the page behind it and the marker at most. -/
theorem attempt_untouched (attempt : Attempt) (memory : Memory) {address : Int}
    (slot : ¬ (deviceMap storage).SlotReach address)
    (patch : ¬ (deviceMap storage).storage.Contains address) :
    replay memory (attempt.events (deviceMap storage) memory) address = memory address := by
  have cut := attempt.events_cut (deviceMap storage) memory
  have near := slotOps_near ⟨deviceMap storage, attempt.fails, attempt.upgradeFails⟩
    attempt.stack attempt.flash memory
  have accounted := callOn_accounted ⟨deviceMap storage, attempt.fails, attempt.upgradeFails⟩
    attempt.stack attempt.flash memory
  refine replay_untouched (fun event among touches => ?_) memory
  have recorded := cut.subset among
  cases event with
  | flash issuer op ok =>
      by_cases header : issuer = .deltaReadPatchHeader
      · subst header
        cases accounted _ recorded with
        | headerRead => exact touches
        | headerClear =>
            obtain ⟨low, high⟩ : (deviceMap storage).storage.offset ≤ address ∧
                address < (deviceMap storage).storage.offset + 4 := marker_touched touches
            obtain ⟨pages, size⟩ := (deviceMap storage).storage.sizeAligned
            have positive := (deviceMap storage).storage.positive
            unfold pageSize at size
            exact patch ⟨low, by omega⟩
      · exact slot (near issuer op ok recorded header address touches)
  | _ => exact touches

/-- A history of calls leaves the rest of the memory as it was. -/
theorem memoryAfter_untouched (memory : Memory) (attempts : List Attempt) {address : Int}
    (slot : ¬ (deviceMap storage).SlotReach address)
    (patch : ¬ (deviceMap storage).storage.Contains address) :
    memoryAfter (deviceMap storage) memory attempts address = memory address := by
  induction attempts generalizing memory with
  | nil => rfl
  | cons attempt attempts inductionHypothesis =>
      rw [memoryAfter_cons, inductionHypothesis]
      exact attempt_untouched storage attempt memory slot patch

/-- Flashed again after any history of calls, failures and resets, a patch is applied as
if nothing had happened before. -/
theorem reflashed_as_first (memory : Memory) (attempts : List Attempt)
    (fails : List Event → FlashOp → Bool) (upgradeFails : Bool) (stack otherStack : ApplyPatch)
    (flash otherFlash : FlashMem) :
    CallAlike (SameHistory (deviceMap storage))
      (callOn ⟨deviceMap storage, fails, upgradeFails⟩ stack flash memory)
      (callOn ⟨deviceMap storage, fails, upgradeFails⟩ otherStack otherFlash
        (reflashed (deviceMap storage) memory
          (memoryAfter (deviceMap storage) memory attempts))) := by
  have same : SameOutside (deviceMap storage) memory
      (reflashed (deviceMap storage) memory
        (memoryAfter (deviceMap storage) memory attempts)) := by
    intro address slot
    unfold reflashed
    split
    next => rfl
    next patch => exact memoryAfter_untouched storage memory attempts slot patch
  exact @deltaCheckAndApply_same ⟨deviceMap storage, fails, upgradeFails⟩ _ _
    (deviceMap_stacked storage) stack otherStack ⟨rfl, same⟩

end

end DeltaUpdate.Delta
