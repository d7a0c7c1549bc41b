import DeltaUpdate.Delta.Lockstep
import DeltaUpdate.Detools.Bounds
import DeltaUpdate.Script.PadPatch

/-!
Owns the output of a run of the engine on the device. The bytes handed to the slot
writer are the bytes the engine counts, and they stay within the declared target size
exactly when no negative diff or extra size passes the check of `common_process_size`.
-/

namespace DeltaUpdate.Delta

open DeltaUpdate.Detools

/-! ### Bytes handed over -/

/-- The bytes an event hands to the slot writer. -/
def Event.handedLength : Event → Nat
  | .handed _ block => block.length
  | _ => 0

/-- The bytes handed to the slot writer in a log. -/
def handedBytes (log : List Event) : Nat := (log.map Event.handedLength).sum

theorem handedBytes_blocks (log : List Event) :
    handedBytes log = ((handedBlocks log).map List.length).sum := by
  induction log with
  | nil => rfl
  | cons event log inductionHypothesis =>
      have first : handedBytes (event :: log) = event.handedLength + handedBytes log := by
        simp [handedBytes]
      rw [first, inductionHypothesis]
      cases event <;> simp [Event.handedLength, handedBlocks]

theorem deltaFlashWrite_handed (env : Env) (world : World) (block : List UInt8) :
    handedBytes (deltaFlashWrite env world block).2.log =
      handedBytes world.log + block.length := by
  rw [handedBytes_blocks, deltaFlashWrite_blocks, List.map_append, List.sum_append,
    ← handedBytes_blocks]
  rfl

/-- Nothing but the slot writer hands bytes over. -/
theorem Extends.sameBytes {issuer : Issuer} {start log : List Event}
    (records : Extends (Event.IssuedBy issuer) start log) (other : issuer ≠ .deltaFlashWrite) :
    handedBytes log = handedBytes start := by
  rw [handedBytes_blocks, records.sameBlocks other, handedBytes_blocks]

theorem gathered_handed {env : Env} {self middle : ApplyPatch} {world between : World}
    {block : List UInt8}
    (gathered : Gathered (deltaCallbacks env) self world middle between block) :
    handedBytes between.log = handedBytes world.log := by
  cases gathered with
  | diff state read =>
      have same := (deltaFlashFromRead_records env world (nextBlock self).data.length).sameBytes
        (by decide)
      change deltaFlashFromRead env world _ = _ at read
      rw [read] at same
      exact same
  | extra => rfl

/-! ### The bytes the engine counts -/

/-- The target size the header declares, or zero if it has not been read. -/
def declaredSize (engine : ApplyPatch) : Nat :=
  if engine.patchReader.destroySet then engine.toSize else 0

/-- The bytes handed over are those the engine has counted. -/
structure HandedWithin (start : Nat) (engine : ApplyPatch) (world : World) : Prop where
  counted : engine.state ≠ .failed → handedBytes world.log = start + produced engine
  within : handedBytes world.log ≤ start + declaredSize engine

/-- While the engine has not failed, the bound follows from the count. -/
theorem handedWithin_of_counted {start : Nat} {engine : ApplyPatch} {world : World}
    (bounded : Bounded engine) (running : engine.state ≠ .failed)
    (counted : handedBytes world.log = start + produced engine) :
    HandedWithin start engine world := by
  refine ⟨fun _ => counted, ?_⟩
  by_cases init : engine.state = .init
  · rw [produced, if_pos init] at counted
    omega
  · have set := (bounded.opened init running).1
    have offset := (bounded.output set).offset
    rw [produced_of_ne init] at counted
    rw [declaredSize, if_pos set]
    omega

/-- An engine that fails keeps the bound if the offsets are the same. -/
theorem HandedWithin.failed {start : Nat} {self after : ApplyPatch} {world next : World}
    (handed : HandedWithin start self world) (offsets : SameOffsets self after)
    (state : after.state = .failed) (same : handedBytes next.log = handedBytes world.log) :
    HandedWithin start after next := by
  refine ⟨fun running => absurd state running, ?_⟩
  rw [same, declaredSize, offsets.destroySet, offsets.toSize]
  exact handed.within

theorem HandedWithin.step {env : Env} {start : Nat} {self : ApplyPatch} {world : World}
    {stepped : Stepped World} (handed : HandedWithin start self world) (bounded : Bounded self)
    (step : EngineStep (deltaCallbacks env) self world stepped) (after : Bounded stepped.self) :
    HandedWithin start stepped.self stepped.world := by
  cases step with
  | rejected _ _ offsets failed => exact handed.failed offsets failed rfl
  | finished => exact handed.failed ⟨rfl, rfl, rfl, rfl, rfl⟩ rfl rfl
  | opened state header =>
      have opened := processInit_opened header
      have counted := handed.counted (by simp [state])
      rw [produced, if_pos state] at counted
      apply handedWithin_of_counted after (by rw [opened.state]; split <;> simp)
      rw [counted]
      simp [produced, opened.toOffset]
  | waitingSize state =>
      exact handedWithin_of_counted after state.running.2 (handed.counted state.running.2)
  | waitingBlock state =>
      have running := (readsBlock_running state).2
      exact handedWithin_of_counted after running (handed.counted running)
  | dfpatch state =>
      have counted := handed.counted (by simp [state])
      rw [produced_of_ne (by simp [state])] at counted
      exact handedWithin_of_counted after (by simp) counted
  | sized states =>
      generalize state : self.state = part at states
      have counted := handed.counted (by cases states <;> simp [state])
      rw [produced_of_ne (by cases states <;> simp [state])] at counted
      cases states <;> exact handedWithin_of_counted after (by simp) counted
  | emptied states =>
      generalize state : self.state = part at states
      have counted := handed.counted (by cases states <;> simp [state])
      rw [produced_of_ne (by cases states <;> simp [state])] at counted
      cases states <;> exact handedWithin_of_counted after (by simp) counted
  | sourceFailed =>
      exact handed.failed ⟨rfl, rfl, rfl, rfl, (afterBlock_same self).destroySet⟩ rfl
        ((deltaFlashFromRead_records env world _).sameBytes (by decide))
  | @wrote middle between block nonempty success gathered =>
      obtain ⟨state, middleState, -, toOffset, -, -, length⟩ := gathered.frame
      obtain ⟨opened, running⟩ := readsBlock_running state
      have declared := bounded.declared_lt opened running
      have output := bounded.output (bounded.opened opened running).1
      have within := nextBlock_length nonempty success
      have offset := output.offset
      have counted := handed.counted running
      apply handedWithin_of_counted after (by change middle.state ≠ _; rwa [middleState])
      change handedBytes (deltaFlashWrite env between block).2.log = _
      rw [deltaFlashWrite_handed, gathered_handed gathered, counted, produced_handed
        (by rwa [middleState]) block (by omega), produced_of_ne opened,
        produced_of_ne (by rwa [middleState]), toOffset, add_assoc]
  | @writeFailed middle between block nonempty success gathered =>
      obtain ⟨state, -, reader, toOffset, -, -, length⟩ := gathered.frame
      obtain ⟨opened, running⟩ := readsBlock_running state
      have set := (bounded.opened opened running).1
      have declared := bounded.declared set
      have output := bounded.output set
      have within := nextBlock_length nonempty success
      have offset := output.offset
      have counted := handed.counted running
      rw [produced_of_ne opened] at counted
      refine ⟨fun running => absurd rfl running, ?_⟩
      change handedBytes (deltaFlashWrite env between block).2.log ≤ _
      have setAfter : middle.patchReader.destroySet = true := by
        rw [reader, (afterBlock_same self).destroySet]
        exact set
      have afterOffset := (after.output setAfter).offset
      simp only [ApplyPatch.handed] at afterOffset
      rw [toOffset, sizeT_of_lt (by omega)] at afterOffset
      rw [deltaFlashWrite_handed, gathered_handed gathered, counted, declaredSize]
      simp only [ApplyPatch.handed, setAfter, if_true]
      omega
  | sought state =>
      have counted := handed.counted (by simp [state])
      rw [produced_of_ne (by simp [state])] at counted
      apply handedWithin_of_counted after (by simp only; split <;> simp)
      change handedBytes (deltaFlashSeek world _).2.log = _
      rw [(deltaFlashSeek_records world _).sameBytes (by decide), counted,
        produced_of_ne (by simp only; split <;> simp)]
      rfl
  | seekFailed =>
      exact handed.failed ⟨rfl, rfl, rfl, rfl, (afterSize_same self).destroySet⟩ rfl
        ((deltaFlashSeek_records world _).sameBytes (by decide))

/-! ### Runs -/

/-- What the output of a run keeps to in a state of it. -/
structure OutputKept (log : List Event) (config : Config World) : Prop where
  /-- Once the header has been read. -/
  output : config.self.patchReader.destroySet = true → OutputWithin config.self
  handed : handedBytes config.world.log ≤ handedBytes log + declaredSize config.self

section

variable (env : Env) (stack : ApplyPatch) (memory : Memory) (log : List Event) (patchSize : Nat)

/-- Without a negative size the output is bounded in every state of a run. -/
theorem runs_bounded
    (noNegative : ∀ config, Runs env stack memory log patchSize config → config.Steps →
      ¬ NegativeSize config.self)
    {config : Config World} (runs : Runs env stack memory log patchSize config) :
    Bounded config.self ∧ HandedWithin (handedBytes log) config.self config.world := by
  refine Visits.engine_invariant
    (fun self world => Bounded self ∧ HandedWithin (handedBytes log) self world)
    ?_ ?_ ?_ ?_ runs
  · rintro self world patchOffset chunk ⟨bounded, handed⟩
    exact ⟨⟨⟨bounded.unread, bounded.opened, bounded.declared⟩, fun set =>
        ⟨(bounded.output set).offset, (bounded.output set).chunk⟩⟩,
      handed.counted, handed.within⟩
  · rintro self world size ⟨bounded, handed⟩
    have same := (deltaFlashPatchRead_records env world size).sameBytes (by decide)
    exact ⟨bounded, fun running => same.trans (handed.counted running), same.trans_le handed.within⟩
  · rintro config reached steps stepped step ⟨bounded, handed⟩
    have after := bounded.step step (noNegative config reached steps)
    exact ⟨after, handed.step bounded step after⟩
  · refine ⟨⟨readerSound_init stack patchSize, fun set => ?_⟩, fun _ => rfl, ?_⟩
    · simp [detoolsApplyPatchInit] at set
    · exact Nat.le_add_right _ _

/-- The reader is sound in every state of a run. -/
theorem runs_readerSound {config : Config World}
    (runs : Runs env stack memory log patchSize config) : ReaderSound config.self :=
  Visits.engine_invariant (fun self _ => ReaderSound self)
    (fun _ _ _ _ sound => ⟨sound.unread, sound.opened, sound.declared⟩)
    (fun _ _ _ sound => sound)
    (fun _ _ _ _ step sound => sound.step step)
    (readerSound_init stack patchSize) runs

/-- The output of a run keeps to the declared size in every state exactly when no step
reads a negative size that passes the check. -/
theorem output_kept_iff :
    (∀ config, Runs env stack memory log patchSize config → OutputKept log config) ↔
      ∀ config, Runs env stack memory log patchSize config → config.Steps →
        ¬ NegativeSize config.self := by
  constructor
  · intro kept config runs steps negative
    have bounded : Bounded config.self :=
      ⟨runs_readerSound env stack memory log patchSize runs, (kept config runs).output⟩
    obtain ⟨set, exceeds⟩ := negative.exceeds bounded config.world
    obtain ⟨after, reached, -, chunk, same⟩ := Visits.steps runs steps
    have output := (kept after reached).output
    rw [same] at output
    exact exceeds ⟨(output set).offset, (output set).chunk⟩
  · intro noNegative config runs
    obtain ⟨bounded, handed⟩ := runs_bounded env stack memory log patchSize noNegative runs
    exact ⟨bounded.output, handed.within⟩

end

/-- A patch that declares two bytes. Its first record puts one out, and the diff size of
its second record is minus one. -/
def negativeDiffPatch : List UInt8 :=
  [0x04, 0x02, 0x44, 0x80, 0x40, 0x20, 0x3a, 0xa8, 0x05, 0x06, 0x03, 0x02, 0x81, 0xc1, 0x00]

/-- Five bytes are handed over where two have been declared. -/
theorem output_exceeds_declared :
    ¬ ∀ config, Runs (Env.flawless buildMap) zeroStack
      (placeAt 0xf8000 (Script.packed negativeDiffPatch)) [] 15 config →
        OutputKept [] config := by
  intro kept
  have final := detoolsApplyPatchCallbacks_visits (deltaCallbacks (Env.flawless buildMap))
    zeroStack (startWorld buildMap (placeAt 0xf8000 (Script.packed negativeDiffPatch)) []) 15
  have handed := (kept _ final).handed
  revert handed
  decide +kernel

end DeltaUpdate.Delta
