import DeltaUpdate.Delta.Outcomes
import DeltaUpdate.Detools.Driver

/-!
Owns the invariant that ties the flash cursors to the offsets of the engine. It
holds in every state of a run in which the engine has not failed, and it gives the
position and the size of every block that is handed to the slot writer.
-/

namespace DeltaUpdate.Delta

open DeltaUpdate.Detools

/-! ### Signed sums -/

theorem intT_add_left (left right : Int) : intT (intT left + right) = intT (left + right) := by
  unfold intT
  omega

theorem intT_add_right (left right : Int) : intT (left + intT right) = intT (left + right) := by
  unfold intT
  omega

/-! ### The invariant -/

/-- The bytes the engine has put out. The offset is only set when the header is read. -/
def produced (self : ApplyPatch) : Nat := if self.state = .init then 0 else self.toOffset

theorem produced_of_ne {self : ApplyPatch} (opened : self.state ≠ .init) :
    produced self = self.toOffset := if_neg opened

theorem produced_handed {middle : ApplyPatch} (opened : middle.state ≠ .init)
    (block : List UInt8) (small : middle.toOffset + block.length < 2 ^ 32) :
    produced (middle.handed block) = produced middle + block.length := by
  rw [produced_of_ne opened, produced_of_ne (by exact opened)]
  exact sizeT_of_lt small

/-- The cursors and the offsets of an engine that has not failed. -/
structure Live (map : FlashMap) (engine : ApplyPatch) (world : World) : Prop where
  toEnd : world.flash.toEnd = map.secondary.offset + map.secondary.size
  fromEnd : world.flash.fromEnd = map.primary.offset + map.primary.size
  patchEnd : world.flash.patchEnd = map.storage.offset + headerSize + map.storage.size
  slot : world.flash.toCurrent = map.secondary.offset + produced engine
  below : world.flash.toCurrent < world.flash.toEnd
  counted : world.flash.writeBuf < pageSize
  source : world.flash.fromCurrent = intT (map.primary.offset + engine.fromOffset)

theorem live_init (env : Env) (stack : ApplyPatch) (memory : Memory) (log : List Event)
    (patchSize : Nat) :
    Live env.map (detoolsApplyPatchInit stack patchSize)
      ⟨deltaInitFlashMem env.map, memory, log⟩ := by
  have positive := env.map.secondary.positive
  have below := env.map.primary.below
  refine ⟨rfl, rfl, rfl, ?_, ?_, Nat.two_pow_pos 12, ?_⟩
  · simp [deltaInitFlashMem, produced, detoolsApplyPatchInit]
  · simp only [deltaInitFlashMem]
    omega
  · simp only [deltaInitFlashMem, detoolsApplyPatchInit, add_zero]
    rw [intT_of_fits]
    unfold FitsInt
    omega

/-- The invariant depends on the engine through the produced bytes and the source
offset only. -/
theorem Live.of_same {map : FlashMap} {self after : ApplyPatch} {world : World}
    (live : Live map self world) (same : produced after = produced self)
    (offset : after.fromOffset = self.fromOffset) : Live map after world :=
  ⟨live.toEnd, live.fromEnd, live.patchEnd, by rw [same]; exact live.slot, live.below,
    live.counted, by rw [offset]; exact live.source⟩

theorem Live.produced_lt {map : FlashMap} {self : ApplyPatch} {world : World}
    (live : Live map self world) : produced self < map.secondary.size := by
  have slot := live.slot
  have below := live.below
  have toEnd := live.toEnd
  omega

/-- Writing a block keeps the invariant, if the writer accepts the block. -/
theorem Live.write {env : Env} {self : ApplyPatch} {world : World} {block : List UInt8}
    (live : Live env.map self world) (small : block.length ≤ 128)
    (accepted : (deltaFlashWrite env world block).1 = 0) (after : ApplyPatch)
    (moved : produced after = produced self + block.length)
    (offset : after.fromOffset = self.fromOffset) :
    Live env.map after (deltaFlashWrite env world block).2 := by
  have slot := live.slot
  have toBelow := live.below
  have toEnd := live.toEnd
  have counted := live.counted
  have low := env.map.secondary.below
  obtain ⟨ready, prepared, below, outcome⟩ := deltaFlashWrite_accepted accepted
  obtain ⟨count, early, flash⟩ := prepared.flash
  have cursor : cursorBehind ready block = world.flash.toCurrent + block.length := by
    rw [cursorBehind, flash, intT_of_fits]
    unfold FitsInt
    simp only
    omega
  rw [outcome]
  refine ⟨?_, ?_, ?_, ?_, below, ?_, ?_⟩ <;> simp only [World.written, flash]
  · exact toEnd
  · exact live.fromEnd
  · exact live.patchEnd
  · rw [cursor]
    omega
  · exact early
  · rw [offset]
    exact live.source

/-- Gathering a block keeps the invariant. -/
theorem Live.gather {env : Env} {self middle : ApplyPatch} {world between : World}
    {block : List UInt8} (live : Live env.map self world)
    (gathered : Gathered (deltaCallbacks env) self world middle between block) :
    Live env.map middle between := by
  cases gathered with
  | diff state read =>
      obtain ⟨-, -, rfl⟩ := deltaFlashFromRead_accepted read
      refine ⟨live.toEnd, live.fromEnd, live.patchEnd, live.slot, live.below, live.counted, ?_⟩
      simp only [World.sourceRead]
      rw [live.source, intT_add_left, intT_add_right, add_assoc]
  | extra state => exact live.of_same rfl rfl

/-- A step of the engine keeps the invariant, unless the engine fails. -/
theorem Live.step {env : Env} {self : ApplyPatch} {world : World} {stepped : Stepped World}
    (live : Live env.map self world)
    (step : EngineStep (deltaCallbacks env) self world stepped)
    (running : stepped.self.state ≠ .failed) : Live env.map stepped.self stepped.world := by
  cases step with
  | rejected reason error offsets failed => exact absurd failed running
  | finished => exact absurd rfl running
  | opened state header =>
      have opened := processInit_opened header
      refine live.of_same ?_ opened.fromOffset
      simp [produced, state, opened.toOffset]
  | waitingSize => exact live.of_same rfl rfl
  | waitingBlock => exact live.of_same rfl rfl
  | dfpatch state =>
      refine live.of_same ?_ rfl
      simp [produced, state, ApplyPatch.afterSize]
  | sized states =>
      refine live.of_same ?_ rfl
      generalize before : self.state = state at states
      cases states <;> simp [produced, before, ApplyPatch.afterSize]
  | emptied states =>
      refine live.of_same ?_ rfl
      generalize before : self.state = state at states
      cases states <;> simp [produced, before]
  | sourceFailed => exact absurd rfl running
  | @wrote middle between block nonempty read gathered written =>
      have gatheredLive := live.gather gathered
      obtain ⟨state, middleState, -, -, -, -, length⟩ := gathered.frame
      have within := nextBlock_length nonempty read
      have notInit : middle.state ≠ .init := by
        rw [middleState]
        rcases state with diff | extra
        · simp [diff]
        · simp [extra]
      refine gatheredLive.write (by omega) written _ ?_ rfl
      have small := gatheredLive.produced_lt
      have low := env.map.secondary.below
      rw [produced_of_ne notInit] at small
      exact produced_handed notInit block (by omega)
  | writeFailed => exact absurd rfl running
  | sought state read found =>
      show Live env.map _ (deltaFlashSeek world _).2
      rw [(deltaFlashSeek_accepted found).2]
      refine ⟨live.toEnd, live.fromEnd, live.patchEnd, ?_, live.below, live.counted, ?_⟩
      · have slot := live.slot
        rw [produced_of_ne (by simp [state])] at slot
        rw [produced_of_ne (by simp only; split <;> simp)]
        exact slot
      · simp only [World.sought]
        rw [live.source, intT_add_left, intT_add_right, add_assoc]
  | seekFailed => exact absurd rfl running

/-- Reading the patch keeps the invariant, whatever its result. -/
theorem Live.patch {env : Env} {self after : ApplyPatch} {world : World} {size : Nat}
    (live : Live env.map self world) (same : produced after = produced self)
    (offset : after.fromOffset = self.fromOffset) :
    Live env.map after (deltaFlashPatchRead env world size).2.2 := by
  have moved := live.of_same same offset
  have outcome := deltaFlashPatchRead_cases env world size
  generalize deltaFlashPatchRead env world size = read at outcome
  cases outcome <;>
    exact ⟨moved.toEnd, moved.fromEnd, moved.patchEnd, moved.slot, moved.below, moved.counted,
      moved.source⟩

/-- The states of a run of the engine on the device. -/
def Runs (env : Env) (stack : ApplyPatch) (memory : Memory) (log : List Event) (patchSize : Nat)
    (config : Config World) : Prop :=
  Visits (deltaCallbacks env) stack (startWorld env.map memory log) patchSize config

/-- A step of the run keeps the invariant, unless the engine fails. -/
theorem live_kept {env : Env} {patchSize : Nat} {before after : Config World}
    (step : DriverStep (deltaCallbacks env) patchSize before after)
    (live : before.self.state ≠ .failed → Live env.map before.self before.world)
    (running : after.self.state ≠ .failed) : Live env.map after.self after.world := by
  cases step with
  | fetched => exact (live running).patch rfl rfl
  | fetchFailed => exact (live running).patch rfl rfl
  | fetchedAll => exact (live running).of_same rfl rfl
  | used => exact live running
  | fed _ step => exact (live fun failed => running (step.failed_stays failed)).step step running
  | fedFailed _ step =>
      exact ((live fun failed => running (step.failed_stays failed)).step step running).of_same
        rfl rfl
  | drained step =>
      exact (live fun failed => running (step.failed_stays failed)).step step running
  | stopped step =>
      exact (live fun failed => running (step.failed_stays failed)).step step running
  | halted => exact live running

/-- The cursors and the offsets move in lockstep until the engine fails. -/
theorem runs_live {env : Env} {stack : ApplyPatch} {memory : Memory} {log : List Event}
    {patchSize : Nat} {config : Config World} (runs : Runs env stack memory log patchSize config)
    (running : config.self.state ≠ .failed) : Live env.map config.self config.world :=
  Visits.invariant
    (fun config => config.self.state ≠ .failed → Live env.map config.self config.world)
    (fun _ _ step live => live_kept step live)
    (fun _ => live_init env stack memory log patchSize) runs running

/-! ### What a run does to the world -/

/-- The slot cursor of an engine that has not failed. -/
structure SlotCursor (map : FlashMap) (flash : FlashMem) : Prop where
  toEnd : flash.toEnd = map.secondary.offset + map.secondary.size
  low : map.secondary.offset ≤ flash.toCurrent
  high : flash.toCurrent < map.secondary.offset + map.secondary.size
  counted : flash.writeBuf < pageSize

theorem Live.slotCursor {map : FlashMap} {self : ApplyPatch} {world : World}
    (live : Live map self world) : SlotCursor map world.flash where
  toEnd := live.toEnd
  low := by
    have slot := live.slot
    omega
  high := live.toEnd ▸ live.below
  counted := live.counted

/-- A property of the world that every callback keeps. The slot writer is only
called with a cursor inside the slot and a block of 1 to 128 bytes. -/
structure KeptByCallbacks (env : Env) (Holds : World → Prop) : Prop where
  source : ∀ world size, Holds world → Holds (deltaFlashFromRead env world size).2.2
  seek : ∀ world offset, Holds world → Holds (deltaFlashSeek world offset).2
  patch : ∀ world size, Holds world → Holds (deltaFlashPatchRead env world size).2.2
  write : ∀ world block, SlotCursor env.map world.flash → 0 < block.length →
    block.length ≤ 128 → Holds world → Holds (deltaFlashWrite env world block).2

theorem KeptByCallbacks.step {env : Env} {Holds : World → Prop}
    (kept : KeptByCallbacks env Holds) {self : ApplyPatch} {world : World}
    {stepped : Stepped World} (live : self.state ≠ .failed → Live env.map self world)
    (step : EngineStep (deltaCallbacks env) self world stepped) (holds : Holds world) :
    Holds stepped.world := by
  by_cases failed : self.state = .failed
  · rw [(step.of_failed failed).2.2]
    exact holds
  · have live := live failed
    have write {middle : ApplyPatch} {between : World} {block : List UInt8}
        (nonempty : blockRoom self ≠ 0) (read : (nextBlock self).res = 0)
        (gathered : Gathered (deltaCallbacks env) self world middle between block) :
        Holds (deltaFlashWrite env between block).2 := by
      obtain ⟨-, -, -, -, -, -, length⟩ := gathered.frame
      have within := nextBlock_length nonempty read
      apply kept.write between block (live.gather gathered).slotCursor (by omega) (by omega)
      cases gathered with
      | @diff state bytes next read =>
          have after := kept.source world (nextBlock self).data.length holds
          change deltaFlashFromRead env world _ = _ at read
          rw [read] at after
          exact after
      | extra => exact holds
    cases step with
    | sourceFailed => exact kept.source world _ holds
    | wrote nonempty read gathered => exact write nonempty read gathered
    | writeFailed nonempty read gathered => exact write nonempty read gathered
    | sought => exact kept.seek world _ holds
    | seekFailed => exact kept.seek world _ holds
    | _ => exact holds

/-- What every callback keeps holds in every state of a run. -/
theorem KeptByCallbacks.runs {env : Env} {Holds : World → Prop}
    (kept : KeptByCallbacks env Holds) {stack : ApplyPatch} {memory : Memory}
    {log : List Event} {patchSize : Nat} {config : Config World}
    (runs : Runs env stack memory log patchSize config)
    (initial : Holds (startWorld env.map memory log)) : Holds config.world := by
  have both := Visits.invariant
    (fun config => (config.self.state ≠ .failed → Live env.map config.self config.world) ∧
      Holds config.world)
    ?_ ⟨fun _ => live_init env stack memory log patchSize, initial⟩ runs
  · exact both.2
  · rintro before after step ⟨live, holds⟩
    refine ⟨live_kept step live, ?_⟩
    cases step with
    | fetched => exact kept.patch _ _ holds
    | fetchFailed => exact kept.patch _ _ holds
    | fetchedAll => exact holds
    | used => exact holds
    | fed _ step => exact kept.step live step holds
    | fedFailed _ step => exact kept.step live step holds
    | drained step => exact kept.step live step holds
    | stopped step => exact kept.step live step holds
    | halted => exact holds

/-- The engine of a call runs from the initialized cursors to the stop of its outcome. -/
theorem InitCase.runs {env : Env} {world inited : World}
    (init : InitCase env world (0, inited)) (stack : ApplyPatch) (patchSize : Nat) :
    ∃ memory log, inited = startWorld env.map memory log ∧
      Runs env stack memory log patchSize
        ⟨.stop (detoolsApplyPatchCallbacks (deltaCallbacks env) stack inited patchSize).res,
          (detoolsApplyPatchCallbacks (deltaCallbacks env) stack inited patchSize).self,
          (detoolsApplyPatchCallbacks (deltaCallbacks env) stack inited patchSize).world⟩ := by
  cases init with
  | done =>
      exact ⟨_, _, rfl, detoolsApplyPatchCallbacks_visits (deltaCallbacks env) stack _ patchSize⟩

/-- A property of the world that everything in a call keeps. -/
structure KeptByCall (env : Env) (Holds : World → Prop) : Prop
    extends KeptByCallbacks env Holds where
  header : ∀ {world after : World} {code : Int} {size : Nat},
    HeaderCase env world 0 (code, size, after) → Holds world → Holds after
  init : ∀ {world after : World} {code : Int},
    InitCase env world (code, after) → Holds world → Holds after
  request : ∀ {world : World} (ok : Bool),
    Holds world → Holds (world.record (.bootRequestUpgrade ok))
  reboot : ∀ {world : World}, Holds world → Holds (world.record .sysReboot)

theorem KeptByCall.upgrade {env : Env} {Holds : World → Prop} (kept : KeptByCall env Holds)
    {world : World} (res : Int) (holds : Holds world) : Holds (requestUpgrade env res world).2 := by
  have outcome := requestUpgrade_cases env res world
  generalize requestUpgrade env res world = upgraded at outcome
  cases outcome with
  | none => exact holds
  | failed => exact kept.request false holds
  | requested => exact kept.reboot (kept.request true holds)

/-- What everything in a call keeps holds after the call. -/
theorem KeptByCall.call {env : Env} {Holds : World → Prop} (kept : KeptByCall env Holds)
    (stack : ApplyPatch) {world : World} (holds : Holds world) :
    Holds (deltaCheckAndApply env stack world).2 := by
  have outcome := deltaCheckAndApply_cases env stack world
  generalize deltaCheckAndApply env stack world = called at outcome
  cases outcome with
  | unread header => exact kept.header header holds
  | idle header => exact kept.header header holds
  | initFailed marker positive init => exact kept.init init (kept.header (.cleared marker) holds)
  | applied marker positive init =>
      have inited := kept.init init (kept.header (.cleared marker) holds)
      obtain ⟨memory, log, start, runs⟩ :=
        init.runs stack (headerWord env.map world.memory 4)
      exact kept.upgrade _ (kept.runs runs (start ▸ inited))

end DeltaUpdate.Delta
