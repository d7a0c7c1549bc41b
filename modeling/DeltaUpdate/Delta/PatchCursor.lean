import DeltaUpdate.Delta.Call
import DeltaUpdate.Delta.Delivery

/-!
Owns the patch cursor of a run. It moves with the patch offset of the engine until a
patch read fails, so every chunk that is read starts where the chunks before it end, and
the only chunk that can leave the patch partition is the one at its last 512 bytes.
-/

namespace DeltaUpdate.Delta

open DeltaUpdate.Detools
open DeltaUpdate.Library

/-! ### The log of a run -/

/-- The log only grows. -/
theorem driverStep_grows {env : Env} {patchSize : Nat} {before after : Config World}
    (step : DriverStep (deltaCallbacks env) patchSize before after) :
    before.world.log <+: after.world.log := by
  cases step with
  | fetched => exact (deltaFlashPatchRead_records env _ _).grows
  | fetchFailed => exact (deltaFlashPatchRead_records env _ _).grows
  | fetchedAll => exact List.prefix_rfl
  | used => exact List.prefix_rfl
  | fed _ step => exact (engineStep_untouched step).log.grows
  | fedFailed _ step => exact (engineStep_untouched step).log.grows
  | drained step => exact (engineStep_untouched step).log.grows
  | stopped step => exact (engineStep_untouched step).log.grows
  | halted => exact List.prefix_rfl

section

variable {env : Env} {stack : ApplyPatch} {memory : Memory} {log : List Event} {patchSize : Nat}

theorem reaches_grows {before after : Config World}
    (reached : Reaches (driverStep (deltaCallbacks env) patchSize) before after) :
    before.world.log <+: after.world.log :=
  Reaches.invariant (fun config => before.world.log <+: config.world.log)
    (fun config grown =>
      grown.trans (driverStep_grows (driverStep_cases (deltaCallbacks env) patchSize config)))
    reached List.prefix_rfl

theorem runs_grows {config : Config World} (runs : Runs env stack memory log patchSize config) :
    log <+: config.world.log := reaches_grows runs

/-- The log of a state of a run that ends is part of the log at its end. -/
theorem runs_stopGrows {config final : Config World} {res : Int}
    (runs : Runs env stack memory log patchSize config)
    (stops : Runs env stack memory log patchSize final) (phase : final.phase = .stop res) :
    config.world.log <+: final.world.log := by
  have fixed : driverStep (deltaCallbacks env) patchSize final = final := by
    unfold driverStep
    rw [phase]
  exact reaches_grows (Reaches.last runs stops fixed)

theorem requestUpgrade_grows (env : Env) (res : Int) (world : World) :
    world.log <+: (requestUpgrade env res world).2.log := by
  have outcome := requestUpgrade_cases env res world
  generalize requestUpgrade env res world = upgraded at outcome
  cases outcome with
  | none => exact List.prefix_rfl
  | failed => exact List.prefix_append _ _
  | requested => exact (List.prefix_append _ _).trans (List.prefix_append _ _)

/-! ### The cursor -/

/-- A patch read that fails. -/
def Event.PatchReadFails : Event → Prop
  | .flash .deltaFlashPatchRead _ ok => ok = false
  | .refused .deltaFlashPatchRead => True
  | _ => False

instance : DecidablePred Event.PatchReadFails := fun event => by
  unfold Event.PatchReadFails
  split <;> infer_instance

/-- The patch cursor stands behind the header and the bytes that have been read. -/
def CursorAt (map : FlashMap) (patchOffset : Nat) (world : World) : Prop :=
  world.flash.patchCurrent = map.storage.offset + headerSize + patchOffset

/-- The engine and the cursor at the same offset of the patch, between two chunks or
in one. -/
structure Fetching (map : FlashMap) (patchSize patchOffset : Nat) (engine : ApplyPatch)
    (world : World) : Prop where
  running : engine.state ≠ .failed
  offset : engine.patchOffset = patchOffset
  cursor : CursorAt map patchOffset world
  below : patchOffset < map.storage.size
  aligned : 512 ∣ patchOffset ∨ patchOffset = patchSize

/-- The patch cursor of a run. -/
structure PatchPaced (map : FlashMap) (log : List Event) (patchSize : Nat)
    (config : Config World) : Prop where
  fetching : ∀ patchOffset,
    config.phase = .fetch patchOffset ∨ config.phase = .feed patchOffset →
      Fetching map patchSize patchOffset config.self config.world
  paced : config.self.state ≠ .failed →
    Extends (fun event => ¬ event.PatchReadFails) log config.world.log →
      CursorAt map config.self.patchOffset config.world

/-- A patch read that returns an error has recorded that it failed. -/
theorem patchRead_fails {world : World} {size : Nat}
    (failure : (deltaFlashPatchRead env world size).1 ≠ 0) :
    ∃ rest, (deltaFlashPatchRead env world size).2.2.log = world.log ++ rest ∧
      ∃ event ∈ rest, event.PatchReadFails := by
  have outcome := deltaFlashPatchRead_cases env world size
  generalize deltaFlashPatchRead env world size = read at failure outcome
  cases outcome with
  | empty =>
      exact ⟨_, rfl, .refused .deltaFlashPatchRead, List.mem_singleton_self _, trivial⟩
  | failed => exact ⟨_, rfl, _, List.mem_singleton_self _, rfl⟩
  | outside =>
      exact ⟨_, List.append_assoc _ _ _, .refused .deltaFlashPatchRead, by simp, trivial⟩
  | read => exact absurd rfl failure

/-- A chunk that has been read moves the cursor on by it. -/
theorem patchRead_moves {world : World} {engine : ApplyPatch} {patchOffset size : Nat}
    (live : Live env.map engine world)
    (fetching : Fetching env.map patchSize patchOffset engine world) (small : size ≤ 512)
    (success : (deltaFlashPatchRead env world size).1 = 0) :
    CursorAt env.map (patchOffset + size) (deltaFlashPatchRead env world size).2.2 ∧
      patchOffset + size < env.map.storage.size := by
  obtain ⟨within, outcome⟩ := deltaFlashPatchRead_accepted success
  have cursor := fetching.cursor
  have below := fetching.below
  have bound := env.map.storage.below
  unfold CursorAt at cursor
  have exact : intT (world.flash.patchCurrent + size) =
      env.map.storage.offset + headerSize + (patchOffset + size : Nat) := by
    rw [cursor, intT_of_fits (by unfold FitsInt headerSize; omega)]
    push_cast
    omega
  rw [outcome]
  refine ⟨exact, ?_⟩
  rw [exact, live.patchEnd] at within
  omega

/-- No patch read has failed in a log that goes on, if none has in the longer one. -/
theorem extends_before {Allowed : Event → Prop} {start middle after : List Event}
    (grown : start <+: middle) (longer : middle <+: after)
    (allowed : Extends Allowed start after) : Extends Allowed start middle := by
  obtain ⟨first, rfl⟩ := grown
  obtain ⟨second, rfl⟩ := longer
  obtain ⟨rest, same, holds⟩ := allowed
  rw [List.append_assoc, List.append_cancel_left_eq] at same
  exact ⟨first, rfl, fun event among => holds event (same ▸ List.mem_append_left _ among)⟩

theorem not_extends_of_fails {start middle rest : List Event} (grown : start <+: middle)
    (failed : ∃ event ∈ rest, event.PatchReadFails) :
    ¬ Extends (fun event => ¬ event.PatchReadFails) start (middle ++ rest) := by
  obtain ⟨first, rfl⟩ := grown
  rintro ⟨others, same, holds⟩
  rw [List.append_assoc, List.append_cancel_left_eq] at same
  obtain ⟨event, among, fails⟩ := failed
  exact holds event (same ▸ List.mem_append_right _ among) fails

/-- A step of the engine keeps the cursor. -/
theorem CursorAt.engine {self : ApplyPatch} {world : World} {stepped : Stepped World}
    {patchOffset : Nat} (cursor : CursorAt env.map patchOffset world)
    (step : EngineStep (deltaCallbacks env) self world stepped) :
    CursorAt env.map patchOffset stepped.world := (engineStep_untouched step).cursor.trans cursor

/-- A step of the engine keeps the cursor where the engine is. -/
theorem PatchPaced.engine {phase next : Phase} {self after : ApplyPatch} {world : World}
    {stepped : Stepped World} (paced : PatchPaced env.map log patchSize ⟨phase, self, world⟩)
    (grown : log <+: world.log) (step : EngineStep (deltaCallbacks env) self world stepped)
    (offset : after.patchOffset = stepped.self.patchOffset)
    (state : after.state = stepped.self.state)
    (stays : ∀ patchOffset, next = .fetch patchOffset ∨ next = .feed patchOffset →
      phase = next ∧ 0 ≤ stepped.res) :
    PatchPaced env.map log patchSize ⟨next, after, stepped.world⟩ := by
  have before (running : after.state ≠ .failed) : self.state ≠ .failed := fun failed =>
    running (state.trans (step.failed_stays failed))
  constructor
  · intro patchOffset fetches
    obtain ⟨rfl, nonneg⟩ := stays patchOffset fetches
    have fetching := paced.fetching patchOffset fetches
    have running : stepped.self.state ≠ .failed := fun failed =>
      absurd (step.failed_iff.mp failed) (not_lt.mpr nonneg)
    refine ⟨state ▸ running, ?_, fetching.cursor.engine step, fetching.below, fetching.aligned⟩
    exact offset.trans ((engineStep_patchOffset step running).trans fetching.offset)
  · intro running reads
    have same := engineStep_patchOffset step (state ▸ running)
    have earlier := extends_before grown (engineStep_untouched step).log.grows reads
    show CursorAt env.map after.patchOffset stepped.world
    rw [offset, same]
    exact (paced.paced (before running) earlier).engine step

theorem patchPaced_kept {before after : Config World} (grown : log <+: before.world.log)
    (live : before.self.state ≠ .failed → Live env.map before.self before.world)
    (step : DriverStep (deltaCallbacks env) patchSize before after)
    (paced : PatchPaced env.map log patchSize before) : PatchPaced env.map log patchSize after := by
  cases step with
  | @fetched patchOffset self world below success =>
      have fetching := paced.fetching patchOffset (Or.inl rfl)
      obtain ⟨cursor, fits⟩ :=
        patchRead_moves (live fetching.running) fetching (Nat.min_le_right _ _) success
      have bound := env.map.storage.below
      have moved : (loadChunk self
          (deltaFlashPatchRead env world (min (patchSize - patchOffset) 512)).2.1
          (min (patchSize - patchOffset) 512)).patchOffset =
          patchOffset + min (patchSize - patchOffset) 512 := by
        have offset : self.patchOffset = patchOffset := fetching.offset
        simp only [loadChunk, offset]
        exact sizeT_of_lt (by omega)
      have aligned : 512 ∣ patchOffset := by
        rcases fetching.aligned with chunks | all
        · exact chunks
        · omega
      refine ⟨fun offset fetches => ?_, fun _ _ => ?_⟩
      · simp only [reduceCtorEq, Phase.feed.injEq, false_or] at fetches
        rw [← fetches]
        refine ⟨fetching.running, moved, cursor, fits, ?_⟩
        omega
      · rw [← moved] at cursor
        exact cursor
  | @fetchFailed patchOffset self world below failure =>
      obtain ⟨rest, same, failed⟩ := patchRead_fails failure
      refine ⟨by simp, fun _ reads => ?_⟩
      change Extends _ log (deltaFlashPatchRead env world _).2.2.log at reads
      rw [same] at reads
      exact absurd reads (not_extends_of_fails grown failed)
  | @fetchedAll patchOffset self world all =>
      exact ⟨by simp, fun running reads => paced.paced running reads⟩
  | @used patchOffset self world empty =>
      refine ⟨fun offset fetches => ?_, fun running reads => paced.paced running reads⟩
      simp only [Phase.fetch.injEq, reduceCtorEq, or_false] at fetches
      rw [← fetches]
      exact paced.fetching patchOffset (Or.inr rfl)
  | fed available step nonneg =>
      exact paced.engine grown step rfl rfl fun _ _ => ⟨rfl, nonneg⟩
  | fedFailed available step negative => exact paced.engine grown step rfl rfl (by simp)
  | drained step => exact paced.engine grown step rfl rfl (by simp)
  | stopped step => exact paced.engine grown step rfl rfl (by simp)
  | halted => exact paced

/-- The patch cursor keeps pace in every state of a run. -/
theorem runs_patchPaced {config : Config World}
    (runs : Runs env stack memory log patchSize config) :
    PatchPaced env.map log patchSize config := by
  refine Visits.invariant_of (PatchPaced env.map log patchSize) ?_ ?_ runs
  · intro before after reached step paced
    exact patchPaced_kept (runs_grows reached) (fun running => runs_live reached running) step paced
  · refine ⟨fun patchOffset fetches => ?_, fun _ _ => ?_⟩
    · simp only [driverStart, Phase.fetch.injEq, reduceCtorEq, or_false] at fetches
      rw [← fetches]
      refine ⟨by simp [driverStart, detoolsApplyPatchInit], rfl, ?_, env.map.storage.positive,
        Or.inl (Dvd.intro 0 rfl)⟩
      simp [CursorAt, driverStart, startWorld, deltaInitFlashMem]
    · simp [CursorAt, driverStart, startWorld, deltaInitFlashMem, detoolsApplyPatchInit]

/-! ### All cursors -/

/-- Between two steps of a run in which no patch read has failed, the cursors of the flash
layer are the offsets of an engine that has read the header and has not failed. -/
theorem cursors_in_lockstep {config : Config World}
    (runs : Runs env stack memory log patchSize config) (opened : config.self.state ≠ .init)
    (running : config.self.state ≠ .failed)
    (reads : Extends (fun event => ¬ event.PatchReadFails) log config.world.log) :
    config.world.flash.toCurrent = env.map.secondary.offset + config.self.toOffset ∧
      config.world.flash.fromCurrent = intT (env.map.primary.offset + config.self.fromOffset) ∧
      config.world.flash.patchCurrent =
        env.map.storage.offset + headerSize + config.self.patchOffset ∧
      config.world.flash.writeBuf < pageSize ∧
      config.world.flash.toCurrent < config.world.flash.toEnd := by
  have live := runs_live runs running
  have slot := live.slot
  rw [produced_of_ne opened] at slot
  exact ⟨slot, live.source, (runs_patchPaced runs).paced running reads, live.counted, live.below⟩

end

/-- A patch for a target of the one byte 0xAA. -/
def oneBytePatch : List UInt8 := [0x04, 0x01, 0x44, 0x80, 0x40, 0x20, 0x3a, 0xa8, 0x00]

/-- The run over that patch, when the byte has been put out. -/
def onePutOut : Config World :=
  (driverStep (deltaCallbacks (Env.flawless buildMap)) 9)^[7]
    (driverStart (detoolsApplyPatchInit zeroStack 9)
      (startWorld buildMap (placeAt 0xf8000 (Script.packed oneBytePatch)) []))

theorem cursors_in_lockstep_onePutOut :
    onePutOut.self.toOffset = 1 ∧
      onePutOut.world.flash.toCurrent = buildMap.secondary.offset + onePutOut.self.toOffset ∧
      onePutOut.world.flash.fromCurrent =
        intT (buildMap.primary.offset + onePutOut.self.fromOffset) ∧
      onePutOut.world.flash.patchCurrent =
        buildMap.storage.offset + headerSize + onePutOut.self.patchOffset ∧
      onePutOut.world.flash.writeBuf < pageSize ∧
      onePutOut.world.flash.toCurrent < onePutOut.world.flash.toEnd :=
  ⟨by decide +kernel,
    @cursors_in_lockstep (Env.flawless buildMap) zeroStack
      (placeAt 0xf8000 (Script.packed oneBytePatch)) [] 9 onePutOut ⟨7, rfl⟩
      (by decide +kernel) (by decide +kernel) ⟨onePutOut.world.log, rfl, by decide +kernel⟩⟩

section

variable {env : Env} {stack : ApplyPatch} {memory : Memory} {log : List Event} {patchSize : Nat}

/-! ### The chunks that are read -/

/-- The event is a patch read, and the read is an allowed one. -/
def Event.PatchReadOnly (Allowed : FlashOp → Prop) (event : Event) : Prop :=
  ∀ op ok, event = .flash .deltaFlashPatchRead op ok → Allowed op

theorem patchReadOnly_other {Allowed : FlashOp → Prop} {event : Event}
    (other : ¬ event.FromPatchRead) : event.PatchReadOnly Allowed := by
  rintro op ok rfl
  exact absurd trivial other

/-- The read of a chunk that a state at the top of the loop asks for. -/
def ChunkRead (map : FlashMap) (patchSize patchOffset : Nat) : FlashOp :=
  .read (map.storage.offset + headerSize + patchOffset) (min (patchSize - patchOffset) 512)

/-- The chunks that the states of a run ask for. -/
def Requested (env : Env) (stack : ApplyPatch) (memory : Memory) (log : List Event)
    (patchSize : Nat) (op : FlashOp) : Prop :=
  ∃ patchOffset config, Runs env stack memory log patchSize config ∧
    config.phase = .fetch patchOffset ∧ patchOffset < patchSize ∧
    op = ChunkRead env.map patchSize patchOffset

theorem patchRead_only {Allowed : FlashOp → Prop} {start : List Event} {world : World}
    {size : Nat} (before : Extends (Event.PatchReadOnly Allowed) start world.log)
    (allowed : Allowed (.read world.flash.patchCurrent size)) :
    Extends (Event.PatchReadOnly Allowed) start (deltaFlashPatchRead env world size).2.2.log := by
  have read : ∀ ok, Event.PatchReadOnly Allowed
      (.flash .deltaFlashPatchRead (.read world.flash.patchCurrent size) ok) := by
    rintro ok op _ same
    cases same
    exact allowed
  have outcome := deltaFlashPatchRead_cases env world size
  generalize deltaFlashPatchRead env world size = outcome' at outcome
  cases outcome with
  | empty => exact before.record (by nofun)
  | failed => exact before.record (read _)
  | outside => exact (before.record (read _)).record (by nofun)
  | read => exact (before.record (read _)).record (by nofun)

theorem PatchUntouched.only {Allowed : FlashOp → Prop} {start : List Event} {before after : World}
    (same : PatchUntouched before after)
    (extended : Extends (Event.PatchReadOnly Allowed) start before.log) :
    Extends (Event.PatchReadOnly Allowed) start after.log := by
  obtain ⟨rest, log, others⟩ := same.log
  rw [log]
  exact extended.append fun event among => patchReadOnly_other (others event among)

/-- Every patch read of a run is the chunk that a state of the run asks for. -/
theorem runs_requested {config : Config World}
    (runs : Runs env stack memory log patchSize config) :
    Extends (Event.PatchReadOnly (Requested env stack memory log patchSize)) log
      config.world.log := by
  refine Visits.invariant_of (fun config =>
    Extends (Event.PatchReadOnly (Requested env stack memory log patchSize)) log config.world.log)
    ?_ (Extends.refl _ _) runs
  intro before after reached step extended
  have fetch {patchOffset : Nat} {self : ApplyPatch} {world : World}
      (reached : Runs env stack memory log patchSize ⟨.fetch patchOffset, self, world⟩)
      (below : patchOffset < patchSize) : Requested env stack memory log patchSize
        (.read world.flash.patchCurrent (min (patchSize - patchOffset) 512)) := by
    have cursor := ((runs_patchPaced reached).fetching patchOffset (Or.inl rfl)).cursor
    refine ⟨patchOffset, _, reached, rfl, below, ?_⟩
    rw [ChunkRead, ← cursor]
  cases step with
  | fetched below => exact patchRead_only extended (fetch reached below)
  | fetchFailed below => exact patchRead_only extended (fetch reached below)
  | fetchedAll => exact extended
  | used => exact extended
  | fed _ step => exact (engineStep_untouched step).only extended
  | fedFailed _ step => exact (engineStep_untouched step).only extended
  | drained step => exact (engineStep_untouched step).only extended
  | stopped step => exact (engineStep_untouched step).only extended
  | halted => exact extended

/-- A chunk that a state asks for is read next. -/
theorem fetch_issues {patchOffset : Nat} {config : Config World}
    (runs : Runs env stack memory log patchSize config) (phase : config.phase = .fetch patchOffset)
    (below : patchOffset < patchSize) :
    ∃ ok, .flash .deltaFlashPatchRead (ChunkRead env.map patchSize patchOffset) ok ∈
      (driverStep (deltaCallbacks env) patchSize config).world.log := by
  have step := driverStep_cases (deltaCallbacks env) patchSize config
  have cursor := ((runs_patchPaced runs).fetching patchOffset (Or.inl phase)).cursor
  unfold CursorAt at cursor
  generalize driverStep (deltaCallbacks env) patchSize config = after at step
  have issues : ∃ ok, .flash .deltaFlashPatchRead (ChunkRead env.map patchSize patchOffset) ok ∈
      (deltaFlashPatchRead env config.world (min (patchSize - patchOffset) 512)).2.2.log := by
    have outcome := deltaFlashPatchRead_cases env config.world (min (patchSize - patchOffset) 512)
    rw [ChunkRead, ← cursor]
    generalize deltaFlashPatchRead env config.world (min (patchSize - patchOffset) 512) = read
      at outcome
    cases outcome with
    | empty zero => omega
    | failed => exact ⟨false, by simp⟩
    | outside => exact ⟨true, by simp [World.patchRead]⟩
    | read => exact ⟨true, by simp [World.patchRead]⟩
  cases step with
  | fetched =>
      cases phase
      exact issues
  | fetchFailed =>
      cases phase
      exact issues
  | fetchedAll all =>
      cases phase
      exact absurd below all
  | _ => cases phase

end

end DeltaUpdate.Delta
