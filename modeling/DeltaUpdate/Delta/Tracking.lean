import DeltaUpdate.Delta.Simulation

/-!
Owns the run of a call as a reading of the stored patch. In every state of the run the engine
stands where the machine stands that has read the bytes up to there, so the run upgrades
only if the machine accepts, and does upgrade if the machine accepts and the device works.
-/

namespace DeltaUpdate.Delta

open DeltaUpdate.Detools
open DeltaUpdate.Heatshrink
open DeltaUpdate.Library
open DeltaUpdate.Patch

/-! ### A stored patch -/

/-- The verdict of the machine on a body. -/
def bodyVerdict (task : Task) (body : List UInt8) : Option Progress :=
  ((unpackBody body).map Prod.fst).map (feedAll task startProgress)

/-- The bits behind the last token of a body. -/
def bodyPadding (body : List UInt8) : Option (List Bool) := (unpackBody body).map Prod.snd

/-- The memory holds the patch behind the header, and no byte of it in the secondary slot. -/
structure StoredPatch (map : FlashMap) (memory : Memory) (patch : List UInt8) : Prop where
  stores : Stores memory (map.storage.offset + headerSize) patch
  apart : ∀ address : Int, map.storage.offset + headerSize ≤ address →
    address < map.storage.offset + headerSize + patch.length → ¬ map.secondary.Contains address

/-- The bytes of the patch that the engine has not read. -/
def toCome (patch : List UInt8) : Phase → ApplyPatch → List UInt8
  | .fetch patchOffset, _ => patch.drop patchOffset
  | .feed patchOffset, self => self.chunk.bytes ++ patch.drop patchOffset
  | .drain _, self => self.chunk.bytes
  | .stop _, _ => []

/-- Nothing has failed yet. -/
def StillOpen : Phase → Prop
  | .fetch _ => True
  | .feed _ => True
  | .drain res => res = 0
  | .stop _ => False

/-- The engine and the machine at the same place, or a stream that is not accepted. -/
inductive Simulated (env : Env) (task : Task) (verdict : Option Progress)
    (padding : Option (List Bool)) (image : List UInt8) (self : ApplyPatch) (world : World)
    (future : List UInt8) : Prop
  | follows {history : List UInt8} {progress : Progress}
      (matched : Matched task verdict padding history progress self.patchReader future)
      (following : Following env.map task image self world progress)
  | hopeless (refused : ¬ Alive verdict)
      (cause : task.low ≠ lowestSource env.map ∨ Doomed self)

/-- Where an engine that has not failed stands in the patch. -/
inductive Tracking (env : Env) (task : Task) (patch image : List UInt8) (self : ApplyPatch)
    (world : World) (future : List UInt8) : Prop
  | unread (state : self.state = .init) (whole : future = patch) (bounded : Bounded self)
      (source : self.fromOffset = 0) (quiet : handedImage world.log = image)
  | empty {typeByte : UInt8} {body : List UInt8} (header : Header typeByte 0 body patch)
      (state : self.state = .done) (zero : self.toSize = 0)
  | reading {typeByte : UInt8} {declared : Int} {body : List UInt8}
      (header : Header typeByte declared body patch) (nonzero : declared ≠ 0)
      (simulated : Simulated env task (bodyVerdict task body) (bodyPadding body) image self world
        future)

section

variable {env : Env} {task : Task} {memory : Memory} {patch image later : List UInt8}
variable {self : ApplyPatch} {world : World} {stepped : Stepped World}

/-! ### Steps of the engine -/

/-- The header that the engine opens is that of the patch. -/
theorem tracking_opened (whole : self.chunk.bytes ++ later = patch) (bounded : Bounded self)
    (source : self.fromOffset = 0) (quiet : handedImage world.log = image)
    (slot : SlotTask env.map memory task)
    (sized : ∀ typeByte declared body, Header typeByte declared body patch →
      task.targetSize = declared.natAbs)
    (state : self.state = .init) (header : (processInit self).1 = 0) :
    Tracking env task patch image (processInit self).2 world
      ((processInit self).2.chunk.bytes ++ later) := by
  have opened := processInit_opened header
  obtain ⟨declared, body, found⟩ := opened.patch later
  obtain ⟨typeByte, header'⟩ := found.header
  rw [whole] at header'
  by_cases zero : declared = 0
  · have none : (processInit self).2.toSize = 0 := by rw [found.size, zero]; rfl
    subst zero
    exact .empty header' (by rw [opened.state, none]; rfl) none
  · have bound := env.map.primary.below
    have nonempty := env.map.primary.positive
    have high := slot.high
    have step : EngineStep (deltaCallbacks env) self world ⟨0, (processInit self).2, world⟩ :=
      .opened state header
    obtain ⟨matched, aligned⟩ := aligned_opened bounded state header step found zero
      (sized _ _ _ header') slot.start (by omega)
    refine .reading header' zero (.follows matched (.of_aligned aligned ?_ fun _ => ?_))
    · rw [opened.fromOffset, source, intT_of_fits (by unfold FitsInt; omega)]
      rfl
    · exact quiet.trans (List.append_nil image).symm

/-- A step that does not fail goes on in the patch. -/
theorem Tracking.step
    (tracking : Tracking env task patch image self world (self.chunk.bytes ++ later))
    (live : Live env.map self world) (undisturbed : Undisturbed env.map memory world)
    (slot : SlotTask env.map memory task)
    (sized : ∀ typeByte declared body, Header typeByte declared body patch →
      task.targetSize = declared.natAbs)
    (step : EngineStep (deltaCallbacks env) self world stepped)
    (running : stepped.self.state ≠ .failed) :
    Tracking env task patch image stepped.self stepped.world
      (stepped.self.chunk.bytes ++ later) := by
  cases tracking with
  | unread state whole bounded source quiet =>
      have other {name : ApplyPatchState} (same : self.state = name) : name = .init :=
        same.symm.trans state
      cases step with
      | rejected _ _ _ failed => exact absurd failed running
      | finished => exact absurd rfl running
      | opened state header =>
          exact tracking_opened whole bounded source quiet slot sized state header
      | waitingSize states => exact absurd state states.running.1
      | waitingBlock states => exact absurd state (readsBlock_running states).1
      | dfpatch same => exact absurd (other same) (by decide)
      | sized states => exact absurd state states.reads.1.running.1
      | emptied states => exact absurd state (readsBlock_running states.reads.1).1
      | sourceFailed => exact absurd rfl running
      | wrote _ _ gathered => exact absurd state (readsBlock_running gathered.frame.1).1
      | writeFailed => exact absurd rfl running
      | sought same => exact absurd (other same) (by decide)
      | seekFailed => exact absurd rfl running
  | empty _ state =>
      rw [step.of_done state] at running
      exact absurd rfl running
  | reading header nonzero simulated =>
      refine .reading header nonzero ?_
      cases simulated with
      | follows matched following =>
          cases following.step live undisturbed slot matched step with
          | moved _ matched following => exact .follows matched following
          | waiting _ matched following => exact .follows matched following
          | hopeless refused cause => exact .hopeless refused (cause running)
          | finished _ _ same => rw [same] at running; exact absurd rfl running
          | device failed => exact absurd (step.failed_iff.mpr failed) running
      | hopeless refused cause =>
          exact .hopeless refused (cause.imp_right fun doomed => doomed.step live step running)

/-! ### Chunks -/

/-- An engine that follows the machine goes on following when it is given a chunk. -/
theorem Following.chunked {map : FlashMap} {progress : Progress} {next : World}
    (following : Following map task image self world progress)
    (same : handedImage next.log = handedImage world.log) (patchOffset : Nat) (chunk : Chunk) :
    Following map task image { self with patchOffset := patchOffset, chunk := chunk } next
      progress :=
  .of_aligned (following.aligned.chunked patchOffset chunk) following.cursor fun low =>
    same.trans (following.image low)

theorem Tracking.chunked {future : List UInt8} {next : World}
    (tracking : Tracking env task patch image self world future)
    (same : handedImage next.log = handedImage world.log) (patchOffset : Nat) (chunk : Chunk) :
    Tracking env task patch image { self with patchOffset := patchOffset, chunk := chunk } next
      future := by
  cases tracking with
  | unread state whole bounded source quiet =>
      refine .unread state whole ⟨⟨bounded.unread, bounded.opened, bounded.declared⟩, fun set => ?_⟩
        source (same.trans quiet)
      exact ⟨(bounded.output set).offset, (bounded.output set).chunk⟩
  | empty header state zero => exact .empty header state zero
  | reading header nonzero simulated =>
      refine .reading header nonzero ?_
      cases simulated with
      | follows matched following => exact .follows matched (following.chunked same _ _)
      | hopeless refused cause =>
          exact .hopeless refused (cause.imp_right fun doomed => ⟨doomed.data, doomed.beyond⟩)

theorem loadChunk_bytes (self : ApplyPatch) (data : Nat → UInt8) (size : Nat) :
    (loadChunk self data size).chunk.bytes = (List.range size).map data := by
  simp [loadChunk, Chunk.bytes, chunkLeft]

/-- A chunk that has been read is the next part of the stored patch. -/
theorem patchRead_bytes (stored : StoredPatch env.map memory patch)
    (undisturbed : Undisturbed env.map memory world) {patchOffset size : Nat}
    (cursor : CursorAt env.map patchOffset world) (within : patchOffset + size ≤ patch.length)
    (success : (deltaFlashPatchRead env world size).1 = 0) :
    (List.range size).map (deltaFlashPatchRead env world size).2.1 =
        (patch.drop patchOffset).take size ∧
      (deltaFlashPatchRead env world size).2.2.memory = world.memory := by
  have stores : Stores world.memory (env.map.storage.offset + headerSize) patch :=
    stored.stores.of_same fun address low high =>
      undisturbed address (stored.apart address low high)
  have bytes := stores.read within
  unfold CursorAt at cursor
  rw [← cursor] at bytes
  rw [(deltaFlashPatchRead_accepted success).2]
  exact ⟨bytes, rfl⟩

/-! ### Runs -/

/-- The loops after the last chunk have a patch that fits into the partition, or an error. -/
def Drained (env : Env) (patchSize : Nat) (config : Config World) : Prop :=
  ∀ res, config.phase = .drain res → res ≤ 0 ∧
    (res = 0 → config.self.state ≠ .failed →
      chunkLeft config.self.chunk = 0 ∧ patchSize < env.map.storage.size)

theorem drained_of_error {self : ApplyPatch} {world : World} {res : Int} {patchSize : Nat}
    (negative : res < 0) : Drained env patchSize ⟨.drain res, self, world⟩ := by
  intro other same
  cases same
  exact ⟨negative.le, fun zero => absurd zero negative.ne⟩

theorem drained_kept {patchSize : Nat} {before after : Config World} {log : List Event}
    (paced : PatchPaced env.map log patchSize before)
    (step : DriverStep (deltaCallbacks env) patchSize before after)
    (drained : Drained env patchSize before) : Drained env patchSize after := by
  cases step with
  | fetchFailed => exact drained_of_error (DetoolsError.result_neg _)
  | fedFailed _ _ negative => exact drained_of_error negative
  | @fetchedAll patchOffset self world all =>
      have fetching := paced.fetching patchOffset (Or.inl rfl)
      intro res same
      cases same
      exact ⟨le_refl 0, fun _ _ => ⟨rfl, lt_of_le_of_lt (not_lt.mp all) fetching.below⟩⟩
  | @drained res self world stepped step again =>
      have running : stepped.self.state ≠ .failed := mt step.failed_iff.mp (by omega)
      intro other same
      cases same
      obtain ⟨nonpositive, empty⟩ := drained res rfl
      refine ⟨nonpositive, fun zero _ => ?_⟩
      obtain ⟨none, small⟩ := empty zero fun failed => running (step.failed_stays failed)
      exact ⟨Nat.eq_zero_of_le_zero (none ▸ step.chunkLeft running), small⟩
  | halted => exact drained
  | _ => nofun

theorem runs_drained {stack : ApplyPatch} {log : List Event} {patchSize : Nat}
    {config : Config World} (runs : Runs env stack memory log patchSize config) :
    Drained env patchSize config :=
  Visits.invariant_of (Drained env patchSize)
    (fun _ _ reached step drained => drained_kept (runs_patchPaced reached) step drained)
    (by nofun) runs

/-- The engine and the machine in a state of a run. -/
structure Tracked (env : Env) (memory : Memory) (task : Task) (patch image : List UInt8)
    (config : Config World) : Prop where
  undisturbed : config.self.state ≠ .failed → StillOpen config.phase →
    Undisturbed env.map memory config.world
  tracking : config.self.state ≠ .failed → StillOpen config.phase →
    Tracking env task patch image config.self config.world
      (toCome patch config.phase config.self)

theorem Undisturbed.step (undisturbed : Undisturbed env.map memory world)
    (step : EngineStep (deltaCallbacks env) self world stepped) (live : Live env.map self world)
    (running : stepped.self.state ≠ .failed) : Undisturbed env.map memory stepped.world :=
  fun address outside => (engineStep_memory step live running outside).trans
    (undisturbed address outside)

/-- A step of the run keeps the engine and the machine together. -/
theorem tracked_kept (stored : StoredPatch env.map memory patch)
    (slot : SlotTask env.map memory task)
    (sized : ∀ typeByte declared body, Header typeByte declared body patch →
      task.targetSize = declared.natAbs) {before after : Config World}
    (live : before.self.state ≠ .failed → Live env.map before.self before.world) {log : List Event}
    (paced : PatchPaced env.map log patch.length before)
    (step : DriverStep (deltaCallbacks env) patch.length before after)
    (tracked : Tracked env memory task patch image before) :
    Tracked env memory task patch image after := by
  cases step with
  | @fetched patchOffset self world below success =>
      have fetching := paced.fetching patchOffset (Or.inl rfl)
      have undisturbed := tracked.undisturbed fetching.running trivial
      have within : patchOffset + min (patch.length - patchOffset) 512 ≤ patch.length := by omega
      obtain ⟨bytes, same⟩ :=
        patchRead_bytes stored undisturbed fetching.cursor within success
      have tracking := (tracked.tracking fetching.running trivial).chunked
        ((deltaFlashPatchRead_records env world (min (patch.length - patchOffset) 512)).sameImage
          (by decide))
        (sizeT (self.patchOffset + min (patch.length - patchOffset) 512))
        (loadChunk self (deltaFlashPatchRead env world (min (patch.length - patchOffset) 512)).2.1
          (min (patch.length - patchOffset) 512)).chunk
      refine ⟨fun _ _ address outside => ?_, fun _ _ => ?_⟩
      · exact (congrFun same address).trans (undisturbed address outside)
      · have whole : toCome patch (.feed (patchOffset + min (patch.length - patchOffset) 512))
            (loadChunk self (deltaFlashPatchRead env world
              (min (patch.length - patchOffset) 512)).2.1 (min (patch.length - patchOffset) 512)) =
              patch.drop patchOffset := by
          rw [toCome, loadChunk_bytes, bytes, ← List.drop_drop, List.take_append_drop]
        show Tracking _ _ _ _ _ _ (toCome patch (.feed _) (loadChunk self
          (deltaFlashPatchRead env world (min (patch.length - patchOffset) 512)).2.1 _))
        rw [whole]
        exact tracking
  | fetchFailed =>
      have negative := DetoolsError.result_neg .ioFailed
      exact ⟨fun _ zero => absurd zero negative.ne, fun _ zero => absurd zero negative.ne⟩
  | @fetchedAll patchOffset self world all =>
      have fetching := paced.fetching patchOffset (Or.inl rfl)
      have tracking := (tracked.tracking fetching.running trivial).chunked rfl self.patchOffset
        (clearChunk self).chunk
      have nothing : patch.drop patchOffset = [] := List.drop_of_length_le (not_lt.mp all)
      refine ⟨fun running _ => tracked.undisturbed running trivial, fun _ _ => ?_⟩
      have empty : toCome patch (.drain 0) (clearChunk self) = [] := chunk_bytes_nil rfl
      rw [empty, ← nothing]
      exact tracking
  | @used patchOffset self world empty =>
      refine ⟨fun running _ => tracked.undisturbed running trivial, fun running _ => ?_⟩
      have tracking := tracked.tracking running trivial
      rw [toCome, chunk_bytes_nil empty] at tracking
      exact tracking
  | @fed patchOffset self world stepped available step nonneg =>
      have running (failed : stepped.self.state = .failed) : False :=
        absurd (step.failed_iff.mp failed) (not_lt.mpr nonneg)
      have before : self.state ≠ .failed := fun failed => running (step.failed_stays failed)
      have undisturbed := tracked.undisturbed before trivial
      exact ⟨fun _ _ => undisturbed.step step (live before) running,
        fun _ _ => (tracked.tracking before trivial).step (live before) undisturbed slot sized step
          running⟩
  | fedFailed available step negative =>
      exact ⟨fun _ zero => absurd zero negative.ne, fun _ zero => absurd zero negative.ne⟩
  | @drained res self world stepped step again =>
      have running (failed : stepped.self.state = .failed) : False :=
        absurd (step.failed_iff.mp failed) (by omega)
      have before : self.state ≠ .failed := fun failed => running (step.failed_stays failed)
      refine ⟨fun _ zero => (tracked.undisturbed before zero).step step (live before) running,
        fun _ zero => ?_⟩
      have tracking := tracked.tracking before zero
      have next : Tracking env task patch image self world (self.chunk.bytes ++ []) := by
        rw [List.append_nil]
        exact tracking
      have after :=
        next.step (live before) (tracked.undisturbed before zero) slot sized step running
      rw [List.append_nil] at after
      exact after
  | stopped => exact ⟨fun _ => False.elim, fun _ => False.elim⟩
  | halted => exact tracked

/-- The engine and the machine are together in every state of a run. -/
theorem runs_tracked (stored : StoredPatch env.map memory patch)
    (slot : SlotTask env.map memory task)
    (sized : ∀ typeByte declared body, Header typeByte declared body patch →
      task.targetSize = declared.natAbs) {stack : ApplyPatch} {log : List Event}
    {config : Config World} (runs : Runs env stack memory log patch.length config) :
    Tracked env memory task patch (handedImage log) config := by
  refine Visits.invariant_of (Tracked env memory task patch (handedImage log)) ?_ ?_ runs
  · intro before after reached step tracked
    exact tracked_kept stored slot sized (fun running => runs_live reached running)
      (runs_patchPaced reached) step tracked
  · refine ⟨fun _ _ _ _ => rfl, fun _ _ => .unread rfl rfl ⟨readerSound_init stack _, fun set => ?_⟩
      rfl rfl⟩
    simp [driverStart, detoolsApplyPatchInit] at set

end

end DeltaUpdate.Delta
