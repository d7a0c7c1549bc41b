import DeltaUpdate.Delta.Deployment

/-!
Owns chains of updates. An update flashes a patch, applies it in a call and boots the slot
it was written to. On images an update is the patch applied to the image, and a chain of
updates on a device does to the primary slot what the patches do to the image.
-/

namespace DeltaUpdate.Delta

open DeltaUpdate.Detools
open DeltaUpdate.Library
open DeltaUpdate.Patch

/-! ### Images -/

/-- The image that the contents of a patch make of an image. -/
def patched (image : List UInt8) (contents : Contents) : List UInt8 :=
  target (fun position => image.getD position.toNat 0) contents.records

/-- The records read inside an image of a length. -/
def ReadsInside (length : Nat) (position : Int) : List Record → Prop
  | [] => True
  | record :: records =>
      (record.diff ≠ [] → 0 ≤ position ∧ position + record.diff.length ≤ length) ∧
        ReadsInside length (record.positionAfter position) records

instance decidableReadsInside (length : Nat) :
    (position : Int) → (records : List Record) → Decidable (ReadsInside length position records)
  | _, [] => isTrue trivial
  | position, record :: records =>
      have := decidableReadsInside length (record.positionAfter position) records
      inferInstanceAs (Decidable (_ ∧ _))

/-- Records that stay inside an image read inside it. -/
theorem readsInside_of_fits {length : Nat} {position : Int} {records : List Record}
    (fits : FitsFrom 0 (length + 1) position records) (low : 0 ≤ position) :
    ReadsInside length position records := by
  induction records generalizing position with
  | nil => trivial
  | cons record records inductionHypothesis =>
      obtain ⟨reads, ⟨above, -⟩, rest⟩ := fits
      exact ⟨fun some => ⟨low, Int.lt_add_one_iff.mp (reads some)⟩,
        inductionHypothesis rest above⟩

/-- What a source holds outside the image that is read does not matter. -/
theorem targetFrom_inside {first second : Int → UInt8} {length : Nat} {position : Int}
    {records : List Record}
    (same : ∀ position : Int, 0 ≤ position → position < length →
      first position = second position)
    (inside : ReadsInside length position records) :
    targetFrom first position records = targetFrom second position records := by
  induction records generalizing position with
  | nil => rfl
  | cons record records inductionHypothesis =>
      obtain ⟨reads, rest⟩ := inside
      have block : record.output first position = record.output second position := by
        unfold Record.output
        congr 1
        apply List.ext_getElem
        · simp
        · intro index below _
          simp only [List.length_mapIdx] at below
          obtain ⟨low, high⟩ := reads (List.ne_nil_of_length_pos (by omega))
          simp only [List.getElem_mapIdx]
          rw [same _ (by omega) (by omega)]
      rw [targetFrom, targetFrom, block, inductionHypothesis rest]

/-! ### The slot behind an upgrade -/

/-- A block that is written without a failure is written as on a device that works. -/
theorem SameWriter.unfailed {env : Env} {first second : World} (same : SameWriter first second)
    {block : List UInt8}
    (unfailed : ∀ event ∈ (deltaFlashWrite env first block).2.log, ¬ event.IsFailure) :
    SameWriter (deltaFlashWrite env first block).2
      (deltaFlashWrite (Env.flawless env.map) second block).2 := by
  obtain ⟨other, otherPrepared, memory, flash⟩ :=
    @deltaFlashWrite_works (Env.flawless env.map) (fun _ _ => rfl) second block
  have outcome := deltaFlashWrite_cases env first block
  have recorded {log : List Event} {event : Event}
      (clean : ∀ earlier ∈ log ++ [event], ¬ earlier.IsFailure) : ¬ event.IsFailure :=
    clean event (List.mem_append_right _ (List.mem_singleton_self _))
  generalize deltaFlashWrite env first block = written at outcome unfailed ⊢
  cases outcome with
  | eraseFailed => exact absurd rfl (recorded unfailed)
  | writeFailed => exact absurd rfl (recorded unfailed)
  | full => exact absurd trivial (recorded unfailed)
  | wrote prepared =>
      have alike := (same.prepared prepared otherPrepared).written block
      exact ⟨alike.memory.trans memory.symm, by rw [flash]; exact alike.toCurrent,
        by rw [flash]; exact alike.writeBuf⟩

/-- Without a failure on record, the slot is as the blocks make it. -/
theorem slotReplayed_unfailed (env : Env) (start : World) :
    KeptByCallbacks env fun world =>
      (∀ event ∈ world.log, ¬ event.IsFailure) → SlotReplayed env.map start world where
  source world size holds unfailed :=
    (holds fun event among => unfailed event
      ((deltaFlashFromRead_records env world size).grows.subset among)).sourceRead env size
  seek world offset holds unfailed :=
    (holds fun event among => unfailed event
      ((deltaFlashSeek_records world offset).grows.subset among)).sought offset
  patch world size holds unfailed :=
    (holds fun event among => unfailed event
      ((deltaFlashPatchRead_records env world size).grows.subset among)).patchRead env size
  write world block _ nonempty small holds unfailed :=
    have replayed := holds fun event among => unfailed event
      ((deltaFlashWrite_records env world block).grows.subset among)
    replayed.wrote nonempty small (replayed.same.unfailed unfailed)

section

variable (storage : { partition : Partition // partition.offset = 0xf8000 })

/-- What a patch makes of the primary slot, it makes of the image there. -/
theorem target_patched {map : FlashMap} {memory : Memory} {image : List UInt8}
    {contents : Contents} (holds : Stores memory map.primary.offset image)
    (inside : ReadsInside image.length 0 contents.records) :
    Patch.target (primarySource map memory) contents.records = patched image contents := by
  refine targetFrom_inside (fun position low high => ?_) inside
  rw [← holds _ (by omega), primarySource, Int.toNat_of_nonneg low]

/-- A call that requests an upgrade leaves the patched image in the secondary slot, whatever
fails in it and wherever it is cut short. -/
theorem requested_image {memory : Memory} {patch image : List UInt8} {contents : Contents}
    {attempt : Attempt} (deliverable : Deliverable (deviceMap storage) memory patch contents)
    (holds : Stores memory (deviceMap storage).primary.offset image)
    (inside : ReadsInside image.length 0 contents.records)
    (requests : attempt.Requests (deviceMap storage) memory)
    (inStep : InStep pageSize
      ((handedBlocks (attempt.events (deviceMap storage) memory)).map List.length)) :
    (patched image contents).length < (deviceMap storage).secondary.size ∧
      Stores (replay memory (attempt.events (deviceMap storage) memory))
        (deviceMap storage).secondary.offset (patched image contents) := by
  obtain ⟨held, formed, room, target, source⟩ := deliverable
  have lenient := formed.lenient
  have small : patch.length < (deviceMap storage).storage.size := by
    unfold headerSize at room
    omega
  have image_target := target_patched holds inside
  have length : (patched image contents).length < (deviceMap storage).secondary.size := by
    rw [patched, Patch.target, targetFrom_length, lenient.encodes.reaches.total]
    exact target
  have cut := attempt.events_cut (deviceMap storage) memory
  obtain ⟨event, among, request⟩ := requests
  obtain ⟨res, self, after, call, positive, -, quiet, runs⟩ :=
    @requested_run ⟨deviceMap storage, attempt.fails, attempt.upgradeFails⟩ attempt.stack
      attempt.flash memory ⟨event, cut.subset among, request⟩
  -- a run with a positive result has recorded no failure
  have unfailed : ∀ event ∈ after.log, ¬ event.IsFailure := by
    intro event recorded failure
    have reported := runs_reported runs (by simp [engineLog, headerEvents, Event.IsFailure])
      (by simp [engineLog, headerEvents, Event.Requests])
    obtain ⟨error, negative, drain | stop⟩ := reported.error event recorded failure
    · cases drain
    · cases stop
      omega
  have recorded := callOn_recorded ⟨deviceMap storage, attempt.fails, attempt.upgradeFails⟩
    attempt.stack attempt.flash memory
  obtain ⟨same, closing⟩ := requestUpgrade_closing
    ⟨deviceMap storage, attempt.fails, attempt.upgradeFails⟩ res after
  unfold Attempt.call at cut
  rw [call] at cut recorded
  have behind := requested_behind cut ⟨event, among, request⟩ quiet
  rw [same, closing.closingMemory] at recorded
  rw [behind.closingBlocks] at inStep
  rw [behind.closingMemory, ← recorded]
  rw [held.length] at runs
  have reads := source.mono (lowestSource_neg (deviceMap storage)).le (le_refl _)
  have handed := (runs_target storage rfl held lenient small reads positive runs).trans
    image_target
  obtain ⟨start, written, started⟩ := slotReplayed_start (deviceMap storage) memory
  have replayed := (slotReplayed_unfailed
    ⟨deviceMap storage, attempt.fails, attempt.upgradeFails⟩ start).runs runs
    (fun _ => started) unfailed
  have slot := replayed.stores written (by rw [handed]; exact length) inStep
  rw [handed] at slot
  exact ⟨length, slot⟩

end

/-! ### Updates -/

/-- An update: the patch that is flashed, the call that applies it, and the flash when the
new image has been booted. -/
structure Update where
  image : Memory
  patch : List UInt8
  contents : Contents
  attempt : Attempt
  booted : Memory

/-- What happens up to the reboot. -/
def Update.call (update : Update) : List Happening :=
  [.patchFlashed update.image, .called update.attempt]

/-- What happens in an update. -/
def Update.life (update : Update) : List Happening :=
  update.call ++ [.restWritten update.booted]

/-- The image of a slot is in the other one. -/
def Promoted (map : FlashMap) (before after : Memory) : Prop :=
  ∀ index : Nat, index < map.secondary.size →
    after (map.primary.offset + index) = before (map.secondary.offset + index)

/-- An update that succeeds: the patch is well formed and reads inside the image, the call
leads to the upgrade, the blocks of the target keep step with the pages, and the bootloader
boots the slot. -/
structure Update.Succeeds (update : Update) (map : FlashMap) (memory : Memory) (length : Nat) :
    Prop where
  deliverable : Deliverable map update.image update.patch update.contents
  inside : ReadsInside length 0 update.contents.records
  upgrades : update.attempt.Upgrades map (reflashed map update.image memory)
  inStep : InStep pageSize ((handedBlocks
    (update.attempt.events map (reflashed map update.image memory))).map List.length)
  boots : Promoted map (memoryBehind map memory update.call) update.booted

/-- Updates that succeed one after the other. -/
def UpdatesSucceed (map : FlashMap) (memory : Memory) (image : List UInt8) :
    List Update → Prop
  | [] => True
  | update :: updates =>
      update.Succeeds map memory image.length ∧
        UpdatesSucceed map (memoryBehind map memory update.life) (patched image update.contents)
          updates

section

variable (storage : { partition : Partition // partition.offset = 0xf8000 })

/-- The slots lie below the patch partition. -/
theorem reflashed_primary (image memory : Memory) {position : Int}
    (high : position < (deviceMap storage).primary.size) :
    primarySource (deviceMap storage) (reflashed (deviceMap storage) image memory) position =
      primarySource (deviceMap storage) memory position := by
  have layout := deviceMap_layout storage
  exact if_neg (by omega)

/-- The call of an update leaves the patched image in the secondary slot. -/
theorem update_slot {update : Update} {memory : Memory} {image : List UInt8}
    (holds : Stores memory (deviceMap storage).primary.offset image)
    (fits : image.length ≤ (deviceMap storage).primary.size)
    (succeeds : update.Succeeds (deviceMap storage) memory image.length) :
    (patched image update.contents).length < (deviceMap storage).secondary.size ∧
      Stores (memoryBehind (deviceMap storage) memory update.call)
        (deviceMap storage).secondary.offset (patched image update.contents) := by
  obtain ⟨deliverable, inside, upgrades, inStep, -⟩ := succeeds
  have flashed : Deliverable (deviceMap storage)
      (reflashed (deviceMap storage) update.image memory) update.patch update.contents :=
    deliverable.kept storage fun address within =>
      @reflashed_inside (deviceMap storage) update.image memory address within
  have stored : Stores (reflashed (deviceMap storage) update.image memory)
      (deviceMap storage).primary.offset image := fun index below => by
    rw [← holds index below]
    exact reflashed_primary storage _ _ (by omega)
  exact requested_image storage flashed stored inside upgrades.requests inStep

/-- An update that succeeds leaves the patched image in the primary slot. -/
theorem update_image {update : Update} {memory : Memory} {image : List UInt8}
    (holds : Stores memory (deviceMap storage).primary.offset image)
    (fits : image.length ≤ (deviceMap storage).primary.size)
    (succeeds : update.Succeeds (deviceMap storage) memory image.length) :
    Stores (memoryBehind (deviceMap storage) memory update.life)
      (deviceMap storage).primary.offset (patched image update.contents) := by
  obtain ⟨length, slot⟩ := update_slot storage holds fits succeeds
  obtain ⟨-, primaryEnd, slotStart, -, patchStart⟩ := deviceMap_layout storage
  intro index below
  have booted : memoryBehind (deviceMap storage) memory update.life
      ((deviceMap storage).primary.offset + index) =
        update.booted ((deviceMap storage).primary.offset + index) := by
    have sizes : (deviceMap storage).primary.size = (deviceMap storage).secondary.size := rfl
    rw [Update.life, memoryBehind_append]
    exact reflashed_primary storage _ _ (by omega)
  rw [booted, succeeds.boots index (by omega)]
  exact slot index below

/-- The flash when the bootloader has put the secondary slot in the place of the primary. -/
def promote (map : FlashMap) (memory : Memory) : Memory := fun address =>
  if map.primary.offset ≤ address ∧ address < map.primary.offset + map.secondary.size
  then memory (address + (map.secondary.offset - map.primary.offset)) else memory address

theorem promote_promotes (map : FlashMap) (memory : Memory) :
    Promoted map memory (promote map memory) := by
  intro index below
  refine (if_pos ⟨by omega, by omega⟩).trans (congrArg memory ?_)
  omega

/-- An update with the patch of one byte. -/
def oneByteUpdate (booted : Memory) : Update where
  image := placeAt 0xf8000 (Script.packed oneBytePatch)
  patch := oneBytePatch
  contents := oneByteContents
  attempt := flawlessAttempt
  booted := booted

theorem oneByteUpdate_succeeds {memory booted : Memory} (length : Nat)
    (upgrades : (oneByteUpdate booted).attempt.Upgrades buildMap
      (reflashed buildMap (oneByteUpdate booted).image memory))
    (short : ((handedBlocks ((oneByteUpdate booted).attempt.events buildMap
      (reflashed buildMap (oneByteUpdate booted).image memory))).map List.length).sum ≤
        pageSize * 2)
    (boots : Promoted buildMap
      (memoryBehind buildMap memory [oneByteFlashed, .called flawlessAttempt]) booted) :
    (oneByteUpdate booted).Succeeds buildMap memory length where
  deliverable := oneBytePatch_deliverable
  inside := ⟨fun some => absurd rfl some, trivial⟩
  upgrades := upgrades
  inStep := inStep_short short
  boots := boots

/-- A chain of updates on a device does to the primary slot what the patches do to the
image. -/
theorem updates_image {updates : List Update} {memory : Memory} {image : List UInt8}
    (holds : Stores memory (deviceMap storage).primary.offset image)
    (fits : image.length ≤ (deviceMap storage).primary.size)
    (succeed : UpdatesSucceed (deviceMap storage) memory image updates) :
    Stores (memoryBehind (deviceMap storage) memory (updates.flatMap Update.life))
      (deviceMap storage).primary.offset
      ((updates.map Update.contents).foldl patched image) := by
  induction updates generalizing memory image with
  | nil => exact holds
  | cons update updates inductionHypothesis =>
      obtain ⟨succeeds, others⟩ := succeed
      have next := update_image storage holds fits succeeds
      have length := (update_slot storage holds fits succeeds).1
      rw [List.flatMap_cons, memoryBehind_append, List.map_cons, List.foldl_cons]
      exact inductionHypothesis next length.le others

end

/-- The flash of a device behind the first update of an erased one. -/
def bootedOnce : Memory :=
  promote buildMap (memoryBehind buildMap (fun _ => 0xFF) [oneByteFlashed, .called flawlessAttempt])

/-- The flash behind the second one. -/
def bootedTwice : Memory :=
  promote buildMap (memoryBehind buildMap
    (memoryBehind buildMap (fun _ => 0xFF) (oneByteUpdate bootedOnce).life)
    [oneByteFlashed, .called flawlessAttempt])

theorem bootedOnce_promoted :
    Promoted buildMap
      (memoryBehind buildMap (fun _ => 0xFF) [oneByteFlashed, .called flawlessAttempt])
      bootedOnce := promote_promotes _ _

theorem bootedTwice_promoted :
    Promoted buildMap
      (memoryBehind buildMap
        (memoryBehind buildMap (fun _ => 0xFF) (oneByteUpdate bootedOnce).life)
        [oneByteFlashed, .called flawlessAttempt])
      bootedTwice := promote_promotes _ _

theorem updates_image_oneByte :
    Stores (memoryBehind buildMap (fun _ => 0xFF)
        ([oneByteUpdate bootedOnce, oneByteUpdate bootedTwice].flatMap Update.life))
      buildMap.primary.offset ([oneByteContents, oneByteContents].foldl patched [0xFF, 0xFF]) :=
  updates_image ⟨⟨0xf8000, 0x6000, by decide, by decide, by decide, by decide⟩, rfl⟩
    (fun index below => by
      have two : index < 2 := below
      interval_cases index <;> rfl)
    (by decide)
    ⟨oneByteUpdate_succeeds _ (by decide +kernel) (by decide +kernel)
        bootedOnce_promoted,
      oneByteUpdate_succeeds _ (by decide +kernel) (by decide +kernel)
        bootedTwice_promoted, trivial⟩

end DeltaUpdate.Delta
