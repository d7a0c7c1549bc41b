import DeltaUpdate.Delta.Decision
import DeltaUpdate.Delta.Failure
import DeltaUpdate.Delta.SlotWriter

/-!
Owns which stored patches lead to an upgrade. A well-formed patch that fits always does on a
device that works, and its target is what has been handed to the slot writer. What is not of
the format never does, but for three slips in the checks of the engine.
-/

namespace DeltaUpdate.Delta

open DeltaUpdate.Detools
open DeltaUpdate.Library
open DeltaUpdate.Patch

/-! ### The update that is stored -/

/-- The patch partition holds the patch behind a header that gives its length. -/
structure HoldsPatch (map : FlashMap) (memory : Memory) (patch : List UInt8) : Prop where
  marker : headerWord map memory 0 = newPatch
  length : headerWord map memory 4 = patch.length
  stores : Stores memory (map.storage.offset + headerSize) patch

/-- A file that the script has padded holds its patch, wherever it was flashed. -/
theorem padded_held {map : FlashMap} {memory : Memory} {contents : List UInt8}
    {maxSize inputHeaderSize : Int} {padded : Script.Padded} (small : inputHeaderSize ≤ 8)
    (written : Script.start contents maxSize inputHeaderSize = some padded)
    (stored : Stores memory map.storage.offset padded.file) : HoldsPatch map memory contents := by
  obtain ⟨sizeBytes, sized, file⟩ := Script.start_file small written
  rw [file] at stored
  obtain ⟨marker, length⟩ := headerWord_stored sized stored
  have payload := stored.right
  rw [List.length_append, Script.toBytesLittle_length sized] at payload
  exact ⟨marker, length, payload⟩

/-- As far as the device reads the patch, it does not lie in the secondary slot. -/
def PatchApart (map : FlashMap) (patchSize : Nat) : Prop :=
  patchSize < map.storage.size → ∀ address : Int, map.storage.offset + headerSize ≤ address →
    address < map.storage.offset + headerSize + patchSize → ¬ map.secondary.Contains address

/-- A patch that fits behind the header lies in the patch partition. -/
theorem patchApart_of_fits {map : FlashMap} (apart : map.secondary.Apart map.storage)
    {patchSize : Nat} (fits : patchSize + headerSize ≤ map.storage.size) :
    PatchApart map patchSize :=
  fun _ _ low high => payload_outside apart (by omega) low high

/-- The source of an update is the primary slot. -/
def primarySource (map : FlashMap) (memory : Memory) : Int → UInt8 := fun position =>
  memory (map.primary.offset + position)

/-- The task of an update, with the lowest position that the source may take. -/
def slotTask (map : FlashMap) (memory : Memory) (low : Int) (targetSize : Nat) : Task where
  targetSize := targetSize
  source := primarySource map memory
  low := low
  high := map.primary.size

theorem slotTask_start (map : FlashMap) (memory : Memory) (targetSize : Nat) :
    SlotTask map memory (slotTask map memory 0 targetSize) :=
  ⟨fun _ => rfl, rfl, (lowestSource_neg map).le, le_refl 0⟩

theorem slotTask_lowest (map : FlashMap) (memory : Memory) (targetSize : Nat) :
    SlotTask map memory (slotTask map memory (lowestSource map) targetSize) :=
  ⟨fun _ => rfl, rfl, le_refl _, (lowestSource_neg map).le⟩

/-! ### The blocks of a call -/

/-- Two worlds in which the slot writer does the same. -/
structure SameWriter (first second : World) : Prop where
  memory : first.memory = second.memory
  toCurrent : first.flash.toCurrent = second.flash.toCurrent
  writeBuf : first.flash.writeBuf = second.flash.writeBuf

theorem SameWriter.prepared {first second ready other : World} {block : List UInt8}
    (same : SameWriter first second) (left : Prepared first block ready)
    (right : Prepared second block other) : SameWriter ready other := by
  have counted : countedBuf first block = countedBuf second block := by
    rw [countedBuf, countedBuf, same.writeBuf]
  have ahead : eraseAhead first block = eraseAhead second block := by
    rw [eraseAhead, eraseAhead, cursorBehind, cursorBehind, same.toCurrent]
  cases left with
  | kept early =>
      cases right with
      | kept => exact ⟨same.memory, same.toCurrent, counted⟩
      | erased due => omega
  | erased due =>
      cases right with
      | kept => omega
      | erased => exact ⟨by rw [ahead, same.memory], same.toCurrent, rfl⟩

/-- On a device that works a block is written, whether or not the end check refuses it. -/
theorem deltaFlashWrite_works {env : Env} (works : env.Works) (world : World)
    (block : List UInt8) :
    ∃ ready, Prepared world block ready ∧
      (deltaFlashWrite env world block).2.memory = (ready.written block).memory ∧
      (deltaFlashWrite env world block).2.flash = (ready.written block).flash := by
  have outcome := deltaFlashWrite_cases env world block
  generalize deltaFlashWrite env world block = written at outcome
  cases outcome with
  | eraseFailed _ fails => rw [works] at fails; cases fails
  | writeFailed _ fails => rw [works] at fails; cases fails
  | full ready => exact ⟨_, ready, rfl, rfl⟩
  | wrote ready => exact ⟨_, ready, rfl, rfl⟩

theorem SameWriter.written {first second : World} (same : SameWriter first second)
    (block : List UInt8) : SameWriter (first.written block) (second.written block) := by
  have behind : cursorBehind first block = cursorBehind second block := by
    rw [cursorBehind, cursorBehind, same.toCurrent]
  refine ⟨?_, behind, same.writeBuf⟩
  rw [World.written, World.written, same.memory, same.toCurrent]

theorem SameWriter.write {env other : Env} (works : env.Works) (otherWorks : other.Works)
    {first second : World} (same : SameWriter first second) (block : List UInt8) :
    SameWriter (deltaFlashWrite env first block).2 (deltaFlashWrite other second block).2 := by
  obtain ⟨left, leftPrepared, leftMemory, leftFlash⟩ := deltaFlashWrite_works works first block
  obtain ⟨right, rightPrepared, rightMemory, rightFlash⟩ :=
    deltaFlashWrite_works otherWorks second block
  have written := (same.prepared leftPrepared rightPrepared).written block
  refine ⟨?_, ?_, ?_⟩
  · rw [leftMemory, rightMemory, written.memory]
  · rw [leftFlash, rightFlash, written.toCurrent]
  · rw [leftFlash, rightFlash, written.writeBuf]

/-- The slot is what the slot writer makes of the blocks handed over. -/
structure SlotReplayed (map : FlashMap) (start world : World) : Prop where
  same : SameWriter world (writeBlocks (Env.flawless map) start (handedBlocks world.log))
  sizes : BlockSizes (handedBlocks world.log)

theorem SlotReplayed.of_same {map : FlashMap} {start before after : World}
    (replayed : SlotReplayed map start before) (memory : after.memory = before.memory)
    (toCurrent : after.flash.toCurrent = before.flash.toCurrent)
    (writeBuf : after.flash.writeBuf = before.flash.writeBuf)
    (blocks : handedBlocks after.log = handedBlocks before.log) :
    SlotReplayed map start after := by
  refine ⟨?_, blocks ▸ replayed.sizes⟩
  rw [blocks]
  exact ⟨memory.trans replayed.same.memory, toCurrent.trans replayed.same.toCurrent,
    writeBuf.trans replayed.same.writeBuf⟩

theorem SlotReplayed.sourceRead {map : FlashMap} {start world : World}
    (replayed : SlotReplayed map start world) (env : Env) (size : Nat) :
    SlotReplayed map start (deltaFlashFromRead env world size).2.2 := by
  have outcome := deltaFlashFromRead_cases env world size
  generalize deltaFlashFromRead env world size = read at outcome
  cases outcome <;> exact replayed.of_same rfl rfl rfl (by simp [World.sourceRead, handedBlocks])

theorem SlotReplayed.sought {map : FlashMap} {start world : World}
    (replayed : SlotReplayed map start world) (offset : Int) :
    SlotReplayed map start (deltaFlashSeek world offset).2 := by
  have outcome := deltaFlashSeek_cases world offset
  generalize deltaFlashSeek world offset = sought at outcome
  cases outcome <;> exact replayed.of_same rfl rfl rfl (by simp [World.sought, handedBlocks])

theorem SlotReplayed.patchRead {map : FlashMap} {start world : World}
    (replayed : SlotReplayed map start world) (env : Env) (size : Nat) :
    SlotReplayed map start (deltaFlashPatchRead env world size).2.2 := by
  have outcome := deltaFlashPatchRead_cases env world size
  generalize deltaFlashPatchRead env world size = read at outcome
  cases outcome <;> exact replayed.of_same rfl rfl rfl (by simp [World.patchRead, handedBlocks])

/-- A block is replayed when the writer does with it as on a device that works. -/
theorem SlotReplayed.wrote {env : Env} {start world : World} {block : List UInt8}
    (replayed : SlotReplayed env.map start world) (nonempty : 0 < block.length)
    (small : block.length ≤ 128)
    (same : SameWriter (deltaFlashWrite env world block).2
      (deltaFlashWrite (Env.flawless env.map)
        (writeBlocks (Env.flawless env.map) start (handedBlocks world.log)) block).2) :
    SlotReplayed env.map start (deltaFlashWrite env world block).2 := by
  have blocks := deltaFlashWrite_blocks env world block
  refine ⟨?_, ?_⟩
  · rw [blocks, writeBlocks_append]
    exact same
  · rw [blocks]
    intro other among
    rcases List.mem_append.mp among with old | new
    · exact replayed.sizes other old
    · rw [List.mem_singleton.mp new]
      exact ⟨nonempty, small⟩

/-- Every callback keeps the slot as the blocks make it. -/
theorem slotReplayed_kept {env : Env} (works : env.Works) (start : World) :
    KeptByCallbacks env (SlotReplayed env.map start) where
  source _ size replayed := replayed.sourceRead env size
  seek _ offset replayed := replayed.sought offset
  patch _ size replayed := replayed.patchRead env size
  write _ block _ nonempty small replayed :=
    replayed.wrote nonempty small (replayed.same.write works (fun _ _ => rfl) block)

/-! ### The request of an upgrade -/

/-- An event that neither issues a flash operation nor hands a block over. -/
def Event.Closing : Event → Prop
  | .flash _ _ _ => False
  | .handed _ _ => False
  | _ => True

theorem Extends.closingMemory {start log : List Event} (closing : Extends Event.Closing start log)
    (memory : Memory) : replay memory log = replay memory start := by
  obtain ⟨rest, rfl, closes⟩ := closing
  rw [replay_append]
  refine funext fun address => replay_untouched (fun event among => ?_) _
  have closed := closes event among
  cases event with
  | flash => exact absurd closed id
  | _ => exact id

theorem Extends.closingBlocks {start log : List Event}
    (closing : Extends Event.Closing start log) : handedBlocks log = handedBlocks start := by
  obtain ⟨rest, rfl, closes⟩ := closing
  rw [handedBlocks_append]
  refine (congrArg _ (List.filterMap_eq_nil_iff.mpr fun event among => ?_)).trans
    (List.append_nil _)
  have closed := closes event among
  cases event with
  | handed => exact absurd closed id
  | _ => rfl

/-- The request of an upgrade closes a call. -/
theorem requestUpgrade_closing (env : Env) (res : Int) (world : World) :
    (requestUpgrade env res world).2.memory = world.memory ∧
      Extends Event.Closing world.log (requestUpgrade env res world).2.log := by
  have upgraded := requestUpgrade_cases env res world
  generalize requestUpgrade env res world = call at upgraded
  have first := Extends.refl Event.Closing world.log
  cases upgraded with
  | none => exact ⟨rfl, first⟩
  | failed => exact ⟨rfl, first.record (by trivial)⟩
  | requested => exact ⟨rfl, (first.record (by trivial)).record (by trivial)⟩

section

variable {env : Env} {memory : Memory} {patch : List UInt8} {contents : Contents}

/-- What happens before the engine starts changes the marker and the secondary slot only. -/
theorem engineMemory_same {map : FlashMap} {address : Int}
    (slot : ¬ map.secondary.Contains address)
    (marker : address < map.storage.offset ∨ map.storage.offset + 4 ≤ address) :
    engineMemory map memory address = memory address := startMemory_same slot marker

/-- The patch that the engine starts on. -/
theorem HoldsPatch.engine (held : HoldsPatch env.map memory patch)
    (apart : PatchApart env.map patch.length) (small : patch.length < env.map.storage.size) :
    StoredPatch env.map (engineMemory env.map memory) patch where
  stores := held.stores.of_same fun address low high =>
    engineMemory_same (apart small address low high) (Or.inr (by unfold headerSize at low; omega))
  apart := apart small

/-! ### Calls -/

theorem works_readsSucceed (works : env.Works) : ReadsSucceed env :=
  ⟨fun _ _ _ => works _ _, fun _ => works _ _⟩

theorem engineLog_handed (map : FlashMap) : handedImage (engineLog map []) = [] := rfl

/-- On a device that works a call with a patch runs the engine over it. -/
theorem HoldsPatch.runs (held : HoldsPatch env.map memory patch) (nonempty : patch ≠ [])
    (works : env.Works) (stack : ApplyPatch) (flash : FlashMem) :
    ∃ res self after,
      callOn env stack flash memory = requestUpgrade env res after ∧
        Runs env stack (engineMemory env.map memory) (engineLog env.map []) patch.length
          ⟨.stop res, self, after⟩ := by
  have outcome := deltaCheckAndApply_runs env stack ⟨flash, memory, []⟩
  unfold callOn
  generalize deltaCheckAndApply env stack ⟨flash, memory, []⟩ = call at outcome
  cases outcome with
  | early _ _ none =>
      exfalso
      have header := @deltaReadPatchHeader_cleared env (works_readsSucceed works)
        ⟨flash, memory, []⟩ held.marker 0
      have init := deltaInit_cases env (World.cleared ⟨flash, memory, []⟩ env.map)
      generalize inited : deltaInit env (World.cleared ⟨flash, memory, []⟩ env.map) = outcome
        at init
      cases init with
      | failed fails => rw [works] at fails; cases fails
      | done =>
          refine none _ ⟨?_, ?_, ?_, Reaches.refl _⟩
          · rw [header]
            exact lt_irrefl 0
          · rw [header]
            show 0 < headerWord env.map memory 4
            rw [held.length]
            exact List.length_pos_iff.mpr nonempty
          · rw [header, inited]
  | @engine res self after marker positive visits stops =>
      refine ⟨res, self, after, rfl, ?_⟩
      rw [← held.length]
      exact (visits _).mp stops

/-- A call that requests an upgrade has run the engine to a positive result. -/
theorem requested_positive {stack : ApplyPatch} {flash : FlashMem}
    (requested : ∃ event ∈ (callOn env stack flash memory).2.log, event.Requests) :
    ∃ res self after, 0 < res ∧
      Runs env stack (engineMemory env.map memory) (engineLog env.map [])
        (headerWord env.map memory 4) ⟨.stop res, self, after⟩ := by
  obtain ⟨event, among, requests⟩ := requested
  have outcome := deltaCheckAndApply_runs env stack ⟨flash, memory, []⟩
  unfold callOn at among
  generalize deltaCheckAndApply env stack ⟨flash, memory, []⟩ = call at outcome among
  cases outcome with
  | early _ events =>
      obtain ⟨rest, same, early⟩ := events
      rw [same, List.nil_append] at among
      have other := early event among
      cases event <;> simp [Event.Requests, Event.BeforeEngine] at requests other
  | @engine res self after marker positive visits stops =>
      have runs := (visits _).mp stops
      refine ⟨res, self, after, ?_, runs⟩
      have reported := runs_reported runs
        (by simp [engineLog, headerEvents, Event.IsFailure])
        (by simp [engineLog, headerEvents, Event.Requests])
      have upgraded := requestUpgrade_cases env res after
      generalize requestUpgrade env res after = call at upgraded among
      cases upgraded with
      | none => exact absurd requests (reported.noRequest event among)
      | failed positive => exact positive
      | requested positive => exact positive

/-- A positive result is followed by a request. -/
theorem requestUpgrade_requests {res : Int} (positive : 0 < res) (world : World) :
    ∃ event ∈ (requestUpgrade env res world).2.log, event.Requests := by
  have upgraded := requestUpgrade_cases env res world
  generalize requestUpgrade env res world = call at upgraded
  cases upgraded with
  | none nonpositive => omega
  | failed => exact ⟨.bootRequestUpgrade false, by simp, trivial⟩
  | requested => exact ⟨.bootRequestUpgrade true, by simp, trivial⟩

/-- The call reboots into the upgrade and has handed the image over. -/
structure Delivers (image : List UInt8) (call : Ending × World) : Prop where
  rebooted : call.1 = .rebooted
  requested : .bootRequestUpgrade true ∈ call.2.log
  handed : handedImage call.2.log = image

/-- A positive result delivers what has been handed over, if the request succeeds. -/
theorem requestUpgrade_delivers {res : Int} (positive : 0 < res)
    (upgrades : env.upgradeFails = false) {world : World} {image : List UInt8}
    (handed : handedImage world.log = image) :
    Delivers image (requestUpgrade env res world) := by
  have upgraded := requestUpgrade_cases env res world
  generalize requestUpgrade env res world = ended at upgraded
  cases upgraded with
  | none nonpositive => omega
  | failed _ fails => rw [upgrades] at fails; cases fails
  | requested => exact ⟨rfl, by simp, by simpa [handedImage, Event.handedBlock] using handed⟩

/-- On a device that works, a patch whose records fit leads to a positive result, and the
target is handed over. -/
theorem lenient_upgraded (lenient : Lenient patch contents) (works : env.Works)
    (held : HoldsPatch env.map memory patch) (apart : PatchApart env.map patch.length)
    (small : patch.length < env.map.storage.size)
    (fits : contents.targetSize < env.map.secondary.size) {low : Int}
    (slot : SlotTask env.map (engineMemory env.map memory)
      (slotTask env.map (engineMemory env.map memory) low contents.targetSize))
    (reads : FitsFrom low env.map.primary.size 0 contents.records) (stack : ApplyPatch)
    (flash : FlashMem) :
    ∃ res self after, callOn env stack flash memory = requestUpgrade env res after ∧ 0 < res ∧
      Runs env stack (engineMemory env.map memory) (engineLog env.map []) patch.length
        ⟨.stop res, self, after⟩ ∧
      (SourceApart env.map low → handedImage after.log =
        target (primarySource env.map (engineMemory env.map memory)) contents.records) := by
  obtain ⟨body, plain, padding, header, unpacked, accepts, output⟩ :=
    lenient.accepted (show (slotTask env.map (engineMemory env.map memory) low
      contents.targetSize).targetSize = contents.targetSize from rfl) reads
  have nonempty : patch ≠ [] := by
    obtain ⟨sizeBytes, rfl, -⟩ := header.layout
    exact List.cons_ne_nil _ _
  obtain ⟨res, self, after, call, runs⟩ := held.runs nonempty works stack flash
  have stored := held.engine apart small
  have accepted : BodyAccepted _ body := ⟨plain, padding, unpacked, accepts⟩
  have size : res = contents.targetSize :=
    (runs_succeeding header lenient.nonzero accepted stored slot rfl works small
      (fun _ _ => Or.inl fits) runs).stops res rfl
  have positive : 0 < res := by
    have nonzero := Int.natAbs_pos.mpr lenient.nonzero
    rw [size, Contents.targetSize]
    omega
  refine ⟨res, self, after, call, positive, runs, fun outside => ?_⟩
  obtain ⟨typeByte, declared, rest, second, -, concluded⟩ :=
    runs_concluded stored slot (header_sized header rfl) runs res rfl positive
  obtain ⟨-, -, rfl⟩ := header.unique second
  have image := (concluded (Or.inr accepted.accepted.alive)).image outside
  rw [engineLog_handed, List.nil_append] at image
  rw [image, bodyOutput, (bodyVerdict_some unpacked _).1]
  exact output

/-- The engine starts as the slot writer does. -/
theorem slotReplayed_start (map : FlashMap) (memory : Memory) :
    ∃ start, SlotWritten map [] 0 0 start ∧
      SlotReplayed map start (startWorld map (engineMemory map memory) (engineLog map [])) := by
  have written := slotWritten_start map (deltaInitFlashMem map) (clearedMemory map memory)
  have init := deltaInit_cases (Env.flawless map)
    ⟨deltaInitFlashMem map, clearedMemory map memory, []⟩
  generalize deltaInit (Env.flawless map)
    ⟨deltaInitFlashMem map, clearedMemory map memory, []⟩ = inited at init written
  cases init with
  | failed fails => simp [Env.flawless] at fails
  | done => exact ⟨startWorld map (engineMemory map memory)
      [.flash .deltaInit (firstErase map) true], written, ⟨rfl, rfl, rfl⟩, by rintro block ⟨⟩⟩

/-- Blocks that keep step with the pages are in the slot. -/
theorem SlotReplayed.stores {map : FlashMap} {start world : World}
    (replayed : SlotReplayed map start world) (written : SlotWritten map [] 0 0 start)
    (fits : (handedImage world.log).length < map.secondary.size)
    (inStep : InStep pageSize ((handedBlocks world.log).map List.length)) :
    Stores world.memory map.secondary.offset (handedImage world.log) := by
  rw [handedImage_blocks] at fits ⊢
  obtain ⟨count, cleared, index, -, image⟩ :=
    (writeBlocks_written written replayed.sizes fits).1 inStep
  rw [replayed.same.memory]
  exact image.image.content

/-- The blocks of a run that keep step with the pages arrive in the slot. -/
theorem runs_slotHolds (works : env.Works) {stack : ApplyPatch} {patchSize : Nat}
    {config : Config World}
    (runs : Runs env stack (engineMemory env.map memory) (engineLog env.map []) patchSize config)
    (fits : (handedImage config.world.log).length < env.map.secondary.size)
    (inStep : InStep pageSize ((handedBlocks config.world.log).map List.length)) :
    Stores config.world.memory env.map.secondary.offset (handedImage config.world.log) := by
  obtain ⟨start, written, started⟩ := slotReplayed_start env.map memory
  exact ((slotReplayed_kept works start).runs runs started).stores written fits inStep

/-! ### Well-formed patches -/

/-- What a call does with a patch for a target: it delivers the target, and the slot holds it
if the sizes of the blocks keep step with the pages. -/
structure Produces (map : FlashMap) (image : List UInt8) (call : Ending × World) : Prop extends
    Delivers image call where
  slot : InStep pageSize ((handedBlocks call.2.log).map List.length) →
    Stores call.2.memory map.secondary.offset image

/-- Every well-formed patch that fits is accepted and produces its target, whatever the
lengths of its records and wherever its chunks and blocks end. -/
theorem wellFormed_produces (works : env.Works) (upgrades : env.upgradeFails = false)
    (disjoint : env.map.Disjoint) (formed : WellFormed patch contents)
    (held : HoldsPatch env.map memory patch)
    (room : patch.length + headerSize ≤ env.map.storage.size)
    (fits : contents.targetSize < env.map.secondary.size)
    (reads : FitsFrom 0 env.map.primary.size 0 contents.records) (stack : ApplyPatch)
    (flash : FlashMem) :
    Produces env.map (target (primarySource env.map memory) contents.records)
      (callOn env stack flash memory) := by
  have small : patch.length < env.map.storage.size := by
    unfold headerSize at room
    omega
  obtain ⟨res, self, after, call, positive, runs, image⟩ := lenient_upgraded formed.lenient works
    held (patchApart_of_fits disjoint.target room) small fits
    (slotTask_start env.map _ _) reads stack flash
  have outside : SourceApart env.map 0 := by
    rintro position low high ⟨above, below⟩
    rcases disjoint.slots with before | behind <;> omega
  -- the target is made of the bytes that the primary slot holds before the call
  have source : target (primarySource env.map (engineMemory env.map memory)) contents.records =
      target (primarySource env.map memory) contents.records := by
    refine targetFrom_congr (fun position low high => engineMemory_same ?_ ?_) (le_refl 0) reads
    · exact outside position low high
    · unfold headerSize at room
      rcases disjoint.source with before | behind <;> omega
  have handed := (image outside).trans source
  have length : (target (primarySource env.map memory) contents.records).length =
      contents.targetSize := by
    rw [target, targetFrom_length]
    exact formed.encodes.reaches.total
  have slot := runs_slotHolds works runs
  simp only [handed, length] at slot
  have delivers := requestUpgrade_delivers positive upgrades handed
  obtain ⟨same, closing⟩ := requestUpgrade_closing env res after
  rw [call]
  refine ⟨delivers, fun inStep => ?_⟩
  rw [same]
  exact slot fits (closing.closingBlocks ▸ inStep)

/-- What the patch of one byte says: a record with that byte of its own. -/
def oneByteContents : Contents := ⟨0x04, 1, 0, [⟨[], [0xaa], 0⟩]⟩

/-- A packed patch in a memory that is erased otherwise. -/
theorem packed_holds {start : Nat} (map : FlashMap) (patch : List UInt8)
    (place : map.storage.offset = start) (small : patch.length < 2 ^ 32) :
    HoldsPatch map (placeAt start (Script.packed patch)) patch := by
  obtain ⟨padded, written, file⟩ := Script.start_packed small
  rw [← file]
  exact padded_held (le_refl 8) written (place ▸ placeAt_stores start padded.file)

theorem oneBytePatch_holds :
    HoldsPatch buildMap (placeAt 0xf8000 (Script.packed oneBytePatch)) oneBytePatch :=
  packed_holds buildMap oneBytePatch rfl (by decide)

theorem oneBytePatch_wellFormed : WellFormed oneBytePatch oneByteContents where
  encodes :=
    { stream := by
        refine ⟨[0x00], [0x00, 0x01, 0xaa, 0x00], ⟨by decide, [0x01],
          [0x80, 0x40, 0x20, 0x3a, 0xa8, 0x00], rfl, ⟨by decide, by decide, by decide⟩,
          [.literal 0x00, .literal 0x00, .literal 0x01, .literal 0xaa, .literal 0x00],
          [false, false, false], by decide, by decide, by decide⟩,
          ⟨by decide, by decide, by decide⟩, ?_⟩
        exact @RecordsEncodedBy.cons _ _ [0x00, 0x01, 0xaa, 0x00] [] ⟨[0x00], [0x01], [0x00],
          rfl, ⟨by decide, by decide, by decide⟩, ⟨by decide, by decide, by decide⟩,
          ⟨by decide, by decide, by decide⟩⟩ .nil
      reaches := ⟨by decide, by decide⟩ }
  compression := by decide
  positive := by decide
  dfpatchSize := rfl

/-- What the patch of two chunks says: a record of 300 bytes to add and two of its own, a move
back by three, and a record of one byte to add. -/
def twoChunkContents : Contents :=
  ⟨0x04, 303, 0, [⟨[1, 2, 3, 4, 5, 1, 2, 3, 4, 5] ++ List.replicate 290 5, [0xbb, 0xcc], -3⟩,
    ⟨[0x10], [], 0⟩]⟩

/-- The first tokens of its compressed stream: five bytes, and the five of them again. -/
def twoChunkFront : List Token :=
  [.literal 0x00, .literal 0xac, .literal 0x04, .literal 1, .literal 2, .literal 3, .literal 4,
    .literal 5, .backref ⟨4, by decide⟩ ⟨4, by decide⟩]

/-- The last ones, behind the run of copies. -/
def twoChunkBack : List Token :=
  [.literal 0x02, .literal 0xbb, .literal 0xcc, .literal 0x43, .literal 0x01, .literal 0x10,
    .literal 0x00, .literal 0x00]

theorem twoChunk_expand :
    Lzss.expand [] (twoChunkFront ++ (List.replicate 290 againToken ++ twoChunkBack)) =
      [0x00] ++ ([0xac, 0x04] ++ ([1, 2, 3, 4, 5, 1, 2, 3, 4, 5] ++ List.replicate 290 5) ++
        ([0x02] ++ [0xbb, 0xcc]) ++ [0x43] ++ ([0x01] ++ [0x10] ++ ([0x00] ++ []) ++ [0x00] ++
          [])) := by
  have front : Lzss.expand [] twoChunkFront =
      [0x00, 0xac, 0x04, 1, 2, 3, 4, 5, 1, 2, 3, 4, 5] := by decide
  have last : (([0x00, 0xac, 0x04, 1, 2, 3, 4, 5, 1, 2, 3, 4, 5] : List UInt8).reverse ++
    []).getD 0 0 = 5 := rfl
  rw [Lzss.expand_append, front, againToken, Lzss.expand_repeat _ last]
  simp only [twoChunkBack, Lzss.expand, Lzss.Token.emit, Nat.zero_add, Nat.mul_one,
    List.append_assoc, List.cons_append, List.nil_append]

theorem twoChunk_bits :
    bitsOfBytes (twoChunkPatch.drop 4) =
      (twoChunkFront ++ (List.replicate 290 againToken ++ twoChunkBack)).flatMap
        Lzss.Token.bits := by
  have front : bitsOfBytes [0x80, 0x6b, 0x20, 0x90, 0x18, 0x14, 0x0e, 0x09, 0x05, 0x02, 0x04] =
      twoChunkFront.flatMap Lzss.Token.bits := by decide
  have back : bitsOfBytes [0x81, 0x6e, 0xf9, 0x94, 0x38, 0x0c, 0x42, 0x01, 0x00] =
      twoChunkBack.flatMap Lzss.Token.bits := by decide
  rw [List.flatMap_append, List.flatMap_append, ← front, ← back, ← bitsOfBytes_zeros,
    ← bitsOfBytes_append, ← bitsOfBytes_append]
  rfl

theorem twoChunkPatch_wellFormed : WellFormed twoChunkPatch twoChunkContents where
  encodes :=
    { stream := by
        refine ⟨[0x00], _, ⟨by decide, [0xaf, 0x04], twoChunkPatch.drop 4, rfl,
          ⟨by decide, by decide, by decide⟩, _, [], twoChunk_bits.trans (List.append_nil _).symm,
          by decide, twoChunk_expand⟩, ⟨by decide, by decide, by decide⟩, ?_⟩
        exact .cons ⟨[0xac, 0x04], [0x02], [0x43], rfl,
          ⟨by decide, by decide, by decide +kernel⟩, ⟨by decide, by decide, by decide⟩,
          ⟨by decide, by decide, by decide⟩⟩ (.cons ⟨[0x01], [0x00], [0x00], rfl,
          ⟨by decide, by decide, by decide⟩, ⟨by decide, by decide, by decide⟩,
          ⟨by decide, by decide, by decide⟩⟩ .nil)
      reaches := ⟨by decide +kernel, by decide +kernel⟩ }
  compression := by decide
  positive := by decide
  dfpatchSize := rfl

theorem wellFormed_produces_twoChunk :
    Produces buildMap
      (target (primarySource buildMap (placeAt 0xf8000 (Script.packed twoChunkPatch)))
        twoChunkContents.records)
      (callOn (Env.flawless buildMap) zeroStack (deltaInitFlashMem buildMap)
        (placeAt 0xf8000 (Script.packed twoChunkPatch))) :=
  @wellFormed_produces (Env.flawless buildMap) _ _ _ (fun _ _ => rfl) rfl
    ⟨Or.inl (by decide), Or.inl (by decide), Or.inl (by decide)⟩ twoChunkPatch_wellFormed
    (packed_holds buildMap twoChunkPatch rfl (by rw [twoChunkPatch_length]; decide))
    (by rw [twoChunkPatch_length]; decide) (by decide)
    ⟨by decide +kernel, by decide +kernel, by decide +kernel, by decide +kernel, trivial⟩ _ _

/-! ### Malformed patches -/

/-- A patch that is not of the format, and yet fits: its first byte names another compression,
the sign bit of its target size is set, or its first size is negative. -/
structure Slipped (map : FlashMap) (patch : List UInt8) (contents : Contents) : Prop where
  lenient : Lenient patch contents
  slip : contents.typeByte &&& 0xf ≠ 4 ∨ contents.declared < 0 ∨ contents.dfpatchSize < 0
  source : FitsFrom (lowestSource map) map.primary.size 0 contents.records
  target : contents.targetSize < map.secondary.size
  room : patch.length < map.storage.size

/-- A patch with one of the slips is not well formed. -/
theorem Slipped.malformed {map : FlashMap} (slipped : Slipped map patch contents) :
    ¬ ∃ contents, WellFormed patch contents := by
  rintro ⟨other, formed⟩
  obtain ⟨typeByte, declared, dfpatchSize⟩ := slipped.lenient.unique formed.lenient
  rcases slipped.slip with compression | negative | negative
  · exact compression (typeByte ▸ formed.compression)
  · rw [declared] at negative
    exact absurd formed.positive (not_lt.mpr negative.le)
  · rw [dfpatchSize, formed.dfpatchSize] at negative
    exact absurd negative (lt_irrefl 0)

/-- A patch that leads to an upgrade has records that fit, and the format but for the slips. -/
theorem requested_lenient (held : HoldsPatch env.map memory patch)
    (apart : PatchApart env.map patch.length) {stack : ApplyPatch} {flash : FlashMem}
    (requested : ∃ event ∈ (callOn env stack flash memory).2.log, event.Requests) :
    ∃ contents, Lenient patch contents ∧
      FitsFrom (lowestSource env.map) env.map.primary.size 0 contents.records ∧
      contents.targetSize < env.map.secondary.size ∧ patch.length < env.map.storage.size := by
  obtain ⟨res, self, after, positive, runs⟩ := requested_positive requested
  rw [held.length] at runs
  have small : patch.length < env.map.storage.size := runs_patchSmall runs res rfl positive
  have stored := held.engine apart small
  -- the size of the task is that of the header, if there is one
  obtain ⟨targetSize, sized⟩ : ∃ targetSize : Nat, ∀ typeByte declared body,
      Header typeByte declared body patch → targetSize = declared.natAbs := by
    by_cases some : ∃ typeByte declared body, Header typeByte declared body patch
    · obtain ⟨typeByte, declared, body, header⟩ := some
      exact ⟨declared.natAbs, fun _ _ _ other => by rw [(header.unique other).2.1]⟩
    · exact ⟨0, fun _ _ _ other => absurd ⟨_, _, _, other⟩ some⟩
  obtain ⟨typeByte, declared, body, header, nonzero, concluded⟩ :=
    runs_concluded stored (slotTask_lowest env.map _ targetSize) sized runs res rfl positive
  have concluded := concluded (Or.inl rfl)
  obtain ⟨plain, padding, unpacked, accepts⟩ := concluded.accepted
  obtain ⟨contents, lenient, same, fits⟩ := contents_of_accepts header unpacked nonzero
    (sized _ _ _ header) accepts
  refine ⟨contents, lenient, fits, ?_, small⟩
  have target := concluded.target
  rw [Contents.targetSize, same, ← sized _ _ _ header]
  exact target

/-- A malformed patch never leads to an upgrade, exactly when it has none of the slips. -/
theorem malformed_refused_iff {map : FlashMap} (held : HoldsPatch map memory patch)
    (apart : PatchApart map patch.length) :
    ((¬ ∃ contents, WellFormed patch contents) → ∀ env stack flash, env.map = map →
        ∀ event ∈ (callOn env stack flash memory).2.log, ¬ event.Requests) ↔
      ¬ ∃ contents, Slipped map patch contents := by
  constructor
  · rintro refused ⟨contents, slipped⟩
    have works : (Env.flawless map).Works := fun _ _ => rfl
    obtain ⟨res, self, after, call, positive, -, -⟩ := lenient_upgraded slipped.lenient works
      held apart slipped.room slipped.target (slotTask_lowest map _ _) slipped.source zeroStack
      (deltaInitFlashMem map)
    obtain ⟨event, among, requests⟩ :=
      @requestUpgrade_requests (Env.flawless map) res positive after
    rw [← call] at among
    exact refused slipped.malformed _ _ _ rfl event among requests
  · rintro none malformed env stack flash rfl event among requests
    obtain ⟨contents, lenient, source, target, room⟩ :=
      requested_lenient held apart ⟨event, among, requests⟩
    refine none ⟨contents, lenient, ?_, source, target, room⟩
    by_contra regular
    simp only [not_or, not_not, not_lt] at regular
    obtain ⟨compression, positive, nonneg⟩ := regular
    exact malformed ⟨contents, lenient.encodes, compression,
      lt_of_le_of_ne positive lenient.nonzero.symm, le_antisymm lenient.dfpatchSize nonneg⟩

/-- The patch of one byte with a first byte that names no compression. -/
def uncompressedPatch : List UInt8 := [0x00, 0x01, 0x44, 0x80, 0x40, 0x20, 0x3a, 0xa8, 0x00]

theorem uncompressedPatch_malformed : ¬ ∃ contents, WellFormed uncompressedPatch contents := by
  rintro ⟨contents, formed⟩
  obtain ⟨firstSize, stream, frames, -⟩ := formed.encodes.stream
  obtain ⟨sizeBytes, body, split, -⟩ := frames.layout
  have compression := formed.compression
  rw [← (List.cons.inj split).1] at compression
  exact absurd compression (by decide)

theorem malformed_refused_iff_uncompressed :
    (¬ ∃ contents, WellFormed uncompressedPatch contents) ∧
      (((¬ ∃ contents, WellFormed uncompressedPatch contents) →
          ∀ env stack flash, env.map = buildMap →
            ∀ event ∈ (callOn env stack flash
              (placeAt 0xf8000 (Script.packed uncompressedPatch))).2.log, ¬ event.Requests) ↔
        ¬ ∃ contents, Slipped buildMap uncompressedPatch contents) :=
  ⟨uncompressedPatch_malformed,
    malformed_refused_iff (packed_holds buildMap uncompressedPatch rfl (by decide))
      (patchApart_of_fits (Or.inl (by decide)) (by decide))⟩

/-- That patch is not well formed, and the bootloader is asked for an upgrade. -/
theorem uncompressedPatch_upgraded :
    ¬ ((¬ ∃ contents, WellFormed uncompressedPatch contents) →
      ∀ event ∈ (callOn (Env.flawless buildMap) zeroStack (deltaInitFlashMem buildMap)
        (placeAt 0xf8000 (Script.packed uncompressedPatch))).2.log, ¬ event.Requests) := by
  intro refused
  exact refused uncompressedPatch_malformed (.bootRequestUpgrade true) (by decide +kernel) trivial

end

end DeltaUpdate.Delta
