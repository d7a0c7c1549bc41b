import DeltaUpdate.Delta.PatchCursor
import DeltaUpdate.Detools.Aligned

/-!
Owns the simulation of the device by the machine that reads the stream of a patch. A step
of the engine that does not fail is a step of the machine on the bytes it has taken, until
the machine rejects the stream; and where the engine fails, the machine has rejected, or the
update is over, or the device has failed.
-/

namespace DeltaUpdate.Delta

open DeltaUpdate.Detools
open DeltaUpdate.Heatshrink
open DeltaUpdate.Library
open DeltaUpdate.Patch

/-! ### The image -/

/-- The block an event hands to the slot writer. -/
def Event.handedBlock : Event → List UInt8
  | .handed _ block => block
  | _ => []

/-- The blocks handed to the slot writer in a log, in order. -/
def handedImage (log : List Event) : List UInt8 := log.flatMap Event.handedBlock

theorem handedImage_blocks (log : List Event) :
    handedImage log = (handedBlocks log).flatten := by
  induction log with
  | nil => rfl
  | cons event log inductionHypothesis =>
      have first : handedImage (event :: log) = event.handedBlock ++ handedImage log := rfl
      rw [first, inductionHypothesis]
      cases event <;> simp [Event.handedBlock, handedBlocks]

theorem deltaFlashWrite_image (env : Env) (world : World) (block : List UInt8) :
    handedImage (deltaFlashWrite env world block).2.log = handedImage world.log ++ block := by
  rw [handedImage_blocks, deltaFlashWrite_blocks, List.flatten_append, ← handedImage_blocks,
    List.flatten_singleton]

theorem Extends.sameImage {issuer : Issuer} {start log : List Event}
    (records : Extends (Event.IssuedBy issuer) start log) (other : issuer ≠ .deltaFlashWrite) :
    handedImage log = handedImage start := by
  rw [handedImage_blocks, records.sameBlocks other, handedImage_blocks]

/-! ### Tasks on the device -/

/-- The lowest position in the source: below it the source cursor wraps around. -/
def lowestSource (map : FlashMap) : Int := -2 ^ 31 - map.primary.offset

theorem lowestSource_neg (map : FlashMap) : lowestSource map < 0 := by
  unfold lowestSource
  omega

/-- A task that the device can follow: the source is the primary slot. -/
structure SlotTask (map : FlashMap) (memory : Memory) (task : Task) : Prop where
  source : ∀ position, task.source position = memory (map.primary.offset + position)
  high : task.high = map.primary.size
  lowest : lowestSource map ≤ task.low
  start : task.low ≤ 0

/-- The positions of the source that a task may read lie outside the secondary slot. -/
def SourceApart (map : FlashMap) (low : Int) : Prop :=
  ∀ position : Int, low ≤ position → position < map.primary.size →
    ¬ map.secondary.Contains (map.primary.offset + position)

/-- Nothing outside the secondary slot has changed. -/
def Undisturbed (map : FlashMap) (memory : Memory) (world : World) : Prop :=
  ∀ address, ¬ map.secondary.Contains address → world.memory address = memory address

/-- The engine and the machine at the same place. -/
structure Following (map : FlashMap) (task : Task) (image : List UInt8) (engine : ApplyPatch)
    (world : World) (progress : Progress) : Prop where
  bounded : Bounded engine
  stands : StandsAt engine progress.position
  counted : progress.output.length = engine.toOffset
  declared : engine.toSize = task.targetSize
  cursor : intT (map.primary.offset + engine.fromOffset) = map.primary.offset + progress.source
  low : task.low ≤ progress.source
  high : progress.source < task.high
  whole : engine.state = .done → engine.toOffset = engine.toSize
  image : SourceApart map task.low → handedImage world.log = image ++ progress.output

/-- An engine that has taken a negative size for a large one: it waits for more bytes than
any slot holds. -/
structure Doomed (engine : ApplyPatch) : Prop where
  data : engine.state = .diffData ∨ engine.state = .extraData
  beyond : 2 ^ 31 ≤ engine.toOffset + engine.chunkSize

/-- A block has been handed to the slot writer that does not end below the end of the slot. -/
def Overrun (map : FlashMap) (log : List Event) : Prop :=
  ∃ cursor block, .handed cursor block ∈ log ∧
    (map.secondary.offset + map.secondary.size : Int) ≤ cursor.toCurrent + block.length

/-- A flash operation may fail, or the target has not fitted into the slot. -/
def DeviceFails (env : Env) (self : ApplyPatch) (log : List Event) : Prop :=
  (∃ log op, env.fails log op = true) ∨
    env.map.secondary.size ≤ self.toSize ∧ Overrun env.map log

/-- What a step of the engine does to the simulation. -/
inductive SimulatedStep (env : Env) (task : Task) (verdict : Option Progress)
    (padding : Option (List Bool)) (image : List UInt8) (self : ApplyPatch)
    (later : List UInt8) (stepped : Stepped World) : Prop
  | moved {history : List UInt8} {progress : Progress} (res : stepped.res = 0)
      (matched : Matched task verdict padding history progress stepped.self.patchReader
        (stepped.self.chunk.bytes ++ later))
      (following : Following env.map task image stepped.self stepped.world progress)
  | waiting {history : List UInt8} {progress : Progress} (res : stepped.res = 1)
      (matched : Matched task verdict padding history progress stepped.self.patchReader
        (stepped.self.chunk.bytes ++ later))
      (following : Following env.map task image stepped.self stepped.world progress)
      (empty : chunkLeft stepped.self.chunk = 0)
      (out : OutOfBits stepped.self.patchReader.decoder) (waits : progress.position ≠ .done)
  | hopeless (refused : ¬ Alive verdict)
      (cause : stepped.self.state ≠ .failed →
        task.low ≠ lowestSource env.map ∨ Doomed stepped.self)
  | finished (state : self.state = .done) (res : stepped.res = DetoolsError.alreadyDone.result)
      (same : stepped.self = { self with state := .failed })
  | device (failed : stepped.res < 0) (cause : DeviceFails env self stepped.world.log)

section

variable {env : Env} {memory : Memory} {task : Task} {verdict : Option Progress}
variable {padding : Option (List Bool)} {image history : List UInt8} {progress : Progress}
variable {self : ApplyPatch} {world : World} {later : List UInt8} {stepped : Stepped World}

/-- The source cursor of the device is the position of the machine. -/
theorem Following.fromCurrent
    (following : Following env.map task image self world progress)
    (live : Live env.map self world) :
    world.flash.fromCurrent = env.map.primary.offset + progress.source :=
  live.source.trans following.cursor

/-- A sum with the source cursor that does not wrap around. -/
theorem Following.sum (following : Following env.map task image self world progress)
    (slot : SlotTask env.map memory task) {change : Int}
    (low : lowestSource env.map ≤ progress.source + change) (small : change < 2 ^ 30) :
    intT (env.map.primary.offset + progress.source + change) =
      env.map.primary.offset + (progress.source + change) := by
  have high := following.high
  have bound := env.map.primary.below
  rw [slot.high] at high
  unfold lowestSource at low
  rw [intT_of_fits (by unfold FitsInt; omega), add_assoc]

/-- The engine is at the place of the machine, whatever the device does. -/
theorem Following.aligned {map : FlashMap}
    (following : Following map task image self world progress) : Aligned task self progress :=
  ⟨following.bounded, following.stands, following.counted, following.declared, following.low,
    following.high, following.whole⟩

/-- The engine follows again, if the cursor and the image do. -/
theorem Following.of_aligned {map : FlashMap} {engine : ApplyPatch} {next : World}
    {after : Progress} (aligned : Aligned task engine after)
    (cursor : intT (map.primary.offset + engine.fromOffset) =
      map.primary.offset + after.source)
    (put : SourceApart map task.low → handedImage next.log = image ++ after.output) :
    Following map task image engine next after :=
  ⟨aligned.bounded, aligned.stands, aligned.counted, aligned.declared, cursor, aligned.low,
    aligned.high, aligned.whole, put⟩

/-- A step that calls nothing back. -/
theorem Following.moved (following : Following env.map task image self world progress)
    {after : ApplyPatch}
    (together : Together task verdict padding (after.chunk.bytes ++ later) after progress.source
      progress.output)
    (same : after.fromOffset = self.fromOffset) :
    SimulatedStep env task verdict padding image self later ⟨0, after, world⟩ := by
  obtain @⟨_, next, matched, aligned, position, put⟩ := together
  refine .moved rfl matched (.of_aligned aligned ?_ fun low => ?_)
  · rw [same, position]
    exact following.cursor
  · rw [put]
    exact following.image low

/-- A step that waits for more of the patch. -/
theorem Following.waits (following : Following env.map task image self world progress)
    {after : ApplyPatch}
    (waiting : Waiting task verdict padding later after progress.source progress.output)
    (same : after.fromOffset = self.fromOffset) :
    SimulatedStep env task verdict padding image self later ⟨1, after, world⟩ := by
  obtain @⟨_, next, matched, aligned, position, put, empty, out, waits⟩ := waiting
  refine .waiting rfl matched (.of_aligned aligned ?_ fun low => ?_) empty out waits
  · rw [same, position]
    exact following.cursor
  · rw [put]
    exact following.image low

/-! ### Blocks -/

/-- What gathering a block does on the side of the machine. -/
structure GatheredPart (map : FlashMap) (task : Task) (progress : Progress) (part : Part)
    (data block : List UInt8) (fromOffset : Int) : Prop where
  reads : data ≠ [] → progress.Reads task part data.length
  cursor : intT (map.primary.offset + fromOffset) =
    map.primary.offset + (progress.put task part data).source
  output : SourceApart map task.low →
    (progress.put task part data).output = progress.output ++ block

/-- The source is read where the machine reads it. -/
theorem gathered_part (following : Following env.map task image self world progress)
    (live : Live env.map self world) (undisturbed : Undisturbed env.map memory world)
    (slot : SlotTask env.map memory task) {part : Part} (reads : ReadsPart self.state part)
    {middle : ApplyPatch} {between : World} {block : List UInt8}
    (small : (nextBlock self).data.length ≤ 128)
    (gathered : Gathered (deltaCallbacks env) self world middle between block) :
    GatheredPart env.map task progress part (nextBlock self).data block middle.fromOffset ∧
      handedImage between.log = handedImage world.log := by
  have low := following.low
  have high := following.high
  have lowest := slot.lowest
  cases gathered with
  | extra state =>
      rw [state] at reads
      cases reads
      exact ⟨⟨by rintro - ⟨⟩, following.cursor, fun _ => rfl⟩, rfl⟩
  | @diff state bytes next read =>
      rw [state] at reads
      cases reads
      obtain ⟨below, rfl, rfl⟩ := deltaFlashFromRead_accepted read
      have cursor := following.fromCurrent live
      have fromEnd := live.fromEnd
      rw [cursor, following.sum slot (by omega) (by omega), fromEnd] at below
      have bound := slot.high
      refine ⟨⟨fun _ _ => by omega, ?_, fun inside => ?_⟩, ?_⟩
      · change intT (_ + intT (self.fromOffset + _)) = _
        rw [intT_add_right, ← add_assoc, ← intT_add_left, following.cursor,
          following.sum slot (by omega) (by omega)]
        rfl
      · simp only [Progress.put, List.append_cancel_left_eq]
        apply List.mapIdx_eq_mapIdx_iff.mpr
        intro index within
        rw [slot.source, cursor, undisturbed, add_assoc]
        rw [add_assoc]
        exact inside _ (by omega) (by omega)
      · simp [World.sourceRead, handedImage, Event.handedBlock]

/-- A step that has handed a block over. -/
theorem Following.wrote (following : Following env.map task image self world progress)
    (live : Live env.map self world) (undisturbed : Undisturbed env.map memory world)
    (slot : SlotTask env.map memory task)
    (matched : Matched task verdict padding history progress self.patchReader
      (self.chunk.bytes ++ later))
    {middle : ApplyPatch} {between : World} {block : List UInt8} (nonempty : blockRoom self ≠ 0)
    (read : (nextBlock self).res = 0)
    (gathered : Gathered (deltaCallbacks env) self world middle between block)
    (written : (deltaFlashWrite env between block).1 = 0) :
    SimulatedStep env task verdict padding image self later
      ⟨0, middle.handed block, (deltaFlashWrite env between block).2⟩ := by
  obtain ⟨part, reads⟩ := readsBlock_part gathered.frame.1
  have within := nextBlock_length nonempty read
  obtain ⟨gatheredPart, image'⟩ :=
    gathered_part following live undisturbed slot reads (by omega) gathered
  have some : (nextBlock self).data ≠ [] := List.ne_nil_of_length_pos within.1
  obtain @⟨_, after, next, aligned, position, put⟩ := following.aligned.wrote matched reads
    nonempty read (gatheredPart.reads some) gathered written
  refine .moved rfl next (.of_aligned aligned ?_ fun inside => ?_)
  · rw [position]
    exact gatheredPart.cursor
  · change handedImage (deltaFlashWrite env between block).2.log = _
    rw [deltaFlashWrite_image, image', following.image inside, put, List.append_assoc]
    exact congrArg (image ++ ·) (gatheredPart.output inside).symm

/-- A block that the slot writer does not take means that the device fails. -/
theorem Following.writeFailed (following : Following env.map task image self world progress)
    (live : Live env.map self world) {middle : ApplyPatch} {between : World}
    {block : List UInt8} (nonempty : blockRoom self ≠ 0) (read : (nextBlock self).res = 0)
    (gathered : Gathered (deltaCallbacks env) self world middle between block)
    (failure : (deltaFlashWrite env between block).1 ≠ 0) :
    DeviceFails env self (deltaFlashWrite env between block).2.log := by
  have slot := live.gather gathered
  obtain ⟨state, middleState, -, toOffset, -, -, length⟩ := gathered.frame
  have within := nextBlock_length nonempty read
  obtain ⟨offset, declared, left⟩ := following.aligned.offsets
  have fits := left state
  have outcome := deltaFlashWrite_cases env between block
  generalize deltaFlashWrite env between block = written at failure outcome
  cases outcome with
  | eraseFailed _ fails => exact Or.inl ⟨_, _, fails⟩
  | writeFailed _ fails => exact Or.inl ⟨_, _, fails⟩
  | wrote => exact absurd rfl failure
  | @full ready prepared above =>
      right
      have toCurrent := slot.slot
      have toEnd := slot.toEnd
      have bound := env.map.secondary.below
      have opened : middle.state ≠ .init := by
        rw [middleState]
        exact (readsBlock_running state).1
      rw [produced_of_ne opened, toOffset] at toCurrent
      rw [prepared.behind, prepared.toEnd, cursorBehind,
        intT_of_fits (by unfold FitsInt; omega)] at above
      have called : .handed between.flash block ∈ ready.log := by
        cases prepared <;> simp [World.counted]
      refine ⟨by omega, between.flash, block, ?_, by omega⟩
      simp [World.written, called]

/-- The engine fails to read the source where the machine does, or the device fails. -/
theorem Following.sourceFailed (following : Following env.map task image self world progress)
    (live : Live env.map self world) (slot : SlotTask env.map memory task)
    (matched : Matched task verdict padding history progress self.patchReader
      (self.chunk.bytes ++ later))
    (state : self.state = .diffData) (nonempty : blockRoom self ≠ 0)
    (read : (nextBlock self).res = 0)
    (failure : (deltaFlashFromRead env world (nextBlock self).data.length).1 ≠ 0) :
    ¬ Alive verdict ∨ ∃ log op, env.fails log op = true := by
  have within := nextBlock_length nonempty read
  have reads : ReadsPart self.state .diff := state ▸ .diff
  have outcome := deltaFlashFromRead_cases env world (nextBlock self).data.length
  generalize deltaFlashFromRead env world (nextBlock self).data.length = sourced
    at failure outcome
  cases outcome with
  | empty zero => omega
  | failed _ fails => exact Or.inr ⟨_, _, fails⟩
  | read => exact absurd rfl failure
  | outside positive above =>
      refine Or.inl fun alive => ?_
      have below := following.aligned.readable matched alive reads nonempty read rfl
      have low := following.low
      have lowest := slot.lowest
      have high := slot.high
      rw [following.fromCurrent live, following.sum slot (by omega) (by omega),
        live.fromEnd] at above
      omega

/-! ### Sizes that are read -/

/-- A size of a part: the machine takes it, or the engine waits for more than any slot holds. -/
theorem Following.sized (following : Following env.map task image self world progress)
    (matched : Matched task verdict padding history progress self.patchReader
      (self.chunk.bytes ++ later))
    {next : ApplyPatchState} (states : SizedBy self.state next) (read : (nextSize self).res = 0)
    (fits : SizeFits self) :
    SimulatedStep env task verdict padding image self later
      ⟨0, { self.afterSize with
        state := next, chunkSize := sizeOfInt (nextSize self).size }, world⟩ := by
  have step : EngineStep (deltaCallbacks env) self world
      ⟨0, { self.afterSize with
        state := next, chunkSize := sizeOfInt (nextSize self).size }, world⟩ :=
    .sized states read fits
  obtain ⟨opened, running⟩ := following.stands.opened
  have small := (following.bounded.nextSize opened running).low
  rcases following.aligned.sizeFits_iff.mp fits with takes | ⟨negative, within⟩
  · exact following.moved (following.aligned.sized matched states read takes rfl step) rfl
  · obtain ⟨part, reads, readsNext⟩ := states.part
    cases matched.nextSize_cases (following.stands.of_field reads) with
    | starved res => exact absurd (read.symm.trans res) (by decide)
    | rejected negative => exact absurd read negative.ne
    | read res after =>
        refine .hopeless (not_alive_of_failed (sized_part_failed ?_) after.verdict) fun _ =>
          Or.inr ⟨?_, ?_⟩
        · omega
        · cases readsNext
          · exact Or.inl rfl
          · exact Or.inr rfl
        · show 2 ^ 31 ≤ self.toOffset + sizeOfInt (nextSize self).size
          rw [sizeOfInt_of_neg negative (by omega)]
          omega

/-- The engine seeks where the machine does, or lower than the machine may. -/
theorem Following.sought (following : Following env.map task image self world progress)
    (live : Live env.map self world) (slot : SlotTask env.map memory task)
    (matched : Matched task verdict padding history progress self.patchReader
      (self.chunk.bytes ++ later))
    (state : self.state = .adjustment) (read : (nextSize self).res = 0)
    (found : (deltaFlashSeek world (nextSize self).size).1 = 0) :
    SimulatedStep env task verdict padding image self later
      ⟨0, { self.afterSize with
        fromOffset := intT (self.fromOffset + (nextSize self).size)
        state := if self.toOffset = self.toSize then .done else .diffSize },
        (deltaFlashSeek world (nextSize self).size).2⟩ := by
  have step : EngineStep (deltaCallbacks env) self world _ := .sought state read found
  obtain ⟨opened, running⟩ := following.stands.opened
  have small := following.bounded.nextSize opened running
  have smallLow := small.low
  have smallHigh := small.high
  have image' := (deltaFlashSeek_records world (nextSize self).size).sameImage (by decide)
  have below := (deltaFlashSeek_accepted found).1
  rw [following.fromCurrent live, live.fromEnd] at below
  have high := slot.high
  have low := following.low
  have lowest := slot.lowest
  have above := following.high
  have reaches : lowestSource env.map ≤ progress.source + (nextSize self).size := by
    have bound := env.map.primary.below
    unfold lowestSource at lowest ⊢
    unfold intT at below
    omega
  have exact := following.sum slot reaches (by omega)
  rw [exact] at below
  have below : progress.source + (nextSize self).size < task.high := by omega
  by_cases inside : task.low ≤ progress.source + (nextSize self).size
  · obtain @⟨_, after, next, aligned, position, put⟩ :=
      following.aligned.sought matched state read ⟨inside, below⟩ rfl step
    refine .moved rfl next (.of_aligned aligned ?_ fun low => ?_)
    · show intT (_ + intT (self.fromOffset + (nextSize self).size)) = _
      rw [position, intT_add_right, ← add_assoc, ← intT_add_left, following.cursor, exact]
    · rw [put]
      exact image'.trans (following.image low)
  · refine .hopeless (fun alive => inside ?_) fun _ => Or.inl (by omega)
    exact (following.aligned.seekable matched alive state read).1

/-- The engine fails to seek where the machine rejects. -/
theorem Following.seekFailed (following : Following env.map task image self world progress)
    (live : Live env.map self world) (slot : SlotTask env.map memory task)
    (matched : Matched task verdict padding history progress self.patchReader
      (self.chunk.bytes ++ later))
    (state : self.state = .adjustment) (read : (nextSize self).res = 0)
    (failure : (deltaFlashSeek world (nextSize self).size).1 ≠ 0) : ¬ Alive verdict := by
  obtain ⟨opened, running⟩ := following.stands.opened
  have small := (following.bounded.nextSize opened running).high
  have outcome := deltaFlashSeek_cases world (nextSize self).size
  generalize deltaFlashSeek world (nextSize self).size = sought at failure outcome
  cases outcome with
  | sought => exact absurd rfl failure
  | outside above =>
      intro alive
      have inside := following.aligned.seekable matched alive state read
      have high := slot.high
      have lowest := slot.lowest
      have bound := env.map.primary.below
      rw [following.fromCurrent live, live.fromEnd,
        following.sum slot (by omega) (by omega)] at above
      omega

/-! ### Steps -/

/-- Every step of an engine that follows the machine. -/
theorem Following.step (following : Following env.map task image self world progress)
    (live : Live env.map self world) (undisturbed : Undisturbed env.map memory world)
    (slot : SlotTask env.map memory task)
    (matched : Matched task verdict padding history progress self.patchReader
      (self.chunk.bytes ++ later))
    (step : EngineStep (deltaCallbacks env) self world stepped) :
    SimulatedStep env task verdict padding image self later stepped := by
  have taken := step
  cases step with
  | rejected reason error offsets failed =>
      exact .hopeless (following.aligned.refused matched reason)
        fun running => absurd failed running
  | finished state => exact .finished state rfl rfl
  | opened state => exact absurd state following.stands.opened.1
  | waitingSize states starved =>
      exact following.waits (following.aligned.waitingSize matched states starved taken) rfl
  | waitingBlock states nonempty starved =>
      exact following.waits
        (following.aligned.waitingBlock matched states nonempty starved taken) rfl
  | dfpatch state read nonpositive =>
      exact following.moved (following.aligned.dfpatch matched state read nonpositive taken) rfl
  | sized states read fits => exact following.sized matched states read fits
  | emptied states empty =>
      exact following.moved (following.aligned.emptied matched states empty taken) rfl
  | sourceFailed state nonempty read failure =>
      rcases following.sourceFailed live slot matched state nonempty read failure with
        refused | fails
      · exact .hopeless refused fun running => absurd rfl running
      · exact .device (DetoolsError.result_neg _) (Or.inl fails)
  | wrote nonempty read gathered written =>
      exact following.wrote live undisturbed slot matched nonempty read gathered written
  | writeFailed nonempty read gathered failure =>
      exact .device (DetoolsError.result_neg _)
        (following.writeFailed live nonempty read gathered failure)
  | sought state read found => exact following.sought live slot matched state read found
  | seekFailed state read failure =>
      exact .hopeless (following.seekFailed live slot matched state read failure)
        fun running => absurd rfl running

/-- An engine that waits for more than the slot holds never gets it. -/
theorem Doomed.step (doomed : Doomed self) (live : Live env.map self world)
    (step : EngineStep (deltaCallbacks env) self world stepped)
    (running : stepped.self.state ≠ .failed) : Doomed stepped.self := by
  obtain ⟨opened, -⟩ := readsBlock_running doomed.data
  have produced := live.produced_lt
  have bound := env.map.secondary.below
  rw [produced_of_ne opened] at produced
  have beyond := doomed.beyond
  have other {name : ApplyPatchState} (same : self.state = name) :
      name = .diffData ∨ name = .extraData := same ▸ doomed.data
  cases step with
  | rejected _ _ _ failed => exact absurd failed running
  | finished => exact absurd rfl running
  | opened state => exact absurd (other state) (by decide)
  | waitingSize states =>
      rcases states with same | same | same | same <;> exact absurd (other same) (by decide)
  | waitingBlock => exact ⟨doomed.data, doomed.beyond⟩
  | dfpatch state => exact absurd (other state) (by decide)
  | sized states =>
      have data := doomed.data
      generalize self.state = before at states data
      cases states <;> simp at data
  | emptied _ empty => omega
  | sourceFailed => exact absurd rfl running
  | @wrote middle between block nonempty read gathered =>
      obtain ⟨state, middleState, -, toOffset, -, chunkSize, length⟩ := gathered.frame
      have within := nextBlock_length nonempty read
      refine ⟨?_, ?_⟩
      · change middle.state = _ ∨ middle.state = _
        rw [middleState]
        exact state
      · show 2 ^ 31 ≤ sizeT (middle.toOffset + block.length) + (middle.chunkSize - block.length)
        rw [toOffset, chunkSize, sizeT_of_lt (by omega)]
        omega
  | writeFailed => exact absurd rfl running
  | sought state => exact absurd (other state) (by decide)
  | seekFailed => exact absurd rfl running

end

end DeltaUpdate.Delta
