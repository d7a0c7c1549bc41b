import Mathlib.Data.List.GetD
import DeltaUpdate.Delta.Confinement
import DeltaUpdate.Detools.Bounds

/-!
Owns the way of a patch from the file of the host script to the engine. The header is
read back as the script has written it, and the chunks that `callbacks_process` reads
are the patch from its first byte on.
-/

namespace DeltaUpdate.Delta

open DeltaUpdate.Detools

/-! ### Stored bytes -/

/-- The memory holds the bytes from an address on. -/
def Stores (memory : Memory) (start : Int) (bytes : List UInt8) : Prop :=
  ∀ index : Nat, index < bytes.length → memory (start + index) = bytes.getD index 0

theorem Stores.left {memory : Memory} {start : Int} {first second : List UInt8}
    (stored : Stores memory start (first ++ second)) : Stores memory start first := by
  intro index below
  rw [stored index (by rw [List.length_append]; omega), List.getD_append _ _ _ _ below]

theorem Stores.right {memory : Memory} {start : Int} {first second : List UInt8}
    (stored : Stores memory start (first ++ second)) :
    Stores memory (start + first.length) second := by
  intro index below
  have whole := stored (first.length + index) (by rw [List.length_append]; omega)
  rw [List.getD_append_right _ _ _ _ (by omega), Nat.add_sub_cancel_left] at whole
  rw [← whole]
  push_cast
  rw [add_assoc]

/-- Bytes stay stored where the memory is the same. -/
theorem Stores.of_same {before after : Memory} {start : Int} {bytes : List UInt8}
    (stored : Stores before start bytes)
    (same : ∀ address, start ≤ address → address < start + bytes.length →
      after address = before address) : Stores after start bytes := by
  intro index below
  rw [same _ (by omega) (by omega)]
  exact stored index below

/-- A part of stored bytes is read back. -/
theorem Stores.read {memory : Memory} {start : Int} {bytes : List UInt8}
    (stored : Stores memory start bytes) {offset count : Nat}
    (within : offset + count ≤ bytes.length) :
    ((List.range count).map fun index : Nat => memory (start + offset + index)) =
      (bytes.drop offset).take count := by
  apply List.ext_getElem
  · simp only [List.length_map, List.length_range, List.length_take, List.length_drop]
    omega
  · intro index below _
    simp only [List.length_map, List.length_range] at below
    have here := stored (offset + index) (by omega)
    push_cast at here
    simp only [List.getElem_map, List.getElem_range, List.getElem_take, List.getElem_drop]
    rw [add_assoc, here, List.getD_eq_getElem _ _ (by omega)]

/-! ### The header -/

/-- The device reads a size as the script writes it. -/
theorem wordAt_toBytesLittle {value : Nat} {bytes : List UInt8}
    (fits : Script.toBytesLittle value 4 = some bytes) :
    wordAt (fun index => bytes.getD index 0) 0 = value := by
  unfold Script.toBytesLittle at fits
  split at fits
  next small =>
    rw [Option.some.injEq] at fits
    have digits : bytes = [UInt8.ofNat (value / 256 ^ 0), UInt8.ofNat (value / 256 ^ 1),
        UInt8.ofNat (value / 256 ^ 2), UInt8.ofNat (value / 256 ^ 3)] := fits.symm
    rw [digits]
    simp only [wordAt, List.getD_cons_zero, List.getD_cons_succ, UInt8.toNat_ofNat',
      Nat.zero_add]
    omega
  next => simp at fits

theorem wordAt_congr {first second : Nat → UInt8} {start : Nat}
    (same : ∀ index, index < 4 → first (start + index) = second (start + index)) :
    wordAt first start = wordAt second start := by
  have zero := same 0 (by decide)
  rw [Nat.add_zero] at zero
  simp only [wordAt, zero, same 1 (by decide), same 2 (by decide), same 3 (by decide)]

/-- The header of a file that the script has made. -/
theorem headerWord_stored {map : FlashMap} {memory : Memory} {sizeBytes contents : List UInt8}
    (fits : Script.toBytesLittle contents.length 4 = some sizeBytes)
    (stored : Stores memory map.storage.offset (Script.newpBytes ++ sizeBytes ++ contents)) :
    headerWord map memory 0 = newPatch ∧ headerWord map memory 4 = contents.length := by
  have width := Script.toBytesLittle_length fits
  have front := stored.left.left
  have size := stored.left.right
  constructor
  · have same : headerWord map memory 0 =
        wordAt (fun index => Script.newpBytes.getD index 0) 0 := by
      apply wordAt_congr
      intro index below
      rw [Nat.zero_add]
      exact front index below
    rw [same]
    decide
  · have same : headerWord map memory 4 = wordAt (fun index => sizeBytes.getD index 0) 0 := by
      have shifted : headerWord map memory 4 =
          wordAt (fun index : Nat => memory (map.storage.offset + 4 + index)) 0 := by
        simp only [headerWord, wordAt, add_assoc]
        rfl
      rw [shifted]
      apply wordAt_congr
      intro index below
      rw [Nat.zero_add]
      exact size index (by omega)
    rw [same, wordAt_toBytesLittle fits]

/-- The reads of the device succeed, and so does the clearing of the marker. -/
structure ReadsSucceed (env : Env) : Prop where
  reads : ∀ log address size, env.fails log (.read address size) = false
  marker : ∀ log, env.fails log (.write env.map.storage.offset resetMsg) = false

/-- With a header that gives a patch, it is read and cleared. -/
theorem deltaReadPatchHeader_cleared {env : Env} (succeed : ReadsSucceed env) {world : World}
    (marker : headerWord env.map world.memory 0 = newPatch) (size : Nat) :
    deltaReadPatchHeader env world size =
      (0, headerWord env.map world.memory 4, world.cleared env.map) := by
  have outcome := deltaReadPatchHeader_cases env world size
  generalize deltaReadPatchHeader env world size = header at outcome
  cases outcome with
  | readFailed fails => simp [succeed.reads] at fails
  | noPatch other => exact absurd marker other
  | clearFailed _ fails =>
      obtain ⟨log, fails⟩ := fails
      simp [succeed.marker] at fails
  | cleared => rfl

/-! ### What stays as it is -/

/-- An event of `delta_flash_patch_read`. -/
def Event.FromPatchRead : Event → Prop
  | .flash .deltaFlashPatchRead _ _ => True
  | .refused .deltaFlashPatchRead => True
  | .delivered _ => True
  | _ => False

/-- The patch cursor is the same, and no event of a patch read is new. -/
structure PatchUntouched (before after : World) : Prop where
  cursor : after.flash.patchCurrent = before.flash.patchCurrent
  log : Extends (fun event => ¬ event.FromPatchRead) before.log after.log

theorem PatchUntouched.refl (world : World) : PatchUntouched world world :=
  ⟨rfl, Extends.refl _ _⟩

theorem Event.IssuedBy.otherThanPatch {issuer : Issuer} {event : Event}
    (issued : event.IssuedBy issuer) (other : issuer ≠ .deltaFlashPatchRead) :
    ¬ event.FromPatchRead := by
  intro patch
  unfold Event.FromPatchRead at patch
  split at patch
  · exact other issued.symm
  · exact other issued.symm
  · exact other issued
  · exact patch

theorem deltaFlashWrite_untouched (env : Env) (world : World) (block : List UInt8) :
    PatchUntouched world (deltaFlashWrite env world block).2 := by
  refine ⟨?_, (deltaFlashWrite_records env world block).mono fun _ issued =>
    issued.otherThanPatch (by decide)⟩
  have outcome := deltaFlashWrite_cases env world block
  generalize deltaFlashWrite env world block = written at outcome
  cases outcome with
  | eraseFailed => rfl
  | writeFailed prepared => exact prepared.patchCurrent
  | full prepared => exact prepared.patchCurrent
  | wrote prepared => exact prepared.patchCurrent

theorem deltaFlashFromRead_untouched (env : Env) (world : World) (size : Nat) :
    PatchUntouched world (deltaFlashFromRead env world size).2.2 := by
  refine ⟨?_, (deltaFlashFromRead_records env world size).mono fun _ issued =>
    issued.otherThanPatch (by decide)⟩
  have outcome := deltaFlashFromRead_cases env world size
  generalize deltaFlashFromRead env world size = read at outcome
  cases outcome <;> rfl

theorem deltaFlashSeek_untouched (world : World) (offset : Int) :
    PatchUntouched world (deltaFlashSeek world offset).2 := by
  refine ⟨?_, (deltaFlashSeek_records world offset).mono fun _ issued =>
    issued.otherThanPatch (by decide)⟩
  have outcome := deltaFlashSeek_cases world offset
  generalize deltaFlashSeek world offset = sought at outcome
  cases outcome <;> rfl

theorem PatchUntouched.trans {first second third : World} (left : PatchUntouched first second)
    (right : PatchUntouched second third) : PatchUntouched first third :=
  ⟨right.cursor.trans left.cursor, left.log.trans right.log⟩

theorem gathered_untouched {env : Env} {self middle : ApplyPatch} {world between : World}
    {block : List UInt8}
    (gathered : Gathered (deltaCallbacks env) self world middle between block) :
    PatchUntouched world between := by
  cases gathered with
  | diff state read =>
      have same := deltaFlashFromRead_untouched env world (nextBlock self).data.length
      change deltaFlashFromRead env world _ = _ at read
      rw [read] at same
      exact same
  | extra => exact PatchUntouched.refl world

/-- A step of the engine does not read the patch. -/
theorem engineStep_untouched {env : Env} {self : ApplyPatch} {world : World}
    {stepped : Stepped World} (step : EngineStep (deltaCallbacks env) self world stepped) :
    PatchUntouched world stepped.world := by
  cases step with
  | sourceFailed => exact deltaFlashFromRead_untouched env world _
  | wrote nonempty read gathered =>
      exact (gathered_untouched gathered).trans (deltaFlashWrite_untouched env _ _)
  | writeFailed nonempty read gathered =>
      exact (gathered_untouched gathered).trans (deltaFlashWrite_untouched env _ _)
  | sought => exact deltaFlashSeek_untouched world _
  | seekFailed => exact deltaFlashSeek_untouched world _
  | _ => exact PatchUntouched.refl world

/-- A block that the writer accepts changes the memory inside the slot only. -/
theorem deltaFlashWrite_inside {env : Env} {world : World} {block : List UInt8}
    (within : CallWithin env.map world.flash block)
    (accepted : (deltaFlashWrite env world block).1 = 0) {address : Int}
    (outside : ¬ env.map.secondary.Contains address)
    (toEnd : world.flash.toEnd = env.map.secondary.offset + env.map.secondary.size) :
    (deltaFlashWrite env world block).2.memory address = world.memory address := by
  obtain ⟨counted, cursor⟩ := within.exact
  obtain ⟨ready, prepared, below, outcome⟩ := deltaFlashWrite_accepted accepted
  have room : world.flash.toCurrent + block.length < world.flash.toEnd := by
    rw [prepared.behind, cursor, prepared.toEnd] at below
    exact below
  rw [toEnd] at room
  have fits : CallFits env.map world.flash block := ⟨room.le, fun _ => room⟩
  have written : (ready.written block).memory address = ready.memory address := by
    simp only [World.written, prepared.toCurrent]
    exact FlashOp.apply_untouched
      (fun touches => outside (WriterOp.inside within fits .write touches)) _
  rw [outcome, written]
  cases prepared with
  | kept => rfl
  | erased due =>
      simp only [within.ahead]
      rw [counted] at due
      exact FlashOp.apply_untouched
        (fun touches => outside (WriterOp.inside within fits (.erase due) touches)) _

/-- A step that does not fail changes the memory inside the slot only. -/
theorem engineStep_memory {env : Env} {self : ApplyPatch} {world : World}
    {stepped : Stepped World} (step : EngineStep (deltaCallbacks env) self world stepped)
    (live : Live env.map self world) (running : stepped.self.state ≠ .failed) {address : Int}
    (outside : ¬ env.map.secondary.Contains address) :
    stepped.world.memory address = world.memory address := by
  cases step with
  | rejected _ _ _ failed => exact absurd failed running
  | finished => exact absurd rfl running
  | sourceFailed => exact absurd rfl running
  | writeFailed => exact absurd rfl running
  | seekFailed => exact absurd rfl running
  | @wrote middle between block nonempty success gathered written =>
      have slot := (live.gather gathered).slotCursor
      have length := gathered.frame.2.2.2.2.2.2
      have within := nextBlock_length nonempty success
      have same : between.memory = world.memory := by
        cases gathered with
        | diff state read => rw [(deltaFlashFromRead_accepted read).2.2]; rfl
        | extra => rfl
      rw [← same]
      exact deltaFlashWrite_inside
        ⟨slot.low, slot.high, slot.counted, by omega, by omega⟩ written outside slot.toEnd
  | sought state size found =>
      change (deltaFlashSeek world _).2.memory address = _
      have outcome := deltaFlashSeek_cases world (nextSize self).size
      generalize deltaFlashSeek world (nextSize self).size = sought at outcome
      cases outcome <;> rfl
  | _ => rfl

/-! ### What is delivered -/

/-- The bytes an event delivers to the engine. -/
def Event.deliveredBytes : Event → List UInt8
  | .delivered chunk => chunk
  | _ => []

/-- The bytes that have been delivered to the engine, in order. -/
def deliveredBytes (log : List Event) : List UInt8 := log.flatMap Event.deliveredBytes

@[simp] theorem deliveredBytes_append (first second : List Event) :
    deliveredBytes (first ++ second) = deliveredBytes first ++ deliveredBytes second :=
  List.flatMap_append

theorem deliveredBytes_untouched {before after : World} (same : PatchUntouched before after) :
    deliveredBytes after.log = deliveredBytes before.log := by
  obtain ⟨rest, log, others⟩ := same.log
  have none : deliveredBytes rest = [] := by
    apply List.flatMap_eq_nil_iff.mpr
    intro event among
    cases event with
    | delivered => exact absurd trivial (others _ among)
    | _ => rfl
  rw [log, deliveredBytes_append, none, List.append_nil]

/-- What a log says about the delivery of a patch. -/
structure Delivered (map : FlashMap) (contents : List UInt8) (log : List Event) : Prop where
  inOrder : deliveredBytes log <+: contents
  accepted : .refused .deltaFlashPatchRead ∉ log
  within : ∀ (address : Int) (size : Nat) (ok : Bool),
    .flash .deltaFlashPatchRead (.read address size) ok ∈ log →
      map.storage.offset + headerSize ≤ address ∧
        address + size ≤ map.storage.offset + headerSize + contents.length

theorem Delivered.untouched {map : FlashMap} {contents : List UInt8} {before after : World}
    (delivered : Delivered map contents before.log) (same : PatchUntouched before after) :
    Delivered map contents after.log := by
  refine ⟨by rw [deliveredBytes_untouched same]; exact delivered.inOrder, ?_, ?_⟩
  · obtain ⟨rest, log, others⟩ := same.log
    rw [log]
    intro refused
    rcases List.mem_append.mp refused with old | new
    · exact delivered.accepted old
    · exact others _ new trivial
  · intro address size ok issued
    obtain ⟨rest, log, others⟩ := same.log
    rw [log] at issued
    rcases List.mem_append.mp issued with old | new
    · exact delivered.within address size ok old
    · exact absurd trivial (others _ new)

/-- A run that stands at an offset of the patch, with all bytes before it delivered. -/
structure DeliveredUpTo (map : FlashMap) (contents : List UInt8) (patchOffset : Nat)
    (engine : ApplyPatch) (world : World) : Prop where
  running : engine.state ≠ .failed
  within : patchOffset ≤ contents.length
  cursor : world.flash.patchCurrent = map.storage.offset + headerSize + patchOffset
  bytes : deliveredBytes world.log = contents.take patchOffset
  stored : Stores world.memory (map.storage.offset + headerSize) contents

/-- What holds of the delivery of a patch in every state of a run. -/
structure Delivering (map : FlashMap) (contents : List UInt8) (config : Config World) : Prop where
  delivered : Delivered map contents config.world.log
  going : ∀ patchOffset, config.phase = .fetch patchOffset ∨ config.phase = .feed patchOffset →
    DeliveredUpTo map contents patchOffset config.self config.world
  all : config.phase = .drain 0 → deliveredBytes config.world.log = contents

section

variable {env : Env} {contents : List UInt8}

/-- The next chunk of a patch that fits into its partition is read. -/
theorem deltaFlashPatchRead_next (succeed : ReadsSucceed env)
    (fits : headerSize + contents.length ≤ env.map.storage.size) {self : ApplyPatch}
    {world : World} {patchOffset size : Nat} (live : Live env.map self world)
    (going : DeliveredUpTo env.map contents patchOffset self world) (nonempty : size ≠ 0)
    (within : patchOffset + size ≤ contents.length) :
    deltaFlashPatchRead env world size =
      ((0 : Int), fun index : Nat => world.memory (world.flash.patchCurrent + index),
        (world.patchRead size).record
          (.delivered ((contents.drop patchOffset).take size))) := by
  have outcome := deltaFlashPatchRead_cases env world size
  generalize deltaFlashPatchRead env world size = read at outcome
  have bytes : world.patchBytes size = (contents.drop patchOffset).take size := by
    rw [World.patchBytes, going.cursor]
    exact going.stored.read within
  have below : intT (world.flash.patchCurrent + size) < world.flash.patchEnd := by
    have bound := env.map.storage.below
    rw [live.patchEnd, going.cursor, intT_of_fits (by unfold FitsInt headerSize; omega)]
    unfold headerSize at fits ⊢
    omega
  cases outcome with
  | empty zero => exact absurd zero nonempty
  | failed _ fails => simp [succeed.reads] at fails
  | outside _ above => exact absurd below (not_lt.mpr above)
  | read => rw [bytes]

/-- Reading the next chunk moves the run on by it. -/
theorem DeliveredUpTo.next {self : ApplyPatch} {world : World} {patchOffset size : Nat}
    (going : DeliveredUpTo env.map contents patchOffset self world)
    (fits : headerSize + contents.length ≤ env.map.storage.size)
    (within : patchOffset + size ≤ contents.length) :
    DeliveredUpTo env.map contents (patchOffset + size) self
      ((world.patchRead size).record (.delivered ((contents.drop patchOffset).take size))) where
  running := going.running
  within := within
  cursor := by
    have bound := env.map.storage.below
    simp only [World.record_flash, World.patchRead, going.cursor]
    rw [intT_of_fits (by unfold FitsInt headerSize; omega)]
    push_cast
    rw [add_assoc]
  bytes := by
    have events : deliveredBytes ((world.patchRead size).record
        (.delivered ((contents.drop patchOffset).take size))).log =
          deliveredBytes world.log ++ (contents.drop patchOffset).take size := by
      simp [World.patchRead, deliveredBytes, Event.deliveredBytes]
    rw [events, going.bytes, List.take_add]
  stored := going.stored

theorem Delivered.next {world : World} {patchOffset size : Nat}
    (delivered : Delivered env.map contents world.log)
    (cursor : world.flash.patchCurrent = env.map.storage.offset + headerSize + patchOffset)
    (bytes : deliveredBytes world.log = contents.take patchOffset)
    (within : patchOffset + size ≤ contents.length) :
    Delivered env.map contents ((world.patchRead size).record
      (.delivered ((contents.drop patchOffset).take size))).log := by
  refine ⟨?_, ?_, fun address count ok issued => ?_⟩
  · have events : deliveredBytes ((world.patchRead size).record
        (.delivered ((contents.drop patchOffset).take size))).log =
          contents.take (patchOffset + size) := by
      simp only [World.record_log, World.patchRead, deliveredBytes_append, bytes, List.take_add]
      simp [deliveredBytes, Event.deliveredBytes]
    rw [events]
    exact List.take_prefix _ _
  · have old := delivered.accepted
    simp [World.patchRead, old]
  · simp only [World.record_log, World.patchRead, List.mem_append, List.mem_singleton,
      reduceCtorEq, or_false, Event.flash.injEq, true_and, FlashOp.read.injEq] at issued
    rcases issued with old | ⟨⟨rfl, rfl⟩, -⟩
    · exact delivered.within address count ok old
    · rw [cursor]
      omega

/-- What `callbacks_process` finds at the top of its loop: the bytes before the offset have
been delivered, and if there are more the read succeeds, records one flash operation and
delivers the next of them, up to 512. -/
structure NextChunk (env : Env) (contents : List UInt8) (patchOffset : Nat) (world : World) :
    Prop where
  before : deliveredBytes world.log = contents.take patchOffset
  next : patchOffset < contents.length →
    let size := min (contents.length - patchOffset) 512
    let chunk := (contents.drop patchOffset).take size
    let read := deltaFlashPatchRead env world size
    read.1 = 0 ∧ (List.range size).map read.2.1 = chunk ∧
      read.2.2.log = world.log ++
        [.flash .deltaFlashPatchRead
          (.read (env.map.storage.offset + headerSize + patchOffset) size) true,
          .delivered chunk]

theorem DeliveredUpTo.nextChunk (succeed : ReadsSucceed env)
    (fits : headerSize + contents.length ≤ env.map.storage.size) {self : ApplyPatch}
    {world : World} {patchOffset : Nat} (live : Live env.map self world)
    (going : DeliveredUpTo env.map contents patchOffset self world) :
    NextChunk env contents patchOffset world := by
  refine ⟨going.bytes, fun below => ?_⟩
  have within : patchOffset + min (contents.length - patchOffset) 512 ≤ contents.length := by
    omega
  have read := deltaFlashPatchRead_next succeed fits live going
    (show min (contents.length - patchOffset) 512 ≠ 0 by omega) within
  simp only [read]
  refine ⟨trivial, ?_, ?_⟩
  · rw [going.cursor]
    exact going.stored.read within
  · simp [World.patchRead, going.cursor]

/-- The bytes of the patch lie outside the slot. -/
theorem payload_outside {map : FlashMap} (apart : map.secondary.Apart map.storage)
    {patchSize : Nat} (fits : headerSize + patchSize ≤ map.storage.size) {address : Int}
    (low : map.storage.offset + headerSize ≤ address)
    (high : address < map.storage.offset + headerSize + patchSize) :
    ¬ map.secondary.Contains address := by
  unfold Partition.Contains
  unfold Partition.Apart at apart
  omega

/-- A step that does not fail leaves the run where it stands. -/
theorem DeliveredUpTo.step (apart : env.map.secondary.Apart env.map.storage)
    (fits : headerSize + contents.length ≤ env.map.storage.size) {self : ApplyPatch}
    {world : World} {stepped : Stepped World} {patchOffset : Nat}
    (live : Live env.map self world)
    (going : DeliveredUpTo env.map contents patchOffset self world)
    (step : EngineStep (deltaCallbacks env) self world stepped) (nonneg : 0 ≤ stepped.res) :
    DeliveredUpTo env.map contents patchOffset stepped.self stepped.world where
  running := fun failed => absurd (step.failed_iff.mp failed) (not_lt.mpr nonneg)
  within := going.within
  cursor := (engineStep_untouched step).cursor.trans going.cursor
  bytes := (deliveredBytes_untouched (engineStep_untouched step)).trans going.bytes
  stored := going.stored.of_same fun _ low high =>
    engineStep_memory step live
      (fun failed => absurd (step.failed_iff.mp failed) (not_lt.mpr nonneg))
      (payload_outside apart fits low high)

/-- The chunks of a run are the patch, as far as the run has come. -/
theorem delivering_kept (succeed : ReadsSucceed env)
    (apart : env.map.secondary.Apart env.map.storage)
    (fits : headerSize + contents.length ≤ env.map.storage.size) {before after : Config World}
    (live : before.self.state ≠ .failed → Live env.map before.self before.world)
    (step : DriverStep (deltaCallbacks env) contents.length before after)
    (delivering : Delivering env.map contents before) : Delivering env.map contents after := by
  cases step with
  | @fetched patchOffset self world below success =>
      have going := delivering.going patchOffset (Or.inl rfl)
      have some : min (contents.length - patchOffset) 512 ≠ 0 := by omega
      have within : patchOffset + min (contents.length - patchOffset) 512 ≤ contents.length := by
        omega
      have read := deltaFlashPatchRead_next succeed fits (live going.running) going some within
      show Delivering env.map contents ⟨_, loadChunk self (deltaFlashPatchRead env world _).2.1 _,
        (deltaFlashPatchRead env world _).2.2⟩
      rw [read]
      have next := going.next fits within
      refine ⟨delivering.delivered.next going.cursor going.bytes within, ?_, by simp⟩
      intro offset phase
      simp only [reduceCtorEq, Phase.feed.injEq, false_or] at phase
      rw [← phase]
      exact ⟨next.running, next.within, next.cursor, next.bytes, next.stored⟩
  | @fetchFailed patchOffset self world below failure =>
      have going := delivering.going patchOffset (Or.inl rfl)
      have read := deltaFlashPatchRead_next succeed fits (live going.running) going
        (show min (contents.length - patchOffset) 512 ≠ 0 by omega) (by omega)
      change (deltaFlashPatchRead env world _).1 ≠ 0 at failure
      rw [read] at failure
      exact absurd rfl failure
  | @fetchedAll patchOffset self world all =>
      have going := delivering.going patchOffset (Or.inl rfl)
      refine ⟨delivering.delivered, by simp, fun _ => ?_⟩
      show deliveredBytes world.log = contents
      rw [going.bytes, List.take_of_length_le (by omega)]
  | @used patchOffset self world empty =>
      refine ⟨delivering.delivered, fun offset phase => ?_, by simp⟩
      simp only [Phase.fetch.injEq, reduceCtorEq, or_false] at phase
      rw [← phase]
      exact delivering.going patchOffset (Or.inr rfl)
  | @fed patchOffset self world stepped available step nonneg =>
      have going := delivering.going patchOffset (Or.inr rfl)
      refine ⟨delivering.delivered.untouched (engineStep_untouched step),
        fun offset phase => ?_, by simp⟩
      simp only [reduceCtorEq, Phase.feed.injEq, false_or] at phase
      rw [← phase]
      exact going.step apart fits (live going.running) step nonneg
  | fedFailed available step negative =>
      refine ⟨delivering.delivered.untouched (engineStep_untouched step), by simp, fun phase => ?_⟩
      simp only [Phase.drain.injEq] at phase
      omega
  | drained step =>
      refine ⟨delivering.delivered.untouched (engineStep_untouched step), by simp, fun phase => ?_⟩
      exact (deliveredBytes_untouched (engineStep_untouched step)).trans (delivering.all phase)
  | stopped step =>
      exact ⟨delivering.delivered.untouched (engineStep_untouched step), by simp, by simp⟩
  | halted => exact delivering

end

/-! ### Runs -/

/-- What happens before the engine starts changes the marker and the secondary slot only. -/
theorem startMemory_same {map : FlashMap} {memory : Memory} {address : Int}
    (slot : ¬ map.secondary.Contains address)
    (marker : address < map.storage.offset ∨ map.storage.offset + 4 ≤ address) :
    (firstErase map).apply (clearedMemory map memory) address = memory address := by
  have behind : ¬ (FlashOp.write map.storage.offset resetMsg).Touches address := by
    unfold FlashOp.Touches resetMsg
    simp only [List.length_cons, List.length_nil]
    omega
  rw [FlashOp.apply_untouched fun touches => slot (firstErase_inside touches)]
  exact FlashOp.apply_untouched behind memory

/-- The memory after the header has been cleared and the first page erased holds the
patch as before. -/
theorem stored_afterInit {env : Env} {contents : List UInt8}
    (apart : env.map.secondary.Apart env.map.storage)
    (fits : headerSize + contents.length ≤ env.map.storage.size) {memory : Memory}
    (stored : Stores memory (env.map.storage.offset + headerSize) contents) :
    Stores ((firstErase env.map).apply (clearedMemory env.map memory))
      (env.map.storage.offset + headerSize) contents :=
  stored.of_same fun address low high => startMemory_same (payload_outside apart fits low high)
    (Or.inr (by unfold headerSize at low; omega))

/-- How a run of the engine is served a patch: what its reads deliver is the patch as far as it
has come, every read at the top of the loop gives the next chunk, and the loop ends with all
of it delivered or with an error of the engine. -/
structure ServesPatch (env : Env) (contents : List UInt8) (stack : ApplyPatch) (inited : World) :
    Prop where
  delivered : ∀ config, Visits (deltaCallbacks env) stack inited contents.length config →
    Delivered env.map contents config.world.log
  next : ∀ config, Visits (deltaCallbacks env) stack inited contents.length config →
    ∀ patchOffset, config.phase = .fetch patchOffset →
      NextChunk env contents patchOffset config.world
  all :
    let looped := callbacksLoop (deltaCallbacks env) contents.length 0
      ⟨0, detoolsApplyPatchInit stack contents.length, inited⟩
    looped.res = 0 → deliveredBytes looped.world.log = contents
  refused :
    let looped := callbacksLoop (deltaCallbacks env) contents.length 0
      ⟨0, detoolsApplyPatchInit stack contents.length, inited⟩
    looped.res ≠ 0 → ∃ config,
      Visits (deltaCallbacks env) stack inited contents.length config ∧
        config.Refuses (deltaCallbacks env) looped.res

section

variable {env : Env} {contents : List UInt8} (succeed : ReadsSucceed env)
variable (apart : env.map.secondary.Apart env.map.storage)
variable (fits : headerSize + contents.length ≤ env.map.storage.size)

include succeed apart fits

/-- The delivery of a patch in every state of a run that starts with it stored. -/
theorem runs_delivering {stack : ApplyPatch} {memory : Memory} {log : List Event}
    (stored : Stores memory (env.map.storage.offset + headerSize) contents)
    (quiet : ∀ event ∈ log, ¬ event.FromPatchRead) {config : Config World}
    (runs : Runs env stack memory log contents.length config) :
    Delivering env.map contents config := by
  have none : deliveredBytes log = [] := by
    apply List.flatMap_eq_nil_iff.mpr
    intro event among
    cases event with
    | delivered => exact absurd trivial (quiet _ among)
    | _ => rfl
  refine Visits.invariant_of (Delivering env.map contents) ?_ ?_ runs
  · intro before after reached step delivering
    exact delivering_kept succeed apart fits (fun running => runs_live reached running) step
      delivering
  · refine ⟨⟨?_, fun refused => absurd trivial (quiet _ refused),
      fun _ _ _ issued => absurd trivial (quiet _ issued)⟩, fun offset phase => ?_, by
        simp [driverStart]⟩
    · show deliveredBytes log <+: contents
      rw [none]
      exact List.nil_prefix
    · simp only [driverStart, Phase.fetch.injEq, reduceCtorEq, or_false] at phase
      rw [← phase]
      refine ⟨by simp [driverStart, detoolsApplyPatchInit], Nat.zero_le _, ?_, ?_, stored⟩
      · simp [driverStart, startWorld, deltaInitFlashMem]
      · simp [driverStart, startWorld, none]

/-- A run that starts with the patch stored serves it. -/
theorem runs_servePatch {memory : Memory} {log : List Event}
    (stored : Stores memory (env.map.storage.offset + headerSize) contents)
    (quiet : ∀ event ∈ log, ¬ event.FromPatchRead) (stack : ApplyPatch) :
    ServesPatch env contents stack (startWorld env.map memory log) := by
  have delivering {config : Config World}
      (runs : Runs env stack memory log contents.length config) :
      Delivering env.map contents config :=
    runs_delivering succeed apart fits stored quiet runs
  have fetching {config : Config World}
      (runs : Runs env stack memory log contents.length config) {patchOffset : Nat}
      (phase : config.phase = .fetch patchOffset) :
      NextChunk env contents patchOffset config.world := by
    have going := (delivering runs).going patchOffset (Or.inl phase)
    exact going.nextChunk succeed fits (runs_live runs going.running)
  have reached := callbacksLoop_reaches (deltaCallbacks env) contents.length 0
    ⟨0, detoolsApplyPatchInit stack contents.length, startWorld env.map memory log⟩ rfl
  refine ⟨fun config runs => (delivering runs).delivered, fun config runs _ => fetching runs,
    fun zero => (delivering reached).all (congrArg Phase.drain zero), fun failure => ?_⟩
  -- the reads succeed, so that it is the engine that has ended the loop
  obtain ⟨cause, runs, ⟨patchOffset, phase, below, unread⟩ | refuses⟩ :=
    Visits.endsEarly reached rfl failure
  · exact absurd ((fetching runs phase).next below).1 unread
  · exact ⟨cause, runs, refuses⟩

/-- The device reads back the patch that the host script has packed: the header gives its
size, and the run of the engine behind `delta_init` is served all of it, chunk by chunk,
unless the engine refuses a chunk. -/
theorem packed_patch_delivered {maxSize inputHeaderSize : Int} {padded : Script.Padded}
    (nonempty : contents ≠ []) (small : inputHeaderSize ≤ 8)
    (written : Script.start contents maxSize inputHeaderSize = some padded) {memory : Memory}
    (stored : Stores memory env.map.storage.offset padded.file) (flash : FlashMem)
    (stack : ApplyPatch) (size : Nat) :
    let header := deltaReadPatchHeader env ⟨flash, memory, []⟩ size
    (header.1 = 0 ∧ header.2.1 = contents.length ∧ 0 < header.2.1) ∧
      ∀ inited, deltaInit env header.2.2 = (0, inited) →
        ServesPatch env contents stack inited := by
  obtain ⟨sizeBytes, sized, file⟩ := Script.start_file small written
  rw [file] at stored
  obtain ⟨marker, length⟩ := headerWord_stored sized stored
  have width := Script.toBytesLittle_length sized
  have payload : Stores memory (env.map.storage.offset + headerSize) contents := by
    have behind := stored.right
    rw [List.length_append, width] at behind
    exact behind
  intro header
  have cleared : header = (0, contents.length, World.cleared ⟨flash, memory, []⟩ env.map) := by
    rw [← length]
    exact deltaReadPatchHeader_cleared succeed marker size
  rw [cleared]
  refine ⟨⟨rfl, rfl, List.length_pos_iff.mpr nonempty⟩, fun inited init => ?_⟩
  have outcome := deltaInit_cases env (World.cleared ⟨flash, memory, []⟩ env.map)
  rw [init] at outcome
  cases outcome with
  | done =>
      refine runs_servePatch succeed apart fits (stored_afterInit apart fits payload) ?_ stack
      simp [World.cleared, headerEvents, Event.FromPatchRead]

end

theorem placeAt_stores (start : Int) (bytes : List UInt8) :
    Stores (placeAt start bytes) start bytes := by
  intro index below
  rw [placeAt, if_pos ⟨by omega, by omega⟩, add_sub_cancel_left, Int.toNat_natCast]

theorem flawless_readsSucceed (map : FlashMap) : ReadsSucceed (Env.flawless map) :=
  ⟨fun _ _ _ => rfl, fun _ => rfl⟩

/-- A patch that is read in two chunks: a run of copies of one byte lies across them. -/
def twoChunkPatch : List UInt8 :=
  [0x04, 0xaf, 0x04, 0x44] ++
    ([0x80, 0x6b, 0x20, 0x90, 0x18, 0x14, 0x0e, 0x09, 0x05, 0x02, 0x04] ++
      (List.replicate 580 0 ++ [0x81, 0x6e, 0xf9, 0x94, 0x38, 0x0c, 0x42, 0x01, 0x00]))

theorem twoChunkPatch_length : twoChunkPatch.length = 604 := by
  simp only [twoChunkPatch, List.length_append, List.length_replicate]
  rfl

/-- It is read back, packed at the address of the build. -/
theorem packed_patch_delivered_build :
    let env := Env.flawless buildMap
    let memory := placeAt 0xf8000 (Script.packed twoChunkPatch)
    let header := deltaReadPatchHeader env ⟨deltaInitFlashMem buildMap, memory, []⟩ 0
    (header.1 = 0 ∧ header.2.1 = twoChunkPatch.length ∧ 0 < header.2.1) ∧
      ∀ inited, deltaInit env header.2.2 = (0, inited) →
        ServesPatch env twoChunkPatch zeroStack inited := by
  obtain ⟨padded, written, file⟩ := @Script.start_packed twoChunkPatch
    (by rw [twoChunkPatch_length]; decide)
  rw [← file]
  exact @packed_patch_delivered (Env.flawless buildMap) twoChunkPatch
    (flawless_readsSucceed buildMap) (Or.inl (by decide)) (by rw [twoChunkPatch_length]; decide)
    _ 8 padded (List.cons_ne_nil _ _) (le_refl 8) written _ (placeAt_stores 0xf8000 padded.file)
    (deltaInitFlashMem buildMap) zeroStack 0

end DeltaUpdate.Delta
