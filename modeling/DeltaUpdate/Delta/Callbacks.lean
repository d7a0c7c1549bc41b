import DeltaUpdate.Delta.Flash
import DeltaUpdate.Detools.Loops

/-!
Owns `delta.c`: the callbacks over the flash cursors, initialization, the patch
header and `delta_check_and_apply`. The `flash_mem` pointer is never null, so the
null checks and their error codes do not arise.

Every flash operation, every refusal of a callback and every request to the
bootloader is recorded in the log of the world, oldest first. Which operations fail
is decided by the environment from what has happened before.
-/

namespace DeltaUpdate.Delta

open DeltaUpdate.Detools

/-- The `DELTA_*` error codes. -/
inductive DeltaError where
  | slot1OutOfMemory
  | readingPatchError
  | readingSourceError
  | writingError
  | seekingError
  | castingError
  | invalidBufSize
  | clearingError
  | noFlashFound
  | patchHeaderError
deriving DecidableEq, Repr

/-- The value of an error code. -/
def DeltaError.code : DeltaError → Int
  | .slot1OutOfMemory => 28
  | .readingPatchError => 29
  | .readingSourceError => 30
  | .writingError => 31
  | .seekingError => 32
  | .castingError => 33
  | .invalidBufSize => 34
  | .clearingError => 35
  | .noFlashFound => 36
  | .patchHeaderError => 37

/-- The result of a function that fails with an error code. -/
def DeltaError.result (error : DeltaError) : Int := -error.code

theorem DeltaError.result_neg (error : DeltaError) : error.result < 0 := by
  cases error <;> decide

/-- What the program runs on. -/
structure Env where
  map : FlashMap
  /-- Whether a flash operation fails after a history of events. -/
  fails : List Event → FlashOp → Bool
  /-- Whether `boot_request_upgrade` fails. -/
  upgradeFails : Bool

/-- What the callbacks act on: the cursors, the device, and the log. -/
structure World where
  flash : FlashMem
  memory : Memory
  log : List Event

/-- An event is recorded. -/
def World.record (world : World) (event : Event) : World :=
  { world with log := world.log ++ [event] }

@[simp] theorem World.record_flash (world : World) (event : Event) :
    (world.record event).flash = world.flash := rfl

@[simp] theorem World.record_memory (world : World) (event : Event) :
    (world.record event).memory = world.memory := rfl

@[simp] theorem World.record_log (world : World) (event : Event) :
    (world.record event).log = world.log ++ [event] := rfl

/-- An environment in which every flash operation succeeds. -/
def Env.flawless (map : FlashMap) : Env where
  map := map
  fails := fun _ _ => false
  upgradeFails := false

/-! ### The device -/

/-- A call of the flash driver: zero and the effect, or an error and no effect. -/
def issue (env : Env) (issuer : Issuer) (op : FlashOp) (world : World) : Int × World :=
  if env.fails world.log op then (-5, world.record (.flash issuer op false))
  else
    (0, { world with
      memory := op.apply world.memory
      log := world.log ++ [.flash issuer op true] })

/-- `flash_read`: the result, the bytes read and the world. -/
def flashRead (env : Env) (issuer : Issuer) (world : World) (address : Int) (size : Nat) :
    Int × (Nat → UInt8) × World :=
  let issued := issue env issuer (.read address size) world
  (issued.1, fun index => world.memory (address + index), issued.2)

/-- `flash_write`. -/
def flashWrite (env : Env) (issuer : Issuer) (world : World) (address : Int)
    (data : List UInt8) : Int × World :=
  issue env issuer (.write address data) world

/-- `flash_erase`. -/
def flashErase (env : Env) (issuer : Issuer) (world : World) (address : Int) (size : Nat) :
    Int × World :=
  issue env issuer (.erase address size) world

/-! ### Callbacks -/

/-- The start of the page of an address, with the remainder of C. -/
def pageStart (offset : Int) : Int := offset - offset.tmod pageSize

/-- `erase_page`. -/
def erasePage (env : Env) (issuer : Issuer) (world : World) (offset : Int) : Int × World :=
  let erased := flashErase env issuer world (pageStart offset) pageSize
  if erased.1 ≠ 0 then (DeltaError.clearingError.result, erased.2) else (0, erased.2)

/-- The end of `delta_flash_write`: the block is written and the cursor moves on. -/
def writeSlot (env : Env) (world : World) (buf : List UInt8) : Int × World :=
  let written := flashWrite env .deltaFlashWrite world world.flash.toCurrent buf
  if written.1 ≠ 0 then (DeltaError.writingError.result, written.2)
  else
    let flash : FlashMem := { written.2.flash with
      toCurrent := intT (written.2.flash.toCurrent + buf.length) }
    let world := { written.2 with flash := flash }
    if flash.toCurrent ≥ flash.toEnd then
      (DeltaError.slot1OutOfMemory.result, world.record (.refused .deltaFlashWrite))
    else (0, world)

/-- `delta_flash_write`. -/
def deltaFlashWrite (env : Env) (world : World) (buf : List UInt8) : Int × World :=
  let called := world.record (.handed world.flash buf)
  let flash : FlashMem := { called.flash with
    writeBuf := sizeT (called.flash.writeBuf + buf.length) }
  let counted := { called with flash := flash }
  if flash.writeBuf ≥ pageSize then
    let erased := erasePage env .deltaFlashWrite counted (intT (flash.toCurrent + buf.length))
    if erased.1 ≠ 0 then (DeltaError.clearingError.result, erased.2)
    else writeSlot env { erased.2 with flash := { erased.2.flash with writeBuf := 0 } } buf
  else writeSlot env counted buf

/-- `delta_flash_from_read`. -/
def deltaFlashFromRead (env : Env) (world : World) (size : Nat) :
    Int × (Nat → UInt8) × World :=
  if size = 0 then
    (DeltaError.invalidBufSize.result, fun _ => 0, world.record (.refused .deltaFlashFromRead))
  else
    let read := flashRead env .deltaFlashFromRead world world.flash.fromCurrent size
    if read.1 ≠ 0 then (DeltaError.readingSourceError.result, read.2)
    else
      let flash : FlashMem := { read.2.2.flash with
        fromCurrent := intT (read.2.2.flash.fromCurrent + size) }
      let world := { read.2.2 with flash := flash }
      if flash.fromCurrent ≥ flash.fromEnd then
        (DeltaError.readingSourceError.result, read.2.1,
          world.record (.refused .deltaFlashFromRead))
      else (0, read.2.1, world)

/-- `delta_flash_patch_read`. -/
def deltaFlashPatchRead (env : Env) (world : World) (size : Nat) :
    Int × (Nat → UInt8) × World :=
  if size = 0 then
    (DeltaError.invalidBufSize.result, fun _ => 0, world.record (.refused .deltaFlashPatchRead))
  else
    let read := flashRead env .deltaFlashPatchRead world world.flash.patchCurrent size
    if read.1 ≠ 0 then (DeltaError.readingPatchError.result, read.2)
    else
      let flash : FlashMem := { read.2.2.flash with
        patchCurrent := intT (read.2.2.flash.patchCurrent + size) }
      let world := { read.2.2 with flash := flash }
      if flash.patchCurrent ≥ flash.patchEnd then
        (DeltaError.readingPatchError.result, read.2.1,
          world.record (.refused .deltaFlashPatchRead))
      else (0, read.2.1, world.record (.delivered ((List.range size).map read.2.1)))

/-- `delta_flash_seek`. -/
def deltaFlashSeek (world : World) (offset : Int) : Int × World :=
  let flash : FlashMem := { world.flash with
    fromCurrent := intT (world.flash.fromCurrent + offset) }
  let world := { world with flash := flash }
  if flash.fromCurrent ≥ flash.fromEnd then
    (DeltaError.seekingError.result, world.record (.refused .deltaFlashSeek))
  else (0, world)

/-- The callbacks `delta_check_and_apply` passes to the engine. -/
def deltaCallbacks (env : Env) : Callbacks World where
  fromRead := deltaFlashFromRead env
  fromSeek := deltaFlashSeek
  patchRead := deltaFlashPatchRead env
  toWrite := deltaFlashWrite env

/-! ### Initialization -/

/-- `delta_init_flash_mem`. -/
def deltaInitFlashMem (map : FlashMap) : FlashMem where
  fromCurrent := map.primary.offset
  fromEnd := map.primary.offset + map.primary.size
  toCurrent := map.secondary.offset
  toEnd := map.secondary.offset + map.secondary.size
  patchCurrent := map.storage.offset + headerSize
  patchEnd := map.storage.offset + headerSize + map.storage.size
  writeBuf := 0

/-- `delta_init`. -/
def deltaInit (env : Env) (world : World) : Int × World :=
  let world := { world with flash := deltaInitFlashMem env.map }
  erasePage env .deltaInit world world.flash.toCurrent

/-! ### The patch header and the update -/

/-- A 32-bit word in the byte order of the device, little endian. -/
def wordAt (bytes : Nat → UInt8) (start : Nat) : Nat :=
  (bytes start).toNat + 2 ^ 8 * (bytes (start + 1)).toNat +
    2 ^ 16 * (bytes (start + 2)).toNat + 2 ^ 24 * (bytes (start + 3)).toNat

/-- `new_patch`: ASCII for "NEWP". -/
def newPatch : Nat := 0x5057454E

/-- `reset_msg` as it lies in memory. -/
def resetMsg : List UInt8 := [0, 0, 0, 0]

/-- `delta_read_patch_header`: the result, what the size pointer points to, and the
world. -/
def deltaReadPatchHeader (env : Env) (world : World) (size : Nat) : Int × Nat × World :=
  let read := flashRead env .deltaReadPatchHeader world env.map.storage.offset 8
  if read.1 ≠ 0 then (DeltaError.patchHeaderError.result, size, read.2.2)
  else if newPatch ≠ wordAt read.2.1 0 then (0, size, read.2.2)
  else
    let cleared := flashWrite env .deltaReadPatchHeader read.2.2 env.map.storage.offset resetMsg
    if cleared.1 ≠ 0 then
      (DeltaError.patchHeaderError.result, wordAt read.2.1 4, cleared.2)
    else (0, wordAt read.2.1 4, cleared.2)

/-- `boot_request_upgrade`. -/
def bootRequestUpgrade (env : Env) (world : World) : Int × World :=
  (if env.upgradeFails then -5 else 0, world.record (.bootRequestUpgrade !env.upgradeFails))

/-- How a call of `delta_check_and_apply` ends. `sys_reboot` does not return. -/
inductive Ending where
  | returned (value : Int)
  | rebooted
deriving DecidableEq, Repr

/-- The end of `delta_check_and_apply`, from the result of the engine. -/
def requestUpgrade (env : Env) (res : Int) (world : World) : Ending × World :=
  if res ≤ 0 then (.returned res, world)
  else
    let requested := bootRequestUpgrade env world
    if requested.1 ≠ 0 then (.returned (-1), requested.2)
    else (.rebooted, requested.2.record .sysReboot)

/-- `delta_check_and_apply` once the header has given a patch size. -/
def applyPatch (env : Env) (stack : ApplyPatch) (world : World) (patchSize : Nat) :
    Ending × World :=
  let inited := deltaInit env world
  if inited.1 ≠ 0 then (.returned inited.1, inited.2)
  else
    let applied := detoolsApplyPatchCallbacks (deltaCallbacks env) stack inited.2 patchSize
    requestUpgrade env applied.res applied.world

/-- `delta_check_and_apply`; the engine state lies on the stack, uninitialized. -/
def deltaCheckAndApply (env : Env) (stack : ApplyPatch) (world : World) : Ending × World :=
  let header := deltaReadPatchHeader env world 0
  if header.1 < 0 then (.returned header.1, header.2.2)
  else if header.2.1 > 0 then applyPatch env stack header.2.2 header.2.1
  else (.returned 0, header.2.2)

end DeltaUpdate.Delta
