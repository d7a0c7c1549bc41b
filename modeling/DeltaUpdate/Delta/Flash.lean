import DeltaUpdate.Machine

/-!
Owns the flash device: the partitions of the flash map, the three operations and
their effect on memory, the record of what the program does to the device, and the
memory that replaying such a record leaves behind.

An erased byte reads 0xFF and a write can only clear bits. An operation that fails
has no effect.
-/

namespace DeltaUpdate.Delta

/-- `PAGE_SIZE`. -/
def pageSize : Nat := 0x1000

/-- `HEADER_SIZE`. -/
def headerSize : Nat := 0x8

/-- One partition of the flash map: page aligned, and low enough in the address
space that no sum of an address and a size in the patch leaves `off_t`. -/
structure Partition where
  offset : Nat
  size : Nat
  positive : 0 < size
  below : offset + size ≤ 2 ^ 30
  offsetAligned : pageSize ∣ offset
  sizeAligned : pageSize ∣ size

/-- `FIXED_PARTITION_OFFSET` and `FIXED_PARTITION_SIZE` of the partitions in use. -/
structure FlashMap where
  primary : Partition
  secondary : Partition
  storage : Partition

/-- The flash map of the build. The size of the patch partition is the board's. -/
def deviceMap (storage : { partition : Partition // partition.offset = 0xf8000 }) : FlashMap where
  primary := ⟨0xc000, 0x67000, by decide, by decide, by decide, by decide⟩
  secondary := ⟨0x73000, 0x67000, by decide, by decide, by decide, by decide⟩
  storage := storage.val

/-- The primary slot ends where the secondary slot starts, and the patch partition lies
more than a page above the secondary slot. -/
theorem deviceMap_layout (storage : { partition : Partition // partition.offset = 0xf8000 }) :
    (deviceMap storage).primary.offset = 0xc000 ∧
      (deviceMap storage).primary.offset + (deviceMap storage).primary.size = 0x73000 ∧
      (deviceMap storage).secondary.offset = 0x73000 ∧
      (deviceMap storage).secondary.offset + (deviceMap storage).secondary.size = 0xda000 ∧
      (deviceMap storage).storage.offset = 0xf8000 :=
  ⟨rfl, by norm_num [deviceMap], rfl, by norm_num [deviceMap], storage.property⟩

/-- That flash map with a patch partition of the largest patch the build allows. -/
def buildMap : FlashMap :=
  deviceMap ⟨⟨0xf8000, 0x6000, by decide, by decide, by decide, by decide⟩, rfl⟩

/-- The address lies in the partition. -/
def Partition.Contains (partition : Partition) (address : Int) : Prop :=
  partition.offset ≤ address ∧ address < partition.offset + partition.size

/-- The two partitions share no byte. -/
def Partition.Apart (left right : Partition) : Prop :=
  left.offset + left.size ≤ right.offset ∨ right.offset + right.size ≤ left.offset

/-- The partitions of the map share no byte. -/
structure FlashMap.Disjoint (map : FlashMap) : Prop where
  slots : map.primary.Apart map.secondary
  source : map.primary.Apart map.storage
  target : map.secondary.Apart map.storage

/-- The contents of the device, by address. -/
abbrev Memory := Int → UInt8

/-- A memory that holds a byte string at an address and erased bytes elsewhere. -/
def placeAt (start : Int) (bytes : List UInt8) : Memory := fun address =>
  if start ≤ address ∧ address < start + bytes.length then bytes.getD (address - start).toNat 0
  else 0xFF

/-- `flash_read`, `flash_write` and `flash_erase` with their arguments. -/
inductive FlashOp where
  | read (address : Int) (size : Nat)
  | write (address : Int) (data : List UInt8)
  | erase (address : Int) (size : Nat)
deriving DecidableEq, Repr

/-- The effect of a successful operation. -/
def FlashOp.apply : FlashOp → Memory → Memory
  | .read _ _, memory => memory
  | .write start data, memory => fun address =>
      if start ≤ address ∧ address < start + data.length then
        memory address &&& data.getD (address - start).toNat 0
      else memory address
  | .erase start size, memory => fun address =>
      if start ≤ address ∧ address < start + size then 0xFF else memory address

/-- The operation may change the byte at an address. -/
def FlashOp.Touches (op : FlashOp) (address : Int) : Prop :=
  match op with
  | .read _ _ => False
  | .write start data => start ≤ address ∧ address < start + data.length
  | .erase start size => start ≤ address ∧ address < start + size

instance (op : FlashOp) (address : Int) : Decidable (op.Touches address) := by
  cases op <;> unfold FlashOp.Touches <;> infer_instance

theorem FlashOp.apply_untouched {op : FlashOp} {address : Int} (outside : ¬ op.Touches address)
    (memory : Memory) : op.apply memory address = memory address := by
  cases op with
  | read => rfl
  | write start data => exact if_neg outside
  | erase start size => exact if_neg outside

/-- `struct flash_mem` without the device. -/
structure FlashMem where
  patchCurrent : Int
  patchEnd : Int
  fromCurrent : Int
  fromEnd : Int
  toCurrent : Int
  toEnd : Int
  writeBuf : Nat
deriving DecidableEq, Repr

/-- The function that issues a flash operation. -/
inductive Issuer where
  | deltaReadPatchHeader
  | deltaInit
  | deltaFlashWrite
  | deltaFlashFromRead
  | deltaFlashPatchRead
  | deltaFlashSeek
deriving DecidableEq, Repr

/-- What the program does, as seen from outside of it. -/
inductive Event where
  /-- A flash operation, and whether it succeeds. -/
  | flash (issuer : Issuer) (op : FlashOp) (ok : Bool)
  /-- A check that a callback makes itself fails. -/
  | refused (issuer : Issuer)
  /-- `delta_flash_write` is called in a state of the cursors. -/
  | handed (flash : FlashMem) (block : List UInt8)
  /-- `delta_flash_patch_read` returns a chunk. -/
  | delivered (chunk : List UInt8)
  /-- `boot_request_upgrade`, and whether it succeeds. -/
  | bootRequestUpgrade (ok : Bool)
  | sysReboot
deriving DecidableEq, Repr

/-- The event is recorded by a call of the function. -/
def Event.IssuedBy (issuer : Issuer) : Event → Prop
  | .flash other _ _ => other = issuer
  | .refused other => other = issuer
  | .handed _ _ => issuer = .deltaFlashWrite
  | .delivered _ => issuer = .deltaFlashPatchRead
  | _ => False

/-- The bootloader is asked for an upgrade. -/
def Event.Requests : Event → Prop
  | .bootRequestUpgrade _ => True
  | _ => False

/-- The effect of an event on memory. -/
def Event.apply : Event → Memory → Memory
  | .flash _ op true, memory => op.apply memory
  | _, memory => memory

/-- The memory after a record of events. -/
def replay (memory : Memory) (events : List Event) : Memory :=
  events.foldl (fun memory event => event.apply memory) memory

@[simp] theorem replay_nil (memory : Memory) : replay memory [] = memory := rfl

@[simp] theorem replay_append (memory : Memory) (first second : List Event) :
    replay memory (first ++ second) = replay (replay memory first) second :=
  List.foldl_append

@[simp] theorem replay_cons (memory : Memory) (event : Event) (events : List Event) :
    replay memory (event :: events) = replay (event.apply memory) events := rfl

/-- The event issues an operation that may change the byte at an address. -/
def Event.Touches (event : Event) (address : Int) : Prop :=
  match event with
  | .flash _ op _ => op.Touches address
  | _ => False

theorem Event.apply_untouched {event : Event} {address : Int}
    (outside : ¬ event.Touches address) (memory : Memory) :
    event.apply memory address = memory address := by
  cases event with
  | flash issuer op ok =>
      cases ok with
      | true => exact FlashOp.apply_untouched outside memory
      | false => rfl
  | _ => rfl

/-- A byte that no event touches keeps its value. -/
theorem replay_untouched {events : List Event} {address : Int}
    (outside : ∀ event ∈ events, ¬ event.Touches address) (memory : Memory) :
    replay memory events address = memory address := by
  induction events generalizing memory with
  | nil => rfl
  | cons event events inductionHypothesis =>
      rw [replay_cons, inductionHypothesis fun later among =>
        outside later (List.mem_cons_of_mem _ among)]
      exact Event.apply_untouched (outside event List.mem_cons_self) memory

/-- A log goes on from an earlier one with events that are all allowed. -/
def Extends (Allowed : Event → Prop) (start log : List Event) : Prop :=
  ∃ rest, log = start ++ rest ∧ ∀ event ∈ rest, Allowed event

theorem Extends.refl (Allowed : Event → Prop) (log : List Event) : Extends Allowed log log :=
  ⟨[], (List.append_nil log).symm, by simp⟩

theorem Extends.append {Allowed : Event → Prop} {start log events : List Event}
    (extended : Extends Allowed start log) (allowed : ∀ event ∈ events, Allowed event) :
    Extends Allowed start (log ++ events) := by
  obtain ⟨rest, same, before⟩ := extended
  refine ⟨rest ++ events, by rw [same, List.append_assoc], fun event among => ?_⟩
  rcases List.mem_append.mp among with old | new
  · exact before event old
  · exact allowed event new

theorem Extends.record {Allowed : Event → Prop} {start log : List Event} {event : Event}
    (extended : Extends Allowed start log) (allowed : Allowed event) :
    Extends Allowed start (log ++ [event]) :=
  extended.append fun _ among => by rwa [List.mem_singleton.mp among]

theorem Extends.trans {Allowed : Event → Prop} {start middle log : List Event}
    (first : Extends Allowed start middle) (second : Extends Allowed middle log) :
    Extends Allowed start log := by
  obtain ⟨rest, rfl, allowed⟩ := second
  exact first.append allowed

theorem Extends.mono {Allowed Other : Event → Prop} {start log : List Event}
    (extended : Extends Allowed start log) (weaker : ∀ event, Allowed event → Other event) :
    Extends Other start log := by
  obtain ⟨rest, same, allowed⟩ := extended
  exact ⟨rest, same, fun event among => weaker event (allowed event among)⟩

theorem Extends.grows {Allowed : Event → Prop} {start log : List Event}
    (extended : Extends Allowed start log) : start <+: log := by
  obtain ⟨rest, rfl, -⟩ := extended
  exact List.prefix_append _ _

/-- An event behind two logs that both go on from an earlier one is allowed. -/
theorem Extends.newest {Allowed : Event → Prop} {start middle log : List Event} {event : Event}
    (before : Extends Allowed start middle) (after : Extends Allowed start log)
    (newer : (middle ++ [event]) <+: log) : Allowed event := by
  obtain ⟨old, rfl, -⟩ := before
  obtain ⟨rest, rfl, allowed⟩ := after
  rw [List.append_assoc] at newer
  have among := ((List.prefix_append_right_inj start).mp newer).subset
  exact allowed event (among (List.mem_append_right _ (List.mem_singleton_self event)))

end DeltaUpdate.Delta
