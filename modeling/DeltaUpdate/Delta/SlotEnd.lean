import DeltaUpdate.Delta.Upgrade

/-!
Owns the end of the secondary slot. The writes and erases of a call stay inside the slot as
long as the calls of the slot writer do. In a slot of one page the call that comes to its end
erases the page behind it.
-/

namespace DeltaUpdate.Delta

open DeltaUpdate.Detools
open DeltaUpdate.Library
open DeltaUpdate.Patch

/-! ### A slot of one page -/

/-- The count of the slot writer is the number of bytes in the slot, in every call of the
slot writer and as long as the cursor is inside the slot. -/
structure SlotCounted (map : FlashMap) (world : World) : Prop where
  called : ∀ cursor block, .handed cursor block ∈ world.log →
    (map.secondary.offset + cursor.writeBuf : Int) = cursor.toCurrent
  inside : world.flash.toCurrent < map.secondary.offset + map.secondary.size →
    (map.secondary.offset + world.flash.writeBuf : Int) = world.flash.toCurrent

theorem SlotCounted.of_same {map : FlashMap} {before after : World}
    (counted : SlotCounted map before) (toCurrent : after.flash.toCurrent = before.flash.toCurrent)
    (writeBuf : after.flash.writeBuf = before.flash.writeBuf)
    (calls : ∀ cursor block, .handed cursor block ∈ after.log →
      .handed cursor block ∈ before.log) : SlotCounted map after where
  called cursor block among := counted.called cursor block (calls cursor block among)
  inside within := by
    rw [toCurrent, writeBuf]
    rw [toCurrent] at within
    exact counted.inside within

/-- The count is started again only where the slot ends. -/
theorem SlotCounted.written {map : FlashMap} {world ready : World} {block : List UInt8}
    (counted : SlotCounted map world) (onePage : map.secondary.size = pageSize)
    (within : CallWithin map world.flash block) (prepared : Prepared world block ready)
    {rest : List Event} (refusals : ∀ event ∈ rest, event = .refused .deltaFlashWrite) :
    SlotCounted map ⟨(ready.written block).flash, (ready.written block).memory,
      (ready.written block).log ++ rest⟩ := by
  have start := counted.inside within.high
  obtain ⟨exactCount, behind⟩ := within.exact
  refine ⟨fun other later among => ?_, fun low => ?_⟩
  · have calls : .handed other later ∈ world.log ∨
        (other, later) = (world.flash, block) := by
      rcases List.mem_append.mp among with old | new
      · cases prepared <;> simpa [World.written, World.counted] using old
      · cases refusals _ new
    rcases calls with old | same
    · exact counted.called other later old
    · cases same
      exact start
  · have after : (ready.written block).flash.toCurrent = world.flash.toCurrent + block.length := by
      exact prepared.behind.trans behind
    change (ready.written block).flash.toCurrent < _ at low
    show (_ + (ready.flash.writeBuf : Int)) = (ready.written block).flash.toCurrent
    rw [after] at low ⊢
    cases prepared with
    | kept early =>
        change (_ + (countedBuf world block : Int)) = _
        rw [exactCount]
        push_cast
        omega
    | erased due =>
        -- a page has been counted, so the slot is full
        rw [exactCount] at due
        omega

theorem slotCounted_kept {env : Env} (works : env.Works)
    (onePage : env.map.secondary.size = pageSize) :
    KeptByCallbacks env (SlotCounted env.map) where
  source := by
    intro world size counted
    have outcome := deltaFlashFromRead_cases env world size
    generalize deltaFlashFromRead env world size = read at outcome
    cases outcome <;> exact counted.of_same rfl rfl (by simp [World.sourceRead])
  seek := by
    intro world offset counted
    have outcome := deltaFlashSeek_cases world offset
    generalize deltaFlashSeek world offset = sought at outcome
    cases outcome <;> exact counted.of_same rfl rfl (by simp [World.sought])
  patch := by
    intro world size counted
    have outcome := deltaFlashPatchRead_cases env world size
    generalize deltaFlashPatchRead env world size = read at outcome
    cases outcome <;> exact counted.of_same rfl rfl (by simp [World.patchRead])
  write := by
    intro world block cursor nonempty small counted
    have within : CallWithin env.map world.flash block :=
      ⟨cursor.low, cursor.high, cursor.counted, nonempty, small⟩
    have outcome := deltaFlashWrite_cases env world block
    generalize deltaFlashWrite env world block = written at outcome
    cases outcome with
    | eraseFailed _ fails => rw [works] at fails; cases fails
    | writeFailed _ fails => rw [works] at fails; cases fails
    | full prepared => exact counted.written onePage within prepared (by simp)
    | wrote prepared =>
        have kept := @SlotCounted.written _ _ _ _ counted onePage within prepared [] (by simp)
        rw [List.append_nil] at kept
        exact kept

/-- In a slot of one page, a block that does not end below the end of the slot comes with an
erase behind the slot. -/
theorem SlotCounted.leaves {map : FlashMap} {world : World} {log : List Event}
    (counted : SlotCounted map world) (onePage : map.secondary.size = pageSize)
    (overrun : Overrun map world.log) (grows : world.log ⊆ log) (accounted : Accounted map log) :
    ¬ SlotOpsWithin log map.secondary.Contains := by
  intro confined
  obtain ⟨cursor, block, called, large⟩ := overrun
  have start := counted.called cursor block called
  obtain ⟨within, fits⟩ := confined.callFits accounted (grows called)
  have due : EraseDue cursor block := by
    unfold EraseDue
    omega
  have below := fits.2 due
  omega

/-! ### Confinement -/

/-- The writes and erases of a call stay inside the slot exactly when every call of
the slot writer is made where its block, and the page it erases, fit. -/
theorem slotOps_confined_iff (env : Env) (stack : ApplyPatch) (flash : FlashMem)
    (memory : Memory) :
    SlotOpsWithin (callOn env stack flash memory).2.log env.map.secondary.Contains ↔
      ∀ cursor block, .handed cursor block ∈ (callOn env stack flash memory).2.log →
        CallFits env.map cursor block := by
  have accounted := callOn_accounted env stack flash memory
  generalize (callOn env stack flash memory).2.log = log at accounted
  constructor
  · intro confined cursor block called
    exact (confined.callFits accounted called).2
  · intro fits issuer op ok issued notHeader address touches
    cases accounted _ issued with
    | headerRead => exact absurd rfl notHeader
    | headerClear => exact absurd rfl notHeader
    | firstErase => exact firstErase_inside touches
    | sourceRead => exact absurd touches id
    | patchRead => exact absurd touches id
    | writer ok called issues =>
        cases accounted _ called with
        | handed within => exact issues.inside within (fits _ _ called) touches

/-- A flash map whose slots have one page each. -/
def onePageMap : FlashMap where
  primary := ⟨0x1000, 0x1000, by decide, by decide, by decide, by decide⟩
  secondary := ⟨0x2000, 0x1000, by decide, by decide, by decide, by decide⟩
  storage := ⟨0x4000, 0x1000, by decide, by decide, by decide, by decide⟩

/-- A patch whose target fills that slot: one record of 4096 extra bytes, all 7. -/
def fullSlotPatch : List UInt8 :=
  [0x04, 0x80, 0x40, 0x44, 0x80, 0x40, 0x30, 0x14, 0x08, 0x38] ++
    (List.replicate 31 [0x03, 0xf8]).flatten ++ [0x03, 0xf4, 0x00]

/-- The record of that patch. -/
def fullSlotRecord : Record := ⟨[], List.replicate 4096 7, 0⟩

theorem fullSlotRecord_length : fullSlotRecord.length = 4096 := by
  rw [Record.length, fullSlotRecord, List.length_replicate]
  rfl

/-- What that patch says. -/
def fullSlotContents : Contents := ⟨0x04, 4096, 0, [fullSlotRecord]⟩

/-- The tokens in front of the copies in its compressed stream. -/
def fullSlotLiterals : List Token :=
  [.literal 0x00, .literal 0x00, .literal 0x80, .literal 0x40, .literal 0x07]

/-- The tokens of its compressed stream: 31 copies of 128 bytes and one of 127. -/
def fullSlotTokens : List Token :=
  fullSlotLiterals ++ (List.replicate 31 (.repeatLast ⟨127, by decide⟩) ++
    (List.replicate 1 (.repeatLast ⟨126, by decide⟩) ++ [.literal 0x00]))

theorem fullSlotTokens_expand :
    Lzss.expand [] fullSlotTokens =
      [0x00] ++ ([0x00] ++ [] ++ ([0x80, 0x40] ++ List.replicate 4096 7) ++ [0x00]) := by
  have first : Lzss.expand [] fullSlotLiterals = [0x00, 0x00, 0x80, 0x40, 0x07] := rfl
  have last : (([0x00, 0x00, 0x80, 0x40, 0x07] : List UInt8).reverse ++ []).getD 0 0 = 7 := rfl
  have bytes : List.replicate 4096 (7 : UInt8) =
      [7] ++ (List.replicate (31 * (127 + 1)) 7 ++ List.replicate (1 * (126 + 1)) 7) := by
    rw [← List.replicate_add, ← List.replicate_one, ← List.replicate_add]
  rw [fullSlotTokens, Lzss.expand_append, first, Lzss.expand_repeat _ last,
    Lzss.expand_repeat _ (Lzss.getD_repeat last _), bytes]
  simp only [Lzss.expand, Lzss.Token.emit, List.append_assoc]
  rfl

theorem fullSlotPatch_wellFormed : WellFormed fullSlotPatch fullSlotContents where
  encodes :=
    { stream := by
        refine ⟨[0x00], [0x00] ++ [] ++ ([0x80, 0x40] ++ List.replicate 4096 7) ++ [0x00],
          ⟨by decide, [0x80, 0x40], fullSlotPatch.drop 4, rfl, ⟨by decide, by decide, by decide⟩,
            fullSlotTokens, [false, false], by decide +kernel, by decide, fullSlotTokens_expand⟩,
          ⟨by decide, by decide, by decide⟩, ?_⟩
        rw [← List.append_nil (_ ++ [0x00])]
        exact .cons ⟨[0x00], [0x80, 0x40], [0x00], rfl, ⟨by decide, by decide, by decide⟩,
          ⟨by decide, by decide, by rw [fullSlotRecord, List.length_replicate]; decide⟩,
          ⟨by decide, by decide, by decide⟩⟩ .nil
      reaches := by
        have reaches := (@reachesAtEnd_cons fullSlotRecord [] 0).mpr
          ⟨by rw [fullSlotRecord_length]; decide, Or.inl ⟨rfl, rfl⟩⟩
        rw [fullSlotRecord_length] at reaches
        exact reaches }
  compression := by decide
  positive := by decide
  dfpatchSize := rfl

theorem fullSlotPatch_holds :
    HoldsPatch onePageMap (placeAt 0x4000 (Script.packed fullSlotPatch)) fullSlotPatch :=
  packed_holds onePageMap fullSlotPatch rfl (by decide +kernel)

/-- The page behind a slot that is filled to its end is erased. -/
theorem slotOps_leave_slot :
    ¬ SlotOpsWithin
      (callOn (Env.flawless onePageMap) zeroStack (deltaInitFlashMem onePageMap)
        (placeAt 0x4000 (Script.packed fullSlotPatch))).2.log
      onePageMap.secondary.Contains := by
  have works : (Env.flawless onePageMap).Works := fun _ _ => rfl
  have apart : PatchApart onePageMap fullSlotPatch.length :=
    patchApart_of_fits (Or.inl (by decide)) (by decide)
  have stored := @HoldsPatch.engine (Env.flawless onePageMap) _ _ fullSlotPatch_holds apart
    (by decide)
  obtain ⟨res, self, after, call, stops⟩ := @HoldsPatch.runs (Env.flawless onePageMap) _ _
    fullSlotPatch_holds (List.cons_ne_nil _ _) works zeroStack (deltaInitFlashMem onePageMap)
  have slot := slotTask_start onePageMap
    (engineMemory onePageMap (placeAt 0x4000 (Script.packed fullSlotPatch))) 4096
  obtain ⟨body, plain, padding, header, unpacked, accepts, -⟩ :=
    fullSlotPatch_wellFormed.lenient.accepted
      (show (slotTask onePageMap (engineMemory onePageMap
        (placeAt 0x4000 (Script.packed fullSlotPatch))) 0 4096).targetSize = _ from rfl)
      ⟨fun some => absurd rfl some, by decide, trivial⟩
  obtain ⟨config, runs, cursor, block, called, large⟩ := runs_overrun header (by decide)
    ⟨plain, padding, unpacked, accepts⟩ stored slot rfl works (by decide) (le_refl _) zeroStack
    (engineLog onePageMap [])
  have counted := (slotCounted_kept works rfl).runs stops
    ⟨by simp [startWorld, engineLog, headerEvents],
      fun _ => by simp [startWorld, deltaInitFlashMem]⟩
  refine counted.leaves rfl ⟨cursor, block, (runs_stopGrows runs stops rfl).subset called, large⟩
    ?_ (callOn_accounted _ _ _ _)
  rw [call]
  exact (requestUpgrade_grows _ res after).subset

end DeltaUpdate.Delta
