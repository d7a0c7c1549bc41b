import DeltaUpdate.Delta.Lockstep
import DeltaUpdate.Script.PadPatch

/-!
Owns which addresses a call of `delta_check_and_apply` may change. Every event of the
log has an origin in the source, the memory is the log replayed, and the blocks
handed to the slot writer stay near the slot. Confinement to the slot, and the
survival of the running firmware, are read off the origins.
-/

namespace DeltaUpdate.Delta

open DeltaUpdate.Detools

/-! ### The memory is the log replayed -/

theorem deltaFlashWrite_recorded {env : Env} {world : World} {initial : Memory}
    (block : List UInt8) (recorded : world.memory = replay initial world.log) :
    (deltaFlashWrite env world block).2.memory =
      replay initial (deltaFlashWrite env world block).2.log := by
  have outcome := deltaFlashWrite_cases env world block
  generalize deltaFlashWrite env world block = written at outcome
  have prepared {ready : World} (prepared : Prepared world block ready) :
      ready.memory = replay initial ready.log := by
    cases prepared with
    | kept => simp [World.counted, Event.apply, recorded]
    | erased => simp [World.counted, Event.apply, recorded]
  cases outcome with
  | eraseFailed => simp [World.counted, Event.apply, recorded]
  | writeFailed ready => simp [Event.apply, prepared ready]
  | full ready => simp [World.written, Event.apply, prepared ready]
  | wrote ready => simp [World.written, Event.apply, prepared ready]

/-- The callbacks record every change of memory. -/
theorem recorded_kept (env : Env) (initial : Memory) :
    KeptByCallbacks env (fun world => world.memory = replay initial world.log) where
  source := by
    intro world size recorded
    have outcome := deltaFlashFromRead_cases env world size
    generalize deltaFlashFromRead env world size = read at outcome
    cases outcome <;> simp [World.sourceRead, Event.apply, FlashOp.apply, recorded]
  seek := by
    intro world offset recorded
    have outcome := deltaFlashSeek_cases world offset
    generalize deltaFlashSeek world offset = sought at outcome
    cases outcome <;> simp [World.sought, Event.apply, recorded]
  patch := by
    intro world size recorded
    have outcome := deltaFlashPatchRead_cases env world size
    generalize deltaFlashPatchRead env world size = read at outcome
    cases outcome <;> simp [World.patchRead, Event.apply, FlashOp.apply, recorded]
  write := fun world block _ _ _ recorded => deltaFlashWrite_recorded block recorded

/-- Everything in a call records every change of memory. -/
theorem recorded_call (env : Env) (initial : Memory) :
    KeptByCall env (fun world => world.memory = replay initial world.log) where
  toKeptByCallbacks := recorded_kept env initial
  header := by
    intro world after code size header recorded
    cases header <;>
      simp [World.cleared, clearedMemory, headerEvents, Event.apply, FlashOp.apply, recorded]
  init := by
    intro world after code init recorded
    cases init <;> simp [startWorld, Event.apply, recorded]
  request := by
    intro world ok recorded
    simp [Event.apply, recorded]
  reboot := by
    intro world recorded
    simp [Event.apply, recorded]

/-! ### Origins -/

/-- A call of the slot writer inside the slot. -/
structure CallWithin (map : FlashMap) (flash : FlashMem) (block : List UInt8) : Prop where
  low : map.secondary.offset ≤ flash.toCurrent
  high : flash.toCurrent < map.secondary.offset + map.secondary.size
  counted : flash.writeBuf < pageSize
  nonempty : 0 < block.length
  small : block.length ≤ 128

/-- The erase of the page behind a block. -/
def aheadOf (flash : FlashMem) (block : List UInt8) : FlashOp :=
  .erase (pageStart (flash.toCurrent + block.length)) pageSize

/-- The page behind a block is due to be erased. -/
def EraseDue (flash : FlashMem) (block : List UInt8) : Prop :=
  pageSize ≤ flash.writeBuf + block.length

/-- The operations a call of the slot writer may issue. -/
inductive WriterOp (flash : FlashMem) (block : List UInt8) : FlashOp → Prop
  | erase (due : EraseDue flash block) : WriterOp flash block (aheadOf flash block)
  | write : WriterOp flash block (.write flash.toCurrent block)

/-- Where an event of a log comes from. -/
inductive Origin (map : FlashMap) (log : List Event) : Event → Prop
  | headerRead (ok : Bool) :
      Origin map log (.flash .deltaReadPatchHeader (.read map.storage.offset 8) ok)
  | headerClear (ok : Bool) :
      Origin map log (.flash .deltaReadPatchHeader (.write map.storage.offset resetMsg) ok)
  | firstErase (ok : Bool) : Origin map log (.flash .deltaInit (firstErase map) ok)
  | sourceRead (address : Int) (size : Nat) (ok : Bool) :
      Origin map log (.flash .deltaFlashFromRead (.read address size) ok)
  | patchRead (address : Int) (size : Nat) (ok : Bool) :
      Origin map log (.flash .deltaFlashPatchRead (.read address size) ok)
  | handed {flash : FlashMem} {block : List UInt8} (within : CallWithin map flash block)
      (erases : EraseDue flash block →
        ∃ ok, .flash .deltaFlashWrite (aheadOf flash block) ok ∈ log)
      (writes : ¬ EraseDue flash block →
        ∃ ok, .flash .deltaFlashWrite (.write flash.toCurrent block) ok ∈ log) :
      Origin map log (.handed flash block)
  | writer {flash : FlashMem} {block : List UInt8} {op : FlashOp} (ok : Bool)
      (called : .handed flash block ∈ log) (issues : WriterOp flash block op) :
      Origin map log (.flash .deltaFlashWrite op ok)
  | refused (issuer : Issuer) : Origin map log (.refused issuer)
  | delivered (chunk : List UInt8) : Origin map log (.delivered chunk)
  | bootRequestUpgrade (ok : Bool) : Origin map log (.bootRequestUpgrade ok)
  | sysReboot : Origin map log .sysReboot

theorem Origin.mono {map : FlashMap} {log longer : List Event} {event : Event}
    (origin : Origin map log event) (grows : log ⊆ longer) : Origin map longer event := by
  cases origin with
  | headerRead ok => exact .headerRead ok
  | headerClear ok => exact .headerClear ok
  | firstErase ok => exact .firstErase ok
  | sourceRead address size ok => exact .sourceRead address size ok
  | patchRead address size ok => exact .patchRead address size ok
  | handed within erases writes =>
      refine .handed within (fun due => ?_) (fun early => ?_)
      · obtain ⟨ok, issued⟩ := erases due
        exact ⟨ok, grows issued⟩
      · obtain ⟨ok, issued⟩ := writes early
        exact ⟨ok, grows issued⟩
  | writer ok called issues => exact .writer ok (grows called) issues
  | refused issuer => exact .refused issuer
  | delivered chunk => exact .delivered chunk
  | bootRequestUpgrade ok => exact .bootRequestUpgrade ok
  | sysReboot => exact .sysReboot

/-- Every event of the log has an origin. -/
def Accounted (map : FlashMap) (log : List Event) : Prop := ∀ event ∈ log, Origin map log event

theorem Accounted.append {map : FlashMap} {log events : List Event} (accounted : Accounted map log)
    (origins : ∀ event ∈ events, Origin map (log ++ events) event) :
    Accounted map (log ++ events) := by
  intro event among
  rcases List.mem_append.mp among with old | new
  · exact (accounted event old).mono (List.subset_append_left _ _)
  · exact origins event new

theorem Accounted.record {map : FlashMap} {log : List Event} {event : Event}
    (accounted : Accounted map log) (origin : Origin map (log ++ [event]) event) :
    Accounted map (log ++ [event]) := by
  apply accounted.append
  intro other among
  rw [List.mem_singleton.mp among]
  exact origin

/-- Inside the slot neither the counter nor the cursor wraps. -/
theorem CallWithin.exact {map : FlashMap} {world : World} {block : List UInt8}
    (within : CallWithin map world.flash block) :
    countedBuf world block = world.flash.writeBuf + block.length ∧
      cursorBehind world block = world.flash.toCurrent + block.length := by
  have low := within.low
  have high := within.high
  have counted := within.counted
  have small := within.small
  have bound := map.secondary.below
  unfold pageSize at counted
  refine ⟨sizeT_of_lt (by omega), intT_of_fits ?_⟩
  unfold FitsInt
  omega

theorem CallWithin.ahead {map : FlashMap} {world : World} {block : List UInt8}
    (within : CallWithin map world.flash block) :
    eraseAhead world block = aheadOf world.flash block := by
  rw [eraseAhead, within.exact.2, aheadOf]

/-- The events of a call of the slot writer, behind the call itself. -/
structure WriterLog (flash : FlashMem) (block : List UInt8) (ops : List Event) : Prop where
  only : ∀ event ∈ ops, event = .refused .deltaFlashWrite ∨
    ∃ op ok, event = .flash .deltaFlashWrite op ok ∧ WriterOp flash block op
  erases : EraseDue flash block → ∃ ok, .flash .deltaFlashWrite (aheadOf flash block) ok ∈ ops
  writes : ¬ EraseDue flash block →
    ∃ ok, .flash .deltaFlashWrite (.write flash.toCurrent block) ok ∈ ops

theorem Prepared.log {map : FlashMap} {world ready : World} {block : List UInt8}
    (prepared : Prepared world block ready) (within : CallWithin map world.flash block) :
    ¬ EraseDue world.flash block ∧ ready.log = world.log ++ [.handed world.flash block] ∨
      EraseDue world.flash block ∧ ready.log = world.log ++
        [.handed world.flash block,
          .flash .deltaFlashWrite (aheadOf world.flash block) true] := by
  obtain ⟨counted, -⟩ := within.exact
  cases prepared with
  | kept early =>
      rw [counted] at early
      exact Or.inl ⟨not_le.mpr early, rfl⟩
  | erased due =>
      rw [counted] at due
      refine Or.inr ⟨due, ?_⟩
      simp only [World.counted, within.ahead, List.append_assoc]
      rfl

/-- The write of a prepared block, and what the call records behind it. -/
theorem Prepared.writerLog {map : FlashMap} {world ready : World} {block : List UInt8}
    (prepared : Prepared world block ready) (within : CallWithin map world.flash block)
    (ok : Bool) (rest : List Event)
    (refusals : ∀ event ∈ rest, event = .refused .deltaFlashWrite) :
    ∃ ops, ready.log ++ (.flash .deltaFlashWrite (.write ready.flash.toCurrent block) ok :: rest) =
        world.log ++ .handed world.flash block :: ops ∧
      WriterLog world.flash block ops := by
  rw [prepared.toCurrent]
  have rests : ∀ event ∈
      Event.flash .deltaFlashWrite (.write world.flash.toCurrent block) ok :: rest,
      event = .refused .deltaFlashWrite ∨
        ∃ op ok, event = .flash .deltaFlashWrite op ok ∧ WriterOp world.flash block op := by
    intro event among
    rcases List.mem_cons.mp among with rfl | later
    · exact Or.inr ⟨_, _, rfl, .write⟩
    · exact Or.inl (refusals event later)
  rcases prepared.log within with ⟨early, log⟩ | ⟨due, log⟩
  · exact ⟨.flash .deltaFlashWrite (.write world.flash.toCurrent block) ok :: rest,
      by rw [log, List.append_assoc]; rfl, rests, fun due => absurd due early,
      fun _ => ⟨ok, List.mem_cons_self⟩⟩
  · refine ⟨.flash .deltaFlashWrite (aheadOf world.flash block) true ::
      .flash .deltaFlashWrite (.write world.flash.toCurrent block) ok :: rest,
      by rw [log, List.append_assoc]; rfl, ?_, fun _ => ⟨true, List.mem_cons_self⟩,
      fun early => absurd due early⟩
    intro event among
    rcases List.mem_cons.mp among with rfl | later
    · exact Or.inr ⟨_, _, rfl, .erase due⟩
    · exact rests event later

/-- What a call of the slot writer appends to the log. -/
theorem deltaFlashWrite_log {env : Env} {world : World} {block : List UInt8}
    (within : CallWithin env.map world.flash block) :
    ∃ ops, (deltaFlashWrite env world block).2.log =
        world.log ++ .handed world.flash block :: ops ∧
      WriterLog world.flash block ops := by
  have outcome := deltaFlashWrite_cases env world block
  generalize deltaFlashWrite env world block = written at outcome
  cases outcome with
  | eraseFailed due =>
      rw [within.exact.1] at due
      refine ⟨[.flash .deltaFlashWrite (aheadOf world.flash block) false], ?_, ?_,
        fun _ => ⟨false, List.mem_cons_self⟩, fun early => absurd due early⟩
      · simp only [World.record_log, World.counted, within.ahead, List.append_assoc]
        rfl
      · intro event among
        rw [List.mem_singleton.mp among]
        exact Or.inr ⟨_, _, rfl, .erase due⟩
  | writeFailed prepared => exact prepared.writerLog within false [] (by simp)
  | full prepared =>
      rw [World.record_log, World.written, List.append_assoc]
      exact prepared.writerLog within true [.refused .deltaFlashWrite] (by simp)
  | wrote prepared => exact prepared.writerLog within true [] (by simp)

/-- The callbacks keep the log accounted for. -/
theorem accounted_kept (env : Env) :
    KeptByCallbacks env (fun world => Accounted env.map world.log) where
  source := by
    intro world size accounted
    have outcome := deltaFlashFromRead_cases env world size
    generalize deltaFlashFromRead env world size = read at outcome
    cases outcome with
    | empty => exact accounted.record (.refused _)
    | failed => exact accounted.record (.sourceRead _ _ _)
    | outside => exact (accounted.record (.sourceRead _ _ _)).record (.refused _)
    | read => exact accounted.record (.sourceRead _ _ _)
  seek := by
    intro world offset accounted
    have outcome := deltaFlashSeek_cases world offset
    generalize deltaFlashSeek world offset = sought at outcome
    cases outcome with
    | outside => exact accounted.record (.refused _)
    | sought => exact accounted
  patch := by
    intro world size accounted
    have outcome := deltaFlashPatchRead_cases env world size
    generalize deltaFlashPatchRead env world size = read at outcome
    cases outcome with
    | empty => exact accounted.record (.refused _)
    | failed => exact accounted.record (.patchRead _ _ _)
    | outside => exact (accounted.record (.patchRead _ _ _)).record (.refused _)
    | read => exact (accounted.record (.patchRead _ _ _)).record (.delivered _)
  write := by
    intro world block cursor nonempty small accounted
    have within : CallWithin env.map world.flash block :=
      ⟨cursor.low, cursor.high, cursor.counted, nonempty, small⟩
    obtain ⟨ops, log, writer⟩ := deltaFlashWrite_log within
    rw [log]
    apply accounted.append
    intro event among
    rcases List.mem_cons.mp among with rfl | issued
    · refine .handed within (fun due => ?_) (fun early => ?_)
      · obtain ⟨ok, erased⟩ := writer.erases due
        exact ⟨ok, by simp [erased]⟩
      · obtain ⟨ok, written⟩ := writer.writes early
        exact ⟨ok, by simp [written]⟩
    · rcases writer.only event issued with rfl | ⟨op, ok, rfl, issues⟩
      · exact .refused _
      · exact .writer ok (by simp) issues

/-- Everything in a call keeps the log accounted for. -/
theorem accounted_call (env : Env) :
    KeptByCall env (fun world => Accounted env.map world.log) where
  toKeptByCallbacks := accounted_kept env
  header := by
    intro world after code size header accounted
    cases header with
    | readFailed => exact accounted.record (.headerRead _)
    | noPatch => exact accounted.record (.headerRead _)
    | clearFailed => exact (accounted.record (.headerRead _)).record (.headerClear _)
    | cleared =>
        apply accounted.append
        intro event among
        simp only [headerEvents, List.mem_cons, List.not_mem_nil, or_false] at among
        rcases among with rfl | rfl
        · exact .headerRead _
        · exact .headerClear _
  init := by
    intro world after code init accounted
    cases init with
    | failed => exact accounted.record (.firstErase _)
    | done => exact accounted.record (.firstErase _)
  request := fun ok accounted => accounted.record (.bootRequestUpgrade ok)
  reboot := fun accounted => accounted.record .sysReboot

/-- A call of the update on a device, from an empty log. -/
def callOn (env : Env) (stack : ApplyPatch) (flash : FlashMem) (memory : Memory) :
    Ending × World :=
  deltaCheckAndApply env stack ⟨flash, memory, []⟩

theorem callOn_accounted (env : Env) (stack : ApplyPatch) (flash : FlashMem) (memory : Memory) :
    Accounted env.map (callOn env stack flash memory).2.log :=
  (accounted_call env).call stack (by simp [Accounted])

theorem callOn_recorded (env : Env) (stack : ApplyPatch) (flash : FlashMem) (memory : Memory) :
    (callOn env stack flash memory).2.memory =
      replay memory (callOn env stack flash memory).2.log :=
  (recorded_call env memory).call stack rfl

/-! ### Where the slot writer writes -/

/-- The page of an address behind an aligned base. -/
theorem pageStart_bounds {base : Nat} (aligned : pageSize ∣ base) {address : Int}
    (behind : base ≤ address) :
    base ≤ pageStart address ∧ pageStart address ≤ address ∧
      address < pageStart address + pageSize ∧ (pageSize : Int) ∣ pageStart address := by
  obtain ⟨pages, rfl⟩ := aligned
  rw [pageStart_of_nonneg (by omega)]
  unfold pageSize at behind ⊢
  push_cast at behind ⊢
  omega

theorem Partition.endAligned (partition : Partition) :
    pageSize ∣ partition.offset + partition.size :=
  Dvd.dvd.add partition.offsetAligned partition.sizeAligned

/-- A call inside the slot touches nothing below it and less than a page above it. -/
theorem WriterOp.near {map : FlashMap} {flash : FlashMem} {block : List UInt8} {op : FlashOp}
    (within : CallWithin map flash block) (issues : WriterOp flash block op) {address : Int}
    (touches : op.Touches address) :
    map.secondary.offset ≤ address ∧
      address < map.secondary.offset + map.secondary.size + pageSize := by
  have low := within.low
  have high := within.high
  have small := within.small
  cases issues with
  | write =>
      unfold FlashOp.Touches at touches
      unfold pageSize
      omega
  | erase =>
      have bounds := pageStart_bounds map.secondary.offsetAligned
        (show (map.secondary.offset : Int) ≤ flash.toCurrent + block.length by omega)
      obtain ⟨pages, last⟩ := map.secondary.endAligned
      unfold FlashOp.Touches aheadOf at touches
      unfold pageSize at bounds touches last ⊢
      simp only at touches
      omega

/-- The block stays inside the slot, and so does the page that is erased for it. -/
def CallFits (map : FlashMap) (flash : FlashMem) (block : List UInt8) : Prop :=
  flash.toCurrent + block.length ≤ map.secondary.offset + map.secondary.size ∧
    (EraseDue flash block →
      flash.toCurrent + block.length < map.secondary.offset + map.secondary.size)

theorem WriterOp.inside {map : FlashMap} {flash : FlashMem} {block : List UInt8} {op : FlashOp}
    (within : CallWithin map flash block) (fits : CallFits map flash block)
    (issues : WriterOp flash block op) {address : Int} (touches : op.Touches address) :
    map.secondary.Contains address := by
  have low := within.low
  unfold Partition.Contains
  cases issues with
  | write =>
      have room := fits.1
      unfold FlashOp.Touches at touches
      simp only at touches
      omega
  | erase due =>
      have room := fits.2 due
      have bounds := pageStart_bounds map.secondary.offsetAligned
        (show (map.secondary.offset : Int) ≤ flash.toCurrent + block.length by omega)
      obtain ⟨pages, last⟩ := map.secondary.endAligned
      unfold FlashOp.Touches aheadOf at touches
      unfold pageSize at bounds touches last
      simp only at touches
      omega

/-- A call whose operations stay inside the slot fits. -/
theorem callFits_of_inside {map : FlashMap} {flash : FlashMem} {block : List UInt8}
    (within : CallWithin map flash block)
    (erased : EraseDue flash block → ∀ address, (aheadOf flash block).Touches address →
      map.secondary.Contains address)
    (written : ¬ EraseDue flash block → ∀ address,
      (FlashOp.write flash.toCurrent block).Touches address → map.secondary.Contains address) :
    CallFits map flash block := by
  have low := within.low
  have nonempty := within.nonempty
  by_cases due : EraseDue flash block
  · have bounds := pageStart_bounds map.secondary.offsetAligned
      (show (map.secondary.offset : Int) ≤ flash.toCurrent + block.length by omega)
    have last := erased due (flash.toCurrent + block.length) ⟨bounds.2.1, bounds.2.2.1⟩
    exact ⟨last.2.le, fun _ => last.2⟩
  · have last := written due (flash.toCurrent + block.length - 1)
      ⟨by omega, by omega⟩
    refine ⟨?_, fun again => absurd again due⟩
    have bound := last.2
    omega

/-- The slot operations of a log, which are all but the clearing of the header. -/
def SlotOpsWithin (log : List Event) (Allowed : Int → Prop) : Prop :=
  ∀ issuer op ok, .flash issuer op ok ∈ log → issuer ≠ .deltaReadPatchHeader →
    ∀ address, op.Touches address → Allowed address

theorem firstErase_inside {map : FlashMap} {address : Int}
    (touches : (firstErase map).Touches address) : map.secondary.Contains address := by
  obtain ⟨pages, size⟩ := map.secondary.sizeAligned
  have positive := map.secondary.positive
  unfold firstErase FlashOp.Touches at touches
  unfold Partition.Contains
  unfold pageSize at touches size
  simp only at touches
  omega

/-- A call of the slot writer fits if the operations of the log stay inside the slot. -/
theorem SlotOpsWithin.callFits {map : FlashMap} {log : List Event}
    (confined : SlotOpsWithin log map.secondary.Contains) (accounted : Accounted map log)
    {cursor : FlashMem} {block : List UInt8} (called : .handed cursor block ∈ log) :
    CallWithin map cursor block ∧ CallFits map cursor block := by
  cases accounted _ called with
  | handed within erases writes =>
      refine ⟨within, callFits_of_inside within (fun due => ?_) (fun early => ?_)⟩
      · obtain ⟨ok, issued⟩ := erases due
        exact confined _ _ ok issued (by decide)
      · obtain ⟨ok, issued⟩ := writes early
        exact confined _ _ ok issued (by decide)

/-- Below the slot, and from a page above it on, nothing is written or erased. -/
theorem slotOps_near (env : Env) (stack : ApplyPatch) (flash : FlashMem) (memory : Memory) :
    SlotOpsWithin (callOn env stack flash memory).2.log fun address =>
      env.map.secondary.offset ≤ address ∧
        address < env.map.secondary.offset + env.map.secondary.size + pageSize := by
  have accounted := callOn_accounted env stack flash memory
  intro issuer op ok issued notHeader address touches
  cases accounted _ issued with
  | headerRead => exact absurd rfl notHeader
  | headerClear => exact absurd rfl notHeader
  | firstErase =>
      have inside := firstErase_inside touches
      exact ⟨inside.1, by have := inside.2; omega⟩
  | sourceRead => exact absurd touches id
  | patchRead => exact absurd touches id
  | writer ok called issues =>
      cases accounted _ called with
      | handed within => exact issues.near within touches

/-! ### The running firmware -/

/-- A header operation touches the marker only. -/
theorem marker_touched {map : FlashMap} {address : Int}
    (touches : (FlashOp.write map.storage.offset resetMsg).Touches address) :
    map.storage.offset ≤ address ∧ address < map.storage.offset + 4 := touches

/-- Whatever the patch and whichever operations fail, every prefix of what a call does
to the flash of the device leaves the primary slot as it was, and the apply step writes
and erases nothing below the secondary slot or from a page above it on. -/
theorem primary_survives (storage : { partition : Partition // partition.offset = 0xf8000 })
    (fails : List Event → FlashOp → Bool) (upgradeFails : Bool) (stack : ApplyPatch)
    (flash : FlashMem) (memory : Memory) :
    let map := deviceMap storage
    let call := callOn ⟨map, fails, upgradeFails⟩ stack flash memory
    call.2.memory = replay memory call.2.log ∧
      (∀ done, done <+: call.2.log → ∀ address, map.primary.Contains address →
        replay memory done address = memory address) ∧
      SlotOpsWithin call.2.log fun address =>
        map.secondary.offset ≤ address ∧
          address < map.secondary.offset + map.secondary.size + pageSize := by
  intro map call
  have near := slotOps_near ⟨map, fails, upgradeFails⟩ stack flash memory
  refine ⟨callOn_recorded _ stack flash memory, ?_, near⟩
  intro done cut address inside
  refine replay_untouched (fun event among touches => ?_) memory
  have origin := callOn_accounted ⟨map, fails, upgradeFails⟩ stack flash memory event
    (cut.subset among)
  obtain ⟨-, primaryEnd, slotStart, -, patchStart⟩ := deviceMap_layout storage
  have below := inside.2
  cases event with
  | flash issuer op ok =>
      by_cases header : issuer = .deltaReadPatchHeader
      · subst header
        cases origin with
        | headerRead => exact touches
        | headerClear =>
            have marked := marker_touched touches
            simp only [map] at marked below
            omega
      · have above := (near issuer op ok (cut.subset among) header address touches).1
        simp only [map] at above below
        omega
  | _ => exact touches

end DeltaUpdate.Delta
