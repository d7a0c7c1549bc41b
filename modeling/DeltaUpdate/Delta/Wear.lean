import DeltaUpdate.Delta.Simulation

/-!
Owns the wear of the secondary slot: which pages a call erases and which bytes it writes.
In one call no page is erased twice, the pages are erased in ascending order and at most
one page is erased for each page of output, and the blocks of the engine are laid end to end,
all of them but for one whose page could not be erased.
-/

namespace DeltaUpdate.Delta

open DeltaUpdate.Detools

/-! ### The operations on the slot -/

/-- The page an event erases, if it does. -/
def Event.erasedPage : Event → Option Int
  | .flash _ (.erase address _) _ => some address
  | _ => none

/-- The block the slot writer writes, and where, if it does. -/
def Event.writtenBlock : Event → Option (Int × List UInt8)
  | .flash .deltaFlashWrite (.write address data) _ => some (address, data)
  | _ => none

/-- The pages a log erases, in order. -/
def erasedPages (log : List Event) : List Int := log.filterMap Event.erasedPage

/-- The blocks a log writes to the slot, in order. -/
def writtenBlocks (log : List Event) : List (Int × List UInt8) :=
  log.filterMap Event.writtenBlock

/-- Blocks laid end to end from an address. -/
def laidOut (start : Int) : List (List UInt8) → List (Int × List UInt8)
  | [] => []
  | block :: blocks => (start, block) :: laidOut (start + block.length) blocks

theorem laidOut_append (start : Int) (blocks : List (List UInt8)) (block : List UInt8) :
    laidOut start (blocks ++ [block]) =
      laidOut start blocks ++ [(start + blocks.flatten.length, block)] := by
  induction blocks generalizing start with
  | nil => simp [laidOut]
  | cons first blocks inductionHypothesis =>
      simp only [List.cons_append, laidOut, inductionHypothesis, List.flatten_cons,
        List.length_append]
      push_cast
      rw [add_assoc]

/-- The pages are erased in ascending order, none of them twice. -/
def Ascending (pages : List Int) : Prop :=
  pages.Pairwise fun first second => first + (pageSize : Int) ≤ second

/-- All blocks that are handed over are written end to end from an address, or all but a
last one for which the erase of a page has failed. -/
inductive LaidEndToEnd (start : Int) (log : List Event) : Prop
  | all (written : writtenBlocks log = laidOut start (handedBlocks log))
  | unerased (blocks : List (List UInt8)) (block : List UInt8) (page : Int)
      (handed : handedBlocks log = blocks ++ [block])
      (written : writtenBlocks log = laidOut start blocks)
      (failed : .flash .deltaFlashWrite (.erase page pageSize) false ∈ log)

/-- What the log of a call says of the slot. -/
structure SlotWear (map : FlashMap) (log : List Event) : Prop where
  ascending : Ascending (erasedPages log)
  endToEnd : LaidEndToEnd map.secondary.offset log
  /-- Behind the first page, a page is erased for a page of output at least. -/
  few : pageSize * ((erasedPages log).length - 1) ≤ (handedImage log).length

/-- The same while the engine has not failed, with the cursor of the slot. -/
structure SlotPaced (map : FlashMap) (world : World) : Prop where
  ascending : Ascending (erasedPages world.log)
  behind : ∀ page ∈ erasedPages world.log, (pageSize : Int) ∣ page ∧
    page + world.flash.writeBuf ≤ world.flash.toCurrent
  endToEnd : writtenBlocks world.log = laidOut map.secondary.offset (handedBlocks world.log)
  cursor : world.flash.toCurrent = map.secondary.offset + (handedImage world.log).length
  few : pageSize * ((erasedPages world.log).length - 1) + world.flash.writeBuf ≤
    (handedImage world.log).length
  first : erasedPages world.log ≠ []

theorem SlotPaced.wear {map : FlashMap} {world : World} (paced : SlotPaced map world) :
    SlotWear map world.log :=
  ⟨paced.ascending, .all paced.endToEnd, by have := paced.few; omega⟩

@[simp] theorem erasedPages_append (first second : List Event) :
    erasedPages (first ++ second) = erasedPages first ++ erasedPages second :=
  List.filterMap_append

@[simp] theorem writtenBlocks_append (first second : List Event) :
    writtenBlocks (first ++ second) = writtenBlocks first ++ writtenBlocks second :=
  List.filterMap_append

/-- The event is no operation on the slot. -/
def Event.Beside (event : Event) : Prop :=
  event.erasedPage = none ∧ event.writtenBlock = none

theorem Extends.sameWear {start log : List Event} (beside : Extends Event.Beside start log) :
    erasedPages log = erasedPages start ∧ writtenBlocks log = writtenBlocks start := by
  obtain ⟨rest, rfl, events⟩ := beside
  have erased : erasedPages rest = [] :=
    List.filterMap_eq_nil_iff.mpr fun event among => (events event among).1
  have written : writtenBlocks rest = [] :=
    List.filterMap_eq_nil_iff.mpr fun event among => (events event among).2
  rw [erasedPages_append, writtenBlocks_append, erased, written, List.append_nil,
    List.append_nil]
  exact ⟨rfl, rfl⟩

theorem SlotWear.beside {map : FlashMap} {start log : List Event} (wear : SlotWear map start)
    (beside : Extends Event.Beside start log) (blocks : handedBlocks log = handedBlocks start) :
    SlotWear map log := by
  obtain ⟨erased, written⟩ := beside.sameWear
  refine ⟨erased ▸ wear.ascending, ?_, ?_⟩
  · cases wear.endToEnd with
    | all laid => exact .all (by rw [written, blocks, laid])
    | unerased before block page handed laid failed =>
        exact .unerased before block page (blocks.trans handed) (written.trans laid)
          (beside.grows.subset failed)
  · rw [erased, handedImage_blocks, blocks, ← handedImage_blocks]
    exact wear.few

/-! ### The callbacks that leave the slot alone -/

section

variable {env : Env} {map : FlashMap} {world after : World}

/-- The slot cursor and what has been done to the slot are the same. -/
structure SlotStill (before after : World) : Prop where
  toCurrent : after.flash.toCurrent = before.flash.toCurrent
  writeBuf : after.flash.writeBuf = before.flash.writeBuf
  beside : Extends Event.Beside before.log after.log
  blocks : handedBlocks after.log = handedBlocks before.log

theorem SlotPaced.still (paced : SlotPaced map world) (still : SlotStill world after) :
    SlotPaced map after := by
  obtain ⟨erased, written⟩ := still.beside.sameWear
  have image : handedImage after.log = handedImage world.log := by
    rw [handedImage_blocks, still.blocks, handedImage_blocks]
  refine ⟨?_, ?_, ?_, ?_, ?_, ?_⟩
  · rw [erased]
    exact paced.ascending
  · rw [erased, still.toCurrent, still.writeBuf]
    exact paced.behind
  · rw [written, still.blocks]
    exact paced.endToEnd
  · rw [still.toCurrent, image]
    exact paced.cursor
  · rw [erased, image, still.writeBuf]
    exact paced.few
  · rw [erased]
    exact paced.first

theorem deltaFlashFromRead_still (env : Env) (world : World) (size : Nat) :
    SlotStill world (deltaFlashFromRead env world size).2.2 := by
  have blocks := (deltaFlashFromRead_records env world size).sameBlocks (by decide)
  have outcome := deltaFlashFromRead_cases env world size
  generalize deltaFlashFromRead env world size = read at outcome blocks
  have first := Extends.refl Event.Beside world.log
  cases outcome with
  | empty => exact ⟨rfl, rfl, first.record ⟨rfl, rfl⟩, blocks⟩
  | failed => exact ⟨rfl, rfl, first.record ⟨rfl, rfl⟩, blocks⟩
  | outside => exact ⟨rfl, rfl, (first.record ⟨rfl, rfl⟩).record ⟨rfl, rfl⟩, blocks⟩
  | read => exact ⟨rfl, rfl, first.record ⟨rfl, rfl⟩, blocks⟩

theorem deltaFlashSeek_still (world : World) (offset : Int) :
    SlotStill world (deltaFlashSeek world offset).2 := by
  have blocks := (deltaFlashSeek_records world offset).sameBlocks (by decide)
  have outcome := deltaFlashSeek_cases world offset
  generalize deltaFlashSeek world offset = sought at outcome blocks
  have first := Extends.refl Event.Beside world.log
  cases outcome with
  | outside => exact ⟨rfl, rfl, first.record ⟨rfl, rfl⟩, blocks⟩
  | sought => exact ⟨rfl, rfl, first, blocks⟩

/-! ### The slot writer -/

/-- What comes of a block that the slot writer is given: it is written where the cursor
stands, whether the write succeeds or not, or the erase of the page ahead has failed. -/
inductive BlockLaid (world after : World) (block : List UInt8) : Prop
  | written (laid : writtenBlocks after.log =
      writtenBlocks world.log ++ [(world.flash.toCurrent, block)])
  | unerased (page : Int) (failed : after.log = world.log ++
      [.handed world.flash block, .flash .deltaFlashWrite (.erase page pageSize) false])

theorem deltaFlashWrite_laid (env : Env) (world : World) (block : List UInt8) :
    BlockLaid world (deltaFlashWrite env world block).2 block := by
  have outcome := deltaFlashWrite_cases env world block
  generalize deltaFlashWrite env world block = written at outcome
  have place {ready : World} (prepared : Prepared world block ready) :
      writtenBlocks ready.log = writtenBlocks world.log ∧
        ready.flash.toCurrent = world.flash.toCurrent := by
    refine ⟨?_, prepared.toCurrent⟩
    cases prepared with
    | kept =>
        simp only [World.counted, writtenBlocks_append]
        exact List.append_nil _
    | erased =>
        simp only [World.counted, writtenBlocks_append, List.append_assoc]
        exact List.append_nil _
  cases outcome with
  | eraseFailed =>
      refine .unerased (pageStart (cursorBehind world block)) ?_
      exact List.append_assoc _ _ _
  | writeFailed prepared =>
      obtain ⟨before, cursor⟩ := place prepared
      refine .written ?_
      rw [World.record_log, writtenBlocks_append, before, cursor]
      rfl
  | full prepared =>
      obtain ⟨before, cursor⟩ := place prepared
      refine .written ?_
      rw [World.record_log, World.written, writtenBlocks_append, writtenBlocks_append, before,
        cursor]
      exact List.append_nil _
  | wrote prepared =>
      obtain ⟨before, cursor⟩ := place prepared
      refine .written ?_
      rw [World.written, writtenBlocks_append, before, cursor]
      rfl

/-- The slot when a block is about to be written. -/
structure SlotReady (map : FlashMap) (world : World) (block : List UInt8) (ready : World) :
    Prop where
  ascending : Ascending (erasedPages ready.log)
  behind : ∀ page ∈ erasedPages ready.log, (pageSize : Int) ∣ page ∧
    page + ready.flash.writeBuf ≤ world.flash.toCurrent + block.length
  blocks : handedBlocks ready.log = handedBlocks world.log ++ [block]
  few : pageSize * ((erasedPages ready.log).length - 1) + ready.flash.writeBuf ≤
    (handedImage world.log).length + block.length
  first : erasedPages ready.log ≠ []

/-- The page that is erased ahead lies above the pages erased before. -/
theorem SlotPaced.ahead (paced : SlotPaced map world) {block : List UInt8}
    (within : CallWithin map world.flash block)
    (due : pageSize ≤ world.flash.writeBuf + block.length) :
    Ascending (erasedPages world.log ++ [pageStart (cursorBehind world block)]) ∧
      (pageSize : Int) ∣ pageStart (cursorBehind world block) ∧
      pageStart (cursorBehind world block) ≤ world.flash.toCurrent + block.length := by
  have low := within.low
  obtain ⟨-, behind⟩ := within.exact
  obtain ⟨-, below, above, aligned⟩ := pageStart_bounds map.secondary.offsetAligned
    (show (map.secondary.offset : Int) ≤ cursorBehind world block by omega)
  rw [behind] at below above aligned ⊢
  refine ⟨?_, aligned, below⟩
  refine List.pairwise_append.mpr ⟨paced.ascending, List.pairwise_singleton _ _, ?_⟩
  intro page among last same
  rw [List.mem_singleton.mp same]
  obtain ⟨⟨index, rfl⟩, before⟩ := paced.behind page among
  obtain ⟨next, start⟩ := aligned
  unfold pageSize at *
  omega

/-- The erase of the page ahead, whether it succeeds or not. -/
theorem SlotPaced.erase (paced : SlotPaced map world) {block : List UInt8}
    (within : CallWithin map world.flash block)
    (due : pageSize ≤ world.flash.writeBuf + block.length) (memory : Memory) (ok : Bool) :
    SlotReady map world block
      ⟨{ world.flash with writeBuf := 0 }, memory, (world.counted block).log ++
        [.flash .deltaFlashWrite (eraseAhead world block) ok]⟩ := by
  obtain ⟨ascending, aligned, below⟩ := paced.ahead within due
  have erased : erasedPages ((world.counted block).log ++
        [.flash .deltaFlashWrite (eraseAhead world block) ok]) =
      erasedPages world.log ++ [pageStart (cursorBehind world block)] := by
    simp only [World.counted, erasedPages_append, List.append_assoc]
    rfl
  refine ⟨erased ▸ ascending, ?_, ?_, ?_, ?_⟩
  · intro page among
    simp only [erased, List.mem_append, List.mem_singleton] at among
    rcases among with old | rfl
    · obtain ⟨still, before⟩ := paced.behind page old
      exact ⟨still, by simp only; omega⟩
    · exact ⟨aligned, by simp only; omega⟩
  · simp [World.counted, handedBlocks]
  · have few := paced.few
    have some := List.length_pos_iff.mpr paced.first
    simp only [erased, List.length_append, List.length_singleton]
    unfold pageSize at few due ⊢
    omega
  · simp [erased]

theorem SlotPaced.prepared (paced : SlotPaced map world) {block : List UInt8} {ready : World}
    (within : CallWithin map world.flash block) (prepared : Prepared world block ready) :
    SlotReady map world block ready := by
  have count := within.exact.1
  cases prepared with
  | kept early =>
      have erased : erasedPages (world.counted block).log = erasedPages world.log := by
        simp only [World.counted, erasedPages_append]
        exact List.append_nil _
      have kept : (world.counted block).flash.writeBuf = world.flash.writeBuf + block.length :=
        count
      refine ⟨erased ▸ paced.ascending, ?_, ?_, ?_, erased ▸ paced.first⟩
      · intro page among
        rw [erased] at among
        obtain ⟨aligned, before⟩ := paced.behind page among
        refine ⟨aligned, ?_⟩
        rw [kept]
        push_cast
        omega
      · simp [World.counted, handedBlocks]
      · have few := paced.few
        rw [erased, kept]
        omega
  | erased due => exact paced.erase within (count ▸ due) _ true

/-- The pages are as they should be, whatever comes of the block behind a slot that is
ready. -/
theorem SlotReady.wear {block : List UInt8} {ready : World}
    (holds : SlotReady map world block ready) {rest : List Event}
    (events : ∀ event ∈ rest, event.erasedPage = none) (blocks : handedBlocks rest = [])
    (laid : LaidEndToEnd map.secondary.offset (ready.log ++ rest)) :
    SlotWear map (ready.log ++ rest) := by
  have erased : erasedPages (ready.log ++ rest) = erasedPages ready.log := by
    rw [erasedPages_append, show erasedPages rest = [] from
      List.filterMap_eq_nil_iff.mpr events, List.append_nil]
  have handed : handedBlocks (ready.log ++ rest) = handedBlocks world.log ++ [block] := by
    rw [handedBlocks_append, blocks, holds.blocks, List.append_nil]
  refine ⟨erased ▸ holds.ascending, laid, ?_⟩
  have few := holds.few
  rw [erased, handedImage_blocks, handed, List.flatten_append, ← handedImage_blocks]
  simp only [List.flatten_singleton, List.length_append]
  omega

/-- A block goes behind all blocks before it, or is the one whose page is not erased. -/
theorem SlotPaced.laid (paced : SlotPaced map world) {block : List UInt8}
    (laid : BlockLaid world after block)
    (handed : handedBlocks after.log = handedBlocks world.log ++ [block]) :
    LaidEndToEnd map.secondary.offset after.log := by
  cases laid with
  | written laid =>
      refine .all ?_
      rw [laid, handed, laidOut_append, ← handedImage_blocks, paced.endToEnd, paced.cursor]
  | unerased page failed =>
      refine .unerased _ block page handed ?_ (by simp [failed])
      rw [failed, writtenBlocks_append, paced.endToEnd]
      exact List.append_nil _

/-- The slot writer keeps the pace, or fails and leaves the log as it should be. -/
theorem SlotPaced.write (paced : SlotPaced map world) {block : List UInt8}
    (within : CallWithin map world.flash block) :
    SlotWear map (deltaFlashWrite env world block).2.log ∧
      ((deltaFlashWrite env world block).1 = 0 →
        SlotPaced map (deltaFlashWrite env world block).2) := by
  have blocks := deltaFlashWrite_blocks env world block
  have placed := deltaFlashWrite_laid env world block
  have laid := paced.laid placed blocks
  have outcome := deltaFlashWrite_cases env world block
  generalize deltaFlashWrite env world block = written at outcome blocks placed laid
  have error (error : DeltaError) : ¬ error.result = 0 := error.result_neg.ne
  cases outcome with
  | eraseFailed due =>
      refine ⟨?_, fun zero => absurd zero (error _)⟩
      have holds := paced.erase within (within.exact.1 ▸ due) world.memory false
      have wear := @SlotReady.wear map world block _ holds [] (by simp) rfl
      rw [List.append_nil] at wear
      exact wear laid
  | @writeFailed ready prepared =>
      have holds := paced.prepared within prepared
      exact ⟨holds.wear (by simp [Event.erasedPage]) rfl laid, fun zero => absurd zero (error _)⟩
  | @full ready prepared =>
      have holds := paced.prepared within prepared
      refine ⟨?_, fun zero => absurd zero (error _)⟩
      simp only [World.record_log, World.written, List.append_assoc] at laid ⊢
      exact holds.wear (by simp [Event.erasedPage]) rfl laid
  | @wrote ready prepared =>
      have holds := paced.prepared within prepared
      have wear : SlotWear map (ready.written block).log :=
        holds.wear (by simp [Event.erasedPage]) rfl laid
      have erased : erasedPages (ready.written block).log = erasedPages ready.log := by
        simp only [World.written, erasedPages_append]
        exact List.append_nil _
      have image : handedImage (ready.written block).log = handedImage world.log ++ block := by
        rw [handedImage_blocks, blocks, List.flatten_append, ← handedImage_blocks,
          List.flatten_singleton]
      have cursor : (ready.written block).flash.toCurrent =
          world.flash.toCurrent + block.length := prepared.behind.trans within.exact.2
      refine ⟨wear, fun _ => ⟨wear.ascending, ?_, ?_, ?_, ?_, erased ▸ holds.first⟩⟩
      · rw [erased, cursor]
        exact holds.behind
      · cases placed with
        | written placed =>
            rw [placed, blocks, laidOut_append, ← handedImage_blocks, paced.endToEnd,
              paced.cursor]
        | unerased page failed =>
            have last := congrArg List.getLast? failed
            simp [World.written] at last
      · rw [cursor, image, List.length_append, paced.cursor]
        push_cast
        omega
      · rw [erased, image, List.length_append]
        exact holds.few

end

/-! ### Calls -/

/-- The wear of the slot in a state of the engine. -/
structure Worn (map : FlashMap) (engine : ApplyPatch) (world : World) : Prop where
  wear : SlotWear map world.log
  paced : engine.state ≠ .failed → SlotPaced map world

section

variable {env : Env} {memory : Memory} {log : List Event}

theorem Worn.of_paced {map : FlashMap} {world : World} (paced : SlotPaced map world)
    (self : ApplyPatch) : Worn map self world :=
  ⟨paced.wear, fun _ => paced⟩

theorem Worn.step {self : ApplyPatch} {world : World} {stepped : Stepped World}
    (worn : Worn env.map self world) (live : self.state ≠ .failed → Live env.map self world)
    (step : EngineStep (deltaCallbacks env) self world stepped) :
    Worn env.map stepped.self stepped.world := by
  by_cases failed : self.state = .failed
  · rw [(step.of_failed failed).2.2]
    exact ⟨worn.wear, fun running => absurd (step.failed_stays failed) running⟩
  · have live := live failed
    have paced := worn.paced failed
    have write {middle : ApplyPatch} {between : World} {block : List UInt8}
        (nonempty : blockRoom self ≠ 0) (read : (nextBlock self).res = 0)
        (gathered : Gathered (deltaCallbacks env) self world middle between block) :
        SlotWear env.map (deltaFlashWrite env between block).2.log ∧
          ((deltaFlashWrite env between block).1 = 0 →
            SlotPaced env.map (deltaFlashWrite env between block).2) := by
      obtain ⟨-, -, -, -, -, -, length⟩ := gathered.frame
      have size := nextBlock_length nonempty read
      have cursor := (live.gather gathered).slotCursor
      have within : CallWithin env.map between.flash block :=
        ⟨cursor.low, cursor.high, cursor.counted, by omega, by omega⟩
      refine SlotPaced.write ?_ within
      cases gathered with
      | @diff state bytes next read =>
          have still := deltaFlashFromRead_still env world (nextBlock self).data.length
          change deltaFlashFromRead env world _ = _ at read
          rw [read] at still
          exact paced.still still
      | extra => exact paced
    cases step with
    | sourceFailed => exact .of_paced (paced.still (deltaFlashFromRead_still env world _)) _
    | wrote nonempty read gathered written =>
        exact .of_paced ((write nonempty read gathered).2 written) _
    | writeFailed nonempty read gathered =>
        exact ⟨(write nonempty read gathered).1, fun running => absurd rfl running⟩
    | sought => exact .of_paced (paced.still (deltaFlashSeek_still world _)) _
    | seekFailed => exact .of_paced (paced.still (deltaFlashSeek_still world _)) _
    | _ => exact .of_paced paced _

/-- A log without a block and with one erase at most. -/
theorem SlotWear.early {map : FlashMap} {log : List Event}
    (erases : (erasedPages log).length ≤ 1) (handed : handedBlocks log = [])
    (written : writtenBlocks log = []) : SlotWear map log := by
  refine ⟨?_, .all (by rw [written, handed]; rfl), ?_⟩
  · rcases pages : erasedPages log with _ | ⟨page, _ | ⟨other, rest⟩⟩
    · exact .nil
    · exact List.pairwise_singleton _ _
    · simp [pages] at erases
  · rw [Nat.sub_eq_zero_of_le erases, Nat.mul_zero]
    exact Nat.zero_le _

/-- The request of an upgrade wears the slot no more. -/
theorem SlotWear.upgraded {map : FlashMap} {world : World} (wear : SlotWear map world.log)
    (env : Env) (res : Int) : SlotWear map (requestUpgrade env res world).2.log := by
  have outcome := requestUpgrade_cases env res world
  generalize requestUpgrade env res world = upgraded at outcome
  have first := Extends.refl Event.Beside world.log
  cases outcome with
  | none => exact wear
  | failed => exact wear.beside (first.record ⟨rfl, rfl⟩) (by simp [handedBlocks])
  | requested =>
      exact wear.beside ((first.record ⟨rfl, rfl⟩).record ⟨rfl, rfl⟩) (by simp [handedBlocks])

/-- The slot between two steps of an engine that has not failed: all blocks that have been
handed over are written, they are as many bytes as the engine has put out, and the next block
goes behind them. -/
structure SlotFilled (env : Env) (engine : ApplyPatch) (world : World) : Prop where
  endToEnd : writtenBlocks world.log =
    laidOut env.map.secondary.offset (handedBlocks world.log)
  total : (handedImage world.log).length = produced engine
  cursor : world.flash.toCurrent = env.map.secondary.offset + produced engine
  next : ∀ block, BlockLaid world (deltaFlashWrite env world block).2 block

theorem SlotPaced.filled {self : ApplyPatch} {world : World} (paced : SlotPaced env.map world)
    (live : Live env.map self world) : SlotFilled env self world where
  endToEnd := paced.endToEnd
  total := by
    have cursor := paced.cursor
    have slot := live.slot
    omega
  cursor := live.slot
  next := deltaFlashWrite_laid env world

end

end DeltaUpdate.Delta
