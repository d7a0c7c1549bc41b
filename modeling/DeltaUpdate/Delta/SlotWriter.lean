import DeltaUpdate.Delta.Delivery
import DeltaUpdate.Library.Paging

/-!
Owns the slot writer over whole sequences of blocks. The image arrives in the slot as it
was handed over, on pages erased in time, exactly when the blocks keep the writer in step
with the pages.
-/

namespace DeltaUpdate.Delta

open DeltaUpdate.Library

/-- `delta_flash_write` for one block after the other. -/
def writeBlocks (env : Env) (world : World) (blocks : List (List UInt8)) : World :=
  blocks.foldl (fun world block => (deltaFlashWrite env world block).2) world

/-- The event writes the byte at an address. -/
def Event.Writes : Event → Int → Prop
  | .flash _ (.write start data) _, address => start ≤ address ∧ address < start + data.length
  | _, _ => False

/-- The event erases the byte at an address. -/
def Event.Erases : Event → Int → Prop
  | .flash _ (.erase start size) _, address => start ≤ address ∧ address < start + size
  | _, _ => False

/-- A byte is written on a page that has been erased. -/
def ErasedFirst (log : List Event) : Prop :=
  ∀ done event, done ++ [event] <+: log → ∀ address, event.Writes address →
    ∃ earlier ∈ done, earlier.Erases address

/-- A byte that has been written is not erased again. -/
def KeptOnce (log : List Event) : Prop :=
  log.Pairwise fun earlier later => ∀ address, earlier.Writes address → ¬ later.Erases address

/-- The image is in the slot, and every page was erased once and in time. -/
structure SlotHolds (map : FlashMap) (world : World) (image : List UInt8) : Prop where
  content : Stores world.memory map.secondary.offset image
  erasedFirst : ErasedFirst world.log
  keptOnce : KeptOnce world.log

/-! ### Order of events -/

theorem ErasedFirst.append {log : List Event} {event : Event} (ordered : ErasedFirst log)
    (erased : ∀ address, event.Writes address → ∃ earlier ∈ log, earlier.Erases address) :
    ErasedFirst (log ++ [event]) := by
  intro done last cut address writes
  rcases List.prefix_concat_iff.mp cut with same | within
  · obtain ⟨rfl, rfl⟩ := List.append_inj' same rfl |>.imp id List.singleton_inj.mp
    exact erased address writes
  · exact ordered done last within address writes

theorem ErasedFirst.before {log longer : List Event} (ordered : ErasedFirst longer)
    (grows : log <+: longer) : ErasedFirst log :=
  fun done event cut => ordered done event (cut.trans grows)

theorem KeptOnce.append {log : List Event} {event : Event} (kept : KeptOnce log)
    (free : ∀ earlier ∈ log, ∀ address, earlier.Writes address → ¬ event.Erases address) :
    KeptOnce (log ++ [event]) := by
  refine List.pairwise_append.mpr ⟨kept, List.pairwise_singleton _ _, ?_⟩
  intro earlier among later last
  rw [List.mem_singleton.mp last]
  exact free earlier among

/-! ### Pages -/

/-- The erase of a page of the slot. -/
def pageErase (map : FlashMap) (index : Nat) : FlashOp :=
  .erase (map.secondary.offset + (pageSize * index : Nat)) pageSize

/-- The page of an address in the slot. -/
theorem pageStart_slot (map : FlashMap) (total : Nat) :
    pageStart (map.secondary.offset + total) =
      map.secondary.offset + (pageSize * (total / pageSize) : Nat) := by
  obtain ⟨pages, aligned⟩ := map.secondary.offsetAligned
  rw [pageStart_of_nonneg (by omega), aligned]
  unfold pageSize
  push_cast
  omega

/-- What the memory and the log show of a writer that is in step: the image so far, up to
the page that has been erased last. -/
structure SlotImage (map : FlashMap) (image : List UInt8) (index : Nat) (memory : Memory)
    (log : List Event) : Prop where
  content : Stores memory map.secondary.offset image
  erasedFirst : ErasedFirst log
  keptOnce : KeptOnce log
  blank : ∀ address : Int, map.secondary.offset + image.length ≤ address →
    address < map.secondary.offset + (pageSize * (index + 1) : Nat) → memory address = 0xFF
  erased : ∀ page, page ≤ index → ∃ issuer ok, .flash issuer (pageErase map page) ok ∈ log
  erases : ∀ event ∈ log, ∀ address, event.Erases address →
    address < map.secondary.offset + (pageSize * (index + 1) : Nat)
  writes : ∀ event ∈ log, ∀ address, event.Writes address →
    map.secondary.offset ≤ address ∧ address < map.secondary.offset + image.length

/-- The state of a writer that is in step. -/
structure SlotWritten (map : FlashMap) (image : List UInt8) (count index : Nat)
    (world : World) : Prop where
  toCurrent : world.flash.toCurrent = map.secondary.offset + image.length
  toEnd : world.flash.toEnd = map.secondary.offset + map.secondary.size
  writeBuf : world.flash.writeBuf = count
  image : SlotImage map image index world.memory world.log

/-- A byte of the image lies on a page that has been erased. -/
theorem SlotImage.covered {map : FlashMap} {image : List UInt8} {index : Nat} {memory : Memory}
    {log : List Event} (written : SlotImage map image index memory log) {address : Int}
    (low : map.secondary.offset ≤ address)
    (high : address < map.secondary.offset + (pageSize * (index + 1) : Nat)) :
    ∃ earlier ∈ log, earlier.Erases address := by
  obtain ⟨total, rfl⟩ : ∃ total : Nat, address = map.secondary.offset + total :=
    ⟨(address - map.secondary.offset).toNat, by omega⟩
  have page : total / pageSize ≤ index := by
    unfold pageSize at high ⊢
    omega
  obtain ⟨issuer, ok, issued⟩ := written.erased _ page
  refine ⟨_, issued, ?_⟩
  change _ ∧ _
  unfold pageSize
  omega

/-- An event that neither writes nor erases changes nothing. -/
theorem SlotImage.record {map : FlashMap} {image : List UInt8} {index : Nat} {memory : Memory}
    {log : List Event} (written : SlotImage map image index memory log) {event : Event}
    (writes : ∀ address, ¬ event.Writes address) (erases : ∀ address, ¬ event.Erases address) :
    SlotImage map image index memory (log ++ [event]) where
  content := written.content
  erasedFirst := written.erasedFirst.append fun address wrote => absurd wrote (writes address)
  keptOnce := written.keptOnce.append fun _ _ address _ => erases address
  blank := written.blank
  erased := fun page below => by
    obtain ⟨issuer, ok, issued⟩ := written.erased page below
    exact ⟨issuer, ok, List.mem_append_left _ issued⟩
  erases := fun other among address erased => by
    rcases List.mem_append.mp among with old | new
    · exact written.erases other old address erased
    · rw [List.mem_singleton.mp new] at erased
      exact absurd erased (erases address)
  writes := fun other among address wrote => by
    rcases List.mem_append.mp among with old | new
    · exact written.writes other old address wrote
    · rw [List.mem_singleton.mp new] at wrote
      exact absurd wrote (writes address)

/-- The next page is erased before the image reaches it. -/
theorem SlotImage.erase {map : FlashMap} {image : List UInt8} {index : Nat} {memory : Memory}
    {log : List Event} (written : SlotImage map image index memory log) (issuer : Issuer)
    (room : image.length ≤ pageSize * (index + 1)) :
    SlotImage map image (index + 1) ((pageErase map (index + 1)).apply memory)
      (log ++ [.flash issuer (pageErase map (index + 1)) true]) where
  content := by
    refine written.content.of_same fun address low high => FlashOp.apply_untouched ?_ memory
    unfold pageErase FlashOp.Touches
    omega
  erasedFirst := written.erasedFirst.append fun _ wrote => absurd wrote id
  keptOnce := written.keptOnce.append fun earlier among address wrote erased => by
    have bound := (written.writes earlier among address wrote).2
    have low := erased.1
    omega
  blank := by
    intro address low high
    rw [Nat.mul_succ] at high
    change (if _ then _ else _) = _
    by_cases inside : (map.secondary.offset + (pageSize * (index + 1) : Nat) : Int) ≤ address ∧
        address < map.secondary.offset + (pageSize * (index + 1) : Nat) + pageSize
    · rw [if_pos inside]
    · rw [if_neg inside]
      exact written.blank address low (by omega)
  erased := fun page below => by
    rcases Nat.lt_or_ge index page with last | earlier
    · rw [show page = index + 1 by omega]
      exact ⟨issuer, true, List.mem_append_right _ (List.mem_singleton_self _)⟩
    · obtain ⟨issuer, ok, issued⟩ := written.erased page earlier
      exact ⟨issuer, ok, List.mem_append_left _ issued⟩
  erases := fun event among address erased => by
    rw [Nat.mul_succ]
    rcases List.mem_append.mp among with old | new
    · have bound := written.erases event old address erased
      omega
    · rw [List.mem_singleton.mp new] at erased
      have high := erased.2
      omega
  writes := fun event among address wrote => by
    rcases List.mem_append.mp among with old | new
    · exact written.writes event old address wrote
    · rw [List.mem_singleton.mp new] at wrote
      exact absurd wrote id

theorem blank_and (byte : UInt8) : 0xFF &&& byte = byte := by
  apply UInt8.eq_of_toBitVec_eq
  exact BitVec.allOnes_and

/-- A block that stays on erased pages is appended to the image. -/
theorem SlotImage.write {map : FlashMap} {image block : List UInt8} {index : Nat}
    {memory : Memory} {log : List Event} (written : SlotImage map image index memory log)
    (issuer : Issuer) (room : image.length + block.length ≤ pageSize * (index + 1)) :
    SlotImage map (image ++ block) index
      ((FlashOp.write (map.secondary.offset + image.length) block).apply memory)
      (log ++ [.flash issuer (.write (map.secondary.offset + image.length) block) true]) where
  content := by
    intro position below
    rw [List.length_append] at below
    change (if _ then _ else _) = _
    by_cases old : position < image.length
    · rw [if_neg (by omega), written.content position old, List.getD_append _ _ _ _ old]
    · rw [if_pos (by omega), written.blank _ (by omega) (by omega), blank_and,
        List.getD_append_right _ _ _ _ (by omega)]
      congr 1
      omega
  erasedFirst := written.erasedFirst.append fun address wrote => by
    obtain ⟨low, high⟩ := wrote
    exact written.covered (by omega) (by omega)
  keptOnce := written.keptOnce.append fun _ _ address _ erased => absurd erased id
  blank := by
    intro address low high
    rw [List.length_append] at low
    push_cast at low
    change (if _ then _ else _) = _
    rw [if_neg (by omega)]
    exact written.blank address (by omega) high
  erased := fun page below => by
    obtain ⟨issuer, ok, issued⟩ := written.erased page below
    exact ⟨issuer, ok, List.mem_append_left _ issued⟩
  erases := fun event among address erased => by
    rcases List.mem_append.mp among with old | new
    · exact written.erases event old address erased
    · rw [List.mem_singleton.mp new] at erased
      exact absurd erased id
  writes := fun event among address wrote => by
    rw [List.length_append]
    push_cast
    rcases List.mem_append.mp among with old | new
    · have bounds := written.writes event old address wrote
      omega
    · rw [List.mem_singleton.mp new] at wrote
      obtain ⟨low, high⟩ := wrote
      omega

/-- A block that leaves the erased pages is written on a page that has not been erased. -/
theorem SlotImage.write_early {map : FlashMap} {image block : List UInt8} {index : Nat}
    {memory : Memory} {log : List Event} (written : SlotImage map image index memory log)
    (issuer : Issuer) (ok : Bool) (room : image.length ≤ pageSize * (index + 1))
    (beyond : pageSize * (index + 1) < image.length + block.length) :
    ¬ ErasedFirst
      (log ++ [.flash issuer (.write (map.secondary.offset + image.length) block) ok]) := by
  intro ordered
  obtain ⟨earlier, among, erased⟩ := ordered log _ List.prefix_rfl
    (map.secondary.offset + (pageSize * (index + 1) : Nat)) ⟨by omega, by omega⟩
  exact absurd (written.erases earlier among _ erased) (lt_irrefl _)

/-! ### One block -/

/-- Without failures a block that ends inside the slot is written. -/
theorem deltaFlashWrite_flawless {map : FlashMap} {world : World} {block : List UInt8}
    (within : CallWithin map world.flash block)
    (room : world.flash.toCurrent + block.length < world.flash.toEnd) :
    ∃ ready, Prepared world block ready ∧
      deltaFlashWrite (Env.flawless map) world block = (0, ready.written block) := by
  have outcome := deltaFlashWrite_cases (Env.flawless map) world block
  generalize deltaFlashWrite (Env.flawless map) world block = written at outcome
  cases outcome with
  | eraseFailed _ fails => simp [Env.flawless] at fails
  | writeFailed _ fails => simp [Env.flawless] at fails
  | @full ready prepared above =>
      rw [prepared.behind, within.exact.2, prepared.toEnd] at above
      exact absurd room (not_lt.mpr above)
  | @wrote ready prepared => exact ⟨ready, prepared, rfl⟩

section

variable {map : FlashMap} {image block : List UInt8} {count index : Nat} {world : World}

theorem SlotWritten.callWithin (written : SlotWritten map image count index world)
    (below : count < pageSize) (nonempty : 0 < block.length) (small : block.length ≤ 128)
    (fits : image.length + block.length < map.secondary.size) :
    CallWithin map world.flash block where
  low := by
    rw [written.toCurrent]
    omega
  high := by
    rw [written.toCurrent]
    omega
  counted := by
    rw [written.writeBuf]
    exact below
  nonempty := nonempty
  small := small

/-- What the writer does with a block: it erases the next page or not, and writes. -/
theorem SlotWritten.ready (written : SlotWritten map image count index world)
    (below : count < pageSize) (nonempty : 0 < block.length) (small : block.length ≤ 128)
    (fits : image.length + block.length < map.secondary.size) :
    ∃ ready : World,
      (deltaFlashWrite (Env.flawless map) world block).2 = ready.written block ∧
      ready.flash.toCurrent = map.secondary.offset + image.length ∧
      cursorBehind ready block = map.secondary.offset + (image ++ block).length ∧
      ready.flash.toEnd = map.secondary.offset + map.secondary.size ∧
      (count + block.length < pageSize → ready.flash.writeBuf = count + block.length ∧
        ready.memory = world.memory ∧ ready.log = world.log ++ [.handed world.flash block]) ∧
      (pageSize ≤ count + block.length → ready.flash.writeBuf = 0 ∧
        ready.memory = (pageErase map ((image.length + block.length) / pageSize)).apply
          world.memory ∧
        ready.log = world.log ++ [.handed world.flash block] ++ [.flash .deltaFlashWrite
          (pageErase map ((image.length + block.length) / pageSize)) true]) := by
  have within := written.callWithin below nonempty small fits
  obtain ⟨counted, cursor⟩ := within.exact
  have toCurrent := written.toCurrent
  have toEnd := written.toEnd
  obtain ⟨ready, prepared, outcome⟩ := deltaFlashWrite_flawless within (by omega)
  have ahead : eraseAhead world block =
      pageErase map ((image.length + block.length) / pageSize) := by
    have start := pageStart_slot map (image.length + block.length)
    push_cast at start
    rw [within.ahead, aheadOf, toCurrent, add_assoc, start, pageErase]
    push_cast
    rfl
  rw [written.writeBuf] at counted
  refine ⟨ready, by rw [outcome], prepared.toCurrent.trans toCurrent, ?_,
    prepared.toEnd.trans toEnd, fun early => ?_, fun due => ?_⟩
  · rw [prepared.behind, cursor, toCurrent, List.length_append]
    push_cast
    rw [add_assoc]
  · cases prepared with
    | kept => exact ⟨counted, rfl, rfl⟩
    | erased due => omega
  · cases prepared with
    | kept early => omega
    | erased => exact ⟨rfl, by rw [ahead], by rw [ahead]; rfl⟩

/-- A block inside the pages that have been erased is counted and written. -/
theorem SlotWritten.counts (written : SlotWritten map image count index world)
    (below : count < pageSize) (nonempty : 0 < block.length) (small : block.length ≤ 128)
    (fits : image.length + block.length < map.secondary.size)
    (early : count + block.length < pageSize)
    (room : image.length + block.length ≤ pageSize * (index + 1)) :
    SlotWritten map (image ++ block) (count + block.length) index
      (deltaFlashWrite (Env.flawless map) world block).2 := by
  obtain ⟨ready, outcome, toCurrent, cursor, toEnd, kept, -⟩ :=
    written.ready below nonempty small fits
  obtain ⟨writeBuf, memory, log⟩ := kept early
  rw [outcome]
  refine ⟨cursor, toEnd, writeBuf, ?_⟩
  simp only [World.written, toCurrent, memory, log]
  exact (written.image.record (fun _ => id) (fun _ => id)).write _ room

/-- A block that makes the writer erase the next page is written behind the erase. -/
theorem SlotWritten.clears (written : SlotWritten map image count index world)
    (below : count < pageSize) (nonempty : 0 < block.length) (small : block.length ≤ 128)
    (fits : image.length + block.length < map.secondary.size)
    (due : pageSize ≤ count + block.length)
    (next : (image.length + block.length) / pageSize = index + 1)
    (behind : image.length ≤ pageSize * (index + 1))
    (room : image.length + block.length ≤ pageSize * (index + 1 + 1)) :
    SlotWritten map (image ++ block) 0 (index + 1)
      (deltaFlashWrite (Env.flawless map) world block).2 := by
  obtain ⟨ready, outcome, toCurrent, cursor, toEnd, -, erased⟩ :=
    written.ready below nonempty small fits
  obtain ⟨writeBuf, memory, log⟩ := erased due
  rw [next] at memory log
  rw [outcome]
  refine ⟨cursor, toEnd, writeBuf, ?_⟩
  simp only [World.written, toCurrent, memory, log]
  exact ((written.image.record (fun _ => id) (fun _ => id)).erase _ behind).write _ room

/-- A block that leaves the erased pages without an erase is written too early. -/
theorem SlotWritten.early (written : SlotWritten map image count index world)
    (below : count < pageSize) (nonempty : 0 < block.length) (small : block.length ≤ 128)
    (fits : image.length + block.length < map.secondary.size)
    (early : count + block.length < pageSize) (behind : image.length ≤ pageSize * (index + 1))
    (beyond : pageSize * (index + 1) < image.length + block.length) :
    ¬ ErasedFirst (deltaFlashWrite (Env.flawless map) world block).2.log := by
  obtain ⟨ready, outcome, toCurrent, -, -, kept, -⟩ := written.ready below nonempty small fits
  obtain ⟨-, -, log⟩ := kept early
  rw [outcome]
  simp only [World.written, toCurrent, log]
  exact (written.image.record (fun _ => id) (fun _ => id)).write_early _ _ behind beyond

end

/-! ### All blocks -/

/-- The blocks the engine may hand over. -/
def BlockSizes (blocks : List (List UInt8)) : Prop :=
  ∀ block ∈ blocks, 0 < block.length ∧ block.length ≤ 128

theorem writeBlocks_append (env : Env) (world : World) (blocks : List (List UInt8))
    (block : List UInt8) :
    writeBlocks env world (blocks ++ [block]) =
      (deltaFlashWrite env (writeBlocks env world blocks) block).2 := by
  simp [writeBlocks]

/-- The writer behind `delta_init`. -/
theorem slotWritten_start (map : FlashMap) (flash : FlashMem) (memory : Memory) :
    SlotWritten map [] 0 0 (deltaInit (Env.flawless map) ⟨flash, memory, []⟩).2 := by
  have outcome := deltaInit_cases (Env.flawless map) ⟨flash, memory, []⟩
  generalize deltaInit (Env.flawless map) ⟨flash, memory, []⟩ = inited at outcome
  have first : firstErase map = pageErase map 0 := by
    simp [firstErase, pageErase]
  cases outcome with
  | failed fails => simp [Env.flawless] at fails
  | done =>
      refine ⟨by simp [startWorld, deltaInitFlashMem, Env.flawless], rfl, rfl, ?_⟩
      show SlotImage map [] 0 ((firstErase map).apply memory)
        ([] ++ [.flash .deltaInit (firstErase map) true])
      rw [first]
      refine ⟨fun position below => absurd below (Nat.not_lt_zero _), ?_,
        List.pairwise_singleton _ _, ?_, ?_, ?_, ?_⟩
      · exact ErasedFirst.append (fun done event cut => by simp at cut)
          fun _ wrote => absurd wrote id
      · intro address low high
        change (if _ then _ else _) = _
        rw [if_pos]
        simp at low high ⊢
        omega
      · intro page below
        rw [Nat.le_zero.mp below]
        exact ⟨_, _, List.mem_append_right _ (List.mem_singleton_self _)⟩
      · intro event among address erased
        rw [List.nil_append, List.mem_singleton] at among
        rw [among] at erased
        have high := erased.2
        simp at high ⊢
        omega
      · intro event among address wrote
        rw [List.nil_append, List.mem_singleton] at among
        rw [among] at wrote
        exact absurd wrote id

/-- The writer behind all blocks: in step it has written the image, and out of step it has
written to a page too early. -/
theorem writeBlocks_written {map : FlashMap} {blocks : List (List UInt8)} {start : World}
    (written : SlotWritten map [] 0 0 start) (sizes : BlockSizes blocks)
    (fits : blocks.flatten.length < map.secondary.size) :
    (InStep pageSize (blocks.map List.length) → ∃ count cleared index,
        Paced pageSize (blocks.map List.length) count cleared index ∧
          SlotWritten map blocks.flatten count index
            (writeBlocks (Env.flawless map) start blocks)) ∧
      (¬ InStep pageSize (blocks.map List.length) →
        ¬ ErasedFirst (writeBlocks (Env.flawless map) start blocks).log) := by
  induction blocks using List.reverseRecOn with
  | nil =>
      exact ⟨fun _ => ⟨0, 0, 0, paced_start (Nat.two_pow_pos 12), written⟩,
        fun out => absurd (inStep_start pageSize) out⟩
  | append_singleton blocks block inductionHypothesis =>
      have total : (blocks.map List.length).sum = blocks.flatten.length := by
        rw [List.length_flatten]
      rw [List.flatten_append, List.length_append] at fits
      simp only [List.flatten_cons, List.flatten_nil, List.append_nil] at fits
      obtain ⟨inStep, outOfStep⟩ := inductionHypothesis
        (fun other among => sizes other (List.mem_append_left _ among)) (by omega)
      obtain ⟨nonempty, small⟩ := sizes block (by simp)
      have narrow : block.length < pageSize := lt_of_le_of_lt small (by decide)
      rw [writeBlocks_append]
      simp only [List.map_append, List.map_cons, List.map_nil, List.flatten_append,
        List.flatten_cons, List.flatten_nil, List.append_nil]
      by_cases before : InStep pageSize (blocks.map List.length)
      · obtain ⟨count, cleared, index, paced, image⟩ := inStep before
        have room := paced.room
        rw [paced.inStep_iff before nonempty narrow]
        rw [total] at room ⊢
        constructor
        · intro stays
          by_cases due : pageSize ≤ count + block.length
          · obtain ⟨next, after⟩ := paced.clears nonempty narrow due
            rw [total] at next after
            have behind := after.room
            simp only [List.sum_append, total, List.sum_cons, List.sum_nil, Nat.add_zero]
              at behind
            exact ⟨0, _, _, after,
              image.clears paced.below nonempty small fits due next room behind⟩
          · have within := stays.resolve_left due
            have after := paced.counts nonempty (not_le.mp due) (by rw [total]; exact within)
            exact ⟨_, _, _, after,
              image.counts paced.below nonempty small fits (not_le.mp due) within⟩
        · intro leaves
          rw [not_or, not_le, not_le] at leaves
          exact image.early paced.below nonempty small fits leaves.1 room leaves.2
      · constructor
        · exact fun stays => absurd (InStep.before nonempty stays) before
        · intro _ ordered
          exact outOfStep before (ordered.before (deltaFlashWrite_records _ _ _).grows)

/-- After `delta_init` and the writes of some blocks the slot holds the image, on pages
erased once and in time, exactly when the sizes of the blocks keep step with the pages. -/
theorem slot_holds_iff {map : FlashMap} {blocks : List (List UInt8)} (sizes : BlockSizes blocks)
    (fits : blocks.flatten.length < map.secondary.size) (flash : FlashMem) (memory : Memory) :
    SlotHolds map
        (writeBlocks (Env.flawless map)
          (deltaInit (Env.flawless map) ⟨flash, memory, []⟩).2 blocks)
        blocks.flatten ↔
      InStep pageSize (blocks.map List.length) := by
  obtain ⟨inStep, outOfStep⟩ :=
    writeBlocks_written (slotWritten_start map flash memory) sizes fits
  constructor
  · intro holds
    by_contra out
    exact outOfStep out holds.erasedFirst
  · intro stays
    obtain ⟨count, cleared, index, -, written⟩ := inStep stays
    exact ⟨written.image.content, written.image.erasedFirst, written.image.keptOnce⟩

/-- Blocks of 127 bytes, the last of them across the end of the first page, arrive in the slot
of the build. -/
theorem slot_holds_iff_crossing :
    SlotHolds buildMap
      (writeBlocks (Env.flawless buildMap)
        (deltaInit (Env.flawless buildMap) ⟨deltaInitFlashMem buildMap, fun _ => 0, []⟩).2
        (List.replicate 33 (List.replicate 127 1)))
      (List.replicate 33 (List.replicate 127 1)).flatten :=
  (slot_holds_iff (by simp [BlockSizes]) (by decide +kernel) _ _).mpr
    (inStep_short (by decide +kernel))

/-- Blocks of 127 bytes, until the third page has been entered. -/
def shortBlocks : List (List UInt8) := List.replicate 65 (List.replicate 127 1)

/-- Those blocks do not arrive in a slot that held zeros. -/
theorem shortBlocks_lost :
    ¬ SlotHolds buildMap
      (writeBlocks (Env.flawless buildMap)
        (deltaInit (Env.flawless buildMap) ⟨deltaInitFlashMem buildMap, fun _ => 0, []⟩).2
        shortBlocks)
      shortBlocks.flatten := by
  intro holds
  have byte := holds.content 8192 (by decide +kernel)
  revert byte
  decide +kernel

end DeltaUpdate.Delta
