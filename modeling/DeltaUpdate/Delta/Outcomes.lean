import DeltaUpdate.Delta.Callbacks

/-!
Owns what one call of a callback can do. Each case gives the result and the world
after the call, so that the proofs about runs never unfold a callback.
-/

namespace DeltaUpdate.Delta

open DeltaUpdate.Detools

theorem issue_failed {env : Env} {issuer : Issuer} {op : FlashOp} {world : World}
    (fails : env.fails world.log op = true) :
    issue env issuer op world = (-5, world.record (.flash issuer op false)) :=
  if_pos fails

theorem issue_done {env : Env} {issuer : Issuer} {op : FlashOp} {world : World}
    (fails : env.fails world.log op = false) :
    issue env issuer op world =
      (0, { world with
        memory := op.apply world.memory
        log := world.log ++ [.flash issuer op true] }) := by
  rw [issue, if_neg (by simp [fails])]

theorem flashRead_failed {env : Env} {issuer : Issuer} {world : World} {address : Int}
    {size : Nat} (fails : env.fails world.log (.read address size) = true) :
    flashRead env issuer world address size =
      (-5, fun index : Nat => world.memory (address + index),
        world.record (.flash issuer (.read address size) false)) := by
  rw [flashRead, issue_failed fails]

/-- A read leaves the memory as it is. -/
theorem flashRead_done {env : Env} {issuer : Issuer} {world : World} {address : Int}
    {size : Nat} (fails : env.fails world.log (.read address size) = false) :
    flashRead env issuer world address size =
      ((0 : Int), fun index : Nat => world.memory (address + index),
        world.record (.flash issuer (.read address size) true)) := by
  rw [flashRead, issue_done fails]
  rfl

/-! ### Pages -/

theorem pageStart_of_nonneg {offset : Int} (nonneg : 0 ≤ offset) :
    pageStart offset = offset - offset % pageSize := by
  rw [pageStart, Int.tmod_eq_emod_of_nonneg nonneg]

theorem erasePage_failed {env : Env} {issuer : Issuer} {world : World} {offset : Int}
    (fails : env.fails world.log (.erase (pageStart offset) pageSize) = true) :
    erasePage env issuer world offset =
      (DeltaError.clearingError.result,
        world.record (.flash issuer (.erase (pageStart offset) pageSize) false)) := by
  simp only [erasePage, flashErase, issue_failed fails]
  rw [if_pos (by decide)]

theorem erasePage_done {env : Env} {issuer : Issuer} {world : World} {offset : Int}
    (fails : env.fails world.log (.erase (pageStart offset) pageSize) = false) :
    erasePage env issuer world offset =
      (0, { world with
        memory := (FlashOp.erase (pageStart offset) pageSize).apply world.memory
        log := world.log ++ [.flash issuer (.erase (pageStart offset) pageSize) true] }) := by
  simp only [erasePage, flashErase, issue_done fails, ne_eq, not_true, if_false]

/-! ### Slot writes -/

/-- `write_buf` when a block has been counted. -/
def countedBuf (world : World) (block : List UInt8) : Nat :=
  sizeT (world.flash.writeBuf + block.length)

/-- The cursor behind a block. -/
def cursorBehind (world : World) (block : List UInt8) : Int :=
  intT (world.flash.toCurrent + block.length)

/-- The erase of the page behind a block. -/
def eraseAhead (world : World) (block : List UInt8) : FlashOp :=
  .erase (pageStart (cursorBehind world block)) pageSize

/-- The world when a block has been counted. -/
def World.counted (world : World) (block : List UInt8) : World where
  flash := { world.flash with writeBuf := countedBuf world block }
  memory := world.memory
  log := world.log ++ [.handed world.flash block]

/-- The world when a block is about to be written: no erase was due, or the page
behind the block has been erased. -/
inductive Prepared (world : World) (block : List UInt8) : World → Prop
  | kept (early : countedBuf world block < pageSize) :
      Prepared world block (world.counted block)
  | erased (due : pageSize ≤ countedBuf world block) :
      Prepared world block
        { flash := { world.flash with writeBuf := 0 }
          memory := (eraseAhead world block).apply world.memory
          log := (world.counted block).log ++
            [.flash .deltaFlashWrite (eraseAhead world block) true] }

/-- Preparing a block changes no cursor, and leaves less than a page counted. -/
theorem Prepared.flash {world ready : World} {block : List UInt8}
    (prepared : Prepared world block ready) :
    ∃ count < pageSize, ready.flash = { world.flash with writeBuf := count } := by
  cases prepared with
  | kept early => exact ⟨_, early, rfl⟩
  | erased => exact ⟨0, Nat.two_pow_pos 12, rfl⟩

section

variable {world ready : World} {block : List UInt8}

theorem Prepared.patchCurrent (prepared : Prepared world block ready) :
    ready.flash.patchCurrent = world.flash.patchCurrent := by
  obtain ⟨count, -, flash⟩ := prepared.flash
  rw [flash]

theorem Prepared.toCurrent (prepared : Prepared world block ready) :
    ready.flash.toCurrent = world.flash.toCurrent := by
  obtain ⟨count, -, flash⟩ := prepared.flash
  rw [flash]

theorem Prepared.toEnd (prepared : Prepared world block ready) :
    ready.flash.toEnd = world.flash.toEnd := by
  obtain ⟨count, -, flash⟩ := prepared.flash
  rw [flash]

theorem Prepared.behind (prepared : Prepared world block ready) :
    cursorBehind ready block = cursorBehind world block := by
  rw [cursorBehind, prepared.toCurrent, cursorBehind]

end

/-- The world when a block has been written. -/
def World.written (ready : World) (block : List UInt8) : World where
  flash := { ready.flash with toCurrent := cursorBehind ready block }
  memory := (FlashOp.write ready.flash.toCurrent block).apply ready.memory
  log := ready.log ++
    [.flash .deltaFlashWrite (.write ready.flash.toCurrent block) true]

/-- What `delta_flash_write` can do. -/
inductive WriteCase (env : Env) (world : World) (block : List UInt8) : Int × World → Prop
  | eraseFailed (due : pageSize ≤ countedBuf world block)
      (fails : env.fails (world.counted block).log (eraseAhead world block) = true) :
      WriteCase env world block (DeltaError.clearingError.result,
        (world.counted block).record
          (.flash .deltaFlashWrite (eraseAhead world block) false))
  | writeFailed {ready : World} (prepared : Prepared world block ready)
      (fails : env.fails ready.log (.write ready.flash.toCurrent block) = true) :
      WriteCase env world block (DeltaError.writingError.result,
        ready.record (.flash .deltaFlashWrite (.write ready.flash.toCurrent block) false))
  | full {ready : World} (prepared : Prepared world block ready)
      (above : ready.flash.toEnd ≤ cursorBehind ready block) :
      WriteCase env world block (DeltaError.slot1OutOfMemory.result,
        (ready.written block).record (.refused .deltaFlashWrite))
  | wrote {ready : World} (prepared : Prepared world block ready)
      (below : cursorBehind ready block < ready.flash.toEnd) :
      WriteCase env world block (0, ready.written block)

theorem writeSlot_cases {env : Env} {world ready : World} {block : List UInt8}
    (prepared : Prepared world block ready) :
    WriteCase env world block (writeSlot env ready block) := by
  cases fails : env.fails ready.log (.write ready.flash.toCurrent block) with
  | true =>
      have outcome : writeSlot env ready block = (DeltaError.writingError.result,
          ready.record
            (.flash .deltaFlashWrite (.write ready.flash.toCurrent block) false)) := by
        simp only [writeSlot, flashWrite, issue_failed fails]
        rw [if_pos (by decide)]
      rw [outcome]
      exact .writeFailed prepared fails
  | false =>
      by_cases above : cursorBehind ready block ≥ ready.flash.toEnd
      · have outcome : writeSlot env ready block = (DeltaError.slot1OutOfMemory.result,
            (ready.written block).record (.refused .deltaFlashWrite)) := by
          unfold cursorBehind at above
          simp only [writeSlot, flashWrite, issue_done fails, ne_eq, not_true, if_false,
            if_pos above]
          rfl
        rw [outcome]
        exact .full prepared above
      · have outcome : writeSlot env ready block = (0, ready.written block) := by
          unfold cursorBehind at above
          simp only [writeSlot, flashWrite, issue_done fails, ne_eq, not_true, if_false,
            if_neg above]
          rfl
        rw [outcome]
        exact .wrote prepared (not_le.mp above)

theorem deltaFlashWrite_eq (env : Env) (world : World) (block : List UInt8) :
    deltaFlashWrite env world block =
      if countedBuf world block ≥ pageSize then
        let erased := erasePage env .deltaFlashWrite (world.counted block)
          (cursorBehind world block)
        if erased.1 ≠ 0 then (DeltaError.clearingError.result, erased.2)
        else writeSlot env { erased.2 with flash := { erased.2.flash with writeBuf := 0 } } block
      else writeSlot env (world.counted block) block := rfl

theorem deltaFlashWrite_cases (env : Env) (world : World) (block : List UInt8) :
    WriteCase env world block (deltaFlashWrite env world block) := by
  rw [deltaFlashWrite_eq]
  by_cases due : countedBuf world block ≥ pageSize
  · rw [if_pos due]
    cases fails : env.fails (world.counted block).log (eraseAhead world block) with
    | true =>
        rw [erasePage_failed fails]
        simp only
        rw [if_pos (by decide)]
        exact .eraseFailed due fails
    | false =>
        rw [erasePage_done fails]
        simp only [ne_eq, not_true, if_false]
        exact writeSlot_cases (.erased due)
  · rw [if_neg due]
    exact writeSlot_cases (.kept (not_le.mp due))

/-! ### Source reads, patch reads and seeks -/

/-- The world when the source has been read. -/
def World.sourceRead (world : World) (size : Nat) : World where
  flash := { world.flash with fromCurrent := intT (world.flash.fromCurrent + size) }
  memory := world.memory
  log := world.log ++
    [.flash .deltaFlashFromRead (.read world.flash.fromCurrent size) true]

/-- What `delta_flash_from_read` can do. -/
inductive SourceCase (env : Env) (world : World) (size : Nat) :
    Int × (Nat → UInt8) × World → Prop
  | empty {bytes : Nat → UInt8} (zero : size = 0) :
      SourceCase env world size (DeltaError.invalidBufSize.result, bytes,
        world.record (.refused .deltaFlashFromRead))
  | failed {bytes : Nat → UInt8} (positive : size ≠ 0)
      (fails : env.fails world.log (.read world.flash.fromCurrent size) = true) :
      SourceCase env world size (DeltaError.readingSourceError.result, bytes,
        world.record (.flash .deltaFlashFromRead (.read world.flash.fromCurrent size) false))
  | outside {bytes : Nat → UInt8} (positive : size ≠ 0)
      (above : world.flash.fromEnd ≤ intT (world.flash.fromCurrent + size)) :
      SourceCase env world size (DeltaError.readingSourceError.result, bytes,
        (world.sourceRead size).record (.refused .deltaFlashFromRead))
  | read (positive : size ≠ 0)
      (below : intT (world.flash.fromCurrent + size) < world.flash.fromEnd) :
      SourceCase env world size
        (0, fun index => world.memory (world.flash.fromCurrent + index), world.sourceRead size)

theorem deltaFlashFromRead_cases (env : Env) (world : World) (size : Nat) :
    SourceCase env world size (deltaFlashFromRead env world size) := by
  unfold deltaFlashFromRead
  by_cases zero : size = 0
  · rw [if_pos zero]
    exact .empty zero
  · rw [if_neg zero]
    cases fails : env.fails world.log (.read world.flash.fromCurrent size) with
    | true =>
        simp only [flashRead_failed fails]
        rw [if_pos (by decide)]
        exact .failed zero fails
    | false =>
        simp only [flashRead_done fails, ne_eq, not_true, if_false, World.record_flash]
        by_cases above : intT (world.flash.fromCurrent + size) ≥ world.flash.fromEnd
        · rw [if_pos above]
          exact .outside zero above
        · rw [if_neg above]
          exact .read zero (not_le.mp above)

/-- The world when a chunk of the patch has been read. -/
def World.patchRead (world : World) (size : Nat) : World where
  flash := { world.flash with patchCurrent := intT (world.flash.patchCurrent + size) }
  memory := world.memory
  log := world.log ++
    [.flash .deltaFlashPatchRead (.read world.flash.patchCurrent size) true]

/-- The bytes of memory from the patch cursor. -/
def World.patchBytes (world : World) (size : Nat) : List UInt8 :=
  (List.range size).map fun index : Nat => world.memory (world.flash.patchCurrent + index)

/-- What `delta_flash_patch_read` can do. -/
inductive PatchCase (env : Env) (world : World) (size : Nat) :
    Int × (Nat → UInt8) × World → Prop
  | empty {bytes : Nat → UInt8} (zero : size = 0) :
      PatchCase env world size (DeltaError.invalidBufSize.result, bytes,
        world.record (.refused .deltaFlashPatchRead))
  | failed {bytes : Nat → UInt8} (positive : size ≠ 0)
      (fails : env.fails world.log (.read world.flash.patchCurrent size) = true) :
      PatchCase env world size (DeltaError.readingPatchError.result, bytes,
        world.record (.flash .deltaFlashPatchRead (.read world.flash.patchCurrent size) false))
  | outside {bytes : Nat → UInt8} (positive : size ≠ 0)
      (above : world.flash.patchEnd ≤ intT (world.flash.patchCurrent + size)) :
      PatchCase env world size (DeltaError.readingPatchError.result, bytes,
        (world.patchRead size).record (.refused .deltaFlashPatchRead))
  | read (positive : size ≠ 0)
      (below : intT (world.flash.patchCurrent + size) < world.flash.patchEnd) :
      PatchCase env world size
        (0, fun index => world.memory (world.flash.patchCurrent + index),
          (world.patchRead size).record (.delivered (world.patchBytes size)))

theorem deltaFlashPatchRead_cases (env : Env) (world : World) (size : Nat) :
    PatchCase env world size (deltaFlashPatchRead env world size) := by
  unfold deltaFlashPatchRead
  by_cases zero : size = 0
  · rw [if_pos zero]
    exact .empty zero
  · rw [if_neg zero]
    cases fails : env.fails world.log (.read world.flash.patchCurrent size) with
    | true =>
        simp only [flashRead_failed fails]
        rw [if_pos (by decide)]
        exact .failed zero fails
    | false =>
        simp only [flashRead_done fails, ne_eq, not_true, if_false, World.record_flash]
        by_cases above : intT (world.flash.patchCurrent + size) ≥ world.flash.patchEnd
        · rw [if_pos above]
          exact .outside zero above
        · rw [if_neg above]
          exact .read zero (not_le.mp above)

/-- The world when the source cursor has been moved. -/
def World.sought (world : World) (offset : Int) : World :=
  { world with
    flash := { world.flash with fromCurrent := intT (world.flash.fromCurrent + offset) } }

/-- What `delta_flash_seek` can do. -/
inductive SeekCase (world : World) (offset : Int) : Int × World → Prop
  | outside (above : world.flash.fromEnd ≤ intT (world.flash.fromCurrent + offset)) :
      SeekCase world offset (DeltaError.seekingError.result,
        (world.sought offset).record (.refused .deltaFlashSeek))
  | sought (below : intT (world.flash.fromCurrent + offset) < world.flash.fromEnd) :
      SeekCase world offset (0, world.sought offset)

theorem deltaFlashSeek_cases (world : World) (offset : Int) :
    SeekCase world offset (deltaFlashSeek world offset) := by
  unfold deltaFlashSeek
  by_cases above : intT (world.flash.fromCurrent + offset) ≥ world.flash.fromEnd
  · simp only [if_pos above]
    exact .outside above
  · simp only [if_neg above]
    exact .sought (not_le.mp above)

/-! ### Calls that succeed -/

section

variable {env : Env} {world : World}

/-- A block that is accepted has been written, and ends below the end of the slot. -/
theorem deltaFlashWrite_accepted {block : List UInt8}
    (accepted : (deltaFlashWrite env world block).1 = 0) :
    ∃ ready, Prepared world block ready ∧ cursorBehind ready block < ready.flash.toEnd ∧
      deltaFlashWrite env world block = (0, ready.written block) := by
  have outcome := deltaFlashWrite_cases env world block
  generalize deltaFlashWrite env world block = written at accepted outcome ⊢
  cases outcome with
  | eraseFailed => exact absurd accepted (DeltaError.result_neg _).ne
  | writeFailed => exact absurd accepted (DeltaError.result_neg _).ne
  | full => exact absurd accepted (DeltaError.result_neg _).ne
  | wrote prepared below => exact ⟨_, prepared, below, rfl⟩

theorem deltaFlashFromRead_accepted {size : Nat} {bytes : Nat → UInt8} {next : World}
    (read : deltaFlashFromRead env world size = (0, bytes, next)) :
    intT (world.flash.fromCurrent + size) < world.flash.fromEnd ∧
      bytes = (fun index : Nat => world.memory (world.flash.fromCurrent + index)) ∧
      next = world.sourceRead size := by
  have outcome := deltaFlashFromRead_cases env world size
  rw [read] at outcome
  cases outcome with
  | read positive below => exact ⟨below, rfl, rfl⟩

theorem deltaFlashPatchRead_accepted {size : Nat}
    (success : (deltaFlashPatchRead env world size).1 = 0) :
    intT (world.flash.patchCurrent + size) < world.flash.patchEnd ∧
      deltaFlashPatchRead env world size =
        (0, fun index : Nat => world.memory (world.flash.patchCurrent + index),
          (world.patchRead size).record (.delivered (world.patchBytes size))) := by
  have outcome := deltaFlashPatchRead_cases env world size
  generalize deltaFlashPatchRead env world size = read at success outcome ⊢
  cases outcome with
  | empty => exact absurd success (DeltaError.result_neg _).ne
  | failed => exact absurd success (DeltaError.result_neg _).ne
  | outside => exact absurd success (DeltaError.result_neg _).ne
  | read positive below => exact ⟨below, rfl⟩

theorem deltaFlashSeek_accepted {offset : Int} (found : (deltaFlashSeek world offset).1 = 0) :
    intT (world.flash.fromCurrent + offset) < world.flash.fromEnd ∧
      deltaFlashSeek world offset = (0, world.sought offset) := by
  have outcome := deltaFlashSeek_cases world offset
  generalize deltaFlashSeek world offset = sought at found outcome ⊢
  cases outcome with
  | outside => exact absurd found (DeltaError.result_neg _).ne
  | sought below => exact ⟨below, rfl⟩

end

/-! ### What the callbacks record -/

theorem deltaFlashWrite_records (env : Env) (world : World) (block : List UInt8) :
    Extends (Event.IssuedBy .deltaFlashWrite) world.log
      (deltaFlashWrite env world block).2.log := by
  have outcome := deltaFlashWrite_cases env world block
  generalize deltaFlashWrite env world block = written at outcome
  have prepared {ready : World} (prepared : Prepared world block ready) :
      Extends (Event.IssuedBy .deltaFlashWrite) world.log ready.log := by
    cases prepared with
    | kept => exact (Extends.refl _ _).record (by rfl)
    | erased => exact ((Extends.refl _ _).record (by rfl)).record (by rfl)
  cases outcome with
  | eraseFailed => exact ((Extends.refl _ _).record (by rfl)).record (by rfl)
  | writeFailed ready => exact (prepared ready).record (by rfl)
  | full ready => exact ((prepared ready).record (by rfl)).record (by rfl)
  | wrote ready => exact (prepared ready).record (by rfl)

theorem deltaFlashFromRead_records (env : Env) (world : World) (size : Nat) :
    Extends (Event.IssuedBy .deltaFlashFromRead) world.log
      (deltaFlashFromRead env world size).2.2.log := by
  have outcome := deltaFlashFromRead_cases env world size
  generalize deltaFlashFromRead env world size = read at outcome
  cases outcome with
  | empty => exact (Extends.refl _ _).record (by rfl)
  | failed => exact (Extends.refl _ _).record (by rfl)
  | outside => exact ((Extends.refl _ _).record (by rfl)).record (by rfl)
  | read => exact (Extends.refl _ _).record (by rfl)

theorem deltaFlashPatchRead_records (env : Env) (world : World) (size : Nat) :
    Extends (Event.IssuedBy .deltaFlashPatchRead) world.log
      (deltaFlashPatchRead env world size).2.2.log := by
  have outcome := deltaFlashPatchRead_cases env world size
  generalize deltaFlashPatchRead env world size = read at outcome
  cases outcome with
  | empty => exact (Extends.refl _ _).record (by rfl)
  | failed => exact (Extends.refl _ _).record (by rfl)
  | outside => exact ((Extends.refl _ _).record (by rfl)).record (by rfl)
  | read => exact ((Extends.refl _ _).record (by rfl)).record (by rfl)

theorem deltaFlashSeek_records (world : World) (offset : Int) :
    Extends (Event.IssuedBy .deltaFlashSeek) world.log (deltaFlashSeek world offset).2.log := by
  have outcome := deltaFlashSeek_cases world offset
  generalize deltaFlashSeek world offset = sought at outcome
  cases outcome with
  | outside => exact (Extends.refl _ _).record (by rfl)
  | sought => exact Extends.refl _ _

/-- The blocks handed to the slot writer in a log. -/
def handedBlocks (log : List Event) : List (List UInt8) :=
  log.filterMap fun event =>
    match event with
    | .handed _ block => some block
    | _ => none

@[simp] theorem handedBlocks_append (first second : List Event) :
    handedBlocks (first ++ second) = handedBlocks first ++ handedBlocks second :=
  List.filterMap_append

/-- The slot writer is handed one block, whatever comes of it. -/
theorem deltaFlashWrite_blocks (env : Env) (world : World) (block : List UInt8) :
    handedBlocks (deltaFlashWrite env world block).2.log = handedBlocks world.log ++ [block] := by
  have outcome := deltaFlashWrite_cases env world block
  generalize deltaFlashWrite env world block = written at outcome
  have prepared {ready : World} (prepared : Prepared world block ready) :
      handedBlocks ready.log = handedBlocks world.log ++ [block] := by
    cases prepared <;> simp [World.counted, handedBlocks]
  cases outcome with
  | eraseFailed => simp [World.counted, handedBlocks]
  | writeFailed ready =>
      rw [← prepared ready]
      simp [handedBlocks]
  | full ready =>
      rw [← prepared ready]
      simp [World.written, handedBlocks]
  | wrote ready =>
      rw [← prepared ready]
      simp [World.written, handedBlocks]

/-- The other callbacks hand over none. -/
theorem Extends.sameBlocks {issuer : Issuer} {start log : List Event}
    (records : Extends (Event.IssuedBy issuer) start log) (other : issuer ≠ .deltaFlashWrite) :
    handedBlocks log = handedBlocks start := by
  obtain ⟨rest, rfl, issued⟩ := records
  have none : handedBlocks rest = [] := by
    apply List.filterMap_eq_nil_iff.mpr
    intro event among
    cases event with
    | handed => exact absurd (issued _ among) other
    | _ => rfl
  rw [handedBlocks_append, none, List.append_nil]

/-! ### A call of the update -/

/-- The word of the header at an index. -/
def headerWord (map : FlashMap) (memory : Memory) (start : Nat) : Nat :=
  wordAt (fun index => memory (map.storage.offset + index)) start

/-- The events of a header that has been read and cleared. -/
def headerEvents (map : FlashMap) : List Event :=
  [.flash .deltaReadPatchHeader (.read map.storage.offset 8) true,
    .flash .deltaReadPatchHeader (.write map.storage.offset resetMsg) true]

/-- The memory with a cleared marker. -/
def clearedMemory (map : FlashMap) (memory : Memory) : Memory :=
  (FlashOp.write map.storage.offset resetMsg).apply memory

/-- The world when the marker has been cleared. -/
def World.cleared (world : World) (map : FlashMap) : World where
  flash := world.flash
  memory := clearedMemory map world.memory
  log := world.log ++ headerEvents map

/-- The erase of the first page of the slot. -/
def firstErase (map : FlashMap) : FlashOp := .erase map.secondary.offset pageSize

/-- What `delta_read_patch_header` can do. -/
inductive HeaderCase (env : Env) (world : World) (size : Nat) : Int × Nat × World → Prop
  | readFailed (fails : env.fails world.log (.read env.map.storage.offset 8) = true) :
      HeaderCase env world size (DeltaError.patchHeaderError.result, size,
        world.record (.flash .deltaReadPatchHeader (.read env.map.storage.offset 8) false))
  | noPatch (other : headerWord env.map world.memory 0 ≠ newPatch) :
      HeaderCase env world size (0, size,
        world.record (.flash .deltaReadPatchHeader (.read env.map.storage.offset 8) true))
  | clearFailed (marker : headerWord env.map world.memory 0 = newPatch)
      (fails : ∃ log, env.fails log (.write env.map.storage.offset resetMsg) = true) :
      HeaderCase env world size (DeltaError.patchHeaderError.result,
        headerWord env.map world.memory 4,
        (world.record (.flash .deltaReadPatchHeader (.read env.map.storage.offset 8) true)).record
          (.flash .deltaReadPatchHeader (.write env.map.storage.offset resetMsg) false))
  | cleared (marker : headerWord env.map world.memory 0 = newPatch) :
      HeaderCase env world size
        (0, headerWord env.map world.memory 4, world.cleared env.map)

theorem deltaReadPatchHeader_cases (env : Env) (world : World) (size : Nat) :
    HeaderCase env world size (deltaReadPatchHeader env world size) := by
  unfold deltaReadPatchHeader
  cases fails : env.fails world.log (.read env.map.storage.offset 8) with
  | true =>
      simp only [flashRead_failed fails]
      rw [if_pos (by decide)]
      exact .readFailed fails
  | false =>
      simp only [flashRead_done fails, ne_eq, not_true, if_false]
      by_cases marker : headerWord env.map world.memory 0 = newPatch
      · rw [if_neg (fun other => other marker.symm)]
        cases clear : env.fails
            (world.record (.flash .deltaReadPatchHeader (.read env.map.storage.offset 8) true)).log
            (.write env.map.storage.offset resetMsg) with
        | true =>
            simp only [flashWrite, issue_failed clear]
            rw [if_pos (by decide)]
            exact .clearFailed marker ⟨_, clear⟩
        | false =>
            simp only [flashWrite, issue_done clear, not_true, if_false]
            rw [World.record_log, List.append_assoc]
            exact .cleared marker
      · rw [if_pos (fun same => marker same.symm)]
        exact .noPatch marker

/-- The world in which the engine starts. -/
def startWorld (map : FlashMap) (memory : Memory) (log : List Event) : World :=
  ⟨deltaInitFlashMem map, memory, log⟩

theorem pageStart_aligned {offset : Int} (nonneg : 0 ≤ offset)
    (aligned : (pageSize : Int) ∣ offset) : pageStart offset = offset := by
  rw [pageStart_of_nonneg nonneg, Int.emod_eq_zero_of_dvd aligned, sub_zero]

/-- What `delta_init` can do. -/
inductive InitCase (env : Env) (world : World) : Int × World → Prop
  | failed (fails : env.fails world.log (firstErase env.map) = true) :
      InitCase env world (DeltaError.clearingError.result,
        startWorld env.map world.memory
          (world.log ++ [.flash .deltaInit (firstErase env.map) false]))
  | done :
      InitCase env world (0,
        startWorld env.map ((firstErase env.map).apply world.memory)
          (world.log ++ [.flash .deltaInit (firstErase env.map) true]))

theorem deltaInit_cases (env : Env) (world : World) :
    InitCase env world (deltaInit env world) := by
  have aligned : pageStart (deltaInitFlashMem env.map).toCurrent = env.map.secondary.offset :=
    pageStart_aligned (Int.natCast_nonneg _)
      (Int.natCast_dvd_natCast.mpr env.map.secondary.offsetAligned)
  unfold deltaInit
  simp only
  cases fails : env.fails world.log (firstErase env.map) with
  | true =>
      rw [erasePage_failed (by rw [aligned]; exact fails), aligned]
      exact .failed fails
  | false =>
      rw [erasePage_done (by rw [aligned]; exact fails), aligned]
      exact .done

/-- What the end of `delta_check_and_apply` can do. -/
inductive UpgradeCase (env : Env) (res : Int) (world : World) : Ending × World → Prop
  | none (nonpositive : res ≤ 0) : UpgradeCase env res world (.returned res, world)
  | failed (positive : 0 < res) (fails : env.upgradeFails = true) :
      UpgradeCase env res world (.returned (-1), world.record (.bootRequestUpgrade false))
  | requested (positive : 0 < res) (succeeds : env.upgradeFails = false) :
      UpgradeCase env res world
        (.rebooted, (world.record (.bootRequestUpgrade true)).record .sysReboot)

theorem requestUpgrade_cases (env : Env) (res : Int) (world : World) :
    UpgradeCase env res world (requestUpgrade env res world) := by
  unfold requestUpgrade
  by_cases nonpositive : res ≤ 0
  · rw [if_pos nonpositive]
    exact .none nonpositive
  · rw [if_neg nonpositive]
    cases fails : env.upgradeFails with
    | true =>
        simp only [bootRequestUpgrade, fails, if_true, Bool.not_true]
        exact .failed (not_le.mp nonpositive) fails
    | false =>
        simp only [bootRequestUpgrade, fails, Bool.false_eq_true, if_false, Bool.not_false]
        exact .requested (not_le.mp nonpositive) fails

/-- What `delta_check_and_apply` can do. -/
inductive CallCase (env : Env) (stack : ApplyPatch) (world : World) : Ending × World → Prop
  | unread {code : Int} {size : Nat} {after : World}
      (header : HeaderCase env world 0 (code, size, after)) (negative : code < 0) :
      CallCase env stack world (.returned code, after)
  | idle {size : Nat} {after : World} (header : HeaderCase env world 0 (0, size, after))
      (empty : size = 0) :
      CallCase env stack world (.returned 0, after)
  | initFailed (marker : headerWord env.map world.memory 0 = newPatch)
      (positive : 0 < headerWord env.map world.memory 4) {code : Int} {after : World}
      (init : InitCase env (world.cleared env.map) (code, after)) (failure : code ≠ 0) :
      CallCase env stack world (.returned code, after)
  | applied (marker : headerWord env.map world.memory 0 = newPatch)
      (positive : 0 < headerWord env.map world.memory 4) {inited : World}
      (init : InitCase env (world.cleared env.map) (0, inited)) :
      CallCase env stack world
        (requestUpgrade env
          (detoolsApplyPatchCallbacks (deltaCallbacks env) stack inited
            (headerWord env.map world.memory 4)).res
          (detoolsApplyPatchCallbacks (deltaCallbacks env) stack inited
            (headerWord env.map world.memory 4)).world)

theorem deltaCheckAndApply_cases (env : Env) (stack : ApplyPatch) (world : World) :
    CallCase env stack world (deltaCheckAndApply env stack world) := by
  have header := deltaReadPatchHeader_cases env world 0
  unfold deltaCheckAndApply
  generalize deltaReadPatchHeader env world 0 = read at header
  obtain ⟨code, size, after⟩ := read
  simp only
  by_cases negative : code < 0
  · rw [if_pos negative]
    exact .unread header negative
  · rw [if_neg negative]
    cases header with
    | readFailed => exact absurd (DeltaError.result_neg _) negative
    | clearFailed => exact absurd (DeltaError.result_neg _) negative
    | noPatch other =>
        rw [if_neg (by omega)]
        exact .idle (.noPatch other) rfl
    | cleared marker =>
        by_cases positive : headerWord env.map world.memory 4 > 0
        · rw [if_pos positive, applyPatch]
          have init := deltaInit_cases env (world.cleared env.map)
          generalize deltaInit env (world.cleared env.map) = outcome at init
          obtain ⟨code, inited⟩ := outcome
          simp only
          by_cases failure : code ≠ 0
          · rw [if_pos failure]
            exact .initFailed marker positive init failure
          · rw [if_neg failure]
            rw [not_not.mp failure] at init
            exact .applied marker positive init
        · rw [if_neg positive]
          exact .idle (.cleared marker) (by omega)

end DeltaUpdate.Delta
