import DeltaUpdate.Detools.SideBySide

/-!
Owns the incremental use of the engine: feeding a patch chunk by chunk, dumping the
state between two chunks, and restoring it into an engine that has just been
initialized. A restored engine goes on as the dumped one would have.
-/

namespace DeltaUpdate.Detools

open DeltaUpdate.Library

/-! ### Dumping and restoring -/

/-- `detools_state_write_t` and `detools_state_read_t`. The structure is stored as it
lies in memory, so a state that has been written is what is read back. -/
structure StateStore (World : Type) where
  stateWrite : World → ApplyPatch → Int × World
  stateRead : World → Int × ApplyPatch × World
  kept : ∀ world self, (stateWrite world self).1 = 0 →
    (stateRead (stateWrite world self).2).1 = 0 ∧ (stateRead (stateWrite world self).2).2.1 = self

/-- `patch_reader_dump`: the reader is dumped with the engine. -/
def patchReaderDump : Int := 0

/-- `patch_reader_restore`: the pointers are set again. -/
def patchReaderRestore (dumped : PatchReader) : Int × PatchReader :=
  (0, { dumped with destroySet := true })

section

variable {World : Type} (callbacks : Callbacks World) (store : StateStore World)

/-- `detools_apply_patch_dump`. -/
def detoolsApplyPatchDump (self : ApplyPatch) (world : World) : Int × World :=
  let written := store.stateWrite world self
  if written.1 ≠ 0 then (DetoolsError.ioFailed.result, written.2)
  else if self.state = .init then (0, written.2)
  else (patchReaderDump, written.2)

/-- `detools_apply_patch_restore`. -/
def detoolsApplyPatchRestore (self : ApplyPatch) (world : World) : Stepped World :=
  let read := store.stateRead world
  let dumped := read.2.1
  if read.1 ≠ 0 then ⟨DetoolsError.ioFailed.result, self, read.2.2⟩
  else
    let self := { self with state := dumped.state, patchSize := dumped.patchSize }
    if self.state = .init then ⟨0, self, read.2.2⟩
    else
      let self := { self with
        compression := dumped.compression
        patchOffset := dumped.patchOffset
        toOffset := dumped.toOffset
        toSize := dumped.toSize
        fromOffset := dumped.fromOffset
        chunkSize := dumped.chunkSize }
      let sought := callbacks.fromSeek read.2.2 self.fromOffset
      if sought.1 ≠ 0 then ⟨DetoolsError.ioFailed.result, self, sought.2⟩
      else
        let restored := patchReaderRestore dumped.patchReader
        ⟨restored.1, { self with patchReader := restored.2 }, sought.2⟩

/-- `detools_apply_patch_get_patch_offset`. -/
def detoolsApplyPatchGetPatchOffset (self : ApplyPatch) : Nat := self.patchOffset

/-- `detools_apply_patch_get_to_offset`. -/
def detoolsApplyPatchGetToOffset (self : ApplyPatch) : Nat := self.toOffset

/-! ### Feeding a patch -/

/-- A chunk as a buffer. -/
def bufferOf (chunk : List UInt8) (index : Nat) : UInt8 := chunk.getD index 0

/-- `detools_apply_patch_process` is called for one chunk after another, until one fails. -/
def feedChunks : List (List UInt8) → ApplyPatch → World → Stepped World
  | [], self, world => ⟨0, self, world⟩
  | chunk :: chunks, self, world =>
      let fed := detoolsApplyPatchProcess callbacks self world (bufferOf chunk) chunk.length
      if fed.res = 0 then feedChunks chunks fed.self fed.world else fed

/-- The chunks are fed and the patch is finalized, which counts only without an error. -/
def applyChunks (chunks : List (List UInt8)) (self : ApplyPatch) (world : World) :
    Stepped World :=
  let fed := feedChunks callbacks chunks self world
  let final := detoolsApplyPatchFinalize callbacks fed.self fed.world
  if fed.res = 0 then final else { final with res := fed.res }

end

/-! ### What feeding preserves -/

section

variable {World : Type} {callbacks : Callbacks World}

/-- The header is read at most once. -/
theorem EngineStep.opened_after {self : ApplyPatch} {world : World} {stepped : Stepped World}
    (step : EngineStep callbacks self world stepped) : stepped.self.state ≠ .init := by
  cases step with
  | rejected _ _ _ failed => simp [failed]
  | opened state header =>
      rw [(processInit_opened header).state]
      split <;> simp
  | waitingSize state => exact state.running.1
  | waitingBlock state => exact (readsBlock_running state).1
  | sized states => exact states.reads.2
  | emptied states => exact states.reads.2
  | wrote nonempty read gathered =>
      obtain ⟨state, middle, -⟩ := gathered.frame
      exact fun init => (readsBlock_running state).1 (middle.symm.trans init)
  | sought =>
      simp only
      split <;> simp
  | _ => simp

/-- An engine between two chunks that has taken `fed` bytes without an error. -/
structure Fed (fed : Nat) (engine : ApplyPatch) : Prop where
  running : engine.state ≠ .failed
  reader : ReaderSound engine
  patchOffset : engine.patchOffset = sizeT fed
  unread : engine.state = .init → engine.fromOffset = 0 ∧ fed = 0

theorem fed_init (stack : ApplyPatch) (patchSize : Nat) :
    Fed 0 (detoolsApplyPatchInit stack patchSize) :=
  ⟨by simp [detoolsApplyPatchInit], readerSound_init stack patchSize, rfl, fun _ => ⟨rfl, rfl⟩⟩

/-- A step of the engine while a chunk of `size` bytes is fed. -/
structure Feeding (fed size : Nat) (engine : ApplyPatch) : Prop where
  running : engine.state ≠ .failed
  reader : ReaderSound engine
  patchOffset : engine.patchOffset = sizeT (fed + size)
  unread : engine.state = .init →
    engine.fromOffset = 0 ∧ fed = 0 ∧ chunkLeft engine.chunk = size

theorem Fed.load {fed : Nat} {self : ApplyPatch} (holds : Fed fed self) (buf : Nat → UInt8)
    (size : Nat) : Feeding fed size (loadChunk self buf size) where
  running := holds.running
  reader := ⟨holds.reader.unread, holds.reader.opened, holds.reader.declared⟩
  patchOffset := by
    show sizeT (self.patchOffset + size) = _
    rw [holds.patchOffset]
    exact Nat.mod_add_mod fed _ size
  unread := fun state => ⟨(holds.unread state).1, (holds.unread state).2, rfl⟩

theorem Feeding.step {fed size : Nat} {self : ApplyPatch} {world : World}
    {stepped : Stepped World} (holds : Feeding fed size self)
    (step : EngineStep callbacks self world stepped) (nonneg : 0 ≤ stepped.res) :
    Feeding fed size stepped.self := by
  have running : stepped.self.state ≠ .failed := fun failed =>
    absurd (step.failed_iff.mp failed) (not_lt.mpr nonneg)
  exact ⟨running, holds.reader.step step,
    (engineStep_patchOffset step running).trans holds.patchOffset,
    fun state => absurd state step.opened_after⟩

/-- A chunk that is processed without an error is counted. -/
theorem Fed.process {fed : Nat} {self : ApplyPatch} (holds : Fed fed self) {world : World}
    {buf : Nat → UInt8} {size : Nat}
    (success : (detoolsApplyPatchProcess callbacks self world buf size).res = 0) :
    Fed (fed + size) (detoolsApplyPatchProcess callbacks self world buf size).self := by
  have looped := (processLoop_computes callbacks).invariant
    (fun stepped => 0 ≤ stepped.res → Feeding fed size stepped.self)
    (fun stepped => 0 ≤ stepped.res → Fed (fed + size) stepped.self) ?_ ?_
    (fun _ => holds.load buf size : 0 ≤ (⟨0, loadChunk self buf size, world⟩ : Stepped World).res →
      Feeding fed size (loadChunk self buf size))
  · unfold detoolsApplyPatchProcess settle at success ⊢
    split at success
    next one =>
      rw [if_pos one]
      exact looped (by omega)
    next other =>
      rw [if_neg other]
      exact looped (by omega)
  · intro before after goes feeding nonneg
    unfold processIteration at goes
    split at goes
    next continues =>
      cases goes
      exact (feeding continues.2).step (applyPatchProcessOnce_step callbacks _ _) nonneg
    next => cases goes
  · intro state result leaves feeding nonneg
    unfold processIteration at leaves
    split at leaves
    next => cases leaves
    next ends =>
      cases leaves
      have left := feeding nonneg
      have used : chunkLeft state.self.chunk = 0 := by
        have unavailable : ¬ chunkAvailable state.self.chunk = true := fun available =>
          ends ⟨available, nonneg⟩
        rw [chunkAvailable_iff] at unavailable
        omega
      exact ⟨left.running, left.reader, left.patchOffset, fun unread => by
        obtain ⟨offset, none, size⟩ := left.unread unread
        exact ⟨offset, by omega⟩⟩

theorem feedChunks_cons (chunk : List UInt8) (chunks : List (List UInt8)) (self : ApplyPatch)
    (world : World) :
    feedChunks callbacks (chunk :: chunks) self world =
      let fed := detoolsApplyPatchProcess callbacks self world (bufferOf chunk) chunk.length
      if fed.res = 0 then feedChunks callbacks chunks fed.self fed.world else fed := rfl

/-- Chunks that are fed without an error are counted. -/
theorem Fed.feed {fed : Nat} {self : ApplyPatch} {world : World} (holds : Fed fed self)
    {chunks : List (List UInt8)} (success : (feedChunks callbacks chunks self world).res = 0) :
    Fed (fed + chunks.flatten.length) (feedChunks callbacks chunks self world).self := by
  induction chunks generalizing fed self world with
  | nil => exact holds
  | cons chunk chunks inductionHypothesis =>
      rw [feedChunks_cons] at success ⊢
      simp only at success ⊢
      split at success
      next processed =>
        rw [if_pos processed, List.flatten_cons, List.length_append, ← Nat.add_assoc]
        exact inductionHypothesis (holds.process processed) success
      next error => exact absurd success error

/-- Feeding goes on where the chunks before have left the engine. -/
theorem feedChunks_append {first rest : List (List UInt8)} {self : ApplyPatch} {world : World}
    (success : (feedChunks callbacks first self world).res = 0) :
    feedChunks callbacks (first ++ rest) self world =
      feedChunks callbacks rest (feedChunks callbacks first self world).self
        (feedChunks callbacks first self world).world := by
  induction first generalizing self world with
  | nil => rfl
  | cons chunk chunks inductionHypothesis =>
      rw [List.cons_append, feedChunks_cons, feedChunks_cons]
      rw [feedChunks_cons] at success
      simp only at success ⊢
      split at success
      next processed =>
        rw [if_pos processed, if_pos processed]
        exact inductionHypothesis success
      next error => exact absurd success error

theorem applyChunks_append {first rest : List (List UInt8)} {self : ApplyPatch} {world : World}
    (success : (feedChunks callbacks first self world).res = 0) :
    applyChunks callbacks (first ++ rest) self world =
      applyChunks callbacks rest (feedChunks callbacks first self world).self
        (feedChunks callbacks first self world).world := by
  rw [applyChunks, feedChunks_append success, applyChunks]

end

/-! ### Going on from a dumped state -/

section

variable {Left Right : Type} {Worlds : Left → Right → Prop} {callbacks : Callbacks Left}
  {others : Callbacks Right} {left right : ApplyPatch} {world : Left} {other : Right}

/-- Two engines between two chunks, with the result of the last one. -/
structure PausedAlike (Worlds : Left → Right → Prop) (left : Stepped Left)
    (right : Stepped Right) : Prop where
  res : right.res = left.res
  self : (clearChunk left.self).Alike (clearChunk right.self)
  worlds : Worlds left.world right.world

theorem feedChunks_alike (same : CallbacksAlike Worlds callbacks others)
    (alike : (clearChunk left).Alike (clearChunk right)) (worlds : Worlds world other)
    (chunks : List (List UInt8)) :
    PausedAlike Worlds (feedChunks callbacks chunks left world)
      (feedChunks others chunks right other) := by
  induction chunks generalizing left right world other with
  | nil => exact ⟨rfl, alike, worlds⟩
  | cons chunk chunks inductionHypothesis =>
      have processed := detoolsApplyPatchProcess_alike same alike worlds
        (fun index (_ : index < chunk.length) => (rfl : bufferOf chunk index = _))
      rw [feedChunks_cons, feedChunks_cons]
      simp only [processed.res]
      split
      next => exact inductionHypothesis processed.self.clear processed.worlds
      next => exact ⟨processed.res, processed.self.clear, processed.worlds⟩

/-- Feeding and finalizing two engines that are alike. -/
theorem applyChunks_alike (same : CallbacksAlike Worlds callbacks others)
    (alike : (clearChunk left).Alike (clearChunk right)) (worlds : Worlds world other)
    (chunks : List (List UInt8)) :
    (applyChunks others chunks right other).res = (applyChunks callbacks chunks left world).res ∧
      Worlds (applyChunks callbacks chunks left world).world
        (applyChunks others chunks right other).world := by
  have fed := feedChunks_alike same alike worlds chunks
  have final := detoolsApplyPatchFinalize_alike same fed.self fed.worlds
  simp only [applyChunks, fed.res]
  split
  next => exact ⟨final.res, final.worlds⟩
  next => exact ⟨rfl, final.worlds⟩

end

section

variable {World : Type} {callbacks : Callbacks World} {store : StateStore World}

/-- A dump that succeeds has written the engine. -/
theorem detoolsApplyPatchDump_kept {self : ApplyPatch} {world : World}
    (dumped : (detoolsApplyPatchDump store self world).1 = 0) :
    (store.stateRead (detoolsApplyPatchDump store self world).2).1 = 0 ∧
      (store.stateRead (detoolsApplyPatchDump store self world).2).2.1 = self := by
  have kept := store.kept world self
  unfold detoolsApplyPatchDump at dumped ⊢
  simp only at dumped ⊢
  split at dumped
  next => exact absurd dumped (DetoolsError.result_neg _).ne
  next written =>
    rw [if_neg written]
    split <;> exact kept (not_not.mp written)

/-- An engine that is restored from a dumped state, and one that has gone on with it. -/
theorem restored_alike {fed : Nat} {paused fresh : ApplyPatch} {later : World}
    (holds : Fed fed paused) (offset : fresh.fromOffset = 0) (unfed : fresh.patchOffset = 0)
    (kept : (store.stateRead later).1 = 0 ∧ (store.stateRead later).2.1 = paused)
    (restored : (detoolsApplyPatchRestore callbacks store fresh later).res = 0) :
    (clearChunk paused).Alike
        (clearChunk (detoolsApplyPatchRestore callbacks store fresh later).self) ∧
      (detoolsApplyPatchRestore callbacks store fresh later).self.patchOffset = sizeT fed ∧
      (paused.state ≠ .init →
        (detoolsApplyPatchRestore callbacks store fresh later).self.toOffset =
          paused.toOffset) := by
  obtain ⟨read, dumped⟩ := kept
  unfold detoolsApplyPatchRestore at restored ⊢
  simp only [read, dumped, ne_eq, not_true, if_false] at restored ⊢
  by_cases unread : paused.state = .init
  · obtain ⟨start, none⟩ := holds.unread unread
    simp only [unread, if_true]
    refine ⟨⟨unread.symm, offset.trans start.symm, rfl, fun patch => absurd unread patch.1⟩, ?_,
      fun opened => absurd trivial opened⟩
    rw [unfed, none]
    rfl
  · simp only [unread, if_false] at restored ⊢
    split at restored
    next => exact absurd restored (DetoolsError.result_neg _).ne
    next sought =>
      rw [if_neg sought]
      have set := (holds.reader.opened unread holds.running).1
      exact ⟨⟨rfl, rfl, rfl, fun _ => ⟨⟨rfl, fun _ => ⟨rfl, rfl, rfl⟩, rfl, rfl⟩, set.symm, rfl,
        rfl, fun _ => rfl⟩⟩, holds.patchOffset, fun _ => rfl⟩

/-- What a run that goes on from a dumped state shares with the run that was dumped, had
it gone on itself. -/
structure Resumes {World : Type} (Worlds : World → World → Prop) (fed : Nat)
    (paused resumed : ApplyPatch) (whole tail : Stepped World) : Prop where
  res : tail.res = whole.res
  worlds : Worlds whole.world tail.world
  /-- The offset of the patch stream is the number of bytes fed before the dump. -/
  patchOffset : detoolsApplyPatchGetPatchOffset resumed = sizeT fed
  toOffset : paused.state ≠ .init →
    detoolsApplyPatchGetToOffset resumed = detoolsApplyPatchGetToOffset paused

/-- A run that is dumped between two chunks and restored later, on another stack and over
callbacks that answer as the first ones would, ends as the run that was never dumped. -/
theorem restore_resumes {others : Callbacks World} {Worlds : World → World → Prop}
    (same : CallbacksAlike Worlds callbacks others) (stack otherStack : ApplyPatch)
    (patchSize otherSize : Nat) (world later : World) (first rest : List (List UInt8)) :
    let start := detoolsApplyPatchInit stack patchSize
    let paused := feedChunks callbacks first start world
    let dumped := detoolsApplyPatchDump store paused.self paused.world
    let fresh := detoolsApplyPatchInit otherStack otherSize
    let resumed := detoolsApplyPatchRestore others store fresh later
    paused.res = 0 → dumped.1 = 0 →
    (store.stateRead later).1 = (store.stateRead dumped.2).1 →
    (store.stateRead later).2.1 = (store.stateRead dumped.2).2.1 →
    resumed.res = 0 → Worlds paused.world resumed.world →
      Resumes Worlds first.flatten.length paused.self resumed.self
        (applyChunks callbacks (first ++ rest) start world)
        (applyChunks others rest resumed.self resumed.world) := by
  intro start paused dumped fresh resumed success written result state restored worlds
  obtain ⟨read, engine⟩ := detoolsApplyPatchDump_kept written
  have fed : Fed first.flatten.length paused.self := by
    have counted := (fed_init stack patchSize).feed success
    rwa [Nat.zero_add] at counted
  obtain ⟨alike, patchOffset, toOffset⟩ := restored_alike fed rfl rfl
    ⟨result.trans read, state.trans engine⟩ restored
  obtain ⟨res, after⟩ := applyChunks_alike same alike worlds rest
  have whole : applyChunks callbacks (first ++ rest) start world =
      applyChunks callbacks rest paused.self paused.world := applyChunks_append success
  rw [whole]
  exact ⟨res, after, patchOffset, toOffset⟩

end

/-! ### Callbacks over buffers -/

/-- A source and a target in memory, and the state that has been dumped. -/
structure Buffers where
  source : List UInt8
  position : Int
  target : List UInt8
  dumped : ApplyPatch

/-- The two worlds differ in the dumped state at most. -/
structure Buffers.Same (left right : Buffers) : Prop where
  source : right.source = left.source
  position : right.position = left.position
  target : right.target = left.target

/-- Callbacks that read the source, move in it and append to the target. -/
def bufferCallbacks : Callbacks Buffers where
  fromRead world size :=
    (0, fun index => world.source.getD (world.position + index).toNat 0,
      { world with position := world.position + size })
  fromSeek world offset := (0, { world with position := world.position + offset })
  patchRead world _ := (-1, fun _ => 0, world)
  toWrite world block := (0, { world with target := world.target ++ block })

/-- The dumped state is kept beside the buffers. -/
def bufferStore : StateStore Buffers where
  stateWrite world self := (0, { world with dumped := self })
  stateRead world := (0, world.dumped, world)
  kept _ _ _ := ⟨rfl, rfl⟩

theorem bufferCallbacks_alike : CallbacksAlike Buffers.Same bufferCallbacks bufferCallbacks where
  fromRead world other same size _ _ := by
    refine ⟨rfl, fun _ index _ => ?_, same.source, ?_, same.target⟩
    · simp only [bufferCallbacks, same.source, same.position]
    · simp only [bufferCallbacks, same.position]
  fromSeek world other offset same := by
    refine ⟨rfl, same.source, ?_, same.target⟩
    simp only [bufferCallbacks, same.position]
  patchRead world other size same _ := ⟨rfl, fun _ _ _ => rfl, same⟩
  toWrite world other block same := by
    refine ⟨rfl, same.source, same.position, ?_⟩
    simp only [bufferCallbacks, same.target]

/-- A source of two bytes, with nothing put out. -/
def twoByteBuffers : Buffers := ⟨[0x12, 0x34], 0, [], zeroStack⟩

/-- The first five bytes of a patch of one byte have been fed. -/
def halfFed : Stepped Buffers :=
  feedChunks bufferCallbacks [[0x04, 0x01, 0x44, 0x80, 0x40]]
    (detoolsApplyPatchInit zeroStack 9) twoByteBuffers

/-- The state is dumped and the source is rewound. -/
def rewound : Buffers :=
  { (detoolsApplyPatchDump bufferStore halfFed.self halfFed.world).2 with position := 0 }

/-- The state is restored. -/
def restoredHalf : Stepped Buffers :=
  detoolsApplyPatchRestore bufferCallbacks bufferStore (detoolsApplyPatchInit zeroStack 0)
    rewound

theorem restore_resumes_oneByte :
    Resumes Buffers.Same 5 halfFed.self restoredHalf.self
        (applyChunks bufferCallbacks
          ([[0x04, 0x01, 0x44, 0x80, 0x40]] ++ [[0x20, 0x3a], [0xa8, 0x00]])
          (detoolsApplyPatchInit zeroStack 9) twoByteBuffers)
        (applyChunks bufferCallbacks [[0x20, 0x3a], [0xa8, 0x00]] restoredHalf.self
          restoredHalf.world) ∧
      (applyChunks bufferCallbacks [[0x20, 0x3a], [0xa8, 0x00]] restoredHalf.self
        restoredHalf.world).world.target = [0xaa] :=
  ⟨@restore_resumes Buffers bufferCallbacks bufferStore bufferCallbacks Buffers.Same
      bufferCallbacks_alike zeroStack zeroStack 9 0 twoByteBuffers rewound
      [[0x04, 0x01, 0x44, 0x80, 0x40]] [[0x20, 0x3a], [0xa8, 0x00]] (by decide +kernel)
      (by decide +kernel) rfl rfl (by decide +kernel)
      ⟨by decide +kernel, by decide +kernel, by decide +kernel⟩,
    by decide +kernel⟩

end DeltaUpdate.Detools
