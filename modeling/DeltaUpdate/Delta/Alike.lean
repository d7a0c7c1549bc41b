import DeltaUpdate.Delta.Delivery
import DeltaUpdate.Delta.Marker
import DeltaUpdate.Detools.SideBySide

/-!
Owns two devices side by side: environments that answer alike in related worlds. The
callbacks, the header and a whole call do the same on both. One instance is a call behind a
history of events, which does what a call of its own does.
-/

namespace DeltaUpdate.Delta

open DeltaUpdate.Detools

/-- Two environments that answer alike in related worlds. The relation is about what has
happened and about the memory, not about the cursors. -/
structure Twins (env other : Env) (Pasts : World → World → Prop) : Prop where
  map : other.map = env.map
  upgradeFails : other.upgradeFails = env.upgradeFails
  cursors : ∀ {left right}, Pasts left right → ∀ flash otherFlash,
    Pasts { left with flash := flash } { right with flash := otherFlash }
  record : ∀ {left right}, Pasts left right → ∀ event,
    Pasts (left.record event) (right.record event)
  issue : ∀ {left right}, Pasts left right → ∀ issuer op,
    MoveAlike Pasts (issue env issuer op left) (issue other issuer op right)

/-- Related worlds with the same cursors. -/
structure Abreast (Pasts : World → World → Prop) (left right : World) : Prop where
  past : Pasts left right
  flash : right.flash = left.flash

theorem issue_flash (env : Env) (issuer : Issuer) (op : FlashOp) (world : World) :
    (issue env issuer op world).2.flash = world.flash := by
  unfold issue
  split <;> rfl

section

variable {env other : Env} {Pasts : World → World → Prop} {left right : World}

/-! ### The callbacks -/

theorem Abreast.set (abreast : Abreast Pasts left right) (twins : Twins env other Pasts)
    (flash : FlashMem) :
    Abreast Pasts { left with flash := flash } { right with flash := flash } :=
  ⟨twins.cursors abreast.past _ _, rfl⟩

theorem Abreast.record (abreast : Abreast Pasts left right) (twins : Twins env other Pasts)
    (event : Event) : Abreast Pasts (left.record event) (right.record event) :=
  ⟨twins.record abreast.past event, abreast.flash⟩

theorem issue_alike (twins : Twins env other Pasts) (abreast : Abreast Pasts left right)
    (issuer : Issuer) (op : FlashOp) :
    MoveAlike (Abreast Pasts) (issue env issuer op left) (issue other issuer op right) := by
  obtain ⟨res, after⟩ := twins.issue abreast.past issuer op
  exact ⟨res, after, by rw [issue_flash, issue_flash, abreast.flash]⟩

theorem erasePage_alike (twins : Twins env other Pasts) (abreast : Abreast Pasts left right)
    (issuer : Issuer) (offset : Int) :
    MoveAlike (Abreast Pasts) (erasePage env issuer left offset)
      (erasePage other issuer right offset) := by
  have erased : MoveAlike (Abreast Pasts)
      (flashErase env issuer left (pageStart offset) pageSize)
      (flashErase other issuer right (pageStart offset) pageSize) := issue_alike twins abreast _ _
  simp only [erasePage, erased.res]
  split
  next => exact ⟨rfl, erased.worlds⟩
  next => exact ⟨rfl, erased.worlds⟩

theorem writeSlot_alike (twins : Twins env other Pasts) (abreast : Abreast Pasts left right)
    (block : List UInt8) :
    MoveAlike (Abreast Pasts) (writeSlot env left block) (writeSlot other right block) := by
  have written : MoveAlike (Abreast Pasts)
      (flashWrite env .deltaFlashWrite left left.flash.toCurrent block)
      (flashWrite other .deltaFlashWrite right left.flash.toCurrent block) :=
    issue_alike twins abreast _ _
  simp only [writeSlot, abreast.flash, written.res, written.worlds.flash]
  split
  next => exact ⟨rfl, written.worlds⟩
  next =>
    split
    next => exact ⟨rfl, (written.worlds.set twins _).record twins _⟩
    next => exact ⟨rfl, written.worlds.set twins _⟩

theorem deltaFlashWrite_alike (twins : Twins env other Pasts)
    (abreast : Abreast Pasts left right) (block : List UInt8) :
    MoveAlike (Abreast Pasts) (deltaFlashWrite env left block)
      (deltaFlashWrite other right block) := by
  have behind : cursorBehind right block = cursorBehind left block := by
    rw [cursorBehind, abreast.flash, cursorBehind]
  have count : countedBuf right block = countedBuf left block := by
    rw [countedBuf, abreast.flash, countedBuf]
  have counted : Abreast Pasts (left.counted block) (right.counted block) := by
    have handed := (abreast.record twins (.handed left.flash block)).set twins
      { left.flash with writeBuf := countedBuf left block }
    rw [World.counted, World.counted, count, abreast.flash]
    exact handed
  have erased : MoveAlike (Abreast Pasts)
      (erasePage env .deltaFlashWrite (left.counted block) (cursorBehind left block))
      (erasePage other .deltaFlashWrite (right.counted block) (cursorBehind left block)) :=
    erasePage_alike twins counted _ _
  rw [deltaFlashWrite_eq, deltaFlashWrite_eq, behind, count]
  simp only [erased.res]
  split
  next =>
    split
    next => exact ⟨rfl, erased.worlds⟩
    next =>
      rw [erased.worlds.flash]
      exact writeSlot_alike twins (erased.worlds.set twins _) block
  next => exact writeSlot_alike twins counted block

theorem deltaFlashSeek_alike (twins : Twins env other Pasts)
    (abreast : Abreast Pasts left right) (offset : Int) :
    MoveAlike (Abreast Pasts) (deltaFlashSeek left offset) (deltaFlashSeek right offset) := by
  unfold deltaFlashSeek
  rw [abreast.flash]
  simp only
  split
  next => exact ⟨rfl, (abreast.set twins _).record twins _⟩
  next => exact ⟨rfl, abreast.set twins _⟩

/-- The source reads alike if the bytes are the same wherever a read succeeds. -/
theorem deltaFlashFromRead_alike (twins : Twins env other Pasts)
    (abreast : Abreast Pasts left right) {size : Nat}
    (bytes : intT (left.flash.fromCurrent + size) < left.flash.fromEnd →
      ∀ index : Nat, index < size → right.memory (left.flash.fromCurrent + index) =
        left.memory (left.flash.fromCurrent + index)) :
    ReadAlike (Abreast Pasts) size (deltaFlashFromRead env left size)
      (deltaFlashFromRead other right size) := by
  obtain ⟨res, after⟩ := issue_alike twins abreast .deltaFlashFromRead
    (.read left.flash.fromCurrent size)
  have flash := issue_flash env .deltaFlashFromRead (.read left.flash.fromCurrent size) left
  have noError (error : DeltaError) : ¬ error.result = 0 := error.result_neg.ne
  simp only [deltaFlashFromRead, flashRead, abreast.flash, res, after.flash, flash]
  split
  next => exact ⟨rfl, fun zero => absurd zero (noError _), abreast.record twins _⟩
  next =>
    split
    next => exact ⟨rfl, fun zero => absurd zero (noError _), after⟩
    next =>
      split
      next => exact ⟨rfl, fun zero => absurd zero (noError _),
        (after.set twins _).record twins _⟩
      next inside => exact ⟨rfl, fun _ => bytes (not_le.mp inside), after.set twins _⟩

/-- The patch reads alike if its bytes are the same. -/
theorem deltaFlashPatchRead_alike (twins : Twins env other Pasts)
    (abreast : Abreast Pasts left right) {size : Nat}
    (bytes : ∀ index : Nat, right.memory (left.flash.patchCurrent + index) =
      left.memory (left.flash.patchCurrent + index)) :
    ReadAlike (Abreast Pasts) size (deltaFlashPatchRead env left size)
      (deltaFlashPatchRead other right size) := by
  obtain ⟨res, after⟩ := issue_alike twins abreast .deltaFlashPatchRead
    (.read left.flash.patchCurrent size)
  have flash := issue_flash env .deltaFlashPatchRead (.read left.flash.patchCurrent size) left
  have noError (error : DeltaError) : ¬ error.result = 0 := error.result_neg.ne
  simp only [deltaFlashPatchRead, flashRead, abreast.flash, res, after.flash, flash, bytes]
  split
  next => exact ⟨rfl, fun zero => absurd zero (noError _), abreast.record twins _⟩
  next =>
    split
    next => exact ⟨rfl, fun zero => absurd zero (noError _), after⟩
    next =>
      split
      next => exact ⟨rfl, fun zero => absurd zero (noError _),
        (after.set twins _).record twins _⟩
      next => exact ⟨rfl, fun _ _ _ => rfl, (after.set twins _).record twins _⟩

theorem movesAlike (twins : Twins env other Pasts) :
    MovesAlike (Abreast Pasts) (deltaCallbacks env) (deltaCallbacks other) :=
  ⟨fun _ _ offset abreast => deltaFlashSeek_alike twins abreast offset,
    fun _ _ block abreast => deltaFlashWrite_alike twins abreast block⟩

/-! ### Calls -/

/-- Two calls that end alike. -/
structure CallAlike (Pasts : World → World → Prop) (first second : Ending × World) : Prop where
  ending : second.1 = first.1
  past : Pasts first.2 second.2

/-- Two reads of the header. -/
structure HeaderAlike (Pasts : World → World → Prop) (first second : Int × Nat × World) :
    Prop where
  res : second.1 = first.1
  size : second.2.1 = first.2.1
  past : Pasts first.2.2 second.2.2

theorem deltaReadPatchHeader_alike (twins : Twins env other Pasts) (past : Pasts left right)
    (bytes : ∀ index : Nat, index < 8 → right.memory (env.map.storage.offset + index) =
      left.memory (env.map.storage.offset + index)) (size : Nat) :
    HeaderAlike Pasts (deltaReadPatchHeader env left size)
      (deltaReadPatchHeader other right size) := by
  have read := twins.issue past .deltaReadPatchHeader (.read env.map.storage.offset 8)
  have word (start : Nat) (low : start < 5) :
      wordAt (fun index : Nat => right.memory (env.map.storage.offset + index)) start =
        wordAt (fun index : Nat => left.memory (env.map.storage.offset + index)) start :=
    wordAt_congr fun index small => bytes _ (by omega)
  have clear := twins.issue read.worlds .deltaReadPatchHeader
    (.write env.map.storage.offset resetMsg)
  unfold deltaReadPatchHeader flashRead flashWrite
  simp only [twins.map, read.res, word 0 (by decide), word 4 (by decide), clear.res]
  split
  next => exact ⟨rfl, rfl, read.worlds⟩
  next =>
    split
    next => exact ⟨rfl, rfl, read.worlds⟩
    next =>
      split
      next => exact ⟨rfl, rfl, clear.worlds⟩
      next => exact ⟨rfl, rfl, clear.worlds⟩

theorem deltaInit_alike (twins : Twins env other Pasts) (past : Pasts left right) :
    MoveAlike (Abreast Pasts) (deltaInit env left) (deltaInit other right) := by
  have start : Abreast Pasts { left with flash := deltaInitFlashMem env.map }
      { right with flash := deltaInitFlashMem env.map } := ⟨twins.cursors past _ _, rfl⟩
  unfold deltaInit
  rw [twins.map]
  exact erasePage_alike twins start _ _

/-- An initialization that succeeds leaves the initial cursors. -/
theorem deltaInit_start {world : World} (success : (deltaInit env world).1 = 0) :
    (deltaInit env world).2 =
      startWorld env.map (deltaInit env world).2.memory (deltaInit env world).2.log := by
  have outcome := deltaInit_cases env world
  generalize deltaInit env world = inited at success outcome ⊢
  cases outcome with
  | failed => exact absurd success (DeltaError.result_neg _).ne
  | done => rfl

theorem requestUpgrade_alike (twins : Twins env other Pasts) (past : Pasts left right)
    (res : Int) :
    CallAlike Pasts (requestUpgrade env res left) (requestUpgrade other res right) := by
  unfold requestUpgrade bootRequestUpgrade
  rw [twins.upgradeFails]
  split
  next => exact ⟨rfl, past⟩
  next =>
    simp only
    split
    next => exact ⟨rfl, twins.record past _⟩
    next => exact ⟨rfl, twins.record (twins.record past _) _⟩

/-- The engine does the same from two starts. -/
def EnginesAlike (env other : Env) (Pasts : World → World → Prop)
    (stack otherStack : ApplyPatch) : Prop :=
  ∀ memory otherMemory log otherLog patchSize,
    Pasts (startWorld env.map memory log) (startWorld env.map otherMemory otherLog) →
    let first := detoolsApplyPatchCallbacks (deltaCallbacks env) stack
      (startWorld env.map memory log) patchSize
    let second := detoolsApplyPatchCallbacks (deltaCallbacks other) otherStack
      (startWorld env.map otherMemory otherLog) patchSize
    second.res = first.res ∧ Pasts first.world second.world

variable {stack otherStack : ApplyPatch}

theorem applyPatch_alike (twins : Twins env other Pasts) (past : Pasts left right)
    (engines : EnginesAlike env other Pasts stack otherStack) (patchSize : Nat) :
    CallAlike Pasts (applyPatch env stack left patchSize)
      (applyPatch other otherStack right patchSize) := by
  have init := deltaInit_alike twins past
  simp only [applyPatch, init.res]
  split
  next => exact ⟨rfl, init.worlds.past⟩
  next success =>
    have start := deltaInit_start (not_not.mp success)
    have otherStart := deltaInit_start (init.res.trans (not_not.mp success))
    rw [twins.map] at otherStart
    have past := init.worlds.past
    rw [start, otherStart] at past
    obtain ⟨res, after⟩ := engines _ _ _ _ patchSize past
    rw [start, otherStart, res]
    exact requestUpgrade_alike twins after _

/-- Two calls that read the same header and run the engine alike do the same. -/
theorem deltaCheckAndApply_alike (twins : Twins env other Pasts) (past : Pasts left right)
    (bytes : ∀ index : Nat, index < 8 → right.memory (env.map.storage.offset + index) =
      left.memory (env.map.storage.offset + index))
    (engines : EnginesAlike env other Pasts stack otherStack) :
    CallAlike Pasts (deltaCheckAndApply env stack left)
      (deltaCheckAndApply other otherStack right) := by
  have header := deltaReadPatchHeader_alike twins past bytes 0
  simp only [deltaCheckAndApply, header.res, header.size]
  split
  next => exact ⟨rfl, header.past⟩
  next =>
    split
    next => exact applyPatch_alike twins header.past engines _
    next => exact ⟨rfl, header.past⟩

end

/-! ### Calls behind a history -/

/-- The environment behind a history of events. -/
def Env.behind (env : Env) (past : List Event) : Env :=
  { env with fails := fun log op => env.fails (past ++ log) op }

/-- The second world has a history that the first one does not know of. -/
structure Behind (past : List Event) (left right : World) : Prop where
  log : right.log = past ++ left.log
  memory : right.memory = left.memory

theorem behind_twins (env : Env) (past : List Event) :
    Twins (env.behind past) env (Behind past) where
  map := rfl
  upgradeFails := rfl
  cursors same _ _ := ⟨same.log, same.memory⟩
  record same event := by
    refine ⟨?_, same.memory⟩
    rw [World.record_log, World.record_log, same.log, List.append_assoc]
  issue same issuer op := by
    have decides : (env.behind past).fails = fun log op => env.fails (past ++ log) op := rfl
    unfold issue
    rw [decides, same.log, same.memory]
    split
    next => exact ⟨rfl, by rw [World.record_log, World.record_log, same.log, List.append_assoc],
      same.memory⟩
    next => exact ⟨rfl, List.append_assoc _ _ _, rfl⟩

theorem behind_callbacks (env : Env) (past : List Event) :
    CallbacksAlike (Abreast (Behind past)) (deltaCallbacks (env.behind past))
      (deltaCallbacks env) where
  toMovesAlike := movesAlike (behind_twins env past)
  fromRead _ _ abreast _ _ _ :=
    deltaFlashFromRead_alike (behind_twins env past) abreast fun _ _ _ =>
      congrFun abreast.past.memory _
  patchRead _ _ _ abreast _ :=
    deltaFlashPatchRead_alike (behind_twins env past) abreast fun _ =>
      congrFun abreast.past.memory _

/-- A call does what a call of its own does in the environment behind its history. -/
theorem deltaCheckAndApply_behind (env : Env) (stack : ApplyPatch) (world : World) :
    CallAlike (Behind world.log)
      (callOn (env.behind world.log) stack world.flash world.memory)
      (deltaCheckAndApply env stack world) := by
  refine deltaCheckAndApply_alike (behind_twins env world.log)
    ⟨(List.append_nil _).symm, rfl⟩ (fun _ _ => rfl) ?_
  intro memory otherMemory log otherLog patchSize past
  obtain ⟨res, after⟩ := detoolsApplyPatchCallbacks_alike (behind_callbacks env world.log) stack
    stack patchSize ⟨past, rfl⟩
  exact ⟨res, after.past⟩

end DeltaUpdate.Delta
