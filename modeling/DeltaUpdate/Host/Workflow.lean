import DeltaUpdate.Delta.Chain

/-!
Owns the host's side of an update: the prompt of `set_current.py`, the commands of the
Makefile that change the image files and the flash, and the record that the host keeps of
the image on the device. As long as a patch is flashed with the files it was made of, and
the prompt behind it is answered by what the device has done, that record is right.
-/

namespace DeltaUpdate.Host

open DeltaUpdate.Delta
open DeltaUpdate.Library
open DeltaUpdate.Patch

/-! ### The prompt -/

/-- The characters that `strip` removes. -/
def isSpace (char : Char) : Bool :=
  let code := char.toNat
  (0x9 ≤ code && code ≤ 0xd) || (0x1c ≤ code && code ≤ 0x20) || code == 0x85 ||
    code == 0xa0 || code == 0x1680 || (0x2000 ≤ code && code ≤ 0x200a) || code == 0x2028 ||
    code == 0x2029 || code == 0x202f || code == 0x205f || code == 0x3000

/-- `strip`. -/
def strip (text : List Char) : List Char :=
  ((text.dropWhile isSpace).reverse.dropWhile isSpace).reverse

/-- `input().lower().strip() == "y"`. Only `Y` has the lower case `y`. -/
def isYes (reply : String) : Bool := strip (reply.toList.map Char.toLower) == ['y']

/-- The outcome of `set_current.py`: the file at the path of the source, and what is printed
behind the reply. -/
structure Chosen where
  source : List UInt8
  printed : String
deriving DecidableEq, Repr

/-- `main`, with the reply and the files at the two paths. -/
def setCurrent (reply : String) (flashed source : List UInt8) : Chosen :=
  if isYes reply then ⟨flashed, "Updating source.\n"⟩
  else ⟨source, "Source is not updated.\n"⟩

theorem setCurrent_yes {reply : String} (yes : isYes reply = true) (flashed source : List UInt8) :
    (setCurrent reply flashed source).source = flashed := by
  rw [setCurrent, if_pos yes]

theorem setCurrent_no {reply : String} (no : isYes reply = false) (flashed source : List UInt8) :
    (setCurrent reply flashed source).source = source := by
  rw [setCurrent, no]
  rfl

/-! ### The commands -/

/-- `SLOT_SIZE`. -/
def slotSize : Nat := 0x67000

/-- `SLOT0_OFFSET`. -/
def slot0Offset : Nat := 0xc000

/-- `PATCH_OFFSET`. -/
def patchOffset : Nat := 0xf8000

/-- `MAX_PATCH_SIZE`. -/
def maxPatchSize : Nat := 0x6000

/-- `PATCH_HEADER_SIZE`. -/
def patchHeaderSize : Nat := 8

/-- The files at `SOURCE_PATH`, `TARGET_PATH` and `PATCH_PATH`. -/
structure Files where
  source : List UInt8
  target : List UInt8
  patch : List UInt8
deriving DecidableEq, Repr

/-- Where `make flash-patch` stands: it does not run, or it has flashed and waits for the
reply, and the device has been upgraded since or not. -/
inductive Stage where
  | idle
  | asked
  | upgraded
deriving DecidableEq, Repr

/-- The files of the host and the flash of the device. -/
structure Bench where
  files : Files
  memory : Memory
  stage : Stage

/-- The image that the device runs: `source.bin`, or `target.bin` when the host has still to
be told of an upgrade. -/
def Bench.current (bench : Bench) : List UInt8 :=
  match bench.stage with
  | .upgraded => bench.files.target
  | _ => bench.files.source

/-- `pyocd flash -e sector -a`: the file is written, and nothing is changed outside the
sectors it covers. -/
structure Programmed (offset : Nat) (file : List UInt8) (before after : Memory) : Prop where
  stored : Stores after offset file
  beside : ∀ address : Int, address < offset ∨
    offset + (pageSize * ((file.length + pageSize - 1) / pageSize) : Nat) ≤ address →
      after address = before address

/-- `detools create_patch --compression heatshrink`: a well-formed patch that makes the
target of the source and stays inside the source. -/
structure Creates (source target patch : List UInt8) (contents : Contents) : Prop where
  formed : WellFormed patch contents
  makes : patched source contents = target
  inside : FitsFrom 0 (source.length + 1) 0 contents.records

/-- The file at the path of the patch was made of the image files as they are, and the
script has not warned. -/
structure Files.Ready (files : Files) (patch : List UInt8) (contents : Contents) : Prop where
  created : Creates files.source files.target patch contents
  padded : ∃ padded, Script.start patch maxPatchSize patchHeaderSize = some padded ∧
    "WARNING: Patch too large for patch partition!" ∉ padded.printed ∧
    files.patch = padded.file

/-- The bootloader has put the secondary slot in the place of the primary. -/
structure Booted (map : FlashMap) (before after : Memory) : Prop where
  promoted : Promoted map before after
  partition : PartitionSame map before after

/-- What the host and the device do. -/
inductive Step (map : FlashMap) : Bench → Bench → Prop
  /-- `make build`. An image that leaves no room in the slot is not signed. -/
  | build {bench : Bench} (idle : bench.stage = .idle) (image : List UInt8)
      (fits : image.length < slotSize) :
      Step map bench { bench with files := { bench.files with target := image } }
  /-- `make create-patch`. -/
  | createPatch {bench : Bench} {patch : List UInt8} {contents : Contents}
      {padded : Script.Padded} (idle : bench.stage = .idle)
      (created : Creates bench.files.source bench.files.target patch contents)
      (written : Script.start patch maxPatchSize patchHeaderSize = some padded) :
      Step map bench { bench with files := { bench.files with patch := padded.file } }
  /-- `make flash-image`: it asks first and flashes the source. -/
  | flashImage {bench : Bench} {memory : Memory} {source : List UInt8}
      (idle : bench.stage = .idle) (reply : String)
      (chosen : (setCurrent reply bench.files.target bench.files.source).source = source)
      (programmed : Programmed slot0Offset source bench.memory memory) :
      Step map bench { bench with files := { bench.files with source := source }, memory }
  /-- `make flash-patch`: it flashes first and asks then. -/
  | flashPatch {bench : Bench} {patch : List UInt8} {contents : Contents} {memory : Memory}
      (idle : bench.stage = .idle) (ready : bench.files.Ready patch contents)
      (programmed : Programmed patchOffset bench.files.patch bench.memory memory) :
      Step map bench { bench with memory, stage := .asked }
  /-- A call, wherever it fails or is cut short. A patch that has been given up is not
  applied any more. -/
  | called {bench : Bench} (attempt : Attempt)
      (stays : bench.stage ≠ .upgraded → ¬ attempt.Upgrades map bench.memory) :
      Step map bench
        { bench with memory := replay bench.memory (attempt.events map bench.memory) }
  /-- A call that leads to an upgrade, and the reboot behind it. -/
  | upgraded {bench : Bench} {memory : Memory} (attempt : Attempt)
      (asked : bench.stage = .asked) (upgrades : attempt.Upgrades map bench.memory)
      (inStep : InStep pageSize
        ((handedBlocks (attempt.events map bench.memory)).map List.length))
      (booted : Booted map (replay bench.memory (attempt.events map bench.memory)) memory) :
      Step map bench { bench with memory, stage := .upgraded }
  /-- The reply to `make flash-patch`: `y` if the upgrade was successful. -/
  | answered {bench : Bench} (reply : String) (waits : bench.stage ≠ .idle)
      (honest : isYes reply = true ↔ bench.stage = .upgraded) :
      Step map bench
        { bench with
          files := { bench.files with
            source := (setCurrent reply bench.files.target bench.files.source).source }
          stage := .idle }

/-! ### The record of the host -/

/-- The patch in the partition makes the target of the source. -/
structure Offered (map : FlashMap) (bench : Bench) (patch : List UInt8) (contents : Contents) :
    Prop where
  created : Creates bench.files.source bench.files.target patch contents
  held : HoldsPatch map bench.memory patch
  room : patch.length + headerSize ≤ map.storage.size

/-- What host and device keep. -/
structure Tracks (map : FlashMap) (bench : Bench) : Prop where
  source : bench.files.source.length < slotSize
  target : bench.files.target.length < slotSize
  runs : Stores bench.memory map.primary.offset bench.current
  offered : bench.stage = .asked → headerWord map bench.memory 0 = newPatch →
    ∃ patch contents, Offered map bench patch contents
  spent : bench.stage = .upgraded → headerWord map bench.memory 0 ≠ newPatch

/-- The script warns of a padded patch that does not fit behind its header. -/
theorem start_quiet_iff {patch : List UInt8} {padded : Script.Padded}
    (written : Script.start patch maxPatchSize patchHeaderSize = some padded) :
    "WARNING: Patch too large for patch partition!" ∉ padded.printed ↔
      patch.length + headerSize ≤ maxPatchSize := by
  unfold headerSize
  have header : max (patchHeaderSize : Int) 8 = 8 := rfl
  simp only [Script.start, header] at written
  cases sized : Script.toBytesLittle patch.length ((8 : Int) - 4).toNat with
  | none => rw [sized] at written; cases written
  | some sizeBytes =>
      rw [sized, Option.some.injEq] at written
      subst written
      by_cases large : (maxPatchSize : Int) - 8 < patch.length
      · simp only [if_pos large, List.mem_cons, true_or, or_true, not_true, false_iff]
        omega
      · simp only [if_neg large, List.mem_singleton]
        refine iff_of_true (fun same => ?_) (by omega)
        have first := congrArg (fun text => text.toList.head?) same
        simp at first

/-- The target has the size that the patch declares. -/
theorem Creates.targetSize {source target patch : List UInt8} {contents : Contents}
    (created : Creates source target patch contents) : contents.targetSize = target.length := by
  rw [← created.makes, patched, Patch.target, targetFrom_length,
    created.formed.lenient.encodes.reaches.total]

section

variable {storage : { partition : Partition // partition.offset = 0xf8000 }} {bench : Bench}

/-- What is offered can be delivered to the device. -/
theorem Offered.deliverable {patch : List UInt8} {contents : Contents}
    (offered : Offered (deviceMap storage) bench patch contents)
    (tracks : Tracks (deviceMap storage) bench) :
    Deliverable (deviceMap storage) bench.memory patch contents where
  held := offered.held
  formed := offered.created.formed
  room := offered.room
  target := by
    rw [offered.created.targetSize]
    exact tracks.target
  source := by
    have small := tracks.source
    refine offered.created.inside.mono (le_refl 0) ?_
    change _ ≤ ((slotSize : Nat) : Int)
    omega

/-- A call leaves the primary slot as it is. -/
theorem attempt_keeps (attempt : Attempt) {memory : Memory} {image : List UInt8}
    (stored : Stores memory (deviceMap storage).primary.offset image)
    (small : image.length < slotSize) :
    Stores (replay memory (attempt.events (deviceMap storage) memory))
      (deviceMap storage).primary.offset image := by
  obtain ⟨-, primaryEnd, slotStart, slotEnd, patchStart⟩ := deviceMap_layout storage
  have size : (deviceMap storage).primary.size = slotSize := rfl
  intro index below
  rw [← stored index below]
  exact attempt_untouched storage attempt memory (fun reach => by have low := reach.1; omega)
    fun inside => by have low := inside.1; omega

/-- The stage and the files decide which image is current. -/
theorem Bench.current_of_ne (stage : bench.stage ≠ .upgraded) :
    bench.current = bench.files.source := by
  unfold Bench.current
  split
  next upgraded => exact absurd upgraded stage
  next => rfl

theorem Bench.current_of_upgraded (stage : bench.stage = .upgraded) :
    bench.current = bench.files.target := by
  rw [Bench.current, stage]

theorem Tracks.flashImage (tracks : Tracks (deviceMap storage) bench) {memory : Memory}
    {source : List UInt8} (idle : bench.stage = .idle) {reply : String}
    (chosen : (setCurrent reply bench.files.target bench.files.source).source = source)
    (programmed : Programmed slot0Offset source bench.memory memory) :
    Tracks (deviceMap storage)
      { bench with files := { bench.files with source := source }, memory } where
  source := by
    rw [← chosen, setCurrent]
    split
    next => exact tracks.target
    next => exact tracks.source
  target := tracks.target
  runs := by
    rw [Bench.current_of_ne (by rw [idle]; decide)]
    exact programmed.stored
  offered asked := absurd (idle.symm.trans asked) (by decide)
  spent upgraded := absurd (idle.symm.trans upgraded) (by decide)

theorem Tracks.flashPatch (board : maxPatchSize ≤ storage.val.size)
    (tracks : Tracks (deviceMap storage) bench) {patch : List UInt8} {contents : Contents}
    {memory : Memory} (idle : bench.stage = .idle) (ready : bench.files.Ready patch contents)
    (programmed : Programmed patchOffset bench.files.patch bench.memory memory) :
    Tracks (deviceMap storage) { bench with memory, stage := .asked } where
  source := tracks.source
  target := tracks.target
  runs := by
    have small := tracks.source
    have stored := tracks.runs
    rw [Bench.current_of_ne (by rw [idle]; decide)] at stored
    change Stores memory _ bench.files.source
    intro index below
    rw [← stored index below]
    refine programmed.beside _ (Or.inl ?_)
    have low : (deviceMap storage).primary.offset = 0xc000 := rfl
    unfold slotSize at small
    unfold patchOffset
    omega
  offered _ _ := by
    obtain ⟨created, padded, written, quiet, file⟩ := ready
    refine ⟨patch, contents, created, padded_held (by decide) written ?_,
      ((start_quiet_iff written).mp quiet).trans board⟩
    rw [← file]
    have start : ((deviceMap storage).storage.offset : Int) = patchOffset :=
      congrArg Nat.cast storage.property
    rw [start]
    exact programmed.stored
  spent upgraded := absurd upgraded (by simp)

/-- A call that does not lead to an upgrade offers the patch as before, or not at all. -/
theorem Tracks.called (tracks : Tracks (deviceMap storage) bench) (attempt : Attempt) :
    Tracks (deviceMap storage)
      { bench with
        memory := replay bench.memory (attempt.events (deviceMap storage) bench.memory) } where
  source := tracks.source
  target := tracks.target
  runs := by
    refine attempt_keeps attempt tracks.runs ?_
    unfold Bench.current
    split
    next => exact tracks.target
    next => exact tracks.source
  offered asked marker := by
    rcases attempt_effect storage attempt bench.memory with ⟨-, same⟩ | cleared
    · rw [same] at marker
      obtain ⟨patch, contents, created, held, room⟩ := tracks.offered asked marker
      exact ⟨patch, contents, created, by rw [same]; exact held, room⟩
    · exact absurd marker (markerCleared_other storage cleared)
  spent upgraded := by
    rcases attempt_effect storage attempt bench.memory with ⟨-, same⟩ | cleared
    · rw [same]
      exact tracks.spent upgraded
    · exact markerCleared_other storage cleared

theorem Tracks.upgraded (tracks : Tracks (deviceMap storage) bench) {memory : Memory}
    {attempt : Attempt} (asked : bench.stage = .asked)
    (upgrades : attempt.Upgrades (deviceMap storage) bench.memory)
    (inStep : InStep pageSize
      ((handedBlocks (attempt.events (deviceMap storage) bench.memory)).map List.length))
    (booted : Booted (deviceMap storage)
      (replay bench.memory (attempt.events (deviceMap storage) bench.memory)) memory) :
    Tracks (deviceMap storage) { bench with memory, stage := .upgraded } := by
  obtain ⟨event, among, requests⟩ := upgrades.requests
  have marker : headerWord (deviceMap storage) bench.memory 0 = newPatch := by
    by_contra other
    exact inert_acts_not storage (events_inert storage attempt _ other event among)
      (Or.inl requests)
  obtain ⟨patch, contents, offered⟩ := tracks.offered asked marker
  have running := tracks.runs
  rw [Bench.current_of_ne (by rw [asked]; decide)] at running
  obtain ⟨-, slot⟩ := requested_image storage (offered.deliverable tracks) running
    (readsInside_of_fits offered.created.inside (le_refl 0)) upgrades.requests inStep
  rw [offered.created.makes] at slot
  refine ⟨tracks.source, tracks.target, fun index below => ?_, fun stage => absurd stage (by simp),
    fun _ => ?_⟩
  · have small := tracks.target
    rw [Bench.current_of_upgraded rfl] at below ⊢
    change index < bench.files.target.length at below
    exact (booted.promoted index (lt_trans below small)).trans (slot index below)
  · rw [headerWord_congr storage booted.partition]
    exact markerCleared_other storage (acts_clears storage ⟨event, among, Or.inl requests⟩)

theorem Tracks.answered (tracks : Tracks (deviceMap storage) bench) {reply : String}
    (honest : isYes reply = true ↔ bench.stage = .upgraded) :
    Tracks (deviceMap storage)
      { bench with
        files := { bench.files with
          source := (setCurrent reply bench.files.target bench.files.source).source }
        stage := .idle } := by
  have current : (setCurrent reply bench.files.target bench.files.source).source =
      bench.current := by
    by_cases upgraded : bench.stage = .upgraded
    · rw [setCurrent_yes (honest.mpr upgraded), Bench.current_of_upgraded upgraded]
    · rw [setCurrent_no (Bool.eq_false_iff.mpr fun yes => upgraded (honest.mp yes)),
        Bench.current_of_ne upgraded]
  rw [current]
  refine ⟨?_, tracks.target, tracks.runs, fun stage => absurd stage (by simp),
    fun stage => absurd stage (by simp)⟩
  change bench.current.length < slotSize
  unfold Bench.current
  split
  next => exact tracks.target
  next => exact tracks.source

theorem Tracks.step (board : maxPatchSize ≤ storage.val.size) {after : Bench}
    (tracks : Tracks (deviceMap storage) bench) (step : Step (deviceMap storage) bench after) :
    Tracks (deviceMap storage) after := by
  cases step with
  | build idle image fits =>
      refine ⟨tracks.source, fits, ?_, fun asked => absurd (idle.symm.trans asked) (by decide),
        fun upgraded => absurd (idle.symm.trans upgraded) (by decide)⟩
      have running := tracks.runs
      rw [Bench.current_of_ne (by rw [idle]; decide)] at running ⊢
      exact running
  | createPatch idle =>
      refine ⟨tracks.source, tracks.target, tracks.runs,
        fun asked => absurd (idle.symm.trans asked) (by decide),
        fun upgraded => absurd (idle.symm.trans upgraded) (by decide)⟩
  | flashImage idle reply chosen programmed => exact tracks.flashImage idle chosen programmed
  | flashPatch idle ready programmed => exact tracks.flashPatch board idle ready programmed
  | called attempt => exact tracks.called attempt
  | upgraded attempt asked upgrades inStep booted =>
      exact tracks.upgraded asked upgrades inStep booted
  | answered reply _ honest => exact tracks.answered honest

/-- What the host can rely on. -/
structure Recorded (map : FlashMap) (bench : Bench) : Prop where
  running : Stores bench.memory map.primary.offset bench.current
  /-- A patch that waits is applied by the next call without a failure. -/
  applies : bench.stage = .asked → headerWord map bench.memory 0 = newPatch →
    ∀ attempt : Attempt, (∀ log op, attempt.fails log op = false) →
      attempt.upgradeFails = false → attempt.cut = none → attempt.Upgrades map bench.memory
  /-- After an upgrade there is none before the next patch is flashed. -/
  once : bench.stage = .upgraded → ∀ attempt : Attempt, ¬ attempt.Upgrades map bench.memory

theorem Tracks.recorded (tracks : Tracks (deviceMap storage) bench) :
    Recorded (deviceMap storage) bench where
  running := tracks.runs
  applies asked marker attempt works succeeds whole := by
    obtain ⟨patch, contents, offered⟩ := tracks.offered asked marker
    have delivered := (offered.deliverable tracks).delivered storage works succeeds
    unfold Attempt.Upgrades Attempt.events
    rw [whole]
    exact delivered.requested
  once upgraded attempt upgrades :=
    inert_acts_not storage
      (events_inert storage attempt _ (tracks.spent upgraded) _ upgrades) (Or.inl trivial)

/-- Whatever fails, is cut short or is done in between, the host knows the image that the
device runs, a patch that waits is applied, and it is applied once. -/
theorem steps_recorded (board : maxPatchSize ≤ storage.val.size) {start : Bench}
    (idle : start.stage = .idle) (source : start.files.source.length < slotSize)
    (target : start.files.target.length < slotSize)
    (running : Stores start.memory (deviceMap storage).primary.offset start.files.source)
    (steps : Relation.ReflTransGen (Step (deviceMap storage)) start bench) :
    Recorded (deviceMap storage) bench := by
  have initial : Tracks (deviceMap storage) start := by
    refine ⟨source, target, ?_, fun asked => absurd (idle.symm.trans asked) (by decide),
      fun upgraded => absurd (idle.symm.trans upgraded) (by decide)⟩
    rw [Bench.current_of_ne (by rw [idle]; decide)]
    exact running
  suffices tracks : Tracks (deviceMap storage) bench from tracks.recorded
  induction steps with
  | refl => exact initial
  | tail _ step inductionHypothesis => exact inductionHypothesis.step board step

end

/-! ### A run of the README -/

theorem oneBytePatch_created : Creates [0xFF, 0xFF] [0xaa] oneBytePatch oneByteContents :=
  ⟨oneBytePatch_wellFormed, by decide, by decide, by decide, trivial⟩

/-- The patch of one byte has been flashed on an erased device. -/
def oneByteAsked : Bench where
  files := ⟨[0xFF, 0xFF], [0xaa], Script.packed oneBytePatch⟩
  memory := placeAt patchOffset (Script.packed oneBytePatch)
  stage := .asked

/-- The device has been upgraded, and the host has been told. -/
def oneByteDone : Bench where
  files := ⟨[0xaa], [0xaa], Script.packed oneBytePatch⟩
  memory := promote buildMap
    (replay oneByteAsked.memory (flawlessAttempt.events buildMap oneByteAsked.memory))
  stage := .idle

theorem oneByteAsked_reached :
    Relation.ReflTransGen (Step buildMap) ⟨⟨[0xFF, 0xFF], [0xFF, 0xFF], []⟩, fun _ => 0xFF, .idle⟩
      oneByteAsked := by
  have programmed : Programmed patchOffset (Script.packed oneBytePatch) (fun _ => 0xFF)
      oneByteAsked.memory := by
    refine ⟨placeAt_stores _ _, fun address outside => if_neg ?_⟩
    have length : (Script.packed oneBytePatch).length = 17 := by decide +kernel
    rw [length] at outside ⊢
    unfold pageSize at outside
    omega
  refine ((Relation.ReflTransGen.single (.build rfl [0xaa] (by decide))).tail
    (.createPatch rfl oneBytePatch_created rfl)).tail
    (.flashPatch rfl ⟨oneBytePatch_created, _, rfl, by decide +kernel, rfl⟩ programmed)

theorem oneByteDone_reached :
    Relation.ReflTransGen (Step buildMap) oneByteAsked oneByteDone := by
  have booted : Booted buildMap
      (replay oneByteAsked.memory (flawlessAttempt.events buildMap oneByteAsked.memory))
      oneByteDone.memory := by
    refine ⟨promote_promotes _ _, fun address inside => if_neg ?_⟩
    rintro ⟨-, high⟩
    have low := inside.1
    have start : buildMap.storage.offset = 0xf8000 := rfl
    have primary : buildMap.primary.offset + buildMap.secondary.size = 0x73000 := rfl
    omega
  exact (Relation.ReflTransGen.single (.upgraded flawlessAttempt rfl (by decide +kernel)
    (inStep_short (by decide +kernel)) booted)).tail
    (.answered "Y" (by decide) (by decide +kernel))

theorem steps_recorded_oneByte : Recorded buildMap oneByteDone :=
  @steps_recorded ⟨⟨0xf8000, 0x6000, by decide, by decide, by decide, by decide⟩, rfl⟩ oneByteDone
    (by decide) ⟨⟨[0xFF, 0xFF], [0xFF, 0xFF], []⟩, fun _ => 0xFF, .idle⟩ rfl (by decide)
    (by decide) (fun index below => by
      have two : index < 2 := below
      interval_cases index <;> rfl)
    (oneByteAsked_reached.trans oneByteDone_reached)

end DeltaUpdate.Host
