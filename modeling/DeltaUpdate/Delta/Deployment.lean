import DeltaUpdate.Delta.Repeat
import DeltaUpdate.Delta.Upgrade

/-!
Owns the life of a device. The host flashes patches and images, the bootloader swaps the
slots, and calls are made, fail and are cut short by resets, in any order. A flashed patch
is applied by one call at most, an upgrade is made of the patch that was flashed last and
of the image that runs, and the first call without a failure applies a well-formed patch.
-/

namespace DeltaUpdate.Delta

open DeltaUpdate.Detools
open DeltaUpdate.Library
open DeltaUpdate.Patch

/-! ### Lives -/

/-- What the host wrote last, if anything, in a happening. -/
def Happening.image (current : Memory) : Happening → Memory
  | .patchFlashed image => image
  | _ => current

/-- What the host wrote to the patch partition last in a life. -/
def lastFlashed (memory : Memory) (life : List Happening) : Memory :=
  life.foldl Happening.image memory

/-- The call requests an upgrade. -/
def Attempt.Requests (map : FlashMap) (memory : Memory) (attempt : Attempt) : Prop :=
  ∃ event ∈ attempt.events map memory, event.Requests

/-- The call has requested an upgrade with success: the bootloader will swap the slots. -/
def Attempt.Upgrades (map : FlashMap) (memory : Memory) (attempt : Attempt) : Prop :=
  .bootRequestUpgrade true ∈ attempt.events map memory

instance (map : FlashMap) (memory : Memory) (attempt : Attempt) :
    Decidable (attempt.Upgrades map memory) :=
  inferInstanceAs (Decidable (_ ∈ attempt.events map memory))

theorem Attempt.Upgrades.requests {map : FlashMap} {memory : Memory} {attempt : Attempt}
    (upgrades : attempt.Upgrades map memory) : attempt.Requests map memory :=
  ⟨_, upgrades, trivial⟩

/-- A call of a life has cleared the marker, and no patch has been flashed since. -/
def Spent (map : FlashMap) (memory : Memory) (life : List Happening) : Prop :=
  ∃ before attempt after, life = before ++ .called attempt :: after ∧ NoFlash after ∧
    MarkerCleared map (memoryBehind map memory before)
      (memoryBehind map memory (before ++ [.called attempt]))

theorem lastFlashed_snoc (memory : Memory) (life : List Happening) (happening : Happening) :
    lastFlashed memory (life ++ [happening]) = happening.image (lastFlashed memory life) :=
  List.foldl_append

theorem Spent.later {map : FlashMap} {memory : Memory} {life : List Happening}
    (spent : Spent map memory life) {happening : Happening} (noFlash : NoFlash [happening]) :
    Spent map memory (life ++ [happening]) := by
  obtain ⟨before, attempt, after, rfl, none, cleared⟩ := spent
  refine ⟨before, attempt, after ++ [happening], by simp, fun image among => ?_, cleared⟩
  rcases List.mem_append.mp among with old | new
  · exact none image old
  · exact noFlash image new

section

variable (storage : { partition : Partition // partition.offset = 0xf8000 })

/-- Between two calls that act, the host has flashed a patch, whatever else has happened:
failures, resets, swaps of the slots and calls that do nothing. -/
theorem patchFlashed_between (memory : Memory) (before between : List Happening)
    (first second : Attempt)
    (acts : first.Acts (deviceMap storage) (memoryBehind (deviceMap storage) memory before))
    (again : second.Acts (deviceMap storage)
      (memoryBehind (deviceMap storage) memory (before ++ .called first :: between))) :
    ∃ image, .patchFlashed image ∈ between := by
  by_contra none
  have noFlash : NoFlash between := fun image among => none ⟨image, among⟩
  have cleared := markerCleared_other storage (acts_clears storage acts)
  have idle := life_idle storage noFlash cleared
  rw [memoryBehind_append] at again
  obtain ⟨event, among, acts⟩ := again
  exact inert_acts_not storage (events_inert storage second _ idle event among) acts

/-- The host flashes the patch of one byte. -/
def oneByteFlashed : Happening := .patchFlashed (placeAt 0xf8000 (Script.packed oneBytePatch))

theorem patchFlashed_between_oneByte :
    ∃ image, .patchFlashed image ∈ [.restWritten fun _ => 0, oneByteFlashed] :=
  patchFlashed_between ⟨⟨0xf8000, 0x6000, by decide, by decide, by decide, by decide⟩, rfl⟩
    (fun _ => 0xFF) [oneByteFlashed] [.restWritten fun _ => 0, oneByteFlashed] flawlessAttempt
    flawlessAttempt ⟨.bootRequestUpgrade true, by decide +kernel, Or.inl trivial⟩
    ⟨.bootRequestUpgrade true, by decide +kernel, Or.inl trivial⟩

/-! ### The patch that was flashed last -/

/-- The patch partition is as the host left it until a call clears the marker. -/
theorem partition_kept (memory : Memory) (life : List Happening) :
    PartitionSame (deviceMap storage) (lastFlashed memory life)
        (memoryBehind (deviceMap storage) memory life) ∨
      Spent (deviceMap storage) memory life := by
  induction life using List.reverseRecOn with
  | nil => exact Or.inl fun _ _ => rfl
  | append_singleton life happening inductionHypothesis =>
      by_cases flash : ∃ image, happening = .patchFlashed image
      · obtain ⟨image, rfl⟩ := flash
        rw [memoryBehind_append, lastFlashed_snoc]
        exact Or.inl fun address inside => reflashed_inside inside
      · have noFlash : NoFlash [happening] := fun image among =>
          flash ⟨image, (List.mem_singleton.mp among).symm⟩
        have image : happening.image (lastFlashed memory life) = lastFlashed memory life := by
          cases happening with
          | patchFlashed image => exact absurd ⟨image, rfl⟩ flash
          | _ => rfl
        rcases inductionHypothesis with same | spent
        · rw [lastFlashed_snoc, image]
          rcases happening_effect storage noFlash
            (memoryBehind (deviceMap storage) memory life) with kept | ⟨attempt, rfl, cleared⟩
          · refine Or.inl fun address inside => ?_
            rw [memoryBehind_append]
            exact (kept address inside).trans (same address inside)
          · refine Or.inr ⟨life, attempt, [], rfl, fun _ => List.not_mem_nil, ?_⟩
            rw [memoryBehind_append]
            exact cleared
        · exact Or.inr (spent.later noFlash)

theorem spent_idle {memory : Memory} {life : List Happening}
    (spent : Spent (deviceMap storage) memory life) :
    headerWord (deviceMap storage) (memoryBehind (deviceMap storage) memory life) 0 ≠
      newPatch := by
  obtain ⟨before, attempt, after, rfl, noFlash, cleared⟩ := spent
  rw [List.append_cons, memoryBehind_append]
  exact life_idle storage noFlash (markerCleared_other storage cleared)

/-! ### Upgrades -/

/-- The patch that the header in a memory announces. -/
def announcedPatch (map : FlashMap) (memory : Memory) : List UInt8 :=
  (List.range (headerWord map memory 4)).map fun index : Nat =>
    memory (map.storage.offset + headerSize + index)

theorem announcedPatch_held {map : FlashMap} {memory : Memory}
    (marker : headerWord map memory 0 = newPatch) :
    HoldsPatch map memory (announcedPatch map memory) where
  marker := marker
  length := by simp [announcedPatch]
  stores := by
    intro index below
    rw [announcedPatch, List.length_map, List.length_range] at below
    simp [announcedPatch, List.getD_eq_getElem?_getD, below]

/-- What an upgrade is made of. -/
structure MadeOf (map : FlashMap) (memory : Memory) (patch : List UInt8) (contents : Contents)
    (events : List Event) : Prop where
  held : HoldsPatch map memory patch
  lenient : Lenient patch contents
  target : contents.targetSize < map.secondary.size
  source : FitsFrom (lowestSource map) map.primary.size 0 contents.records
  image : handedImage events = Patch.target (primarySource map memory) contents.records

/-- The patch partition and what the engine reads of it lie above the slots. -/
theorem patchApart_device (patchSize : Nat) : PatchApart (deviceMap storage) patchSize := by
  obtain ⟨-, -, -, slotEnd, patchStart⟩ := deviceMap_layout storage
  rintro - address low - ⟨-, high⟩
  omega

/-- The engine reads the source below the slot that it writes. -/
theorem sourceApart_device (low : Int) : SourceApart (deviceMap storage) low := by
  have layout := deviceMap_layout storage
  rintro position - high ⟨above, -⟩
  omega

/-- A call that requests an upgrade has run the engine on the announced patch to a positive
result, and the request comes behind the run. -/
theorem requested_run {env : Env} {stack : ApplyPatch} {flash : FlashMem} {memory : Memory}
    (requested : ∃ event ∈ (callOn env stack flash memory).2.log, event.Requests) :
    ∃ res self after, callOn env stack flash memory = requestUpgrade env res after ∧ 0 < res ∧
      headerWord env.map memory 0 = newPatch ∧
      (∀ event ∈ after.log, ¬ event.Requests) ∧
      Runs env stack (engineMemory env.map memory) (engineLog env.map [])
        (headerWord env.map memory 4) ⟨.stop res, self, after⟩ := by
  obtain ⟨event, among, requests⟩ := requested
  have outcome := deltaCheckAndApply_runs env stack ⟨flash, memory, []⟩
  unfold callOn at among ⊢
  generalize deltaCheckAndApply env stack ⟨flash, memory, []⟩ = call at outcome among ⊢
  cases outcome with
  | early _ events =>
      obtain ⟨rest, same, early⟩ := events
      rw [same, List.nil_append] at among
      have other := early event among
      cases event <;> simp [Event.Requests, Event.BeforeEngine] at requests other
  | @engine res self after marker positive visits stops =>
      have runs := (visits _).mp stops
      have reported := runs_reported runs
        (by simp [engineLog, headerEvents, Event.IsFailure])
        (by simp [engineLog, headerEvents, Event.Requests])
      refine ⟨res, self, after, rfl, ?_, marker, reported.noRequest, runs⟩
      by_contra nonpositive
      rw [requestUpgrade, if_pos (not_lt.mp nonpositive)] at among
      exact reported.noRequest event among requests

/-- The first part of a call in which the upgrade is requested has all of the run. -/
theorem requested_behind {env : Env} {res : Int} {after : World} {events : List Event}
    (cut : events <+: (requestUpgrade env res after).2.log)
    (requested : ∃ event ∈ events, event.Requests)
    (quiet : ∀ event ∈ after.log, ¬ event.Requests) :
    Extends Event.Closing after.log events := by
  obtain ⟨rest, log, closes⟩ := (requestUpgrade_closing env res after).2
  rw [log] at cut
  rcases List.prefix_or_prefix_of_prefix cut (List.prefix_append _ _) with short | ⟨done, rfl⟩
  · obtain ⟨event, among, requests⟩ := requested
    exact absurd requests (quiet event (short.subset among))
  · have within : done <+: rest := (List.prefix_append_right_inj _).mp cut
    exact ⟨done, rfl, fun event among => closes event (within.subset among)⟩

/-- On the device, a positive result over a lenient patch means that the target has been
handed over. -/
theorem runs_target {env : Env} (place : env.map = deviceMap storage) {memory : Memory}
    {patch : List UInt8} {contents : Contents} (held : HoldsPatch env.map memory patch)
    (lenient : Lenient patch contents) (small : patch.length < env.map.storage.size)
    (reads : FitsFrom (lowestSource env.map) env.map.primary.size 0 contents.records)
    {stack : ApplyPatch} {res : Int} {self : ApplyPatch} {after : World} (positive : 0 < res)
    (runs : Runs env stack (engineMemory env.map memory) (engineLog env.map []) patch.length
      ⟨.stop res, self, after⟩) :
    handedImage after.log = target (primarySource env.map memory) contents.records := by
  have apart : PatchApart env.map patch.length := place ▸ patchApart_device storage _
  obtain ⟨primaryStart, primaryEnd, slotStart, slotEnd, patchStart⟩ := deviceMap_layout storage
  rw [← place] at primaryStart primaryEnd slotStart slotEnd patchStart
  obtain ⟨body, plain, padding, header, unpacked, accepts, output⟩ :=
    lenient.accepted (show (slotTask env.map (engineMemory env.map memory)
      (lowestSource env.map) contents.targetSize).targetSize = contents.targetSize from rfl) reads
  have accepted : BodyAccepted _ body := ⟨plain, padding, unpacked, accepts⟩
  obtain ⟨typeByte, declared, rest, second, -, concluded⟩ :=
    runs_concluded (held.engine apart small) (slotTask_lowest env.map _ _)
      (header_sized header rfl) runs res rfl positive
  obtain ⟨-, -, rfl⟩ := header.unique second
  have outside : SourceApart env.map (lowestSource env.map) :=
    place ▸ sourceApart_device storage _
  have image := (concluded (Or.inr accepted.accepted.alive)).image outside
  rw [engineLog_handed, List.nil_append] at image
  rw [image, bodyOutput, (bodyVerdict_some unpacked _).1]
  refine output.trans (targetFrom_congr (fun position low high =>
    engineMemory_same (outside position low high) (Or.inl ?_)) (lowestSource_neg env.map).le reads)
  omega

/-- Whatever has happened to a device, a call that requests an upgrade has applied the patch
that the host flashed last, and what it has handed to the slot is the target of that patch
for what the flash holds where the source is read. -/
theorem upgrade_of_lastFlashed (memory : Memory) (life : List Happening) (attempt : Attempt)
    (requests : attempt.Requests (deviceMap storage)
      (memoryBehind (deviceMap storage) memory life)) :
    PartitionSame (deviceMap storage) (lastFlashed memory life)
        (memoryBehind (deviceMap storage) memory life) ∧
      ∃ patch contents, MadeOf (deviceMap storage) (memoryBehind (deviceMap storage) memory life)
        patch contents
        (attempt.events (deviceMap storage) (memoryBehind (deviceMap storage) memory life)) := by
  have kept := partition_kept storage memory life
  have idle := @spent_idle storage memory life
  generalize memoryBehind (deviceMap storage) memory life = now at requests kept idle ⊢
  have cut := attempt.events_cut (deviceMap storage) now
  have requested : ∃ event ∈ (attempt.call (deviceMap storage) now).2.log, event.Requests := by
    obtain ⟨event, among, requests⟩ := requests
    exact ⟨event, cut.subset among, requests⟩
  have apart := patchApart_device storage (announcedPatch (deviceMap storage) now).length
  unfold Attempt.call at cut requested
  obtain ⟨res, self, after, call, positive, marker, quiet, runs⟩ := requested_run requested
  refine ⟨kept.resolve_right fun spent => idle spent marker,
    announcedPatch (deviceMap storage) now, ?_⟩
  have held : HoldsPatch (deviceMap storage) now (announcedPatch (deviceMap storage) now) :=
    announcedPatch_held marker
  obtain ⟨contents, lenient, source, target, small⟩ := requested_lenient held apart requested
  rw [call] at cut
  rw [held.length] at runs
  refine ⟨contents, held, lenient, target, source, ?_⟩
  rw [handedImage_blocks, (requested_behind cut requests quiet).closingBlocks,
    ← handedImage_blocks]
  exact runs_target storage rfl held lenient small source positive runs

theorem upgrade_of_lastFlashed_oneByte :
    let life := [oneByteFlashed, .called flawlessAttempt, oneByteFlashed]
    PartitionSame buildMap (lastFlashed (fun _ => 0xFF) life)
        (memoryBehind buildMap (fun _ => 0xFF) life) ∧
      ∃ patch contents, MadeOf buildMap (memoryBehind buildMap (fun _ => 0xFF) life) patch
        contents (flawlessAttempt.events buildMap
          (memoryBehind buildMap (fun _ => 0xFF) life)) :=
  upgrade_of_lastFlashed
    ⟨⟨0xf8000, 0x6000, by decide, by decide, by decide, by decide⟩, rfl⟩ (fun _ => 0xFF) _
    flawlessAttempt ⟨.bootRequestUpgrade true, by decide +kernel, trivial⟩

/-- The partition holds a well-formed patch that fits the device. -/
structure Deliverable (map : FlashMap) (memory : Memory) (patch : List UInt8)
    (contents : Contents) : Prop where
  held : HoldsPatch map memory patch
  formed : WellFormed patch contents
  room : patch.length + headerSize ≤ map.storage.size
  target : contents.targetSize < map.secondary.size
  source : FitsFrom 0 map.primary.size 0 contents.records

theorem oneBytePatch_deliverable : Deliverable buildMap
    (placeAt 0xf8000 (Script.packed oneBytePatch)) oneBytePatch oneByteContents :=
  ⟨oneBytePatch_holds, oneBytePatch_wellFormed, by decide, by decide,
    ⟨by decide, by decide, trivial⟩⟩

/-- What is held in the partition depends on the partition only. -/
theorem Deliverable.kept {image memory : Memory} {patch : List UInt8} {contents : Contents}
    (deliverable : Deliverable (deviceMap storage) image patch contents)
    (same : PartitionSame (deviceMap storage) image memory) :
    Deliverable (deviceMap storage) memory patch contents := by
  obtain ⟨held, formed, room, target, source⟩ := deliverable
  have inside := room
  unfold headerSize at inside
  have word (start : Nat) (small : start < 5) :
      headerWord (deviceMap storage) memory start =
        headerWord (deviceMap storage) image start := by
    have byte (index : Nat) (early : index < 8) :
        memory ((deviceMap storage).storage.offset + index) =
          image ((deviceMap storage).storage.offset + index) :=
      same _ ⟨by omega, by omega⟩
    simp only [headerWord, wordAt]
    rw [byte _ (by omega), byte _ (by omega), byte _ (by omega), byte _ (by omega)]
  refine ⟨⟨(word 0 (by decide)).trans held.marker, (word 4 (by decide)).trans held.length,
    fun index below => ?_⟩, formed, room, target, source⟩
  rw [← held.stores index below]
  unfold headerSize
  exact same _ ⟨by omega, by omega⟩

/-- A call without a failure delivers what the partition holds. -/
theorem Deliverable.delivered {memory : Memory} {patch : List UInt8} {contents : Contents}
    (deliverable : Deliverable (deviceMap storage) memory patch contents) {attempt : Attempt}
    (works : ∀ log op, attempt.fails log op = false) (upgrades : attempt.upgradeFails = false) :
    Delivers (Patch.target (primarySource (deviceMap storage) memory) contents.records)
      (attempt.call (deviceMap storage) memory) := by
  obtain ⟨held, formed, room, fits, source⟩ := deliverable
  have small : patch.length < (deviceMap storage).storage.size := by
    unfold headerSize at room
    omega
  obtain ⟨res, self, after, call, positive, runs, -⟩ :=
    @lenient_upgraded ⟨deviceMap storage, attempt.fails, attempt.upgradeFails⟩ memory patch
      contents formed.lenient works held (patchApart_device storage _) small fits 0
      (slotTask_start _ _ _) source attempt.stack attempt.flash
  have reads := source.mono (lowestSource_neg (deviceMap storage)).le (le_refl _)
  have image := runs_target storage rfl held formed.lenient small reads positive runs
  unfold Attempt.call
  rw [call]
  exact requestUpgrade_delivers positive upgrades image

/-- A well-formed patch that was flashed last is applied by the first call without a
failure: the call reboots into the upgrade with the target for the image in the primary
slot, unless a call has cleared the marker since the patch was flashed. -/
theorem lastFlashed_delivered (memory : Memory) (life : List Happening) (attempt : Attempt)
    {patch : List UInt8} {contents : Contents}
    (deliverable : Deliverable (deviceMap storage) (lastFlashed memory life) patch contents)
    (works : ∀ log op, attempt.fails log op = false) (upgrades : attempt.upgradeFails = false) :
    Spent (deviceMap storage) memory life ∨
      Delivers (target (primarySource (deviceMap storage)
          (memoryBehind (deviceMap storage) memory life)) contents.records)
        (attempt.call (deviceMap storage) (memoryBehind (deviceMap storage) memory life)) :=
  (partition_kept storage memory life).symm.imp_right fun same =>
    (deliverable.kept storage same).delivered storage works upgrades

theorem lastFlashed_delivered_oneByte :
    let life := [oneByteFlashed, .restWritten fun _ => 0]
    Spent buildMap (fun _ => 0xFF) life ∨
      Delivers (target (primarySource buildMap (memoryBehind buildMap (fun _ => 0xFF) life))
          oneByteContents.records)
        (flawlessAttempt.call buildMap (memoryBehind buildMap (fun _ => 0xFF) life)) :=
  lastFlashed_delivered ⟨⟨0xf8000, 0x6000, by decide, by decide, by decide, by decide⟩, rfl⟩
    (fun _ => 0xFF) [oneByteFlashed, .restWritten fun _ => 0] flawlessAttempt
    oneBytePatch_deliverable (fun _ _ => rfl) rfl

end

end DeltaUpdate.Delta
