import DeltaUpdate.Delta.Deployment
import DeltaUpdate.Patch.Unambiguous

/-!
Owns what the device makes of files that the host has got wrong: a part of a patch, a patch
with something behind it, a file that was padded twice, and a file padded with a wider
header than the device reads. No call requests an upgrade for any of them.
-/

namespace DeltaUpdate.Delta

open DeltaUpdate.Library
open DeltaUpdate.Patch

section

variable (storage : { partition : Partition // partition.offset = 0xf8000 })

/-- A patch that says nothing is not applied. -/
theorem refused_of_malformed {memory : Memory} {patch : List UInt8}
    (held : HoldsPatch (deviceMap storage) memory patch)
    (malformed : ∀ contents, ¬ Lenient patch contents) (attempt : Attempt) :
    ¬ attempt.Requests (deviceMap storage) memory := by
  rintro ⟨event, among, requests⟩
  obtain ⟨contents, lenient, -⟩ :=
    @requested_lenient ⟨deviceMap storage, attempt.fails, attempt.upgradeFails⟩ memory patch
      held (patchApart_device storage _) attempt.stack attempt.flash
      ⟨event, (attempt.events_cut (deviceMap storage) memory).subset among, requests⟩
  exact malformed contents lenient

/-- A part of a patch is refused, and so is a patch with anything behind it. -/
theorem cutPatch_refused {memory : Memory} {patch other : List UInt8} {contents : Contents}
    (lenient : Lenient patch contents) (held : HoldsPatch (deviceMap storage) memory other)
    (related : other <+: patch ∨ patch <+: other) (different : other ≠ patch)
    (attempt : Attempt) : ¬ attempt.Requests (deviceMap storage) memory := by
  refine refused_of_malformed storage held (fun others lenientOther => different ?_) attempt
  rcases related with ⟨rest, rfl⟩ | ⟨rest, rfl⟩
  · rw [(lenientOther.unambiguous lenient).1, List.append_nil]
  · rw [(lenient.unambiguous lenientOther).1, List.append_nil]

/-- The patch of one byte without its last byte. -/
theorem cutPatch_refused_oneByte :
    ¬ flawlessAttempt.Requests buildMap
      (placeAt 0xf8000 (Script.packed oneBytePatch.dropLast)) :=
  cutPatch_refused ⟨⟨0xf8000, 0x6000, by decide, by decide, by decide, by decide⟩, rfl⟩
    oneBytePatch_wellFormed.lenient
    (packed_holds buildMap oneBytePatch.dropLast rfl (by decide))
    (Or.inl (List.dropLast_prefix _)) (by decide) flawlessAttempt

/-! ### Headers of any width -/

section

variable {map : FlashMap} {memory : Memory} {contents : List UInt8}
variable {maxSize inputHeaderSize : Int} {padded : Script.Padded}

/-- The device finds a patch behind a header of any width. -/
theorem padded_announced (written : Script.start contents maxSize inputHeaderSize = some padded)
    (stored : Stores memory map.storage.offset padded.file) :
    HoldsPatch map memory (announcedPatch map memory) := by
  obtain ⟨sizeBytes, -, file⟩ := Script.start_layout written
  rw [file] at stored
  refine announcedPatch_held ?_
  have same : headerWord map memory 0 =
      wordAt (fun index => Script.newpBytes.getD index 0) 0 := by
    apply wordAt_congr
    intro index below
    rw [Nat.zero_add]
    exact stored.left.left index below
  rw [same]
  decide

/-- The patch that the device finds has the contents behind what is left of the header. -/
theorem announced_contents
    (written : Script.start contents maxSize inputHeaderSize = some padded)
    (stored : Stores memory map.storage.offset padded.file) {skipped index : Nat}
    (width : max inputHeaderSize 8 = 8 + skipped) (inside : index < contents.length)
    (below : skipped + index < (announcedPatch map memory).length) :
    (announcedPatch map memory).getD (skipped + index) 0 = contents.getD index 0 := by
  have held := padded_announced written stored
  obtain ⟨sizeBytes, sized, file⟩ := Script.start_layout written
  have length := Script.toBytesLittle_length sized
  rw [file] at stored
  rw [← held.stores _ below, ← stored.right index inside]
  congr 1
  rw [List.length_append, length]
  unfold headerSize
  simp only [Script.newpBytes, List.length_cons, List.length_nil]
  omega

/-- What is left of the size in front of the contents is zero. -/
theorem announced_zero (written : Script.start contents maxSize inputHeaderSize = some padded)
    (stored : Stores memory map.storage.offset padded.file) (small : contents.length < 2 ^ 32)
    {index : Nat} (inside : (8 : Int) + index < inputHeaderSize)
    (below : index < (announcedPatch map memory).length) :
    (announcedPatch map memory).getD index 0 = 0 := by
  have held := padded_announced written stored
  obtain ⟨sizeBytes, sized, file⟩ := Script.start_layout written
  have length := Script.toBytesLittle_length sized
  rw [file] at stored
  have digits : 2 ^ 32 ≤ 256 ^ (4 + index) :=
    Nat.pow_le_pow_right (show 0 < 256 by decide) (show 4 ≤ 4 + index by omega)
  have high := Script.toBytesLittle_high sized (show 4 + index < _ by omega)
    (lt_of_lt_of_le small digits)
  rw [← held.stores index below, ← high, ← stored.left.right (4 + index) (by omega)]
  congr 1
  unfold headerSize
  simp [Script.newpBytes]
  omega

/-- Two bytes of zeros in front are read as an empty target. -/
theorem wideHeader_malformed (wide : 10 ≤ inputHeaderSize) (small : contents.length < 2 ^ 32)
    (written : Script.start contents maxSize inputHeaderSize = some padded)
    (stored : Stores memory map.storage.offset padded.file) (others : Contents) :
    ¬ Lenient (announcedPatch map memory) others := by
  intro lenient
  have zero := @announced_zero _ _ _ _ _ _ written stored small 1 (by omega)
  generalize announcedPatch map memory = patch at zero lenient
  obtain ⟨firstSize, stream, frames, -⟩ := lenient.encodes.stream
  obtain ⟨targetSize, body, rfl, ⟨terminated, -, value⟩, -⟩ := frames.layout
  cases targetSize with
  | nil => exact terminated
  | cons first rest =>
      have empty := zero (by simp)
      rw [List.getD_cons_succ, List.cons_append, List.getD_cons_zero] at empty
      subst empty
      cases rest with
      | nil => exact lenient.nonzero value.symm
      | cons next rest => exact absurd terminated.1 (by decide)

end

/-- A file that has been padded already, behind a header of any width: its marker is read as
the type byte, as the target size and the header of the compression, or not at all. -/
theorem repacked_malformed {map : FlashMap} {memory : Memory} {contents : List UInt8}
    {maxSize inputHeaderSize nextMaxSize nextHeaderSize : Int} {padded again : Script.Padded}
    (first : Script.start contents maxSize inputHeaderSize = some padded)
    (small : padded.file.length < 2 ^ 32)
    (second : Script.start padded.file nextMaxSize nextHeaderSize = some again)
    (stored : Stores memory map.storage.offset again.file) (others : Contents) :
    ¬ Lenient (announcedPatch map memory) others := by
  obtain ⟨innerBytes, -, inner⟩ := Script.start_layout first
  by_cases wide : 10 ≤ nextHeaderSize
  · exact wideHeader_malformed wide small second stored others
  intro lenient
  have front : 4 ≤ padded.file.length := by simp [inner, Script.newpBytes]
  have marker (index : Nat) (low : index < 4) :
      padded.file.getD index 0 = Script.newpBytes.getD index 0 := by
    rw [inner, List.append_assoc]
    exact List.getD_append _ _ _ _ low
  have bytes {skipped : Nat} (width : max nextHeaderSize 8 = 8 + skipped) (index : Nat)
      (low : index < 4) (below : skipped + index < (announcedPatch map memory).length) :
      (announcedPatch map memory).getD (skipped + index) 0 = Script.newpBytes.getD index 0 := by
    rw [← marker index low]
    exact announced_contents second stored width (by omega) below
  generalize announcedPatch map memory = patch at lenient bytes
  obtain ⟨firstSize, stream, frames, -⟩ := lenient.encodes.stream
  obtain ⟨targetSize, body, rfl, ⟨terminated, -, -⟩, -⟩ := frames.layout
  by_cases narrow : nextHeaderSize ≤ 8
  · -- the type byte is an N
    have typeByte := bytes (show max nextHeaderSize 8 = 8 + (0 : Nat) by omega) 0 (by decide)
      (by simp)
    have patchType := frames.patchType
    rw [Nat.zero_add, List.getD_cons_zero] at typeByte
    rw [typeByte] at patchType
    exact absurd patchType (by decide)
  · -- the N is the target size, and the E is where the header of the compression should be
    have width : max nextHeaderSize 8 = 8 + (1 : Nat) := by omega
    cases targetSize with
    | nil => exact terminated
    | cons size rest =>
        have sizeByte := bytes width 0 (by decide) (by simp)
        rw [List.getD_cons_succ, List.cons_append, List.getD_cons_zero] at sizeByte
        subst sizeByte
        cases rest with
        | nil =>
            have header := bytes width 1 (by decide) (by simp)
            simp [Script.newpBytes, heatshrinkHeader] at header
        | cons next rest => exact absurd terminated.1 (by decide)

/-- A file that was padded twice is refused, whatever the widths of the two headers. -/
theorem repacked_refused {contents : List UInt8}
    {maxSize inputHeaderSize nextMaxSize nextHeaderSize : Int} {padded again : Script.Padded}
    (first : Script.start contents maxSize inputHeaderSize = some padded)
    (small : padded.file.length < 2 ^ 32)
    (second : Script.start padded.file nextMaxSize nextHeaderSize = some again) {memory : Memory}
    (stored : Stores memory (deviceMap storage).storage.offset again.file) (attempt : Attempt) :
    ¬ attempt.Requests (deviceMap storage) memory :=
  refused_of_malformed storage (padded_announced second stored)
    (repacked_malformed first small second stored) attempt

/-- The patch of one byte, padded with a header of 16 bytes and then with one of 9. -/
theorem repacked_refused_oneByte :
    ¬ flawlessAttempt.Requests buildMap
      (placeAt 0xf8000 ([0x4e, 0x45, 0x57, 0x50, 0x19, 0, 0, 0, 0] ++
        ([0x4e, 0x45, 0x57, 0x50, 0x09, 0, 0, 0, 0, 0, 0, 0, 0, 0, 0, 0] ++ oneBytePatch))) :=
  repacked_refused ⟨⟨0xf8000, 0x6000, by decide, by decide, by decide, by decide⟩, rfl⟩
    (rfl : Script.start oneBytePatch 0x6000 16 =
      some ⟨[0x4e, 0x45, 0x57, 0x50, 0x09, 0, 0, 0, 0, 0, 0, 0, 0, 0, 0, 0] ++ oneBytePatch, _⟩)
    (by decide)
    (rfl : Script.start
      ([0x4e, 0x45, 0x57, 0x50, 0x09, 0, 0, 0, 0, 0, 0, 0, 0, 0, 0, 0] ++ oneBytePatch) 0x5000 9 =
      some ⟨[0x4e, 0x45, 0x57, 0x50, 0x19, 0, 0, 0, 0] ++
        ([0x4e, 0x45, 0x57, 0x50, 0x09, 0, 0, 0, 0, 0, 0, 0, 0, 0, 0, 0] ++ oneBytePatch), _⟩)
    (placeAt_stores 0xf8000 _) flawlessAttempt

/-- A patch behind a header of ten bytes or more is refused: the fifth and sixth byte of its
size are read as an empty target. -/
theorem wideHeader_refused {contents : List UInt8} {maxSize inputHeaderSize : Int}
    {padded : Script.Padded} (wide : 10 ≤ inputHeaderSize) (small : contents.length < 2 ^ 32)
    (written : Script.start contents maxSize inputHeaderSize = some padded) {memory : Memory}
    (stored : Stores memory (deviceMap storage).storage.offset padded.file) (attempt : Attempt) :
    ¬ attempt.Requests (deviceMap storage) memory :=
  refused_of_malformed storage (padded_announced written stored)
    (wideHeader_malformed wide small written stored) attempt

/-- The patch of one byte, padded with a header of 16 bytes. -/
theorem wideHeader_refused_oneByte :
    ¬ flawlessAttempt.Requests buildMap
      (placeAt 0xf8000 ([0x4e, 0x45, 0x57, 0x50, 0x09, 0, 0, 0, 0, 0, 0, 0, 0, 0, 0, 0] ++
        oneBytePatch)) :=
  wideHeader_refused ⟨⟨0xf8000, 0x6000, by decide, by decide, by decide, by decide⟩, rfl⟩
    (by decide : (10 : Int) ≤ 16) (by decide)
    (rfl : Script.start oneBytePatch 0x6000 16 =
      some ⟨[0x4e, 0x45, 0x57, 0x50, 0x09, 0, 0, 0, 0, 0, 0, 0, 0, 0, 0, 0] ++ oneBytePatch, _⟩)
    (placeAt_stores 0xf8000 _) flawlessAttempt

end

end DeltaUpdate.Delta
