import Mathlib.Tactic

/-!
Owns `pad_patch.py`: the file the host script makes of a patch file, and the bytes at
the front of it. The unused `padded_hex` of the script is not modelled.
-/

namespace DeltaUpdate.Script

/-- `int.to_bytes(length, byteorder='little')`; `none` is `OverflowError`. -/
def toBytesLittle (value length : Nat) : Option (List UInt8) :=
  if value < 256 ^ length then
    some ((List.range length).map fun index => UInt8.ofNat (value / 256 ^ index))
  else none

/-- `'NEWP'.encode()`. -/
def newpBytes : List UInt8 := [0x4e, 0x45, 0x57, 0x50]

/-- `hex`. -/
def hex (value : Nat) : String := "0x" ++ String.ofList (Nat.toDigits 16 value)

/-- The outcome of the script: the file it leaves, and the lines it prints. -/
structure Padded where
  file : List UInt8
  printed : List String
deriving DecidableEq, Repr

/-- Writing bytes from the front of a file that is open for reading and writing. -/
def overwrite (contents written : List UInt8) : List UInt8 :=
  written ++ contents.drop written.length

/-- `start`, on the contents of the file at the path. -/
def start (contents : List UInt8) (maxSize inputHeaderSize : Int) : Option Padded :=
  let headerSize := max inputHeaderSize 8
  let size := contents.length
  match toBytesLittle size (headerSize - 4).toNat with
  | none => none
  | some sizeBytes =>
      some
        { file := overwrite contents (newpBytes ++ sizeBytes ++ contents)
          printed :=
            ("Patch size: " ++ hex size ++ " + " ++ hex headerSize.toNat ++ " (header)") ::
              if maxSize - headerSize < size then
                ["WARNING: Patch too large for patch partition!"]
              else [] }

theorem toBytesLittle_length {value length : Nat} {bytes : List UInt8}
    (fits : toBytesLittle value length = some bytes) : bytes.length = length := by
  unfold toBytesLittle at fits
  split at fits
  · rw [Option.some.injEq] at fits
    rw [← fits, List.length_map, List.length_range]
  · simp at fits

/-- The whole file is overwritten: nothing of the old contents stays behind. -/
theorem start_file {contents : List UInt8} {maxSize inputHeaderSize : Int} {padded : Padded}
    (small : inputHeaderSize ≤ 8) (written : start contents maxSize inputHeaderSize = some padded) :
    ∃ sizeBytes, toBytesLittle contents.length 4 = some sizeBytes ∧
      padded.file = newpBytes ++ sizeBytes ++ contents := by
  have header : max inputHeaderSize 8 = 8 := max_eq_right small
  simp only [start, header] at written
  cases fits : toBytesLittle contents.length ((8 : Int) - 4).toNat with
  | none => rw [fits] at written; simp at written
  | some sizeBytes =>
      rw [fits] at written
      simp only [Option.some.injEq] at written
      refine ⟨sizeBytes, fits, ?_⟩
      have longer : contents.length ≤ (newpBytes ++ sizeBytes ++ contents).length := by
        simp only [List.length_append]
        omega
      rw [← written, overwrite, List.drop_eq_nil_of_le longer, List.append_nil]

/-- The file for any header size: the marker, the size as wide as asked for, the patch. -/
theorem start_layout {contents : List UInt8} {maxSize inputHeaderSize : Int} {padded : Padded}
    (written : start contents maxSize inputHeaderSize = some padded) :
    ∃ sizeBytes, toBytesLittle contents.length (max inputHeaderSize 8 - 4).toNat =
        some sizeBytes ∧ padded.file = newpBytes ++ sizeBytes ++ contents := by
  simp only [start] at written
  cases fits : toBytesLittle contents.length (max inputHeaderSize 8 - 4).toNat with
  | none => rw [fits] at written; simp at written
  | some sizeBytes =>
      rw [fits] at written
      simp only [Option.some.injEq] at written
      have longer : contents.length ≤ (newpBytes ++ sizeBytes ++ contents).length := by
        simp only [List.length_append]
        omega
      refine ⟨sizeBytes, rfl, ?_⟩
      rw [← written, overwrite, List.drop_eq_nil_of_le longer, List.append_nil]

/-- The bytes of a size above its digits are zero. -/
theorem toBytesLittle_high {value length : Nat} {bytes : List UInt8}
    (fits : toBytesLittle value length = some bytes) {index : Nat} (below : index < length)
    (small : value < 256 ^ index) : bytes.getD index 0 = 0 := by
  unfold toBytesLittle at fits
  split at fits
  · rw [Option.some.injEq] at fits
    rw [← fits, List.getD_eq_getElem?_getD, List.getElem?_map, List.getElem?_range below]
    simp [Nat.div_eq_of_lt small]
  · simp at fits

/-- A patch file below 4 GiB can be padded. -/
theorem start_succeeds {contents : List UInt8} {maxSize inputHeaderSize : Int}
    (small : inputHeaderSize ≤ 8) (fits : contents.length < 2 ^ 32) :
    ∃ padded, start contents maxSize inputHeaderSize = some padded := by
  have header : max inputHeaderSize 8 = 8 := max_eq_right small
  have width : ((8 : Int) - 4).toNat = 4 := rfl
  have below : contents.length < 256 ^ 4 := lt_of_lt_of_eq fits (by norm_num)
  simp only [start, header, width, toBytesLittle, if_pos below]
  exact ⟨_, rfl⟩

/-- The file for a patch, with the header size of the build. -/
def packed (contents : List UInt8) : List UInt8 :=
  match start contents 0x6000 8 with
  | none => []
  | some padded => padded.file

theorem start_packed {contents : List UInt8} (fits : contents.length < 2 ^ 32) :
    ∃ padded, start contents 0x6000 8 = some padded ∧ padded.file = packed contents := by
  obtain ⟨padded, written⟩ := start_succeeds (le_refl 8) fits
  exact ⟨padded, written, by rw [packed, written]⟩

end DeltaUpdate.Script
