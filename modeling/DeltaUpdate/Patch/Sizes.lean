import DeltaUpdate.Patch.Format
import Mathlib.Data.Nat.Bitwise

/-!
Owns the reading of a size one byte at a time. The decoder may stop between any two
bytes, and it reads exactly the sizes of the format.
-/

namespace DeltaUpdate.Patch

/-! ### The decoder -/

/-- The part of a size that has been read. -/
structure PartialSize where
  value : Nat
  offset : Nat
  signed : Bool
deriving DecidableEq, Repr

/-- The size when its last byte has been read. -/
def PartialSize.finished (part : PartialSize) : Int :=
  if part.signed then -(part.value : Int) else part.value

/-- What a size decoder has come to. -/
inductive SizeState where
  | reading (part : Option PartialSize)
  | value (size : Int)
  | overflow
deriving DecidableEq, Repr

/-- The size goes on behind a byte with its top bit set. -/
def PartialSize.continued (part : PartialSize) (byte : UInt8) : SizeState :=
  if byte &&& 0x80 ≠ 0 then .reading (some part) else .value part.finished

/-- The part of a size in its first byte. -/
def firstPart (byte : UInt8) : PartialSize where
  value := (byte &&& 0x3f).toNat
  offset := 6
  signed := decide (byte &&& 0x40 = 0x40)

/-- The part of a size with one more byte. -/
def PartialSize.more (part : PartialSize) (byte : UInt8) : PartialSize where
  value := part.value ||| (byte &&& 0x7f).toNat <<< part.offset
  offset := part.offset + 7
  signed := part.signed

/-- One byte of a size. -/
def sizeStep : SizeState → UInt8 → SizeState
  | .reading none, byte => (firstPart byte).continued byte
  | .reading (some part), byte =>
      if part.offset + 7 > 32 then .overflow else (part.more byte).continued byte
  | .value _, _ => .overflow
  | .overflow, _ => .overflow

/-- All bytes of a size. -/
def sizeFold (state : SizeState) (bytes : List UInt8) : SizeState := bytes.foldl sizeStep state

@[simp] theorem sizeFold_nil (state : SizeState) : sizeFold state [] = state := rfl

@[simp] theorem sizeFold_cons (state : SizeState) (byte : UInt8) (bytes : List UInt8) :
    sizeFold state (byte :: bytes) = sizeFold (sizeStep state byte) bytes := rfl

theorem sizeFold_overflow (bytes : List UInt8) : sizeFold .overflow bytes = .overflow := by
  induction bytes with
  | nil => rfl
  | cons byte bytes inductionHypothesis => exact inductionHypothesis

/-- A size ends with its last byte. -/
theorem sizeFold_value {size other : Int} {bytes : List UInt8}
    (same : sizeFold (.value size) bytes = .value other) : bytes = [] ∧ size = other := by
  cases bytes with
  | nil => exact ⟨rfl, SizeState.value.inj same⟩
  | cons byte bytes =>
      rw [sizeFold_cons, sizeStep, sizeFold_overflow] at same
      simp at same

/-! ### The bits of a byte -/

theorem continues_iff (byte : UInt8) : byte &&& 0x80 ≠ 0 ↔ 128 ≤ byte.toNat := by
  have small := byte.toNat_lt
  have top : (byte &&& 0x80).toNat = (byte.toNat.testBit 7).toNat * 2 ^ 7 := by
    rw [UInt8.toNat_and]
    exact Nat.and_two_pow byte.toNat 7
  have bit : byte.toNat.testBit 7 = decide (128 ≤ byte.toNat) := by
    rw [Nat.testBit_eq_decide_div_mod_eq]
    congr 1
    apply propext
    omega
  rw [bit] at top
  constructor
  · intro set
    by_contra low
    apply set
    apply UInt8.toNat_inj.mp
    simpa [low] using top
  · intro high zero
    rw [zero] at top
    simp [high] at top

theorem low_bits (byte : UInt8) : (byte &&& 0x7f).toNat = byte.toNat % 128 := by
  rw [UInt8.toNat_and]
  exact Nat.and_two_pow_sub_one_eq_mod byte.toNat 7

theorem first_bits (byte : UInt8) : (byte &&& 0x3f).toNat = byte.toNat % 64 := by
  rw [UInt8.toNat_and]
  exact Nat.and_two_pow_sub_one_eq_mod byte.toNat 6

theorem sign_bit (byte : UInt8) :
    decide (byte &&& 0x40 = 0x40) = byte.toNat.testBit 6 := by
  have bit : (byte &&& 0x40).toNat = (byte.toNat.testBit 6).toNat * 2 ^ 6 := by
    rw [UInt8.toNat_and]
    exact Nat.and_two_pow byte.toNat 6
  cases set : byte.toNat.testBit 6 with
  | true =>
      rw [set] at bit
      exact decide_eq_true (UInt8.toNat_inj.mp bit)
  | false =>
      rw [set] at bit
      apply decide_eq_false
      intro same
      rw [same] at bit
      simp at bit

/-- Seven bits are appended above the bits read so far. -/
theorem PartialSize.more_value {part : PartialSize} (small : part.value < 2 ^ part.offset)
    (byte : UInt8) :
    (part.more byte).value = part.value + 2 ^ part.offset * (byte.toNat % 128) := by
  simp only [PartialSize.more, low_bits]
  rw [Nat.or_comm, ← Nat.shiftLeft_add_eq_or_of_lt small, Nat.shiftLeft_eq, Nat.mul_comm,
    Nat.add_comm]

/-! ### Sizes that are read -/

/-- The bytes behind the first finish a size. -/
theorem sizeFold_more {part : PartialSize} {count : Nat} (small : part.value < 2 ^ part.offset)
    (offset : part.offset = 6 + 7 * count) (bytes : List UInt8) (size : Int) :
    sizeFold (.reading (some part)) bytes = .value size ↔
      Terminated bytes ∧ count + bytes.length ≤ 3 ∧
        size = if part.signed then -((part.value + 2 ^ part.offset * groups bytes : Nat) : Int)
          else (part.value + 2 ^ part.offset * groups bytes : Nat) := by
  induction bytes generalizing part count with
  | nil => simp [Terminated]
  | cons byte bytes inductionHypothesis =>
      rw [sizeFold_cons, sizeStep]
      by_cases full : part.offset + 7 > 32
      · rw [if_pos full, sizeFold_overflow]
        simp only [reduceCtorEq, false_iff, List.length_cons]
        omega
      · rw [if_neg full, PartialSize.continued]
        have value := PartialSize.more_value small byte
        have next : (part.more byte).value < 2 ^ (part.more byte).offset := by
          rw [value]
          simp only [PartialSize.more, pow_add]
          have digit := Nat.mod_lt byte.toNat (by decide : 0 < 128)
          nlinarith
        have sum (rest : Nat) : (part.more byte).value + 2 ^ (part.more byte).offset * rest =
            part.value + 2 ^ part.offset * (byte.toNat % 128 + 128 * rest) := by
          rw [value]
          simp only [PartialSize.more, pow_add]
          ring
        by_cases goes : byte &&& 0x80 ≠ 0
        · have nextOffset : (part.more byte).offset = 6 + 7 * (count + 1) := by
            simp only [PartialSize.more]
            omega
          rw [if_pos goes, inductionHypothesis next nextOffset]
          rw [continues_iff] at goes
          cases bytes with
          | nil => simp [Terminated, goes]
          | cons following rest =>
              simp only [Terminated, goes, true_and, List.length_cons, groups, sum]
              rw [show (part.more byte).signed = part.signed from rfl,
                show count + 1 + (rest.length + 1) = count + (rest.length + 1 + 1) by omega]
        · rw [if_neg goes]
          rw [continues_iff, not_le] at goes
          cases bytes with
          | nil =>
              have last := sum 0
              rw [Nat.mul_zero, Nat.add_zero, Nat.mul_zero, Nat.add_zero] at last
              simp only [sizeFold_nil, SizeState.value.injEq, PartialSize.finished, Terminated,
                goes, true_and, List.length_cons, List.length_nil, groups, Nat.mul_zero,
                Nat.add_zero, last, show (part.more byte).signed = part.signed from rfl]
              constructor
              · intro same
                exact ⟨by omega, same.symm⟩
              · exact fun both => both.2.symm
          | cons following rest =>
              rw [sizeFold_cons, sizeStep, sizeFold_overflow]
              simp only [reduceCtorEq, Terminated, false_iff, not_and]
              intro terminated
              omega

/-- The decoder reads exactly the sizes. -/
theorem sizeFold_iff (bytes : List UInt8) (size : Int) :
    sizeFold (.reading none) bytes = .value size ↔ IsSize bytes size := by
  have shape : IsSize bytes size ↔
      Terminated bytes ∧ bytes.length ≤ 4 ∧ sizeValue bytes = size :=
    ⟨fun sized => ⟨sized.terminated, sized.short, sized.value⟩,
      fun ⟨terminated, short, value⟩ => ⟨terminated, short, value⟩⟩
  rw [shape]
  cases bytes with
  | nil => simp [Terminated]
  | cons first rest =>
      have small : (firstPart first).value < 2 ^ 6 := by
        simp only [firstPart, first_bits]
        omega
      rw [sizeFold_cons, sizeStep, PartialSize.continued]
      by_cases goes : first &&& 0x80 ≠ 0
      · rw [if_pos goes,
          sizeFold_more small (show (firstPart first).offset = 6 + 7 * 0 from rfl)]
        rw [continues_iff] at goes
        cases rest with
        | nil => simp [Terminated, goes]
        | cons following rest =>
            simp only [Terminated, goes, true_and, List.length_cons, sizeValue, firstPart,
              first_bits, sign_bit]
            constructor
            · rintro ⟨terminated, short, same⟩
              exact ⟨terminated, by omega, same.symm⟩
            · rintro ⟨terminated, short, same⟩
              exact ⟨terminated, by omega, same.symm⟩
      · rw [if_neg goes]
        rw [continues_iff, not_le] at goes
        cases rest with
        | nil =>
            have value : (firstPart first).finished = sizeValue [first] := by
              simp only [PartialSize.finished, firstPart, first_bits, sign_bit, sizeValue, groups,
                Nat.mul_zero, Nat.add_zero]
            simp [Terminated, goes, value]
        | cons following rest =>
            rw [sizeFold_cons, sizeStep, sizeFold_overflow]
            simp only [reduceCtorEq, Terminated, false_iff, not_and]
            intro terminated
            omega

/-! ### The first size of a byte string -/

/-- The size at the front of a byte string, and the bytes behind it. -/
def takeSize (state : SizeState) : List UInt8 → Option (Int × List UInt8)
  | [] => none
  | byte :: bytes =>
      match sizeStep state byte with
      | .value size => some (size, bytes)
      | .reading part => takeSize (.reading part) bytes
      | .overflow => none

theorem takeSize_iff {part : Option PartialSize} {bytes rest : List UInt8} {size : Int} :
    takeSize (.reading part) bytes = some (size, rest) ↔
      ∃ front, bytes = front ++ rest ∧ sizeFold (.reading part) front = .value size := by
  induction bytes generalizing part with
  | nil =>
      simp only [takeSize, reduceCtorEq, false_iff, not_exists, not_and]
      intro front empty
      rw [(List.append_eq_nil_iff.mp empty.symm).1]
      simp
  | cons byte bytes inductionHypothesis =>
      -- the first byte belongs to the size
      have peel : (∃ front, byte :: bytes = front ++ rest ∧
          sizeFold (.reading part) front = .value size) ↔
          ∃ front, bytes = front ++ rest ∧
            sizeFold (sizeStep (.reading part) byte) front = .value size := by
        constructor
        · rintro ⟨front, same, read⟩
          cases front with
          | nil => simp at read
          | cons head front =>
              obtain ⟨rfl, rfl⟩ := List.cons.inj same
              exact ⟨front, rfl, read⟩
        · rintro ⟨front, rfl, read⟩
          exact ⟨byte :: front, rfl, read⟩
      rw [peel, takeSize]
      cases step : sizeStep (.reading part) byte with
      | reading part => exact inductionHypothesis
      | value found =>
          simp only [Option.some.injEq, Prod.mk.injEq]
          constructor
          · rintro ⟨rfl, rfl⟩
            exact ⟨[], rfl, rfl⟩
          · rintro ⟨front, rfl, read⟩
            obtain ⟨rfl, rfl⟩ := sizeFold_value read
            exact ⟨rfl, rfl⟩
      | overflow =>
          simp only [reduceCtorEq, sizeFold_overflow, and_false, exists_false]

theorem takeSize_isSize {bytes rest : List UInt8} {size : Int} :
    takeSize (.reading none) bytes = some (size, rest) ↔
      ∃ front, bytes = front ++ rest ∧ IsSize front size := by
  simp only [takeSize_iff, sizeFold_iff]

end DeltaUpdate.Patch
