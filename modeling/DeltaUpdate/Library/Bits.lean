import Mathlib.Tactic

/-!
Owns bit lists, most significant bit first: the low `width` bits of a natural
number, the value of a bit list, and the bits of a byte string. The two
directions are inverse on lists of the given width.
-/

namespace DeltaUpdate.Library

/-- The low `width` bits of `value`, most significant first. -/
def bitsOfNat : (width value : Nat) → List Bool
  | 0, _ => []
  | width + 1, value => value.testBit width :: bitsOfNat width value

/-- The value of a bit list, most significant bit first. -/
def natOfBits (bits : List Bool) : Nat :=
  bits.foldl (fun value bit => 2 * value + bit.toNat) 0

/-- The bits of one byte. -/
def bitsOfByte (byte : UInt8) : List Bool := bitsOfNat 8 byte.toNat

/-- The bits of a byte string, in reading order. -/
def bitsOfBytes (bytes : List UInt8) : List Bool := bytes.flatMap bitsOfByte

@[simp] theorem bitsOfNat_zero (value : Nat) : bitsOfNat 0 value = [] := rfl

theorem bitsOfNat_succ (width value : Nat) :
    bitsOfNat (width + 1) value = value.testBit width :: bitsOfNat width value := rfl

@[simp] theorem bitsOfNat_length (width value : Nat) :
    (bitsOfNat width value).length = width := by
  induction width with
  | zero => rfl
  | succ width inductionHypothesis => simp [bitsOfNat_succ, inductionHypothesis]

@[simp] theorem bitsOfByte_length (byte : UInt8) : (bitsOfByte byte).length = 8 :=
  bitsOfNat_length 8 _

@[simp] theorem bitsOfBytes_nil : bitsOfBytes [] = [] := rfl

@[simp] theorem bitsOfBytes_cons (byte : UInt8) (bytes : List UInt8) :
    bitsOfBytes (byte :: bytes) = bitsOfByte byte ++ bitsOfBytes bytes := rfl

@[simp] theorem bitsOfBytes_append (left right : List UInt8) :
    bitsOfBytes (left ++ right) = bitsOfBytes left ++ bitsOfBytes right := by
  simp [bitsOfBytes]

theorem bitsOfBytes_length (bytes : List UInt8) :
    (bitsOfBytes bytes).length = 8 * bytes.length := by
  induction bytes with
  | nil => rfl
  | cons byte bytes inductionHypothesis =>
      simp only [bitsOfBytes_cons, List.length_append, bitsOfByte_length, List.length_cons,
        inductionHypothesis]
      omega

/-- The low bits depend on the value modulo the width only. -/
theorem bitsOfNat_congr {width left right : Nat}
    (same : ∀ index, index < width → left.testBit index = right.testBit index) :
    bitsOfNat width left = bitsOfNat width right := by
  induction width with
  | zero => rfl
  | succ width inductionHypothesis =>
      rw [bitsOfNat_succ, bitsOfNat_succ, same width (Nat.lt_succ_self width),
        inductionHypothesis fun index below => same index (Nat.lt_succ_of_lt below)]

theorem foldl_bits (bits : List Bool) (start : Nat) :
    bits.foldl (fun value bit => 2 * value + bit.toNat) start =
      start * 2 ^ bits.length + natOfBits bits := by
  unfold natOfBits
  induction bits generalizing start with
  | nil => simp
  | cons bit bits inductionHypothesis =>
      rw [List.foldl_cons, List.foldl_cons, inductionHypothesis, inductionHypothesis (2 * 0 + _)]
      simp only [List.length_cons, pow_succ]
      ring

@[simp] theorem natOfBits_nil : natOfBits [] = 0 := rfl

theorem natOfBits_cons (bit : Bool) (bits : List Bool) :
    natOfBits (bit :: bits) = bit.toNat * 2 ^ bits.length + natOfBits bits := by
  have folded := foldl_bits bits (2 * 0 + bit.toNat)
  rw [natOfBits, List.foldl_cons, folded]
  simp

theorem natOfBits_lt (bits : List Bool) : natOfBits bits < 2 ^ bits.length := by
  induction bits with
  | nil => simp
  | cons bit bits inductionHypothesis =>
      rw [natOfBits_cons, List.length_cons, pow_succ]
      cases bit <;> simp <;> omega

/-- Reading the low bits of a number gives the number modulo `2 ^ width`. -/
theorem natOfBits_bitsOfNat (width value : Nat) :
    natOfBits (bitsOfNat width value) = value % 2 ^ width := by
  induction width with
  | zero => simp [Nat.mod_one]
  | succ width inductionHypothesis =>
      rw [bitsOfNat_succ, natOfBits_cons, bitsOfNat_length, inductionHypothesis,
        Nat.testBit_eq_decide_div_mod_eq, pow_succ, Nat.mod_mul]
      have digit := Nat.mod_two_eq_zero_or_one (value / 2 ^ width)
      rcases digit with zero | one
      · simp [zero]
      · simp [one]
        ring

theorem bitsOfNat_mod (width value : Nat) :
    bitsOfNat width (value % 2 ^ width) = bitsOfNat width value := by
  apply bitsOfNat_congr
  intro index below
  simp [Nat.testBit_mod_two_pow, below]

/-- Writing the value of a bit list gives the list back. -/
theorem bitsOfNat_natOfBits (bits : List Bool) :
    bitsOfNat bits.length (natOfBits bits) = bits := by
  induction bits with
  | nil => rfl
  | cons bit bits inductionHypothesis =>
      have small := natOfBits_lt bits
      rw [List.length_cons, bitsOfNat_succ]
      have lead : (natOfBits (bit :: bits)).testBit bits.length = bit := by
        rw [natOfBits_cons, Nat.testBit_eq_decide_div_mod_eq, Nat.add_comm,
          Nat.add_mul_div_right _ _ (Nat.two_pow_pos _), Nat.div_eq_of_lt small]
        cases bit <;> simp
      have tail : bitsOfNat bits.length (natOfBits (bit :: bits)) = bits := by
        rw [← bitsOfNat_mod, natOfBits_cons, Nat.mul_add_mod_self_right, Nat.mod_eq_of_lt small,
          inductionHypothesis]
      rw [lead, tail]

end DeltaUpdate.Library
