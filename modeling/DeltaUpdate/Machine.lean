import Mathlib.Tactic

/-!
Owns the machine integers of the 32-bit target. `size_t` is a natural number
reduced modulo `2 ^ 32`; `int` and `off_t` are integers reduced to the signed
32-bit range. Arithmetic is written out where the source performs it, and the
reductions are applied at every assignment whose result could leave the range.

A signed sum that leaves its range is undefined in C. The reduction gives it a
value, and `FitsInt` is the condition under which that value is the exact sum.
-/

namespace DeltaUpdate

/-- Conversion to `size_t`. -/
def sizeT (value : Nat) : Nat := value % 2 ^ 32

/-- Conversion to a signed 32-bit type, `int` or `off_t`. -/
def intT (value : Int) : Int := (value + 2 ^ 31) % 2 ^ 32 - 2 ^ 31

/-- The cast `(size_t) value` of an `int`. -/
def sizeOfInt (value : Int) : Nat := (value % 2 ^ 32).toNat

/-- The value is representable in a signed 32-bit type. -/
def FitsInt (value : Int) : Prop := -2 ^ 31 ≤ value ∧ value < 2 ^ 31

instance (value : Int) : Decidable (FitsInt value) := by
  unfold FitsInt
  infer_instance

theorem sizeT_of_lt {value : Nat} (small : value < 2 ^ 32) : sizeT value = value :=
  Nat.mod_eq_of_lt small

theorem intT_of_fits {value : Int} (fits : FitsInt value) : intT value = value := by
  unfold FitsInt at fits
  unfold intT
  omega

theorem sizeOfInt_of_nonneg {value : Int} (nonneg : 0 ≤ value) (small : value < 2 ^ 32) :
    sizeOfInt value = value.toNat := by
  unfold sizeOfInt
  omega

theorem sizeOfInt_of_neg {value : Int} (negative : value < 0) (small : -2 ^ 32 ≤ value) :
    sizeOfInt value = (2 ^ 32 + value).toNat := by
  unfold sizeOfInt
  omega

end DeltaUpdate
