import DeltaUpdate.Patch.Verdict

/-!
Owns the uniqueness of the contents of a patch. The sizes and the records are read off in
one way only, and the target size and the padding tell where a patch ends: a patch has one
reading, and neither a part of it nor anything longer has another.
-/

namespace DeltaUpdate.Patch

open DeltaUpdate.Library

section

variable {first second rest other : List UInt8}

/-- A size is read off the front of a list in one way. -/
theorem IsSize.unique {size otherSize : Int} (left : IsSize first size)
    (right : IsSize second otherSize) (same : first ++ rest = second ++ other) :
    size = otherSize ∧ rest = other := by
  have one : takeSize (.reading none) (first ++ rest) = some (size, rest) :=
    takeSize_isSize.mpr ⟨first, rfl, left⟩
  have two : takeSize (.reading none) (first ++ rest) = some (otherSize, other) :=
    takeSize_isSize.mpr ⟨second, same, right⟩
  rw [one] at two
  exact Prod.mk.inj (Option.some.inj two)

theorem Record.EncodedBy.unique {record otherRecord : Record} (left : record.EncodedBy first)
    (right : otherRecord.EncodedBy second) (same : first ++ rest = second ++ other) :
    record = otherRecord ∧ rest = other := by
  obtain ⟨diffSize, extraSize, adjustment, rfl, diffSized, extraSized, adjusted⟩ := left
  obtain ⟨otherDiff, otherExtra, otherAdjustment, rfl, diffOther, extraOther, adjustedOther⟩ :=
    right
  simp only [List.append_assoc] at same
  obtain ⟨diffLength, same⟩ := diffSized.unique diffOther same
  obtain ⟨diff, same⟩ := List.append_inj same (Int.ofNat.inj diffLength)
  obtain ⟨extraLength, same⟩ := extraSized.unique extraOther same
  obtain ⟨extra, same⟩ := List.append_inj same (Int.ofNat.inj extraLength)
  obtain ⟨moved, same⟩ := adjusted.unique adjustedOther same
  refine ⟨?_, same⟩
  cases record
  cases otherRecord
  simp only at diff extra moved
  rw [diff, extra, moved]

/-- No records behind the one that reaches the end. -/
theorem reachesAtEnd_zero {records : List Record} (reaches : ReachesAtEnd records 0) :
    records = [] := by
  by_contra some
  exact reaches.before 0 (List.length_pos_iff.mpr some) rfl

/-- Records that reach the same end are the same, and nothing follows them. -/
theorem RecordsEncodedBy.unique {records others : List Record} {targetSize : Nat}
    (left : RecordsEncodedBy records first) (right : RecordsEncodedBy others second)
    (same : first ++ rest = second) (reaches : ReachesAtEnd records targetSize)
    (reachesOther : ReachesAtEnd others targetSize) : records = others ∧ rest = [] := by
  induction left generalizing others second targetSize with
  | nil =>
      have zero : targetSize = 0 := reaches.total.symm
      subst zero
      have none := reachesAtEnd_zero reachesOther
      subst none
      cases right with
      | nil => exact ⟨rfl, same⟩
  | @cons record records bytes tail encoded _ inductionHypothesis =>
      have total := reaches.total
      rw [totalLength_cons] at total
      subst total
      cases right with
      | nil => exact absurd reachesOther.total (reachesAtEnd_cons.mp reaches).1.ne
      | cons encodedOther others =>
          rw [List.append_assoc] at same
          obtain ⟨rfl, same⟩ := encoded.unique encodedOther same
          have behind {later : List Record}
              (ends : ReachesAtEnd (record :: later) (record.length + totalLength records)) :
              ReachesAtEnd later (totalLength records) := by
            obtain ⟨-, ⟨rfl, zero⟩ | ⟨-, reaches⟩⟩ := reachesAtEnd_cons.mp ends
            · exact ⟨zero.symm, fun count below => absurd below (Nat.not_lt_zero count)⟩
            · exact reaches
          obtain ⟨rfl, none⟩ :=
            inductionHypothesis others same (behind reaches) (behind reachesOther)
          exact ⟨rfl, none⟩

end

/-- Bits behind the padding of a body only add to what it says. -/
theorem unpackBody_append {body rest plain otherPlain : List UInt8} {padding others : List Bool}
    (unpacked : unpackBody body = some (plain, padding))
    (behind : unpackBody (body ++ rest) = some (otherPlain, others)) :
    ∃ more, otherPlain = plain ++ more ∧
      (more = [] → others = padding ++ bitsOfBytes rest) := by
  cases body with
  | nil => cases unpacked
  | cons byte body =>
      by_cases header : byte = heatshrinkHeader
      · subst header
        rw [unpackBody_header] at unpacked
        rw [List.cons_append, unpackBody_header] at behind
        obtain ⟨rfl, rfl⟩ := Prod.mk.inj (Option.some.inj unpacked)
        obtain ⟨rfl, rfl⟩ := Prod.mk.inj (Option.some.inj behind)
        have bits := @Lzss.bits_of_parse 8 7 (bitsOfBytes body)
        have parsed := @Lzss.parse_tokens 8 7 (Lzss.parse 8 7 (bitsOfBytes body)).1
          ((Lzss.parse 8 7 (bitsOfBytes body)).2 ++ bitsOfBytes rest)
        rw [← List.append_assoc, ← bits, ← bitsOfBytes_append] at parsed
        rw [parsed, Lzss.expand_append]
        refine ⟨_, rfl, fun none => ?_⟩
        have whole := @Lzss.bits_of_parse 8 7
          ((Lzss.parse 8 7 (bitsOfBytes body)).2 ++ bitsOfBytes rest)
        rw [Lzss.expand_eq_nil.mp none] at whole
        exact whole.symm
      · rw [unpackBody, if_neg header] at unpacked
        cases unpacked

theorem Header.append {typeByte : UInt8} {declared : Int} {body patch : List UInt8}
    (header : Header typeByte declared body patch) (rest : List UInt8) :
    Header typeByte declared (body ++ rest) (patch ++ rest) := by
  obtain ⟨patchType, sizeBytes, rfl, sized⟩ := header
  exact ⟨patchType, sizeBytes, by simp, sized⟩

/-- A patch that starts with another one says the same and is no longer. -/
theorem Lenient.unambiguous {patch rest : List UInt8} {contents others : Contents}
    (lenient : Lenient patch contents) (longer : Lenient (patch ++ rest) others) :
    rest = [] ∧ contents = others := by
  obtain ⟨firstSize, stream, frames, sized, records⟩ := lenient.encodes.stream
  obtain ⟨otherSize, otherStream, otherFrames, otherSized, otherRecords⟩ :=
    longer.encodes.stream
  obtain ⟨body, padding, header, unpacked, short⟩ := frames_iff.mp frames
  obtain ⟨otherBody, otherPadding, otherHeader, otherUnpacked, otherShort⟩ :=
    frames_iff.mp otherFrames
  obtain ⟨typeByte, declared, rfl⟩ := (header.append rest).unique otherHeader
  obtain ⟨more, plain, padded⟩ := unpackBody_append unpacked otherUnpacked
  rw [List.append_assoc] at plain
  obtain ⟨dfpatchSize, streams⟩ := otherSized.unique sized plain
  have reaches := longer.encodes.reaches
  rw [Contents.targetSize, ← declared] at reaches
  obtain ⟨same, none⟩ :=
    records.unique otherRecords streams.symm lenient.encodes.reaches reaches
  rw [padded none, List.length_append, bitsOfBytes_length] at otherShort
  refine ⟨List.length_eq_zero_iff.mp (by omega), ?_⟩
  cases contents
  cases others
  simp only at typeByte declared dfpatchSize same
  rw [typeByte, declared, dfpatchSize, same]

end DeltaUpdate.Patch
