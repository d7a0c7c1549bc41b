import DeltaUpdate.Patch.Acceptor

/-!
Owns the verdict on a whole patch: the header is split off, the body is decompressed, and
the machine reads the result. A patch is accepted exactly when it says contents whose
records fit.
-/

namespace DeltaUpdate.Patch

open DeltaUpdate.Library

/-! ### The frame of a patch -/

/-- A patch starts with a type byte of the sequential type and a size. -/
structure Header (typeByte : UInt8) (declared : Int) (body patch : List UInt8) : Prop where
  patchType : typeByte >>> 4 &&& 0x7 = 0
  layout : ∃ sizeBytes, patch = typeByte :: (sizeBytes ++ body) ∧ IsSize sizeBytes declared

/-- A patch has one header. -/
theorem Header.unique {typeByte otherByte : UInt8} {declared other : Int}
    {body rest patch : List UInt8} (first : Header typeByte declared body patch)
    (second : Header otherByte other rest patch) :
    typeByte = otherByte ∧ declared = other ∧ body = rest := by
  obtain ⟨firstSize, rfl, firstSized⟩ := first.layout
  obtain ⟨secondSize, same, secondSized⟩ := second.layout
  obtain ⟨sameByte, sameRest⟩ := List.cons.inj same
  have one : takeSize (.reading none) (firstSize ++ body) = some (declared, body) :=
    takeSize_isSize.mpr ⟨firstSize, rfl, firstSized⟩
  have two : takeSize (.reading none) (firstSize ++ body) = some (other, rest) :=
    takeSize_isSize.mpr ⟨secondSize, sameRest, secondSized⟩
  rw [one] at two
  obtain ⟨sameSize, sameBody⟩ := Prod.mk.inj (Option.some.inj two)
  exact ⟨sameByte, sameSize, sameBody⟩

/-- The decompressed bytes of a body, and the bits behind the last token. -/
def unpackBody : List UInt8 → Option (List UInt8 × List Bool)
  | [] => none
  | byte :: rest =>
      if byte = heatshrinkHeader then
        let parsed := Lzss.parse 8 7 (bitsOfBytes rest)
        some (Lzss.expand [] parsed.1, parsed.2)
      else none

theorem unpackBody_header (rest : List UInt8) :
    unpackBody (heatshrinkHeader :: rest) =
      some (Lzss.expand [] (Lzss.parse 8 7 (bitsOfBytes rest)).1,
        (Lzss.parse 8 7 (bitsOfBytes rest)).2) := by
  rw [unpackBody, if_pos rfl]

/-- The frame of a patch is its header and a body that decompresses. -/
theorem frames_iff {typeByte : UInt8} {declared : Int} {plain patch : List UInt8} :
    Frames typeByte declared plain patch ↔
      ∃ body padding, Header typeByte declared body patch ∧
        unpackBody body = some (plain, padding) ∧ padding.length < 8 := by
  constructor
  · intro frames
    obtain ⟨sizeBytes, body, rfl, sized, tokens, padding, bits, short, expanded⟩ := frames.layout
    refine ⟨heatshrinkHeader :: body, padding,
      ⟨frames.patchType, sizeBytes, rfl, sized⟩, ?_, short⟩
    have stuck : Lzss.parse 8 7 padding = ([], padding) :=
      Lzss.parse_of_none (Lzss.nextToken_of_short (by omega) (by decide))
    rw [unpackBody_header, bits, Lzss.parse_tokens, stuck, List.append_nil, expanded]
  · rintro ⟨body, padding, header, unpacked, short⟩
    obtain ⟨sizeBytes, rfl, sized⟩ := header.layout
    cases body with
    | nil => simp [unpackBody] at unpacked
    | cons byte rest =>
        by_cases same : byte = heatshrinkHeader
        · subst same
          rw [unpackBody_header, Option.some.injEq, Prod.mk.injEq] at unpacked
          obtain ⟨expanded, behind⟩ := unpacked
          refine ⟨header.patchType, sizeBytes, rest, rfl, sized,
            (Lzss.parse 8 7 (bitsOfBytes rest)).1, padding, ?_, short, expanded⟩
          rw [← behind]
          exact Lzss.bits_of_parse (bitsOfBytes rest)
        · rw [unpackBody, if_neg same] at unpacked
          exact absurd unpacked (by simp)

/-- A patch says one type, one target size and one first size. -/
theorem Lenient.unique {patch : List UInt8} {first second : Contents}
    (left : Lenient patch first) (right : Lenient patch second) :
    first.typeByte = second.typeByte ∧ first.declared = second.declared ∧
      first.dfpatchSize = second.dfpatchSize := by
  obtain ⟨firstSize, firstStream, firstFrames, firstSized, -⟩ := left.encodes.stream
  obtain ⟨secondSize, secondStream, secondFrames, secondSized, -⟩ := right.encodes.stream
  obtain ⟨firstBody, firstPadding, firstHeader, firstPlain, -⟩ := frames_iff.mp firstFrames
  obtain ⟨secondBody, secondPadding, secondHeader, secondPlain, -⟩ := frames_iff.mp secondFrames
  obtain ⟨typeByte, declared, rfl⟩ := firstHeader.unique secondHeader
  rw [firstPlain, Option.some.injEq, Prod.mk.injEq] at secondPlain
  have one : takeSize (.reading none) (firstSize ++ firstStream) =
      some (first.dfpatchSize, firstStream) := takeSize_isSize.mpr ⟨firstSize, rfl, firstSized⟩
  have two : takeSize (.reading none) (firstSize ++ firstStream) =
      some (second.dfpatchSize, secondStream) :=
    takeSize_isSize.mpr ⟨secondSize, secondPlain.1, secondSized⟩
  rw [one, Option.some.injEq, Prod.mk.injEq] at two
  exact ⟨typeByte, declared, two.1⟩

/-! ### The verdict -/

/-- The machine accepts the body of a patch. -/
structure Accepts (task : Task) (plain : List UInt8) (padding : List Bool) : Prop where
  short : padding.length < 8
  done : (feedAll task startProgress plain).position = .done

/-- A patch with records that fit is accepted, and the target of the records is put out. -/
theorem Lenient.accepted {task : Task} {patch : List UInt8} {contents : Contents}
    (lenient : Lenient patch contents) (size : task.targetSize = contents.targetSize)
    (fits : FitsFrom task.low task.high 0 contents.records) :
    ∃ body plain padding, Header contents.typeByte contents.declared body patch ∧
      unpackBody body = some (plain, padding) ∧ Accepts task plain padding ∧
      (feedAll task startProgress plain).output = target task.source contents.records := by
  obtain ⟨firstSize, stream, frames, sized, encoded⟩ := lenient.encodes.stream
  have reaches := lenient.encodes.reaches
  obtain ⟨body, padding, header, unpacked, short⟩ := frames_iff.mp frames
  have nonempty : 0 < task.targetSize := by
    rw [size]
    exact Int.natAbs_pos.mpr lenient.nonzero
  rw [← size] at reaches
  refine ⟨body, _, padding, header, unpacked, ⟨short, ?_⟩, ?_⟩
  · exact (accepts_iff nonempty _).mpr ⟨firstSize, stream, contents.dfpatchSize, contents.records,
      rfl, sized, lenient.dfpatchSize, encoded, reaches, fits⟩
  · exact accepted_output nonempty sized lenient.dfpatchSize encoded reaches fits

/-- A patch that is accepted says contents whose records fit. -/
theorem contents_of_accepts {task : Task} {typeByte : UInt8} {declared : Int}
    {body plain patch : List UInt8} {padding : List Bool}
    (header : Header typeByte declared body patch)
    (unpacked : unpackBody body = some (plain, padding)) (nonzero : declared ≠ 0)
    (size : task.targetSize = declared.natAbs) (accepts : Accepts task plain padding) :
    ∃ contents, Lenient patch contents ∧ contents.declared = declared ∧
      FitsFrom task.low task.high 0 contents.records := by
  have nonempty : 0 < task.targetSize := by
    rw [size]
    exact Int.natAbs_pos.mpr nonzero
  obtain ⟨firstSize, stream, dfpatchSize, records, rfl, sized, nonpositive, encoded, reaches,
    fits⟩ := (accepts_iff nonempty plain).mp accepts.done
  refine ⟨⟨typeByte, declared, dfpatchSize, records⟩, ⟨⟨?_, ?_⟩, nonzero, nonpositive⟩, rfl, fits⟩
  · exact ⟨firstSize, stream, frames_iff.mpr ⟨body, padding, header, unpacked, accepts.short⟩,
      sized, encoded⟩
  · rw [size] at reaches
    exact reaches

end DeltaUpdate.Patch
