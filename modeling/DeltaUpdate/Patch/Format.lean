import DeltaUpdate.Library.Lzss

/-!
Owns the patch format: signed sizes, records, the frame around the compressed
stream, and the target that the records build from a source. These definitions say
what a patch is; nothing here reads one.
-/

namespace DeltaUpdate.Patch

open DeltaUpdate.Library

/-! ### Sizes -/

/-- Every byte but the last has its top bit set. -/
def Terminated : List UInt8 → Prop
  | [] => False
  | [last] => last.toNat < 128
  | byte :: next :: rest => 128 ≤ byte.toNat ∧ Terminated (next :: rest)

instance decidableTerminated : (bytes : List UInt8) → Decidable (Terminated bytes)
  | [] => isFalse id
  | [last] => inferInstanceAs (Decidable (last.toNat < 128))
  | byte :: next :: rest =>
      have := decidableTerminated (next :: rest)
      inferInstanceAs (Decidable (128 ≤ byte.toNat ∧ Terminated (next :: rest)))

/-- The number behind groups of seven bits, the least significant group first. -/
def groups : List UInt8 → Nat
  | [] => 0
  | byte :: rest => byte.toNat % 128 + 128 * groups rest

/-- The number behind a size: the first byte holds six bits and, above them, the sign. -/
def sizeValue : List UInt8 → Int
  | [] => 0
  | first :: rest =>
      let magnitude := first.toNat % 64 + 64 * groups rest
      if first.toNat.testBit 6 then -(magnitude : Int) else magnitude

/-- The bytes are a size of at most four bytes. -/
structure IsSize (bytes : List UInt8) (size : Int) : Prop where
  terminated : Terminated bytes
  short : bytes.length ≤ 4
  value : sizeValue bytes = size

/-! ### Records -/

/-- A record: bytes to add to the source, bytes of its own, and the move of the source. -/
structure Record where
  diff : List UInt8
  extra : List UInt8
  adjustment : Int
deriving DecidableEq, Repr

/-- The bytes a record adds to the target. -/
def Record.length (record : Record) : Nat := record.diff.length + record.extra.length

/-- The bytes encode the record. -/
def Record.EncodedBy (record : Record) (bytes : List UInt8) : Prop :=
  ∃ diffSize extraSize adjustment,
    bytes = diffSize ++ record.diff ++ (extraSize ++ record.extra) ++ adjustment ∧
      IsSize diffSize record.diff.length ∧ IsSize extraSize record.extra.length ∧
      IsSize adjustment record.adjustment

/-- The bytes encode the records, one after the other. -/
inductive RecordsEncodedBy : List Record → List UInt8 → Prop
  | nil : RecordsEncodedBy [] []
  | cons {record : Record} {records : List Record} {bytes rest : List UInt8}
      (first : record.EncodedBy bytes) (others : RecordsEncodedBy records rest) :
      RecordsEncodedBy (record :: records) (bytes ++ rest)

/-- The bytes that records add to the target. -/
def totalLength (records : List Record) : Nat := (records.map Record.length).sum

/-- The total reaches the target size at the end of the last record and not before. -/
structure ReachesAtEnd (records : List Record) (targetSize : Nat) : Prop where
  total : totalLength records = targetSize
  before : ∀ count < records.length, totalLength (records.take count) ≠ targetSize

/-! ### The target -/

/-- The bytes of a record over a source, with the source at a position. -/
def Record.output (record : Record) (source : Int → UInt8) (position : Int) : List UInt8 :=
  (record.diff.mapIdx fun index byte => byte + source (position + index)) ++ record.extra

/-- The source position behind a record. -/
def Record.positionAfter (record : Record) (position : Int) : Int :=
  position + record.diff.length + record.adjustment

/-- The target that records build from a source, from a position on. -/
def targetFrom (source : Int → UInt8) (position : Int) : List Record → List UInt8
  | [] => []
  | record :: records =>
      record.output source position ++ targetFrom source (record.positionAfter position) records

/-- The target of records over a source. -/
def target (source : Int → UInt8) (records : List Record) : List UInt8 :=
  targetFrom source 0 records

/-- Every diff read ends below `high`, and every record leaves the source between `low`
and `high`. -/
def FitsFrom (low high position : Int) : List Record → Prop
  | [] => True
  | record :: records =>
      (record.diff ≠ [] → position + record.diff.length < high) ∧
        (low ≤ record.positionAfter position ∧ record.positionAfter position < high) ∧
        FitsFrom low high (record.positionAfter position) records

/-- Records that fit between two ends fit between wider ones. -/
theorem FitsFrom.mono {low lower high higher position : Int} {records : List Record}
    (fits : FitsFrom low high position records) (earlier : lower ≤ low) (later : high ≤ higher) :
    FitsFrom lower higher position records := by
  induction records generalizing position with
  | nil => trivial
  | cons record records inductionHypothesis =>
      obtain ⟨reads, ⟨above, below⟩, rest⟩ := fits
      exact ⟨fun some => (reads some).trans_le later,
        ⟨earlier.trans above, below.trans_le later⟩,
        inductionHypothesis rest⟩

/-! ### Patches -/

/-- The byte behind the target size: a window of 8 bits and a lookahead of 7. -/
def heatshrinkHeader : UInt8 := 0x44

/-- A token of the compressed stream. -/
abbrev Token := Lzss.Token 8 7

/-- The token of sixteen clear bits: the last byte once more. -/
def againToken : Token := .repeatLast ⟨0, by decide⟩

theorem bitsOfBytes_zeros (count : Nat) :
    bitsOfBytes (List.replicate (2 * count) 0) =
      (List.replicate count againToken).flatMap Lzss.Token.bits := by
  induction count with
  | zero => rfl
  | succ count inductionHypothesis =>
      rw [Nat.mul_succ, Nat.add_comm, List.replicate_add, bitsOfBytes_append, inductionHypothesis,
        List.replicate_succ (n := count), List.flatMap_cons]
      rfl

/-- A patch file: a type byte of the sequential type, the target size, the header of the
compression, and a compressed stream with less than a byte of padding. -/
structure Frames (typeByte : UInt8) (declared : Int) (plain patch : List UInt8) : Prop where
  patchType : typeByte >>> 4 &&& 0x7 = 0
  layout : ∃ sizeBytes body, patch = typeByte :: (sizeBytes ++ heatshrinkHeader :: body) ∧
    IsSize sizeBytes declared ∧
    ∃ (tokens : List Token) (padding : List Bool),
      bitsOfBytes body = tokens.flatMap Lzss.Token.bits ++ padding ∧ padding.length < 8 ∧
        Lzss.expand [] tokens = plain

/-- What a patch says. -/
structure Contents where
  typeByte : UInt8
  declared : Int
  dfpatchSize : Int
  records : List Record
deriving DecidableEq, Repr

/-- The target size without its sign. -/
def Contents.targetSize (contents : Contents) : Nat := contents.declared.natAbs

/-- The patch says the contents, and its records fill the target. -/
structure Encodes (patch : List UInt8) (contents : Contents) : Prop where
  stream : ∃ firstSize stream,
    Frames contents.typeByte contents.declared (firstSize ++ stream) patch ∧
      IsSize firstSize contents.dfpatchSize ∧ RecordsEncodedBy contents.records stream
  reaches : ReachesAtEnd contents.records contents.targetSize

/-- A patch of the format that the build supports. -/
structure WellFormed (patch : List UInt8) (contents : Contents) : Prop where
  encodes : Encodes patch contents
  compression : contents.typeByte &&& 0xf = 4
  positive : 0 < contents.declared
  dfpatchSize : contents.dfpatchSize = 0

/-- A patch of that format but for the compression, the sign of the target size, and a first
size that may be negative. -/
structure Lenient (patch : List UInt8) (contents : Contents) : Prop where
  encodes : Encodes patch contents
  nonzero : contents.declared ≠ 0
  dfpatchSize : contents.dfpatchSize ≤ 0

theorem WellFormed.lenient {patch : List UInt8} {contents : Contents}
    (formed : WellFormed patch contents) : Lenient patch contents :=
  ⟨formed.encodes, formed.positive.ne', formed.dfpatchSize.le⟩

/-! ### Lengths -/

theorem Record.output_length (record : Record) (source : Int → UInt8) (position : Int) :
    (record.output source position).length = record.length := by
  simp [Record.output, Record.length]

/-- The target is as long as the records say. -/
theorem targetFrom_length (source : Int → UInt8) (position : Int) (records : List Record) :
    (targetFrom source position records).length = totalLength records := by
  induction records generalizing position with
  | nil => rfl
  | cons record records inductionHypothesis =>
      rw [targetFrom, List.length_append, inductionHypothesis, Record.output_length]
      simp [totalLength]

/-- The target depends on the source only where the records read it. -/
theorem targetFrom_congr {first second : Int → UInt8} {low high position : Int}
    {records : List Record}
    (same : ∀ position, low ≤ position → position < high → first position = second position)
    (above : low ≤ position) (fits : FitsFrom low high position records) :
    targetFrom first position records = targetFrom second position records := by
  induction records generalizing position with
  | nil => rfl
  | cons record records inductionHypothesis =>
      obtain ⟨reads, ⟨next, -⟩, others⟩ := fits
      rw [targetFrom, targetFrom, inductionHypothesis next others]
      refine congrArg (· ++ _) (congrArg (· ++ _) (List.mapIdx_eq_mapIdx_iff.mpr ?_))
      intro index within
      have below := reads (List.ne_nil_of_length_pos (by omega))
      rw [same _ (by omega) (by omega)]

theorem totalLength_cons (record : Record) (records : List Record) :
    totalLength (record :: records) = record.length + totalLength records := by
  simp [totalLength]

/-- What the first record leaves for the others to reach. -/
theorem reachesAtEnd_cons {record : Record} {records : List Record} {targetSize : Nat} :
    ReachesAtEnd (record :: records) (record.length + targetSize) ↔
      (0 < record.length + targetSize) ∧
        (records = [] ∧ targetSize = 0 ∨ 0 < targetSize ∧ ReachesAtEnd records targetSize) := by
  constructor
  · intro reaches
    have start := reaches.before 0 (Nat.succ_pos _)
    have total := reaches.total
    rw [totalLength_cons] at total
    refine ⟨Nat.pos_of_ne_zero fun zero => start (by simp [totalLength, zero]), ?_⟩
    cases records with
    | nil =>
        left
        refine ⟨rfl, ?_⟩
        simp only [totalLength, List.map_nil, List.sum_nil] at total
        omega
    | cons next rest =>
        right
        refine ⟨Nat.pos_of_ne_zero fun zero => ?_, by omega, fun count below reached => ?_⟩
        · apply reaches.before 1 (by simp)
          simp [totalLength, zero]
        · apply reaches.before (count + 1) (by simpa using below)
          rw [List.take_succ_cons, totalLength_cons, reached]
  · rintro ⟨positive, ⟨rfl, rfl⟩ | ⟨more, reaches⟩⟩
    · refine ⟨by simp [totalLength], fun count below => ?_⟩
      have first : count = 0 := by simpa using below
      subst first
      simp only [List.take_zero, totalLength, List.map_nil, List.sum_nil]
      omega
    · refine ⟨by rw [totalLength_cons, reaches.total], fun count below => ?_⟩
      cases count with
      | zero =>
          simp only [List.take_zero, totalLength, List.map_nil, List.sum_nil]
          omega
      | succ count =>
          rw [List.take_succ_cons, totalLength_cons]
          have other := reaches.before count (by simpa using below)
          omega

end DeltaUpdate.Patch
