import DeltaUpdate.Patch.Sizes

/-!
Owns a machine that reads the decompressed stream of a patch one byte at a time. It
is what the engine is compared with: it may stop between any two bytes, and it knows
no chunks and no blocks. It accepts exactly the streams of the format whose records
fit, and what it puts out is the target of the records.
-/

namespace DeltaUpdate.Patch

/-- The two parts of a record that carry bytes. -/
inductive Part where
  | diff
  | extra
deriving DecidableEq, Repr

/-- The sizes of a stream. -/
inductive Field where
  | dfpatch
  | part (part : Part)
  | adjustment
deriving DecidableEq, Repr

/-- The size behind the bytes of a part. -/
def Part.next : Part → Field
  | .diff => .part .extra
  | .extra => .adjustment

/-- Where the machine stands. -/
inductive Position where
  | size (field : Field) (part : Option PartialSize)
  | bytes (part : Part) (left : Nat)
  | done
  | failed
deriving DecidableEq, Repr

/-- The state of the machine: where it stands, the position in the source and the bytes
put out. -/
structure Progress where
  position : Position
  source : Int
  output : List UInt8

/-- The stream is not accepted. -/
def Progress.fail (progress : Progress) : Progress := { progress with position := .failed }

/-- Where the machine stands with `left` bytes of a part to come. -/
def partPosition (part : Part) (left : Nat) : Position :=
  if left = 0 then .size part.next none else .bytes part left

/-- What a stream is read for: the size of the target, the source, and the bounds on the
position in the source. -/
structure Task where
  targetSize : Nat
  source : Int → UInt8
  low : Int
  high : Int

/-- A size has been read. -/
def Progress.sized (task : Task) (progress : Progress) (field : Field) (size : Int) : Progress :=
  match field with
  | .dfpatch =>
      if size ≤ 0 then { progress with position := .size (.part .diff) none } else progress.fail
  | .part part =>
      if 0 ≤ size ∧ progress.output.length + size.toNat ≤ task.targetSize then
        { progress with position := partPosition part size.toNat }
      else progress.fail
  | .adjustment =>
      if task.low ≤ progress.source + size ∧ progress.source + size < task.high then
        { progress with
          source := progress.source + size
          position :=
            if progress.output.length = task.targetSize then .done
            else .size (.part .diff) none }
      else progress.fail

/-- Bytes of a part have been read. -/
def Progress.put (task : Task) (progress : Progress) (part : Part) (data : List UInt8) :
    Progress :=
  match part with
  | .diff =>
      { progress with
        source := progress.source + data.length
        output := progress.output ++
          data.mapIdx fun index byte => byte + task.source (progress.source + index) }
  | .extra => { progress with output := progress.output ++ data }

/-- Bytes of a part may be read: the source reaches. -/
def Progress.Reads (task : Task) (progress : Progress) (part : Part) (count : Nat) : Prop :=
  part = .diff → progress.source + count < task.high

instance (task : Task) (progress : Progress) (part : Part) (count : Nat) :
    Decidable (progress.Reads task part count) := by
  unfold Progress.Reads
  infer_instance

/-- One byte of the stream. -/
def feed (task : Task) (progress : Progress) (byte : UInt8) : Progress :=
  match progress.position with
  | .size field part =>
      match sizeStep (.reading part) byte with
      | .reading part => { progress with position := .size field part }
      | .value size => progress.sized task field size
      | .overflow => progress.fail
  | .bytes part left =>
      if progress.Reads task part 1 then
        { progress.put task part [byte] with position := partPosition part (left - 1) }
      else progress.fail
  | .done | .failed => progress.fail

/-- All bytes of a stream. -/
def feedAll (task : Task) (progress : Progress) (bytes : List UInt8) : Progress :=
  bytes.foldl (feed task) progress

/-- The machine before the stream. -/
def startProgress : Progress where
  position := .size .dfpatch none
  source := 0
  output := []

@[simp] theorem feedAll_nil (task : Task) (progress : Progress) :
    feedAll task progress [] = progress := rfl

@[simp] theorem feedAll_cons (task : Task) (progress : Progress) (byte : UInt8)
    (bytes : List UInt8) :
    feedAll task progress (byte :: bytes) = feedAll task (feed task progress byte) bytes := rfl

@[simp] theorem feedAll_append (task : Task) (progress : Progress) (first second : List UInt8) :
    feedAll task progress (first ++ second) = feedAll task (feedAll task progress first) second :=
  List.foldl_append

section

variable {task : Task} {progress : Progress}

/-! ### The end of a stream -/

theorem feed_ended (ended : progress.position = .done ∨ progress.position = .failed)
    (byte : UInt8) : feed task progress byte = progress.fail := by
  unfold feed
  rcases ended with done | failed
  · rw [done]
  · rw [failed]

/-- A failed machine does not accept. -/
theorem feedAll_failed (failed : progress.position = .failed) (bytes : List UInt8) :
    (feedAll task progress bytes).position = .failed := by
  induction bytes generalizing progress with
  | nil => exact failed
  | cons byte bytes inductionHypothesis =>
      rw [feedAll_cons, feed_ended (Or.inr failed)]
      exact inductionHypothesis rfl

/-- Nothing may follow the last record. -/
theorem feedAll_done (done : progress.position = .done) {bytes : List UInt8}
    (more : bytes ≠ []) : (feedAll task progress bytes).position = .failed := by
  cases bytes with
  | nil => exact absurd rfl more
  | cons byte bytes =>
      rw [feedAll_cons, feed_ended (Or.inl done)]
      exact feedAll_failed rfl bytes

/-! ### Sizes -/

theorem feed_size (task : Task) {field : Field} {part : Option PartialSize}
    (position : progress.position = .size field part) (byte : UInt8) :
    feed task progress byte =
      match sizeStep (.reading part) byte with
      | .reading next => { progress with position := .size field next }
      | .value size => progress.sized task field size
      | .overflow => progress.fail := by
  unfold feed
  rw [position]

/-- The first bytes of a size. -/
theorem feedAll_reading {field : Field} {part next : Option PartialSize}
    (position : progress.position = .size field part) {bytes : List UInt8}
    (read : sizeFold (.reading part) bytes = .reading next) :
    feedAll task progress bytes = { progress with position := .size field next } := by
  induction bytes generalizing progress part with
  | nil =>
      rw [sizeFold_nil, SizeState.reading.injEq] at read
      rw [feedAll_nil, ← read, ← position]
  | cons byte bytes inductionHypothesis =>
      have step := feed_size task position byte
      rw [sizeFold_cons] at read
      rw [feedAll_cons]
      cases first : sizeStep (.reading part) byte with
      | reading middle =>
          rw [first] at step read
          rw [step]
          exact inductionHypothesis rfl read
      | value size =>
          rw [first] at read
          cases bytes with
          | nil => simp at read
          | cons other rest =>
              rw [sizeFold_cons, sizeStep, sizeFold_overflow] at read
              simp at read
      | overflow =>
          rw [first, sizeFold_overflow] at read
          simp at read

/-- All bytes of a size. -/
theorem feedAll_value {field : Field} {part : Option PartialSize}
    (position : progress.position = .size field part) {bytes : List UInt8} {size : Int}
    (read : sizeFold (.reading part) bytes = .value size) :
    feedAll task progress bytes = progress.sized task field size := by
  induction bytes generalizing progress part with
  | nil => simp at read
  | cons byte bytes inductionHypothesis =>
      have step := feed_size task position byte
      rw [sizeFold_cons] at read
      rw [feedAll_cons]
      cases first : sizeStep (.reading part) byte with
      | reading middle =>
          rw [first] at step read
          rw [step, inductionHypothesis rfl read]
          cases field <;> rfl
      | value found =>
          rw [first] at step read
          obtain ⟨rfl, rfl⟩ := sizeFold_value read
          rw [step, feedAll_nil]
      | overflow =>
          rw [first, sizeFold_overflow] at read
          simp at read

/-- A size of more than four bytes. -/
theorem feedAll_overflow {field : Field} {part next : Option PartialSize}
    (position : progress.position = .size field part) {bytes : List UInt8} {byte : UInt8}
    (read : sizeFold (.reading part) bytes = .reading next)
    (exceeds : sizeStep (.reading next) byte = .overflow) :
    (feedAll task progress (bytes ++ [byte])).position = .failed := by
  rw [feedAll_append, feedAll_reading position read, feedAll_cons, feed_size task rfl, exceeds]
  rfl

/-- A stream that is accepted goes on with a size where one is due. -/
theorem feedAll_size_split {field : Field} {part : Option PartialSize}
    (position : progress.position = .size field part) {bytes : List UInt8}
    (accepted : (feedAll task progress bytes).position = .done) :
    ∃ front rest size, bytes = front ++ rest ∧ sizeFold (.reading part) front = .value size ∧
      feedAll task progress bytes = feedAll task (progress.sized task field size) rest := by
  induction bytes generalizing progress part with
  | nil =>
      rw [feedAll_nil, position] at accepted
      exact absurd accepted (by simp)
  | cons byte bytes inductionHypothesis =>
      have step := feed_size task position byte
      rw [feedAll_cons] at accepted ⊢
      cases first : sizeStep (.reading part) byte with
      | reading middle =>
          rw [first] at step
          rw [step] at accepted ⊢
          obtain ⟨front, rest, size, rfl, read, same⟩ := inductionHypothesis rfl accepted
          refine ⟨byte :: front, rest, size, rfl, by rw [sizeFold_cons, first, read], ?_⟩
          rw [same]
          cases field <;> rfl
      | value size =>
          rw [first] at step
          exact ⟨[byte], bytes, size, rfl, by rw [sizeFold_cons, first, sizeFold_nil],
            by rw [step]⟩
      | overflow =>
          rw [first] at step
          rw [step, feedAll_failed rfl] at accepted
          exact absurd accepted (by simp)

/-! ### Parts -/

/-- The machine with bytes of a part to come. -/
theorem feed_bytes {part : Part} {left : Nat}
    (position : progress.position = .bytes part left) (byte : UInt8) :
    feed task progress byte =
      if progress.Reads task part 1 then
        { progress.put task part [byte] with position := partPosition part (left - 1) }
      else progress.fail := by
  unfold feed
  rw [position]

/-- Putting bytes one at a time. -/
theorem put_cons (part : Part) (byte : UInt8) (data : List UInt8) :
    progress.put task part (byte :: data) =
      (progress.put task part [byte]).put task part data := by
  cases part with
  | diff =>
      have shift : (fun (index : Nat) (byte : UInt8) =>
          byte + task.source (progress.source + (index + 1 : Nat))) =
          fun (index : Nat) (byte : UInt8) =>
            byte + task.source (progress.source + (1 : Nat) + index) := by
        funext index byte
        congr 2
        push_cast
        ring
      simp only [Progress.put, List.mapIdx_cons, List.mapIdx_nil, List.length_cons,
        List.length_nil, List.append_assoc, List.cons_append, List.nil_append, Nat.zero_add,
        shift]
      congr 1
      push_cast
      ring
  | extra => simp [Progress.put]

/-- Bytes of a part, as many as are to come or fewer. -/
theorem feedAll_part {part : Part} {left : Nat} {data : List UInt8}
    (position : progress.position = partPosition part left) (within : data.length ≤ left)
    (reads : data ≠ [] → progress.Reads task part data.length) :
    feedAll task progress data =
      { progress.put task part data with position := partPosition part (left - data.length) } := by
  induction data generalizing progress left with
  | nil =>
      rw [feedAll_nil, List.length_nil, Nat.sub_zero, ← position]
      cases part <;> simp [Progress.put]
  | cons byte data inductionHypothesis =>
      rw [List.length_cons] at within
      have first : progress.position = .bytes part left := by
        rw [position, partPosition, if_neg (by omega)]
      have readable := reads (List.cons_ne_nil byte data)
      rw [List.length_cons] at readable
      have one : progress.Reads task part 1 := by
        intro diff
        have bound := readable diff
        push_cast at bound ⊢
        omega
      have rest : data ≠ [] →
          ({ progress.put task part [byte] with position := partPosition part (left - 1) } :
            Progress).Reads task part data.length := by
        rintro - rfl
        have bound := readable rfl
        simp only [Progress.put, List.length_cons, List.length_nil]
        push_cast at bound ⊢
        omega
      rw [feedAll_cons, feed_bytes first, if_pos one,
        inductionHypothesis rfl (by omega) rest, @put_cons task progress part byte data,
        List.length_cons, show left - 1 - data.length = left - (data.length + 1) by omega]
      cases part <;> rfl

/-- Bytes of a part that the source does not reach. -/
theorem feedAll_outside {part : Part} {left : Nat} {data : List UInt8}
    (position : progress.position = partPosition part left) (within : data.length ≤ left)
    (some : data ≠ []) (outside : ¬ progress.Reads task part data.length) :
    (feedAll task progress data).position = .failed := by
  induction data generalizing progress left with
  | nil => exact absurd rfl some
  | cons byte data inductionHypothesis =>
      rw [List.length_cons] at within
      have first : progress.position = .bytes part left := by
        rw [position, partPosition, if_neg (by omega)]
      rw [feedAll_cons, feed_bytes first]
      by_cases one : progress.Reads task part 1
      · rw [if_pos one]
        by_cases last : data = []
        · subst last
          exact absurd one outside
        · refine inductionHypothesis rfl (by omega) last fun rest => outside ?_
          rintro rfl
          have bound := rest rfl
          simp only [Progress.put, List.length_cons, List.length_nil] at bound ⊢
          push_cast at bound ⊢
          omega
      · rw [if_neg one]
        exact feedAll_failed rfl data

/-- A stream that is accepted goes on with the bytes of a part. -/
theorem feedAll_part_split {part : Part} {left : Nat} {bytes : List UInt8}
    (position : progress.position = partPosition part left)
    (accepted : (feedAll task progress bytes).position = .done) :
    left ≤ bytes.length ∧ (0 < left → progress.Reads task part left) ∧
      feedAll task progress bytes =
        feedAll task { progress.put task part (bytes.take left) with
          position := .size part.next none } (bytes.drop left) := by
  have whole : bytes.take left ++ bytes.drop left = bytes := List.take_append_drop _ _
  rw [← whole, feedAll_append] at accepted
  by_cases reads : bytes.take left ≠ [] → progress.Reads task part (bytes.take left).length
  · have taken := feedAll_part position (by simp) reads
    rw [taken] at accepted
    by_cases enough : left ≤ bytes.length
    · have length : (bytes.take left).length = left := by simp [enough]
      rw [length] at taken reads
      refine ⟨enough, fun positive => reads fun none => ?_, ?_⟩
      · rw [none, List.length_nil] at length
        omega
      · rw [Nat.sub_self] at taken
        conv => lhs; rw [← whole, feedAll_append, taken]
        rfl
    · -- the stream ends within the part
      have all : bytes.take left = bytes := List.take_of_length_le (by omega)
      rw [all, List.drop_of_length_le (by omega), feedAll_nil, partPosition,
        if_neg (by omega)] at accepted
      exact absurd accepted (by simp)
  · rw [Classical.not_imp] at reads
    have failed := feedAll_outside position (by simp) reads.1 reads.2
    rw [feedAll_failed failed] at accepted
    exact absurd accepted (by simp)

/-! ### Records -/

/-- A size of a part that fits. -/
theorem sized_part {part : Part} {size : Nat}
    (fits : progress.output.length + size ≤ task.targetSize) :
    progress.sized task (.part part) size =
      { progress with position := partPosition part size } := by
  simp only [Progress.sized, Int.toNat_natCast]
  rw [if_pos ⟨Int.natCast_nonneg size, fits⟩]

/-- An adjustment to a position between the bounds. -/
theorem sized_adjustment {size : Int}
    (inside : task.low ≤ progress.source + size ∧ progress.source + size < task.high) :
    progress.sized task .adjustment size =
      { progress with
        source := progress.source + size
        position :=
          if progress.output.length = task.targetSize then .done
          else .size (.part .diff) none } := if_pos inside

/-- A size of a part that the machine does not take. -/
theorem sized_part_failed {part : Part} {size : Int}
    (long : ¬ (0 ≤ size ∧ progress.output.length + size.toNat ≤ task.targetSize)) :
    (progress.sized task (.part part) size).position = .failed := by
  simp only [Progress.sized]
  rw [if_neg long]
  rfl

theorem sized_adjustment_failed {size : Int}
    (outside : ¬ (task.low ≤ progress.source + size ∧ progress.source + size < task.high)) :
    (progress.sized task .adjustment size).position = .failed := by
  simp only [Progress.sized]
  rw [if_neg outside]
  rfl

theorem sized_dfpatch_failed {size : Int} (positive : 0 < size) :
    (progress.sized task .dfpatch size).position = .failed := by
  simp only [Progress.sized]
  rw [if_neg (not_le.mpr positive)]
  rfl

/-- The machine behind a record. -/
def Progress.afterRecord (task : Task) (progress : Progress) (record : Record) : Progress where
  position :=
    if progress.output.length + record.length = task.targetSize then .done
    else .size (.part .diff) none
  source := record.positionAfter progress.source
  output := progress.output ++ record.output task.source progress.source

/-- The source is read below the upper bound and left between the bounds. -/
structure RecordFits (task : Task) (position : Int) (record : Record) : Prop where
  reads : record.diff ≠ [] → position + record.diff.length < task.high
  low : task.low ≤ record.positionAfter position
  high : record.positionAfter position < task.high

/-- The size and the bytes of a part. -/
theorem feedAll_block {part : Part} {sizeBytes data : List UInt8}
    (position : progress.position = .size (.part part) none)
    (sized : IsSize sizeBytes data.length)
    (room : progress.output.length + data.length ≤ task.targetSize)
    (reads : data ≠ [] → progress.Reads task part data.length) :
    feedAll task progress (sizeBytes ++ data) =
      { progress.put task part data with position := .size part.next none } := by
  have reads' : data ≠ [] →
      ({ progress with position := partPosition part data.length } : Progress).Reads
        task part data.length := reads
  rw [← sizeFold_iff] at sized
  rw [feedAll_append, feedAll_value position sized, sized_part room,
    feedAll_part rfl (le_refl _) reads', Nat.sub_self]
  cases part <;> rfl

/-- The bytes of a record that fits. -/
theorem feedAll_record {record : Record} {bytes : List UInt8}
    (position : progress.position = .size (.part .diff) none) (encoded : record.EncodedBy bytes)
    (room : progress.output.length + record.length ≤ task.targetSize)
    (fits : RecordFits task progress.source record) :
    feedAll task progress bytes = progress.afterRecord task record := by
  obtain ⟨diffSize, extraSize, adjustment, rfl, diffSized, extraSized, adjusted⟩ := encoded
  rw [← sizeFold_iff] at adjusted
  unfold Record.length at room
  have low := fits.low
  have high := fits.high
  unfold Record.positionAfter at low high
  have diff := feedAll_block position diffSized (by omega) fun some _ => fits.reads some
  have last : Part.extra.next = .adjustment := rfl
  rw [feedAll_append, feedAll_append task progress (diffSize ++ record.diff), diff,
    feedAll_block rfl extraSized
      (by simp only [Progress.put, List.length_append, List.length_mapIdx]; omega)
      (fun _ diff => absurd diff (by decide)),
    last, feedAll_value rfl adjusted, sized_adjustment ⟨low, high⟩]
  simp only [Progress.put, Progress.afterRecord, Record.positionAfter, Record.output, Record.length,
    List.length_append, List.length_mapIdx, List.append_assoc]
  rfl

/-- A stream that is accepted goes on with the size and the bytes of a part. -/
theorem feedAll_block_split {part : Part} {bytes : List UInt8}
    (position : progress.position = .size (.part part) none)
    (accepted : (feedAll task progress bytes).position = .done) :
    ∃ sizeBytes data rest, bytes = sizeBytes ++ data ++ rest ∧ sizeBytes ≠ [] ∧
      IsSize sizeBytes data.length ∧ progress.output.length + data.length ≤ task.targetSize ∧
      (data ≠ [] → progress.Reads task part data.length) ∧
      feedAll task progress bytes =
        feedAll task { progress.put task part data with position := .size part.next none }
          rest := by
  obtain ⟨sizeBytes, rest, size, rfl, sized, same⟩ := feedAll_size_split position accepted
  have nonempty : sizeBytes ≠ [] := by
    rintro rfl
    simp at sized
  rw [same] at accepted
  by_cases fits : 0 ≤ size ∧ progress.output.length + size.toNat ≤ task.targetSize
  · have moved : progress.sized task (.part part) size =
        { progress with position := partPosition part size.toNat } := by
      simp only [Progress.sized, if_pos fits]
    rw [moved] at accepted same
    obtain ⟨enough, reads, split⟩ := feedAll_part_split rfl accepted
    have length : (rest.take size.toNat).length = size.toNat := by simp [enough]
    refine ⟨sizeBytes, rest.take size.toNat, rest.drop size.toNat, ?_, nonempty, ?_, ?_, ?_, ?_⟩
    · rw [List.append_assoc, List.take_append_drop]
    · rw [length, Int.toNat_of_nonneg fits.1]
      exact (sizeFold_iff _ _).mp sized
    · rw [length]
      exact fits.2
    · intro some diff
      rw [length]
      refine reads ?_ diff
      rw [← length]
      exact List.length_pos_iff.mpr some
    · rw [same, split]
      cases part <;> rfl
  · have failed : progress.sized task (.part part) size = progress.fail := by
      simp only [Progress.sized, if_neg fits]
    rw [failed, feedAll_failed rfl] at accepted
    exact absurd accepted (by simp)

/-- A stream that is accepted goes on with the adjustment that ends a record. -/
theorem feedAll_adjustment_split {bytes : List UInt8}
    (position : progress.position = .size .adjustment none)
    (accepted : (feedAll task progress bytes).position = .done) :
    ∃ sizeBytes rest size, bytes = sizeBytes ++ rest ∧ IsSize sizeBytes size ∧
      (task.low ≤ progress.source + size ∧ progress.source + size < task.high) ∧
      feedAll task progress bytes = feedAll task { progress with
        source := progress.source + size
        position :=
          if progress.output.length = task.targetSize then .done
          else .size (.part .diff) none } rest := by
  obtain ⟨sizeBytes, rest, size, rfl, sized, same⟩ := feedAll_size_split position accepted
  rw [same] at accepted
  by_cases inside : task.low ≤ progress.source + size ∧ progress.source + size < task.high
  · refine ⟨sizeBytes, rest, size, rfl, (sizeFold_iff _ _).mp sized, inside, ?_⟩
    rw [same, sized_adjustment inside]
  · have failed : progress.sized task .adjustment size = progress.fail := by
      simp only [Progress.sized, if_neg inside]
    rw [failed, feedAll_failed rfl] at accepted
    exact absurd accepted (by simp)

/-- A stream that is accepted goes on with a record that fits. -/
theorem feedAll_record_split {bytes : List UInt8}
    (position : progress.position = .size (.part .diff) none)
    (accepted : (feedAll task progress bytes).position = .done) :
    ∃ record front rest, bytes = front ++ rest ∧ front ≠ [] ∧ record.EncodedBy front ∧
      progress.output.length + record.length ≤ task.targetSize ∧
      RecordFits task progress.source record ∧
      (feedAll task (progress.afterRecord task record) rest).position = .done := by
  obtain ⟨diffSize, diff, behindDiff, rfl, nonempty, diffSized, -, reads, same⟩ :=
    feedAll_block_split position accepted
  rw [same] at accepted
  obtain ⟨extraSize, extra, behindExtra, rfl, -, extraSized, room, -, same⟩ :=
    feedAll_block_split rfl accepted
  rw [same] at accepted
  obtain ⟨adjustment, rest, size, rfl, adjusted, inside, same⟩ :=
    feedAll_adjustment_split rfl accepted
  rw [same] at accepted
  simp only [Progress.put, List.length_append, List.length_mapIdx] at room inside accepted
  refine ⟨⟨diff, extra, size⟩, diffSize ++ diff ++ (extraSize ++ extra) ++ adjustment, rest,
    by simp only [List.append_assoc], by simp [nonempty],
    ⟨diffSize, extraSize, adjustment, rfl, diffSized, extraSized, adjusted⟩, ?_,
    ⟨fun some => reads some rfl, inside.1, inside.2⟩, ?_⟩
  · simp only [Record.length]
    omega
  · rw [Nat.add_assoc, List.append_assoc] at accepted
    exact accepted

/-! ### Streams -/

theorem afterRecord_length (task : Task) (progress : Progress) (record : Record) :
    (progress.afterRecord task record).output.length =
      progress.output.length + record.length := by
  simp only [Progress.afterRecord, List.length_append, Record.output_length]

/-- Records that fit and fill the target are accepted. -/
theorem feedAll_records {records : List Record} {bytes : List UInt8}
    (position : progress.position = .size (.part .diff) none)
    (encoded : RecordsEncodedBy records bytes) {left : Nat} (some : 0 < left)
    (total : progress.output.length + left = task.targetSize) (reaches : ReachesAtEnd records left)
    (fits : FitsFrom task.low task.high progress.source records) :
    (feedAll task progress bytes).position = .done ∧
      (feedAll task progress bytes).output =
        progress.output ++ targetFrom task.source progress.source records := by
  induction encoded generalizing progress left with
  | nil =>
      have none := reaches.total
      simp only [totalLength, List.map_nil, List.sum_nil] at none
      omega
  | @cons record records bytes rest first others inductionHypothesis =>
      have length := reaches.total
      rw [totalLength_cons] at length
      obtain ⟨reads, ⟨low, high⟩, fitsRest⟩ := fits
      obtain ⟨remaining, rfl⟩ := Nat.exists_eq_add_of_le (show record.length ≤ left by omega)
      have one := feedAll_record position first (by omega) ⟨reads, low, high⟩
      have behind := afterRecord_length task progress record
      rw [feedAll_append, one, targetFrom, ← List.append_assoc]
      rcases (reachesAtEnd_cons.mp reaches).2 with ⟨rfl, rfl⟩ | ⟨more, reachesRest⟩
      · cases others
        refine ⟨if_pos (by omega), ?_⟩
        simp only [feedAll_nil, Progress.afterRecord, targetFrom, List.append_nil]
      · apply inductionHypothesis (if_neg (by omega)) more (by omega) reachesRest
        exact fitsRest

/-- A stream that is accepted is records that fit and fill the target. -/
theorem records_of_feedAll {bytes : List UInt8}
    (position : progress.position = .size (.part .diff) none) {left : Nat} (some : 0 < left)
    (total : progress.output.length + left = task.targetSize)
    (accepted : (feedAll task progress bytes).position = .done) :
    ∃ records, RecordsEncodedBy records bytes ∧ ReachesAtEnd records left ∧
      FitsFrom task.low task.high progress.source records := by
  induction length : bytes.length using Nat.strong_induction_on generalizing progress bytes left
  next count inductionHypothesis =>
    obtain ⟨record, front, rest, rfl, nonempty, encoded, room, fits, others⟩ :=
      feedAll_record_split position accepted
    have behind := afterRecord_length task progress record
    obtain ⟨remaining, rfl⟩ := Nat.exists_eq_add_of_le (show record.length ≤ left by omega)
    by_cases last : remaining = 0
    · subst last
      have done : (progress.afterRecord task record).position = .done := if_pos (by omega)
      have ends : rest = [] := by
        by_contra more
        rw [feedAll_done done more] at others
        exact absurd others (by simp)
      subst ends
      exact ⟨[record], .cons encoded .nil,
        reachesAtEnd_cons.mpr ⟨some, Or.inl ⟨rfl, rfl⟩⟩,
        fits.reads, ⟨fits.low, fits.high⟩, trivial⟩
    · have shorter : rest.length < count := by
        have positive := List.length_pos_iff.mpr nonempty
        rw [← length, List.length_append]
        omega
      have goesOn : (progress.afterRecord task record).position = .size (.part .diff) none :=
        if_neg (by omega)
      obtain ⟨records, encodedRest, reachesRest, fitsRest⟩ :=
        inductionHypothesis rest.length shorter goesOn (Nat.pos_of_ne_zero last) (by omega)
          others rfl
      exact ⟨record :: records, .cons encoded encodedRest,
        reachesAtEnd_cons.mpr ⟨some, Or.inr ⟨by omega, reachesRest⟩⟩,
        fits.reads, ⟨fits.low, fits.high⟩, fitsRest⟩

/-- The machine accepts exactly a first size that is not positive and, behind it, records
that fit and fill the target. -/
theorem accepts_iff (nonempty : 0 < task.targetSize) (bytes : List UInt8) :
    (feedAll task startProgress bytes).position = .done ↔
      ∃ firstSize stream dfpatchSize records, bytes = firstSize ++ stream ∧
        IsSize firstSize dfpatchSize ∧ dfpatchSize ≤ 0 ∧ RecordsEncodedBy records stream ∧
        ReachesAtEnd records task.targetSize ∧ FitsFrom task.low task.high 0 records := by
  constructor
  · intro accepted
    obtain ⟨firstSize, stream, size, rfl, sized, same⟩ :=
      feedAll_size_split (show startProgress.position = .size .dfpatch none from rfl) accepted
    rw [same] at accepted
    by_cases nonpositive : size ≤ 0
    · have moved : startProgress.sized task .dfpatch size =
          { startProgress with position := .size (.part .diff) none } := if_pos nonpositive
      rw [moved] at accepted
      obtain ⟨records, encoded, reaches, fits⟩ :=
        records_of_feedAll rfl nonempty (Nat.zero_add _) accepted
      exact ⟨firstSize, stream, size, records, rfl, (sizeFold_iff _ _).mp sized, nonpositive,
        encoded, reaches, fits⟩
    · have failed : startProgress.sized task .dfpatch size = startProgress.fail :=
        if_neg nonpositive
      rw [failed, feedAll_failed rfl] at accepted
      exact absurd accepted (by simp)
  · rintro ⟨firstSize, stream, size, records, rfl, sized, nonpositive, encoded, reaches, fits⟩
    have moved : startProgress.sized task .dfpatch size =
        { startProgress with position := .size (.part .diff) none } := if_pos nonpositive
    rw [feedAll_append, feedAll_value rfl ((sizeFold_iff _ _).mpr sized), moved]
    exact (feedAll_records rfl encoded nonempty (Nat.zero_add _) reaches fits).1

/-- What the machine puts out for such a stream is the target of the records. -/
theorem accepted_output (nonempty : 0 < task.targetSize) {firstSize stream : List UInt8}
    {dfpatchSize : Int} {records : List Record} (sized : IsSize firstSize dfpatchSize)
    (nonpositive : dfpatchSize ≤ 0) (encoded : RecordsEncodedBy records stream)
    (reaches : ReachesAtEnd records task.targetSize)
    (fits : FitsFrom task.low task.high 0 records) :
    (feedAll task startProgress (firstSize ++ stream)).output = target task.source records := by
  have moved : startProgress.sized task .dfpatch dfpatchSize =
      { startProgress with position := .size (.part .diff) none } := if_pos nonpositive
  rw [feedAll_append, feedAll_value rfl ((sizeFold_iff _ _).mpr sized), moved]
  exact (feedAll_records rfl encoded nonempty (Nat.zero_add _) reaches fits).2

end

end DeltaUpdate.Patch
