import DeltaUpdate.Library.Bits

/-!
Owns the LZSS format over bit lists: a token is a literal byte behind a set bit
or a back-reference behind a clear bit, with `indexBits` bits of distance and
`countBits` bits of length, both stored less one. The window starts at zero.

`parse` splits a bit list into its complete tokens and the bits left over.
`remaining` is the output still to come of a decoder that is suspended inside a
back-reference; its rules are what a streaming decoder is proved against.
-/

namespace DeltaUpdate.Library.Lzss

open DeltaUpdate.Library

/-- One token. The stored index and count are one less than the distance and
the length, so that every stored value is valid. -/
inductive Token (indexBits countBits : Nat) where
  | literal (byte : UInt8)
  | backref (index : Fin (2 ^ indexBits)) (count : Fin (2 ^ countBits))
deriving DecidableEq, Repr

/-- The encoding of one token. -/
def Token.bits {indexBits countBits : Nat} : Token indexBits countBits → List Bool
  | .literal byte => true :: bitsOfByte byte
  | .backref index count =>
      false :: (bitsOfNat indexBits index.val ++ bitsOfNat countBits count.val)

/-- The token that repeats the last byte, once more than the stored count says. -/
def Token.repeatLast {indexBits countBits : Nat} (count : Fin (2 ^ countBits)) :
    Token indexBits countBits :=
  .backref ⟨0, Nat.two_pow_pos indexBits⟩ count

/-- `count` bytes copied from `distance` bytes back. The history is the output so
far, newest byte first; before its start the window holds zeros. -/
def copyBack (history : List UInt8) (distance : Nat) : Nat → List UInt8
  | 0 => []
  | count + 1 =>
      let byte := history.getD (distance - 1) 0
      byte :: copyBack (byte :: history) distance count

/-- The bytes one token adds to the output. -/
def Token.emit {indexBits countBits : Nat} (history : List UInt8) :
    Token indexBits countBits → List UInt8
  | .literal byte => [byte]
  | .backref index count => copyBack history (index.val + 1) (count.val + 1)

/-- The output of a token list over a history. -/
def expand {indexBits countBits : Nat} (history : List UInt8) :
    List (Token indexBits countBits) → List UInt8
  | [] => []
  | token :: tokens =>
      token.emit history ++ expand ((token.emit history).reverse ++ history) tokens

/-- The first complete token of a bit list. -/
def nextToken (indexBits countBits : Nat) :
    List Bool → Option (Token indexBits countBits × List Bool)
  | [] => none
  | true :: rest =>
      if 8 ≤ rest.length then
        some (.literal (UInt8.ofNat (natOfBits (rest.take 8))), rest.drop 8)
      else none
  | false :: rest =>
      if enough : indexBits + countBits ≤ rest.length then
        some (.backref
          ⟨natOfBits (rest.take indexBits), by
            simpa [show indexBits ≤ rest.length by omega] using
              natOfBits_lt (rest.take indexBits)⟩
          ⟨natOfBits ((rest.drop indexBits).take countBits), by
            simpa [show countBits ≤ rest.length - indexBits by omega] using
              natOfBits_lt ((rest.drop indexBits).take countBits)⟩,
          rest.drop (indexBits + countBits))
      else none

section

variable {indexBits countBits : Nat}

/-! ### Copies -/

@[simp] theorem copyBack_zero (history : List UInt8) (distance : Nat) :
    copyBack history distance 0 = [] := rfl

theorem copyBack_succ (history : List UInt8) (distance count : Nat) :
    copyBack history distance (count + 1) =
      history.getD (distance - 1) 0 ::
        copyBack (history.getD (distance - 1) 0 :: history) distance count := rfl

@[simp] theorem copyBack_length (history : List UInt8) (distance count : Nat) :
    (copyBack history distance count).length = count := by
  induction count generalizing history with
  | zero => rfl
  | succ count inductionHypothesis => simp [copyBack_succ, inductionHypothesis]

/-- A copy may be suspended after any number of bytes. -/
theorem copyBack_add (history : List UInt8) (distance first second : Nat) :
    copyBack history distance (first + second) =
      copyBack history distance first ++
        copyBack ((copyBack history distance first).reverse ++ history) distance second := by
  induction first generalizing history with
  | zero => simp
  | succ first inductionHypothesis =>
      rw [Nat.succ_add, copyBack_succ, copyBack_succ, inductionHypothesis]
      simp

/-- A copy of the last byte repeats it. -/
theorem copyBack_repeat {history : List UInt8} {byte : UInt8} (last : history.getD 0 0 = byte)
    (count : Nat) : copyBack history 1 count = List.replicate count byte := by
  induction count generalizing history with
  | zero => rfl
  | succ count inductionHypothesis =>
      rw [copyBack_succ, Nat.sub_self, last, inductionHypothesis rfl]
      rfl

/-- Every token adds to the output. -/
theorem emit_ne_nil (history : List UInt8) (token : Token indexBits countBits) :
    token.emit history ≠ [] := by
  cases token with
  | literal byte => exact List.cons_ne_nil byte []
  | backref index count => exact List.cons_ne_nil _ _

theorem expand_eq_nil {history : List UInt8} {tokens : List (Token indexBits countBits)} :
    expand history tokens = [] ↔ tokens = [] := by
  cases tokens with
  | nil => exact ⟨fun _ => rfl, fun _ => rfl⟩
  | cons token tokens =>
      simp only [expand, List.append_eq_nil_iff, reduceCtorEq, iff_false]
      exact fun none => emit_ne_nil history token none.1

theorem expand_append (history : List UInt8) (first second : List (Token indexBits countBits)) :
    expand history (first ++ second) =
      expand history first ++ expand ((expand history first).reverse ++ history) second := by
  induction first generalizing history with
  | nil => rfl
  | cons token tokens inductionHypothesis =>
      rw [List.cons_append, expand, expand, inductionHypothesis]
      simp only [List.append_assoc, List.reverse_append]

theorem getD_repeat {history : List UInt8} {byte : UInt8} (last : history.getD 0 0 = byte)
    (count : Nat) : (List.replicate count byte ++ history).getD 0 0 = byte := by
  cases count with
  | zero => exact last
  | succ count => rfl

/-- Tokens that copy the last byte repeat it. -/
theorem expand_repeat (count : Fin (2 ^ countBits)) {history : List UInt8} {byte : UInt8}
    (last : history.getD 0 0 = byte) (times : Nat) (rest : List (Token indexBits countBits)) :
    expand history (List.replicate times (.repeatLast count) ++ rest) =
      List.replicate (times * (count.val + 1)) byte ++
        expand (List.replicate (times * (count.val + 1)) byte ++ history) rest := by
  induction times generalizing history with
  | zero => rw [Nat.zero_mul]; rfl
  | succ times inductionHypothesis =>
      have emits : (Token.repeatLast count : Token indexBits countBits).emit history =
          List.replicate (count.val + 1) byte := copyBack_repeat last _
      have before (tail : List UInt8) : List.replicate (count.val + 1) byte ++
          (List.replicate (times * (count.val + 1)) byte ++ tail) =
            List.replicate ((times + 1) * (count.val + 1)) byte ++ tail := by
        rw [← List.append_assoc, ← List.replicate_add, Nat.succ_mul, Nat.add_comm]
      have behind (tail : List UInt8) : List.replicate (times * (count.val + 1)) byte ++
          (List.replicate (count.val + 1) byte ++ tail) =
            List.replicate ((times + 1) * (count.val + 1)) byte ++ tail := by
        rw [← List.append_assoc, ← List.replicate_add, Nat.succ_mul]
      rw [List.replicate_succ, List.cons_append, expand, emits, List.reverse_replicate,
        inductionHypothesis (getD_repeat last _), before, behind]

/-! ### Tokens -/

theorem nextToken_bits (token : Token indexBits countBits) (rest : List Bool) :
    nextToken indexBits countBits (token.bits ++ rest) = some (token, rest) := by
  cases token with
  | literal byte =>
      have front : (bitsOfByte byte ++ rest).take 8 = bitsOfByte byte := by
        simp
      have back : (bitsOfByte byte ++ rest).drop 8 = rest := by simp
      have value : natOfBits (bitsOfByte byte) = byte.toNat := by
        rw [bitsOfByte, natOfBits_bitsOfNat, Nat.mod_eq_of_lt byte.toNat_lt]
      simp only [Token.bits, List.cons_append, nextToken, front, back, value]
      simp
  | backref index count =>
      have indexPart : (bitsOfNat indexBits index.val ++
          (bitsOfNat countBits count.val ++ rest)).take indexBits =
            bitsOfNat indexBits index.val := by simp
      have countPart : ((bitsOfNat indexBits index.val ++
          (bitsOfNat countBits count.val ++ rest)).drop indexBits).take countBits =
            bitsOfNat countBits count.val := by simp
      have back : (bitsOfNat indexBits index.val ++
          (bitsOfNat countBits count.val ++ rest)).drop (indexBits + countBits) = rest := by
        simp [List.drop_append]
      simp only [Token.bits, List.cons_append, List.append_assoc, nextToken, indexPart,
        countPart, back, natOfBits_bitsOfNat]
      simp [Nat.mod_eq_of_lt index.isLt, Nat.mod_eq_of_lt count.isLt]

theorem bits_of_nextToken {bits rest : List Bool} {token : Token indexBits countBits}
    (read : nextToken indexBits countBits bits = some (token, rest)) :
    bits = token.bits ++ rest := by
  cases bits with
  | nil => simp [nextToken] at read
  | cons tag tail =>
      cases tag with
      | true =>
          simp only [nextToken] at read
          split at read
          next enough =>
            simp only [Option.some.injEq, Prod.mk.injEq] at read
            obtain ⟨rfl, rfl⟩ := read
            have length : (tail.take 8).length = 8 := by simp [enough]
            have small := natOfBits_lt (tail.take 8)
            rw [length] at small
            have byteBits := bitsOfNat_natOfBits (tail.take 8)
            rw [length] at byteBits
            simp [Token.bits, bitsOfByte, UInt8.toNat_ofNat_of_lt' small, byteBits]
          next => simp at read
      | false =>
          simp only [nextToken] at read
          split at read
          next enough =>
            simp only [Option.some.injEq, Prod.mk.injEq] at read
            obtain ⟨rfl, rfl⟩ := read
            have indexLength : (tail.take indexBits).length = indexBits := by simp; omega
            have countLength : ((tail.drop indexBits).take countBits).length = countBits := by
              simp; omega
            have indexPart := bitsOfNat_natOfBits (tail.take indexBits)
            have countPart := bitsOfNat_natOfBits ((tail.drop indexBits).take countBits)
            rw [indexLength] at indexPart
            rw [countLength] at countPart
            simp only [Token.bits, indexPart, countPart, List.cons_append, List.append_assoc]
            rw [← List.drop_drop, List.take_append_drop, List.take_append_drop]
          next => simp at read

theorem token_bits_pos (token : Token indexBits countBits) : 0 < token.bits.length := by
  cases token <;> simp [Token.bits]

/-- Fewer bits than the shortest token hold no token. -/
theorem nextToken_of_short {bits : List Bool} (short : bits.length ≤ 8)
    (wide : 8 ≤ indexBits + countBits) :
    nextToken indexBits countBits bits = none := by
  cases bits with
  | nil => rfl
  | cons tag tail =>
      simp only [List.length_cons] at short
      cases tag with
      | true => simp only [nextToken]; rw [if_neg (by omega)]
      | false => simp only [nextToken]; rw [dif_neg (by omega)]

/-! ### Parsing -/

theorem nextToken_shorter {bits rest : List Bool} {token : Token indexBits countBits}
    (read : nextToken indexBits countBits bits = some (token, rest)) :
    rest.length < bits.length := by
  rw [bits_of_nextToken read, List.length_append]
  have := token_bits_pos token
  omega

/-- The complete tokens of a bit list, and the bits after the last one. -/
def parse (indexBits countBits : Nat) (bits : List Bool) :
    List (Token indexBits countBits) × List Bool :=
  match read : nextToken indexBits countBits bits with
  | none => ([], bits)
  | some (token, rest) =>
      have := nextToken_shorter read
      let (tokens, padding) := parse indexBits countBits rest
      (token :: tokens, padding)
termination_by bits.length

theorem parse_of_none {bits : List Bool}
    (stuck : nextToken indexBits countBits bits = none) :
    parse indexBits countBits bits = ([], bits) := by
  unfold parse
  split
  next => rfl
  next read => rw [stuck] at read; cases read

theorem parse_token (token : Token indexBits countBits) (rest : List Bool) :
    parse indexBits countBits (token.bits ++ rest) =
      (token :: (parse indexBits countBits rest).1, (parse indexBits countBits rest).2) := by
  have read := nextToken_bits token rest
  rw [parse]
  split
  next stuck => rw [read] at stuck; cases stuck
  next token' rest' read' =>
      rw [read] at read'
      simp only [Option.some.injEq, Prod.mk.injEq] at read'
      obtain ⟨rfl, rfl⟩ := read'
      rfl

theorem parse_tokens (tokens : List (Token indexBits countBits)) (rest : List Bool) :
    parse indexBits countBits (tokens.flatMap Token.bits ++ rest) =
      (tokens ++ (parse indexBits countBits rest).1, (parse indexBits countBits rest).2) := by
  induction tokens with
  | nil => simp
  | cons token tokens inductionHypothesis =>
      rw [List.flatMap_cons, List.append_assoc, parse_token, inductionHypothesis]
      rfl

/-- A bit list is its tokens followed by its padding. -/
theorem bits_of_parse (bits : List Bool) :
    bits = (parse indexBits countBits bits).1.flatMap Token.bits ++
      (parse indexBits countBits bits).2 := by
  induction bits using parse.induct indexBits countBits with
  | case1 bits stuck => rw [parse_of_none stuck]; simp
  | case2 bits token rest read _ tokens padding _ inductionHypothesis =>
      have shape := bits_of_nextToken read
      rw [shape, parse_token, List.flatMap_cons, List.append_assoc, ← inductionHypothesis]

/-! ### Suspended decoding -/

/-- The output still to come: `count` bytes of a copy in progress, then the tokens
of `bits`. -/
def remaining (indexBits countBits : Nat) (history : List UInt8) (distance count : Nat)
    (bits : List Bool) : List UInt8 :=
  copyBack history distance count ++
    expand ((copyBack history distance count).reverse ++ history)
      (parse indexBits countBits bits).1

theorem remaining_idle (history : List UInt8) (distance : Nat) (bits : List Bool) :
    remaining indexBits countBits history distance 0 bits =
      expand history (parse indexBits countBits bits).1 := by
  simp [remaining]

/-- A copy in progress gives its first bytes and goes on. -/
theorem remaining_copy (history : List UInt8) (distance first second : Nat) (bits : List Bool) :
    remaining indexBits countBits history distance (first + second) bits =
      copyBack history distance first ++
        remaining indexBits countBits ((copyBack history distance first).reverse ++ history)
          distance second bits := by
  simp only [remaining, copyBack_add, List.reverse_append, List.append_assoc]

/-- A literal at the front of the bits is the next byte. -/
theorem remaining_literal (history : List UInt8) (byte : UInt8) (distance : Nat)
    (bits : List Bool) :
    remaining indexBits countBits history distance 0
        ((Token.literal byte : Token indexBits countBits).bits ++ bits) =
      byte :: remaining indexBits countBits (byte :: history) distance 0 bits := by
  rw [remaining_idle, remaining_idle, parse_token]
  rfl

/-- A back-reference at the front of the bits starts a copy. -/
theorem remaining_backref (history : List UInt8) (index : Fin (2 ^ indexBits))
    (count : Fin (2 ^ countBits)) (distance : Nat) (bits : List Bool) :
    remaining indexBits countBits history distance 0
        ((Token.backref index count : Token indexBits countBits).bits ++ bits) =
      remaining indexBits countBits history (index.val + 1) (count.val + 1) bits := by
  rw [remaining_idle, parse_token]
  rfl

/-- Without a complete token and without a copy in progress nothing comes. -/
theorem remaining_stuck {bits : List Bool}
    (stuck : nextToken indexBits countBits bits = none)
    (history : List UInt8) (distance : Nat) :
    remaining indexBits countBits history distance 0 bits = [] := by
  rw [remaining_idle, parse_of_none stuck]
  rfl

end

end DeltaUpdate.Library.Lzss
