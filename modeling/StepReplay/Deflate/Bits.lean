import StepReplay.Bytes

set_option autoImplicit false

/-! # Reading a compressed stream bit by bit

A compressed stream packs its bits from the lowest of each byte on. A reader takes bits off the
front and fails as soon as the input ends, so which of two faults is reported depends on the
stream up to the first of them and on nothing behind it. -/

namespace StepReplay.Deflate

/-- What can be wrong with a compressed stream. -/
inductive Fault where
  | headerCheck
  | unknownMethod
  | windowSize
  | dictionaryNeeded
  | blockType
  | storedLength
  | tooManySymbols
  | lengthCode
  | repeatedLength
  | noEndOfBlock
  | literalCode
  | distanceCode
  | literalSymbol
  | distanceSymbol
  | distanceTooFar
  | checksum
  /-- The input ends before the stream does. -/
  | truncated
  deriving DecidableEq, Repr

/-- What is left of a stream: the unread bits of a byte, lowest first, and whole bytes. -/
structure Bits where
  buffered : List Bool
  rest : Bytes

/-- A step that reads from the front of a stream. -/
abbrev Reader := StateT Bits (Except Fault)

/-- The bits of a byte, lowest first. -/
def bitsOf (b : UInt8) : List Bool :=
  (List.range 8).map fun k => b.toNat.testBit k

namespace Reader

/-- The next bit. -/
def bit : Reader Bool := fun s =>
  match s.buffered with
  | b :: buffered => .ok (b, { s with buffered })
  | [] => match s.rest with
    | [] => .error .truncated
    | x :: rest => match bitsOf x with
      | b :: buffered => .ok (b, ⟨buffered, rest⟩)
      | [] => .error .truncated

/-- The number in the next bits, lowest first. -/
def number : Nat → Reader Nat
  | 0 => return 0
  | count + 1 => do
    let b ← bit
    let higher ← number count
    return b.toNat + 2 * higher

/-- Drops what is left of a byte that has been begun. -/
def align : Reader Unit := fun s =>
  .ok ((), { s with buffered := [] })

/-- The next bytes of a stream that stands at the start of a byte. -/
def bytes (count : Nat) : Reader Bytes := fun s =>
  let taken := s.rest.take count
  if taken.length < count then .error .truncated
  else .ok (taken, { s with rest := s.rest.drop count })

end Reader

end StepReplay.Deflate
