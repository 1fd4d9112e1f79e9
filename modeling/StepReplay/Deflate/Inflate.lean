import StepReplay.Deflate.Code

set_option autoImplicit false

/-! # Blocks

A stream is a row of blocks, each stored as it is or written in a pair of codes: one for literals
and match lengths and one for distances. The two loops, over symbols and over blocks, are bounded
by the number of bits of the input, since each turn takes a bit at least; a loop that runs out of
turns has run out of input. -/

namespace StepReplay.Deflate

/-! ## Lengths and distances -/

/-- The least length and the extra bits of each length symbol, from 257 on. -/
def lengthTable : List (Nat × Nat) :=
  [(3, 0), (4, 0), (5, 0), (6, 0), (7, 0), (8, 0), (9, 0), (10, 0), (11, 1), (13, 1), (15, 1),
   (17, 1), (19, 2), (23, 2), (27, 2), (31, 2), (35, 3), (43, 3), (51, 3), (59, 3), (67, 4),
   (83, 4), (99, 4), (115, 4), (131, 5), (163, 5), (195, 5), (227, 5), (258, 0)]

/-- The least distance and the extra bits of each distance symbol. -/
def distanceTable : List (Nat × Nat) :=
  [(1, 0), (2, 0), (3, 0), (4, 0), (5, 1), (7, 1), (9, 2), (13, 2), (17, 3), (25, 3), (33, 4),
   (49, 4), (65, 5), (97, 5), (129, 6), (193, 6), (257, 7), (385, 7), (513, 8), (769, 8),
   (1025, 9), (1537, 9), (2049, 10), (3073, 10), (4097, 11), (6145, 11), (8193, 12), (12289, 12),
   (16385, 13), (24577, 13)]

/-- The number that a row of a table and the bits after its symbol stand for. -/
def readRow (row : Option (Nat × Nat)) (fault : Fault) : Reader Nat :=
  match row with
  | some (least, extra) => do
    let more ← Reader.number extra
    return least + more
  | none => throw fault

/-- The output with a match appended byte by byte, so that a match may overlap itself. -/
def appendMatch (distance : Nat) : Nat → Array UInt8 → Array UInt8
  | 0, out => out
  | length + 1, out => appendMatch distance length (out.push (out.getD (out.size - distance) 0))

/-! ## Compressed blocks -/

/-- The output after the symbols of a block, up to its end. -/
def readSymbols (literals distances : Code) : Nat → Array UInt8 → Reader (Array UInt8)
  | 0, _ => throw .truncated
  | fuel + 1, out => do
    let symbol ← literals.read .literalSymbol
    if symbol < 256 then readSymbols literals distances fuel (out.push (UInt8.ofNat symbol))
    else if symbol = 256 then return out
    else
      let length ← readRow (lengthTable[symbol - 257]?) .literalSymbol
      let distanceSymbol ← distances.read .distanceSymbol
      let distance ← readRow (distanceTable[distanceSymbol]?) .distanceSymbol
      if out.size < distance then throw .distanceTooFar
      readSymbols literals distances fuel (appendMatch distance length out)

/-- The word lengths of the fixed literal code. -/
def fixedLiteralLengths : List Nat :=
  List.replicate 144 8 ++ List.replicate 112 9 ++ List.replicate 24 7 ++ List.replicate 8 8

/-- The fixed literal code. -/
def fixedLiterals : Code := Code.tree fixedLiteralLengths

/-- The fixed distance code. -/
def fixedDistances : Code := Code.tree (List.replicate 32 5)

/-- The order in which the lengths of the length code are stored. -/
def lengthOrder : List Nat :=
  [16, 17, 18, 0, 8, 7, 9, 6, 10, 5, 11, 4, 12, 3, 13, 2, 14, 1, 15]

/-- So many numbers of three bits. -/
def readLengthLengths : Nat → Reader (List Nat)
  | 0 => return []
  | count + 1 => do
    let length ← Reader.number 3
    let rest ← readLengthLengths count
    return length :: rest

/-- The lengths of the length code by symbol, from those stored. -/
def lengthLengths (stored : List Nat) : List Nat :=
  (List.range 19).map fun symbol => ((lengthOrder.zip stored).lookup symbol).getD 0

/-- Word lengths read onto `acc`, newest first, until there are `total` of them. A symbol from 16
on repeats the last length or a zero, and may not go beyond the total. -/
def readLengths (code : Code) (total : Nat) : Nat → List Nat → Reader (List Nat)
  | 0, acc => return acc.reverse
  | fuel + 1, acc => do
    if total ≤ acc.length then return acc.reverse
    let symbol ← code.read .lengthCode
    if symbol < 16 then readLengths code total fuel (symbol :: acc)
    else
      let more ← Reader.number (if symbol = 16 then 2 else if symbol = 17 then 3 else 7)
      let count := (if symbol = 18 then 11 else 3) + more
      let repeated := if symbol = 16 then acc.head? else some 0
      match repeated with
      | none => throw .repeatedLength
      | some length =>
        if total < acc.length + count then throw .repeatedLength
        readLengths code total fuel (List.replicate count length ++ acc)

/-- The pair of codes at the head of a block that brings its own. -/
def readCodes : Reader (Code × Code) := do
  let literalCount := 257 + (← Reader.number 5)
  let distanceCount := 1 + (← Reader.number 5)
  let lengthCount := 4 + (← Reader.number 4)
  if 286 < literalCount ∨ 30 < distanceCount then throw .tooManySymbols
  let stored ← readLengthLengths lengthCount
  let some lengthCode := Code.ofLengthLengths? (lengthLengths stored) | throw .lengthCode
  let total := literalCount + distanceCount
  let lengths ← readLengths lengthCode total total []
  if lengths.getD 256 0 = 0 then throw .noEndOfBlock
  let some literals := Code.ofLengths? (lengths.take literalCount) | throw .literalCode
  let some distances := Code.ofLengths? (lengths.drop literalCount) | throw .distanceCode
  return (literals, distances)

/-! ## The stream -/

/-- The output after a stored block. -/
def readStored (out : Array UInt8) : Reader (Array UInt8) := do
  Reader.align
  let length ← Reader.number 16
  let complement ← Reader.number 16
  if length + complement ≠ 0xFFFF then throw .storedLength
  let stored ← Reader.bytes length
  return out ++ stored

/-- The output after all blocks, up to the one marked as the last. -/
def readBlocks (fuel : Nat) : Nat → Array UInt8 → Reader (Array UInt8)
  | 0, _ => throw .truncated
  | blocks + 1, out => do
    let last ← Reader.number 1
    let kind ← Reader.number 2
    let out ← match kind with
      | 0 => readStored out
      | 1 => readSymbols fixedLiterals fixedDistances fuel out
      | 2 => do
        let (literals, distances) ← readCodes
        readSymbols literals distances fuel out
      | _ => throw .blockType
    if last = 1 then return out else readBlocks fuel blocks out

end StepReplay.Deflate
