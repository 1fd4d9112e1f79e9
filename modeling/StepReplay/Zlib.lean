import StepReplay.Deflate.Inflate

set_option autoImplicit false

/-! # The zlib container

Two header bytes, a row of blocks and the Adler-32 checksum of what they hold. Reading stops at
the checksum, whatever follows it. Any stream that reads back will do for writing, so buffers are
written in stored blocks: their content stays in place, and a reader of any kind takes them. -/

namespace StepReplay.Zlib

open Deflate

/-- The prime modulus of the checksum. -/
def adlerModulus : Nat := 65521

/-- The Adler-32 checksum of a byte string. -/
def adler32 (b : Bytes) : Nat :=
  let (low, high) := b.foldl (fun (low, high) x =>
    let low := (low + x.toNat) % adlerModulus
    (low, (high + low) % adlerModulus)) (1, 0)
  high * 65536 + low

/-! ## Reading -/

/-- The header: its check bits, then the method, then the window, then the dictionary flag. -/
def readHeader : Reader Unit := do
  let header ← Reader.number 16
  let method := header % 256
  let flags := header / 256
  if (method * 256 + flags) % 31 ≠ 0 then throw .headerCheck
  if method % 16 ≠ 8 then throw .unknownMethod
  if 7 < method / 16 then throw .windowSize
  if flags / 32 % 2 = 1 then
    let _ ← Reader.number 32
    throw .dictionaryNeeded

/-- A whole container. -/
def readStream (fuel : Nat) : Reader Bytes := do
  readHeader
  let out ← readBlocks fuel fuel #[]
  Reader.align
  let checksum ← Reader.bytes 4
  let content := out.toList
  if checksum.toNat ≠ adler32 content then throw .checksum
  return content

/-- What a stream at the start of the input holds. -/
def decompress (blob : Bytes) : Except Fault Bytes :=
  ((readStream (8 * blob.length + 1)).run ⟨[], blob⟩).map (·.1)

/-! ## Writing -/

/-- The longest stored block. -/
def storedLimit : Nat := 65535

/-- A stored block: its marks, its length twice, the second time inverted, and its content. -/
def storedBlock (last : Bool) (b : Bytes) : Bytes :=
  let length := (Bytes.ofNat 2 b.length).reverse
  (if last then 1 else 0) :: length ++ length.map (~~~ ·) ++ b

/-- A byte string in stored blocks, the last one marked. -/
def storedBlocks (b : Bytes) : Bytes :=
  if b.length ≤ storedLimit then storedBlock true b
  else storedBlock false (b.take storedLimit) ++ storedBlocks (b.drop storedLimit)
termination_by b.length
decreasing_by simp only [List.length_drop, storedLimit] at *; omega

/-- A stream that holds the given bytes. -/
def compress (b : Bytes) : Bytes :=
  [0x78, 0x01] ++ storedBlocks b ++ Bytes.ofNat 4 (adler32 b)

end StepReplay.Zlib
