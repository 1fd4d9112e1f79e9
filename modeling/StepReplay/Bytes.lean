set_option autoImplicit false

/-! # Byte strings

Witnesses, calldata and code are short byte strings that are cut, padded and joined all the time,
so they are lists of bytes. Numbers inside them are big-endian; the two conversions below are the
only place where that is decided. -/

namespace StepReplay

/-- A string of bytes. -/
abbrev Bytes := List UInt8

namespace Bytes

/-- So many zero bytes. -/
def zeros (n : Nat) : Bytes :=
  List.replicate n 0

/-- The big-endian form of a number in so many bytes, higher digits dropped. -/
def ofNat : Nat → Nat → Bytes
  | 0, _ => []
  | width + 1, n => ofNat width (n / 256) ++ [UInt8.ofNat (n % 256)]

@[simp] theorem length_ofNat (width n : Nat) : (ofNat width n).length = width := by
  induction width generalizing n with
  | zero => rfl
  | succ width ih => simp [ofNat, ih]

/-- How many numbers fit into so many bytes. -/
def capacity : Nat → Nat
  | 0 => 1
  | width + 1 => capacity width * 256

/-- The number that a byte string denotes, most significant byte first. -/
def toNat (b : Bytes) : Nat :=
  b.foldl (fun acc x => acc * 256 + x.toNat) 0

/-- The bytes from a position on, at most so many, as far as there are any. -/
def slice (b : Bytes) (start count : Nat) : Bytes :=
  (b.drop start).take count

/-- The bytes from a position on, filled with zeros to exactly so many. -/
def window (b : Bytes) (start count : Nat) : Bytes :=
  let present := b.slice start count
  present ++ zeros (count - present.length)

/-- Zero bytes in front up to a width. -/
def padLeft (width : Nat) (b : Bytes) : Bytes :=
  zeros (width - b.length) ++ b

/-- Zero bytes behind up to a width. -/
def padRight (width : Nat) (b : Bytes) : Bytes :=
  b ++ zeros (width - b.length)

/-- A byte string cut into pieces of the given widths; what is left over is dropped. -/
def cut : List Nat → Bytes → List Bytes
  | [], _ => []
  | width :: widths, b => b.take width :: cut widths (b.drop width)

end Bytes

end StepReplay
