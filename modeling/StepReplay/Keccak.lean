import StepReplay.Block

set_option autoImplicit false

/-! # Keccak-256

The hash that fingerprints, function selectors and creation addresses are made of: the sponge over
Keccak-f[1600] with a rate of 136 bytes and the padding of the first Keccak submission, a one bit
before the zeros and a one bit after them. Each step of a round is a map over the 25 lanes, which
are numbered `x + 5 * y`. -/

namespace StepReplay.Keccak

/-- The state: 25 lanes of 64 bits. -/
abbrev Lanes := Vector UInt64 25

/-- The lane in column `x` and row `y`, both taken modulo five. -/
def lane (a : Lanes) (x y : Nat) : UInt64 :=
  a.get (Fin.ofNat 25 (x % 5 + 5 * (y % 5)))

/-- The lanes given by column and row. -/
def ofLanes (f : Nat → Nat → UInt64) : Lanes :=
  Vector.ofFn fun i => f (i.val % 5) (i.val / 5)

/-- The lane turned left by so many bits. -/
def turn (w : UInt64) (bits : UInt64) : UInt64 :=
  (w <<< bits) ||| (w >>> (64 - bits))

/-! ## The permutation -/

/-- How far each lane is turned, in the order of the lanes. -/
def turns : Vector UInt64 25 :=
  #v[0, 1, 62, 28, 27, 36, 44, 6, 55, 20, 3, 10, 43, 25, 39, 41, 45, 15, 21, 8, 18, 2, 61, 56, 14]

/-- The constants added to lane zero, one a round. -/
def roundConstants : List UInt64 :=
  [0x0000000000000001, 0x0000000000008082, 0x800000000000808A, 0x8000000080008000,
   0x000000000000808B, 0x0000000080000001, 0x8000000080008081, 0x8000000000008009,
   0x000000000000008A, 0x0000000000000088, 0x0000000080008009, 0x000000008000000A,
   0x000000008000808B, 0x800000000000008B, 0x8000000000008089, 0x8000000000008003,
   0x8000000000008002, 0x8000000000000080, 0x000000000000800A, 0x800000008000000A,
   0x8000000080008081, 0x8000000000008080, 0x0000000080000001, 0x8000000080008008]

/-- The parity of each column. -/
def parities (a : Lanes) : Vector UInt64 5 :=
  Vector.ofFn fun x : Fin 5 =>
    lane a x 0 ^^^ lane a x 1 ^^^ lane a x 2 ^^^ lane a x 3 ^^^ lane a x 4

/-- Every lane with the parities of the two neighbouring columns added. -/
def mixColumns (a : Lanes) : Lanes :=
  let parity := parities a
  let column := fun x : Nat => parity.get (Fin.ofNat 5 x)
  let delta : Vector UInt64 5 := Vector.ofFn fun x : Fin 5 =>
    column (x.val + 4) ^^^ turn (column (x.val + 1)) 1
  ofLanes fun x y => lane a x y ^^^ delta.get (Fin.ofNat 5 x)

/-- Every lane turned and moved to its new place. -/
def moveLanes (a : Lanes) : Lanes :=
  ofLanes fun x y => turn (lane a (x + 3 * y) x) (lane turns (x + 3 * y) x)

/-- Every lane combined with the next two of its row. -/
def mixRows (a : Lanes) : Lanes :=
  ofLanes fun x y => lane a x y ^^^ (~~~ lane a (x + 1) y &&& lane a (x + 2) y)

/-- One round. -/
def round (a : Lanes) (constant : UInt64) : Lanes :=
  let b := mixRows (moveLanes (mixColumns a))
  b.set 0 (b.get 0 ^^^ constant)

/-- All 24 rounds. -/
def permute (a : Lanes) : Lanes :=
  roundConstants.foldl round a

/-! ## The sponge -/

/-- The bytes absorbed at a time. -/
def rate : Nat := 136

/-- The bytes that fill a message of the given length up to whole blocks. -/
def padding (length : Nat) : Bytes :=
  let room := rate - length % rate
  if room = 1 then [0x81] else 0x01 :: Bytes.zeros (room - 2) ++ [0x80]

/-- The lane of eight bytes, least significant first. -/
def laneOfBytes (b : Bytes) : UInt64 :=
  b.foldr (fun x acc => (acc <<< 8) ||| x.toUInt64) 0

/-- The eight bytes of a lane, least significant first. -/
def bytesOfLane (w : UInt64) : Bytes :=
  (List.range 8).map fun k => (w >>> (8 * UInt64.ofNat k)).toUInt8

/-- The state after a block. -/
def absorb (a : Lanes) (block : Bytes) : Lanes :=
  permute (Vector.ofFn fun i =>
    a.get i ^^^ (if i.val < 17 then laneOfBytes (block.slice (8 * i.val) 8) else 0))

/-- The state after so many blocks of a message. -/
def absorbAll : Nat → Lanes → Bytes → Lanes
  | 0, a, _ => a
  | blocks + 1, a, message =>
    absorbAll blocks (absorb a (message.take rate)) (message.drop rate)

/-- The digest of a message. -/
def hashBytes (message : Bytes) : Bytes :=
  let whole := message ++ padding message.length
  let a := absorbAll (whole.length / rate) (Vector.replicate 25 0) whole
  (List.range 4).flatMap fun i => bytesOfLane (lane a i 0)

/-- A digest has 32 bytes whatever the message. -/
theorem length_hashBytes (message : Bytes) : (hashBytes message).length = 32 := by
  simp [hashBytes, List.range, List.range.loop, bytesOfLane]

/-- The Keccak-256 digest of a message. -/
def hash (message : Bytes) : Hash :=
  ⟨hashBytes message, length_hashBytes message⟩

end StepReplay.Keccak
