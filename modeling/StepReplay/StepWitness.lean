import StepReplay.State

set_option autoImplicit false

/-! # Step witnesses

A step witness is the input of one instruction step: the state before it, a proof of the memory it
touches and, where the instruction reads a preimage, the preimage's key, value and offset. Sizes
and ranges are part of the type. The JSON form keeps what is absent apart from what is empty. -/

namespace StepReplay

/-- The input of one step. -/
structure StepWitness where
  state : State
  proof : Bytes := []
  preimageKey : Option (Block 32) := none
  preimageValue : Option Bytes := none
  preimageOffset : Option UInt32 := none
  deriving DecidableEq

namespace StepWitness

/-! ## Parts -/

/-- An offset given as an integer of any size. -/
def offsetOfInt (n : Int) : Except DecodeError UInt32 :=
  if 0 ≤ n ∧ n < Bytes.capacity 4 then .ok (UInt32.ofNat n.toNat) else .error (.offsetOutOfRange n)

/-- A part that may be absent, read by `f` where it is there. -/
def readOptional {α β : Type} (f : α → Except DecodeError β) :
    Option α → Except DecodeError (Option β)
  | none => .ok none
  | some a => (f a).map some

/-- The witness with the given parts, which are checked in the order state, key, offset. -/
def ofParts (state proof : Bytes) (key value : Option Bytes) (offset : Option Int) :
    Except DecodeError StepWitness := do
  let state ← Block.ofBytes 226 state
  let preimageKey ← readOptional (Block.ofBytes 32) key
  let preimageOffset ← readOptional offsetOfInt offset
  return { state, proof, preimageKey, preimageValue := value, preimageOffset }

/-- Whether the step has to be preceded by the disclosure of a preimage. -/
def hasPreimage (w : StepWitness) : Bool :=
  match w.preimageKey with
  | some key => key.bytes.any (· ≠ 0)
  | none => false

/-- The bytes of the length in front of a preimage value. -/
def lengthSize : Nat := 8

/-- The preimage without the length in front of it. -/
def preimageData (w : StepWitness) : Except DecodeError Bytes :=
  match w.preimageValue with
  | some value =>
    if value.length < lengthSize then .error .noPreimage else .ok (value.drop lengthSize)
  | none => .error .noPreimage

/-- The offset, zero where there is none. -/
def offset (w : StepWitness) : Nat :=
  (w.preimageOffset.map UInt32.toNat).getD 0

/-! ## JSON -/

/-- The JSON form: byte strings in hex, and only the parts that are there. -/
def toJson (w : StepWitness) : Json :=
  let optional := fun (key : Text) (value : Option Json) => (value.map (key, ·)).toList
  let required : List (Text × Json) :=
    [("state", .string w.state.hex), ("proof", .string (hexText w.proof))]
  .object (required
    ++ optional "preimageKey" (w.preimageKey.map fun key => .string (hexText key.bytes))
    ++ optional "preimageValue" (w.preimageValue.map fun value => .string (hexText value))
    ++ optional "preimageOffset" (w.preimageOffset.map fun n => .int n.toNat))

/-- An offset must be an integer; its range is looked at last. -/
def integerOf : Json → Except DecodeError Int
  | .int n => .ok n
  | other => .error (.offsetNotInteger other)

/-- The witness of a JSON value. -/
def ofJson (j : Json) : Except DecodeError StepWitness := do
  let some state := j.field? "state" | throw .noState
  let offset ← readOptional integerOf (j.present? "preimageOffset")
  let state ← Block.read 226 state
  let proof ← HexForm.read {} ((j.field? "proof").getD (.string "0x"))
  let preimageKey ← readOptional (Block.read 32) (j.present? "preimageKey")
  let preimageValue ← readOptional (HexForm.read {}) (j.present? "preimageValue")
  let preimageOffset ← readOptional offsetOfInt offset
  return { state, proof, preimageKey, preimageValue, preimageOffset }

end StepWitness

end StepReplay
