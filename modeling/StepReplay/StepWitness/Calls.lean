import StepReplay.Fault
import StepReplay.StepWitness

set_option autoImplicit false

/-! # Calls made for a witness

A step is a call of the stepper module with the state and the proof. The disclosure of a preimage
is a call of the oracle module, and the first byte of the key says which: a local value goes in
one word, and a Keccak preimage goes as a whole. -/

namespace StepReplay

/-- The signatures of the functions of the modules. -/
structure Signatures where
  step : Text := "step(bytes,bytes)"
  loadLocal : Text := "loadLocalData(uint256,bytes32,uint256,uint256)"
  loadKeccak : Text := "loadKeccak256PreimagePart(uint256,bytes)"
  deriving DecidableEq

/-- The kinds of preimage that can be disclosed. -/
inductive PreimageKind where
  | localData
  | keccak
  deriving DecidableEq

/-- The kind that the first byte of a key stands for. -/
def PreimageKind.ofByte? (b : UInt8) : Option PreimageKind :=
  if b = 1 then some .localData else if b = 2 then some .keccak else none

namespace StepWitness

/-- The calldata of the step. -/
def stepInput (w : StepWitness) (signature : Text) : Except Fault Bytes :=
  (Calldata.encodeCall signature [.bytes w.state.bytes, .bytes w.proof]).mapError .call

/-- The calldata that discloses data under a key, which is local or the hash of the data. -/
def disclosure (key : Block 32) (data : Bytes) (offset : Nat) (signatures : Signatures) :
    Except Fault Bytes :=
  let type := key.bytes.headD 0
  match PreimageKind.ofByte? type with
  | some .localData =>
    if Calldata.wordSize < data.length then
      .error (.decode (.localPreimageTooLong data.length))
    else
      let ident : Nat := Bytes.toNat (key.bytes.drop 1)
      (Calldata.encodeCall signatures.loadLocal
        [.int ident, .bytes data, .int data.length, .int offset]).mapError .call
  | some .keccak =>
    (Calldata.encodeCall signatures.loadKeccak [.int offset, .bytes data]).mapError .call
  | none => .error (.decode (.unknownKeyType type.toNat))

/-- The calldata that discloses the preimage, if the witness has one. -/
def oracleInput (w : StepWitness) (signatures : Signatures) : Except Fault (Option Bytes) :=
  match w.hasPreimage, w.preimageKey with
  | true, some key => do
    let data ← w.preimageData.mapError .decode
    return some (← disclosure key data w.offset signatures)
  | _, _ => .ok none

end StepWitness

end StepReplay
