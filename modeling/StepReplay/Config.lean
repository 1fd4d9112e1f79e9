import StepReplay.StepWitness.Calls

set_option autoImplicit false

/-! # Configuration

Where the modules live and how they are called. The defaults are those that the native machine and
outside verifiers agree on. -/

namespace StepReplay

/-- The settings of a run. -/
structure Config where
  mipsAddress : Address := Block.ofNat 20 0xC0DE
  oracleAddress : Address := Block.ofNat 20 0x424F4F4B
  senderAddress : Address := Block.zero 20
  senderBalance : Int := Bytes.capacity 16 - 1
  gasLimit : Int := 30000000
  /-- The directory of the bytecode files, where it is not the program's own. -/
  bindingsDirectory : Option Path := none
  signatures : Signatures := {}

namespace Config

/-- What the program's own directory is called. It has no place on a disk, so no path leads to
it. -/
def ownDirectory : Path := Path.ofText "<bindings>"

/-- The address of a setting, which must have the size of one. -/
def address (name : Text) (b : Bytes) : Except Fault Address :=
  if h : b.length = 20 then .ok ⟨b, h⟩ else .error (.configAddress name b.length)

/-- Settings with some addresses replaced, which are checked in the order stepper, oracle,
sender. -/
def withAddresses (c : Config) (mips oracle sender : Option Bytes) : Except Fault Config := do
  let mipsAddress ← address "mips_address" (mips.getD c.mipsAddress.bytes)
  let oracleAddress ← address "preimage_oracle_address" (oracle.getD c.oracleAddress.bytes)
  let senderAddress ← address "sender_address" (sender.getD c.senderAddress.bytes)
  return { c with mipsAddress, oracleAddress, senderAddress }

end Config

end StepReplay
