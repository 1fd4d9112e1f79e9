import StepReplay.Environment
import StepReplay.State.Hash
import StepReplay.StepWitness.Calls

set_option autoImplicit false

/-! # Simulated modules

An engine that knows the two modules by the first bytes of their code and plays them without
running any. The stepper advances the program counters and the step and, where the state reads a
disclosed preimage, puts its size into register 2. Flags make it misbehave in the ways that the
harness has to notice. -/

namespace StepReplay

/-- An engine that plays the modules. -/
structure Simulated where
  attached : Bool := true
  /-- Makes every transaction fail. -/
  fail : Bool := false
  /-- Makes the stepper return a fingerprint of zeros. -/
  corruptOutput : Bool := false
  /-- How many records a step emits. -/
  logCount : Nat := 1
  accounts : Table Bytes Account := []
  /-- Offset and data of each disclosed preimage. -/
  preimages : Table Bytes (Nat × Bytes) := []
  /-- The transactions so far, oldest first, and whether they were to be kept. -/
  transactions : List (Transaction × Bool) := []

namespace Simulated

/-- The code that stands for the oracle. -/
def oracleCode : Bytes := [0x60, 0x00, 0x60, 0x00, 0xFD]

/-- The start of any code that stands for the stepper. -/
def stepperMark : Bytes := [0x5F, 0x5F, 0xFD]

/-- The account at an address. -/
def accountAt (s : Simulated) (address : Bytes) : Account :=
  (s.accounts.find? address).getD {}

/-! ## The oracle -/

/-- The selector of one of the oracle's functions. -/
def selectorOf (signature : Text) : Bytes :=
  match selector signature with
  | .ok b => b
  | .error _ => []

/-- The preimage that calldata discloses, with its key; no function takes other calldata. -/
def disclosed (calldata : Bytes) : Except Fault (Option (Bytes × Nat × Bytes)) :=
  let front := calldata.take 4
  if front = selectorOf ({} : Signatures).loadLocal then
    let ident := Calldata.word calldata 0
    if ident < Bytes.capacity 31 then
      let size := Calldata.word calldata 2
      .ok (some (1 :: Bytes.ofNat 31 ident, Calldata.word calldata 3,
        (calldata.slice 36 32).take size))
    else .error .overflow
  else if front = selectorOf ({} : Signatures).loadKeccak then
    let data := Calldata.dynamicArgument calldata 1
    .ok (some (2 :: (Keccak.hash data).bytes.drop 1, Calldata.word calldata 0, data))
  else .ok none

/-- A call of the oracle. -/
def oracle (s : Simulated) (calldata : Bytes) (commit : Bool) : Except Fault Receipt × Simulated :=
  match disclosed calldata with
  | .error e => (.error e, s)
  | .ok none => (.ok { success := false, reason := some "unknown selector" }, s)
  | .ok (some (key, entry)) =>
    (.ok { success := true },
      if commit then { s with preimages := s.preimages.put key entry } else s)

/-! ## The stepper -/

/-- The fields of the state after a step. -/
def advance (s : Simulated) (pre : State) : State.Fields :=
  let registers := match s.preimages.find? pre.preimageKey with
    | some (_, data) => pre.fields.registers.set 2 data.length
    | none => pre.fields.registers
  { pre.fields with
    pc := pre.nextPc, nextPc := pre.nextPc + 4, step := pre.step + 1, registers }

/-- A call of the stepper. -/
def stepper (s : Simulated) (address calldata : Bytes) : Except Fault Receipt := do
  let pre ← (Block.ofBytes 226 (Calldata.dynamicArgument calldata 0)).mapError .decode
  let post ← (State.ofFields (s.advance pre)).mapError .ofFields
  return {
    success := true
    output := if s.corruptOutput then Bytes.zeros 32 else post.hash.bytes
    logs := List.replicate s.logCount { address, topics := [], data := post.bytes } }

/-! ## Transactions -/

/-- The constructor puts its argument behind the mark of the stepper. -/
def creation (data : Bytes) : Receipt :=
  { success := true, output := stepperMark ++ data.drop (data.length - 32) }

/-- A call of an account, which is played by its code. -/
def call (s : Simulated) (target : Bytes) (data : Option Bytes) (commit : Bool) :
    Except Fault Receipt × Simulated :=
  let code := (s.accountAt target).code
  if code = oracleCode then match data with
    | some calldata => s.oracle calldata commit
    | none => (.error .missing, s)
  else if stepperMark.isPrefixOf code then match data with
    | some calldata => (s.stepper target calldata, s)
    | none => (.error .missing, s)
  else (.ok { success := true }, s)

/-- A transaction. -/
def execute (s : Simulated) (t : Transaction) (commit : Bool) : Except Fault Receipt × Simulated :=
  let s := { s with transactions := s.transactions ++ [(t, commit)] }
  if s.fail then (.ok { success := false, reason := some "Revert" }, s)
  else match t.target with
    | some target => s.call target t.data commit
    | none => match t.data with
      | some data => (.ok (creation data), s)
      | none => (.error .missing, s)

instance : Environment Simulated where
  available s := s.attached
  setAccount s address account := .ok { s with accounts := s.accounts.put address account }
  account s address := .ok (s.accountAt address)
  execute := execute

end Simulated

end StepReplay
