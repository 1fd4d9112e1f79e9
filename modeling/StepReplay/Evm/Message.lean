import StepReplay.Evm.Ledger
import StepReplay.Evm.Run

set_option autoImplicit false

/-! # Messages

A transaction is a call of an account or the creation of one. Either starts without a fee of its
own, and no gas is ever taken from an account. A transaction that is run comes with two ledgers,
one with its changes and one for the case that they are dropped. -/

namespace StepReplay.Evm

/-- The name of an exception. -/
def Exception.name : Exception → Text
  | stackUnderflow => "StackUnderflowError"
  | stackOverflow => "StackOverflowError"
  | outOfGas => "OutOfGasError"
  | invalidOpcode => "InvalidOpcode"
  | invalidJump => "InvalidJumpDestError"
  | invalidPrefix => "InvalidContractPrefix"

/-- The receipt of a transaction that went well. -/
def successReceipt (output : Bytes) (logs : List LogRecord) : Receipt :=
  { success := true, output, logs }

/-- The receipt of a transaction that gave up and said why. -/
def revertReceipt (output : Bytes) (logs : List LogRecord) : Receipt :=
  let reason : Text := if output.isEmpty then "Revert" else "Revert " ++ hexText output
  { success := false, output, logs, reason := some reason }

/-- The receipt of a transaction that failed. Records emitted before stay in it. -/
def failureReceipt (e : Exception) (logs : List LogRecord) : Receipt :=
  { success := false, logs, reason := some e.name }

/-! ## Courses -/

/-- What comes of a transaction: its receipt, the ledger with its changes, and the ledger without
them. -/
structure Course where
  result : Except Fault Receipt
  kept : Ledger
  dropped : Ledger

namespace Course

/-- A transaction that ended with a fault and left a ledger behind. -/
def faulted (e : Fault) (l : Ledger) : Course := ⟨.error e, l, l⟩

/-- A transaction that went well. -/
def succeeded (output : Bytes) (logs : List LogRecord) (kept dropped : Ledger) : Course :=
  ⟨.ok (successReceipt output logs), kept, dropped⟩

/-- A transaction that failed, of which no change is kept. -/
def failed (r : Receipt) (l : Ledger) : Course := ⟨.ok r, l, l⟩

/-- The ledger that a transaction leaves, if its changes are to be kept or not. Only those of one
that went well can be. -/
def ledger (c : Course) (commit : Bool) : Ledger :=
  match c.result with
  | .ok receipt => if commit && receipt.success then c.kept else c.dropped
  | .error _ => c.dropped

end Course

/-! ## Calls -/

/-- The address that answers every call with its input. -/
def identityAddress : Bytes := Bytes.ofNat 20 4

/-- The gas for a call of the identity. -/
def identityGas (data : Bytes) : Nat :=
  Gas.identity + Gas.identityWord * wordCount data.length

/-- A call of an account with a value. -/
def callAccount (l : Ledger) (caller target data : Bytes) (gas value : Nat) : Course :=
  match l.transfer caller target value with
  | .error e => .faulted e (l.breakOff l)
  | .ok paid =>
    if target = identityAddress then
      if identityGas data ≤ gas then .succeeded data [] paid l
      else .failed (failureReceipt .outOfGas []) l
    else
      let code := (l.holding target).code
      let frame := Frame.start code data target caller value (l.measure target)
      let halt := run frame gas (paid.slots target)
      let logs := halt.machine.logs
      match halt.ending with
      | .returned output =>
        .succeeded output logs (paid.setSlots target halt.machine.slots) l
      | .reverted output => .failed (revertReceipt output logs) l
      | .failed e => .failed (failureReceipt e logs) l

/-! ## Creations -/

/-- The longest code an account may have. -/
def codeLimit : Nat := 24576

/-- The exception that keeps code from being installed with so much gas left. -/
def installFault? (code : Bytes) (gas : Nat) : Option Exception :=
  if code.head? = some 0xEF then some .invalidPrefix
  else if gas < Gas.codeByte * code.length then some .outOfGas
  else if codeLimit < code.length then some .outOfGas
  else none

/-- The creation of an account: it is begun, and what its code returns becomes its code. -/
def createAccount (l : Ledger) (caller code : Bytes) (gas value : Nat) : Course :=
  let created := Ledger.creationAddress caller (l.holding caller).nonce
  let fresh := l.beginCreation caller created
  let dropped := l.noteCreation created
  match fresh.transfer caller created value with
  | .error e => .faulted e ((fresh.breakOff l).noteCreation created)
  | .ok paid =>
    let halt := run (Frame.start code [] created caller value []) gas []
    let logs := halt.machine.logs
    match halt.ending with
    | .returned output => match installFault? output halt.gas with
      | some e => .failed (failureReceipt e logs) dropped
      | none =>
        let kept := (paid.setSlots created halt.machine.slots).noteCreation created
        let holding := { kept.holding created with code := output }
        .succeeded output logs (kept.setHolding created holding) dropped
    | .reverted output => .failed (revertReceipt output logs) dropped
    | .failed e => .failed (failureReceipt e logs) dropped

/-! ## Transactions -/

/-- An address, which must have the size of one. -/
def checkAddress (b : Bytes) : Except Fault Bytes :=
  if b.length = 20 then .ok b else .error (.engineAddress b.length)

/-- A number that must not be negative. -/
def checkNat (n : Int) : Except Fault Nat :=
  if 0 ≤ n then .ok n.toNat else .error .overflow

/-- A number that must fit a word. -/
def checkWord (n : Int) : Except Fault Nat :=
  if 0 ≤ n ∧ n < Bytes.capacity 32 then .ok n.toNat else .error .overflow

/-- The course of a transaction whose parts are as they must be. -/
def course (l : Ledger) (t : Transaction) : Except Fault Course := do
  let caller ← checkAddress t.caller
  let gas ← checkNat t.gasLimit
  match t.target with
  | some target =>
    let target ← checkAddress target
    let _ ← checkWord (l.holding caller).nonce
    let value ← checkWord t.value
    let some data := t.data | throw .missing
    return callAccount l caller target data gas value
  | none =>
    let _ ← checkWord ((l.holding caller).nonce + 1)
    let value ← checkWord t.value
    let some data := t.data | throw .missing
    return createAccount l caller data gas value

/-- The course of a transaction. One that is not as it must be is not begun. -/
def transact (l : Ledger) (t : Transaction) : Course :=
  match course l t with
  | .ok c => c
  | .error e => .faulted e l

end StepReplay.Evm
