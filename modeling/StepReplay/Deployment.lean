import StepReplay.Action
import StepReplay.Bindings
import StepReplay.Config

set_option autoImplicit false

/-! # Deployment

Before a step can be replayed, the sender is funded and the two modules are installed at their
addresses. The oracle's code is installed as it is. The stepper keeps the oracle's address in its
code, so its creation runs first, and the code that it returns is installed. Everything written
here is absolute, so preparing an engine again writes the same accounts. -/

namespace StepReplay

/-- A transaction of the sender. -/
def Config.transaction (c : Config) (target : Option Bytes) (data : Option Bytes) : Transaction :=
  { caller := c.senderAddress.bytes, target, data, gasLimit := c.gasLimit }

namespace Deployment

variable {σ : Type} [Environment σ]

/-- Installs code at an address without running a creation. -/
def deploy (address code : Bytes) : Action σ Unit := do
  Action.note (.installing code.length address)
  Action.install address { code }

/-- The stepper's creation code with the argument of its constructor, the oracle's address. -/
def creationData (bindings : Bindings) (c : Config) : Bytes :=
  bindings.creation ++ Bytes.padLeft 32 c.oracleAddress.bytes

/-- The code that a creation returned. -/
def runtimeCode (r : Receipt) : Except Failure Bytes :=
  if !r.success then .error (.creationFailed r.reason)
  else if r.output.isEmpty then .error .creationEmpty
  else .ok r.output

/-- Prepares an engine: the sender, the oracle and the stepper, in this order. -/
def prepare (bindings : Bindings) (c : Config) : Action σ Unit := do
  Action.requireReady
  Action.install c.senderAddress.bytes { balance := c.senderBalance }
  deploy c.oracleAddress.bytes bindings.oracle
  let receipt ← Action.submit (c.transaction none (some (creationData bindings c))) false
  let code ← Action.check (runtimeCode receipt)
  deploy c.mipsAddress.bytes code

end Deployment

end StepReplay
