import StepReplay.Action
import StepReplay.Deployment
import StepReplay.State.Hash

set_option autoImplicit false

/-! # Replaying a step

A step is one call of the stepper module as a dry run: its receipt alone counts. It has to return
a fingerprint and to emit one record, the state after the step, and the two have to agree. Where
the witness has a preimage, a call that discloses it to the oracle goes before, and that call is
kept so that the step can read from it.

The checks are functions of the receipt. Each is reached only if all before it passed. -/

namespace StepReplay

/-- The state after a step and its fingerprint. -/
structure StepResult where
  stateHash : Hash
  postState : State
  deriving DecidableEq

namespace Step

/-! ## Checks -/

/-- The fingerprint that a step returned. -/
def returnedHash (r : Receipt) : Except Failure Hash :=
  if !r.success then .error (.stepFailed r.reason)
  else if h : r.output.length = 32 then .ok ⟨r.output, h⟩
  else .error (.outputSize r.output.length)

/-- The state in the one record of a step. -/
def loggedState (r : Receipt) : Except Failure State :=
  match r.logs with
  | [record] => (Block.ofBytes 226 record.data).mapError .decode
  | logs => .error (.logCount logs.length)

/-- A returned fingerprint beside the state that it has to be the fingerprint of. -/
def agreed (hash : Hash) (post : State) : Except Failure StepResult :=
  if post.hash = hash then .ok ⟨hash, post⟩ else .error (.logMismatch hash post.hash)

/-- The disclosure of a preimage has only to succeed. -/
def disclosed (r : Receipt) : Except Failure Unit :=
  if r.success then .ok () else .error (.disclosureFailed r.reason)

/-! ## Calls -/

variable {σ : Type} [Environment σ]

/-- Discloses the preimage of a witness to the oracle. -/
def disclose (c : Config) (w : StepWitness) : Action σ Unit := do
  Action.requireReady
  let some key := w.preimageKey | throw .missing
  Action.note (.reading key w.offset)
  let input ← Action.ofExcept (w.oracleInput c.signatures)
  let receipt ← Action.submit (c.transaction (some c.oracleAddress.bytes) input) true
  Action.check (disclosed receipt)

/-- Calls the stepper on a witness and checks what comes back. -/
def perform (c : Config) (w : StepWitness) : Action σ StepResult := do
  Action.note .stepping
  let input ← Action.ofExcept (w.stepInput c.signatures.step)
  let receipt ← Action.submit (c.transaction (some c.mipsAddress.bytes) (some input)) false
  let hash ← Action.check (returnedHash receipt)
  Action.note (.stepped hash)
  let post ← Action.check (loggedState receipt)
  Action.check (agreed hash post)

/-- Replays the step of a witness. -/
def execute (c : Config) (w : StepWitness) : Action σ StepResult := do
  Action.requireReady
  if w.hasPreimage then disclose c w
  perform c w

end Step

end StepReplay
