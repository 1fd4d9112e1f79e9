import StepReplay.Evm.Message

set_option autoImplicit false

/-! # The virtual machine as an engine

An engine with a ledger in memory. A transaction is worked out on the ledger as it is, and its
changes are kept only if it went well and they are to be kept. A dry run that is not broken off by
its transfer therefore leaves nothing behind. -/

namespace StepReplay

/-- An engine that runs code; without a ledger it has been closed. -/
structure VirtualMachine where
  ledger : Option Evm.Ledger := some {}

namespace VirtualMachine

/-- The ledger of an engine that has not been closed. -/
def open? (v : VirtualMachine) : Except Fault Evm.Ledger :=
  match v.ledger with
  | some l => .ok l
  | none => .error (.failure .noDatabase)

/-- The engine without its ledger, which cannot be used any more. -/
def close (_ : VirtualMachine) : VirtualMachine := ⟨none⟩

/-- Installs an account. -/
def setAccount (v : VirtualMachine) (address : Bytes) (account : Account) :
    Except Fault VirtualMachine := do
  let l ← v.open?
  let address ← Evm.checkAddress address
  let nonce ← Evm.checkNat account.nonce
  let balance ← Evm.checkWord account.balance
  return ⟨some (l.setHolding address { balance, nonce, code := account.code })⟩

/-- Reads an account. -/
def account (v : VirtualMachine) (address : Bytes) : Except Fault Account := do
  let l ← v.open?
  let h := l.holding (← Evm.checkAddress address)
  return { balance := h.balance, nonce := h.nonce, code := h.code }

/-- Executes a transaction. -/
def execute (v : VirtualMachine) (t : Transaction) (commit : Bool) :
    Except Fault Receipt × VirtualMachine :=
  match v.open? with
  | .error e => (.error e, v)
  | .ok l =>
    let course := Evm.transact l t
    (course.result, ⟨some (course.ledger commit)⟩)

instance : Environment VirtualMachine where
  available v := v.ledger.isSome
  setAccount := setAccount
  account := account
  execute := execute

end VirtualMachine

end StepReplay
