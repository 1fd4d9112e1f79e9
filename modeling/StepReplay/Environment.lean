import StepReplay.Fault

set_option autoImplicit false

/-! # Execution environments

What the harness asks of an engine: install accounts, read them, and execute a transaction, either
keeping its changes or not. An engine is a value of some type with these operations. `execute`
gives the engine afterwards also when it faults, since an engine may keep a record of its calls. -/

namespace StepReplay

/-- A record emitted during a call. -/
structure LogRecord where
  address : Bytes
  topics : List Bytes
  data : Bytes
  deriving DecidableEq, Repr

/-- An account as it is installed and read. -/
structure Account where
  balance : Int := 0
  nonce : Int := 0
  code : Bytes := []
  deriving DecidableEq, Repr

/-- A call, or a creation where there is no target. -/
structure Transaction where
  caller : Bytes
  target : Option Bytes
  data : Option Bytes
  gasLimit : Int
  value : Int := 0
  deriving DecidableEq, Repr

/-- The outcome of a transaction: the data it returned, for a creation the new code, the records it
emitted, and why it failed. -/
structure Receipt where
  success : Bool
  output : Bytes := []
  logs : List LogRecord := []
  reason : Option Text := none
  deriving DecidableEq, Repr

/-- A recorded operation on an engine. -/
inductive Call where
  | setAccount (address : Bytes) (account : Account)
  | execute (transaction : Transaction) (commit : Bool)
  deriving DecidableEq, Repr

/-- The operations of an engine. -/
class Environment (σ : Type) where
  /-- Whether the engine is ready. -/
  available : σ → Bool
  setAccount : σ → Bytes → Account → Except Fault σ
  /-- Reads an account; a missing one is empty. -/
  account : σ → Bytes → Except Fault Account
  /-- Executes a transaction, keeping its changes only with `commit`. -/
  execute : σ → Transaction → (commit : Bool) → Except Fault Receipt × σ

/-- No engine at all is an engine that is never ready. -/
instance {σ : Type} [Environment σ] : Environment (Option σ) where
  available
    | some env => Environment.available env
    | none => false
  setAccount env address account := match env with
    | some env => (Environment.setAccount env address account).map some
    | none => .error .absent
  account env address := match env with
    | some env => Environment.account env address
    | none => .error .absent
  execute env transaction commit := match env with
    | some env =>
      let (result, env) := Environment.execute env transaction commit
      (result, some env)
    | none => (.error .absent, none)

end StepReplay
