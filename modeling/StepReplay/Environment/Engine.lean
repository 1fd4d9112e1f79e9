import StepReplay.Environment.Evm
import StepReplay.Environment.Scripted
import StepReplay.Environment.Simulated

set_option autoImplicit false

/-! # Engines of several kinds

Where the kind of engine is a choice made while the program runs, an engine is one of these. -/

namespace StepReplay

/-- An engine of any kind. -/
inductive Engine where
  | scripted (s : Scripted)
  | simulated (s : Simulated)
  | machine (m : VirtualMachine)

namespace Engine

instance : Environment Engine where
  available
    | scripted s => Environment.available s
    | simulated s => Environment.available s
    | machine m => Environment.available m
  setAccount env address account := match env with
    | scripted s => (Environment.setAccount s address account).map scripted
    | simulated s => (Environment.setAccount s address account).map simulated
    | machine m => (Environment.setAccount m address account).map machine
  account env address := match env with
    | scripted s => Environment.account s address
    | simulated s => Environment.account s address
    | machine m => Environment.account m address
  execute env transaction commit := match env with
    | scripted s => (Environment.execute s transaction commit).map id scripted
    | simulated s => (Environment.execute s transaction commit).map id simulated
    | machine m => (Environment.execute m transaction commit).map id machine

/-- The calls that an engine recorded. -/
def calls : Engine → List Call
  | scripted s => s.calls
  | simulated s => s.transactions.map fun (transaction, commit) => .execute transaction commit
  | machine _ => []

end Engine

end StepReplay
