import StepReplay.CommandLine.Scan
import StepReplay.Config
import StepReplay.Text.Integer

set_option autoImplicit false

/-! # Settings

The settings of the program are the parameters with their values checked: directories have to be
there where the program only reads, numbers have to be numbers and addresses addresses. The first
mistake in the order of the parameters is reported, and arguments that nothing takes come last. A
directory that no system can be asked for is no mistake of this kind, but a fault. -/

namespace StepReplay.CommandLine

/-- The settings of the program. -/
structure Settings where
  fixtures : Text
  work : Text
  bindings : Option Text
  mipsAddress : Option Address
  oracleAddress : Option Address
  gasLimit : Int
  sharing : Bool
  verbose : Bool

/-- Why arguments make no settings. -/
inductive Refusal where
  | usage (e : UsageError)
  | fault (e : Fault)

/-- What the program is asked to do. -/
inductive Request where
  | help
  | replay (settings : Settings)

namespace Settings

/-- The work directory where none is given. -/
def defaultWork : Text := "/tmp/step_diff"

/-- The settings before any parameter is looked at. -/
def start : Settings where
  fixtures := []
  work := defaultWork
  bindings := none
  mipsAddress := none
  oracleAddress := none
  gasLimit := ({} : Config).gasLimit
  sharing := false
  verbose := false

/-- A directory that has to be there. -/
def existing (d : Disk) (p : Parameter) (t : Text) : Except Refusal Text :=
  match d.find t with
  | .ok (.directory _) => .ok t
  | .ok (.file _) => .error (.usage (.directoryIsFile p t))
  | .error .nulInName => .error (.fault (.file .nulInName))
  | .error _ => .error (.usage (.directoryMissing p t))

/-- A directory that may still have to be made. -/
def possible (d : Disk) (p : Parameter) (t : Text) : Except Refusal Text :=
  match d.find t with
  | .ok (.file _) => .error (.usage (.directoryIsFile p t))
  | .error .nulInName => .error (.fault (.file .nulInName))
  | _ => .ok t

/-- An address in hex. -/
def address (p : Parameter) (t : Text) : Except Refusal Address :=
  (Block.read 20 (.string t)).mapError fun e => .usage (.badAddress p e)

/-- An integer. -/
def integer (p : Parameter) (t : Text) : Except Refusal Int :=
  match Integer.read? t with
  | some n => .ok n
  | none => .error (.usage (.notInteger p t))

/-- The settings with one parameter settled. -/
def settle (d : Disk) (scan : Scan) (s : Settings) (p : Parameter) : Except Refusal Settings :=
  match p, scan.value? p with
  | .fixtures, none => .error (.usage (.missing .fixtures))
  | .fixtures, some t => (existing d p t).map fun fixtures => { s with fixtures }
  | .work, t => (possible d p (t.getD s.work)).map fun work => { s with work }
  | .bindings, some t => (existing d p t).map fun t => { s with bindings := some t }
  | .mipsAddress, some t => (address p t).map fun a => { s with mipsAddress := some a }
  | .oracleAddress, some t => (address p t).map fun a => { s with oracleAddress := some a }
  | .gasLimit, some t => (integer p t).map fun gasLimit => { s with gasLimit }
  | .sharedEnvironment, some _ => .ok { s with sharing := true }
  | .verbose, some _ => .ok { s with verbose := true }
  | _, _ => .ok s

/-- The settings that some arguments make on a disk. -/
def ofScan (d : Disk) (scan : Scan) : Except Refusal Settings := do
  let s ← scan.order.foldlM (settle d scan) start
  if scan.extra.isEmpty then return s else throw (.usage (.extra scan.extra))

/-- The configuration that some settings make. -/
def config (s : Settings) : Config :=
  let d : Config := {}
  { d with
    mipsAddress := s.mipsAddress.getD d.mipsAddress
    oracleAddress := s.oracleAddress.getD d.oracleAddress
    gasLimit := s.gasLimit
    bindingsDirectory := s.bindings.map Path.ofText }

end Settings

/-- What some arguments ask for; help is given before any value is looked at. -/
def Request.read (d : Disk) (arguments : List Text) : Except Refusal Request := do
  let scan ← (Scan.read arguments).mapError .usage
  if scan.holds .help then return .help
  return .replay (← Settings.ofScan d scan)

end StepReplay.CommandLine
