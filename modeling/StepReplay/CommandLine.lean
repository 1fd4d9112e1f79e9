import StepReplay.CommandLine.Settings
import StepReplay.Run

set_option autoImplicit false

/-! # The command line

The program reads its arguments, the bytecode and the corpus, in this order, runs the corpus and
exits with zero if every case was clean. Bytecode that cannot be used is an error of one line, and
so is a mistake in the arguments. All other faults end the program where they arise. -/

namespace StepReplay.CommandLine

/-- How the program ended and what it left behind. -/
structure Report where
  exitCode : Nat
  /-- What was printed on standard output. -/
  printed : Text := []
  /-- What was told of failing cases on standard error. -/
  traces : List Text := []
  /-- The error that the program ended with. -/
  error : Option Text := none
  /-- The fault that the program did not handle. -/
  fault : Option Fault := none
  /-- What was noted, as far as it was asked for. -/
  events : List Event := []
  disk : Disk

namespace Report

/-- The end of a program that met a fault before its run. -/
def ofFault (disk : Disk) (e : Fault) : Report :=
  { exitCode := 1, fault := some e, disk }

/-- The end of a program whose arguments make no settings. -/
def ofRefusal (disk : Disk) : Refusal → Report
  | .usage e => { exitCode := 2, error := some e.message, disk }
  | .fault e => ofFault disk e

/-- The end of a program whose bytecode could not be loaded. -/
def ofBindings (disk : Disk) : Fault → Report
  | .failure f => { exitCode := 1, error := some f.message, disk }
  | e => ofFault disk e

/-- The end of a program that ran its corpus. -/
def ofRun {σ : Type} (verbose : Bool) : Except Fault Bool × Progress σ → Report
  | (result, p) =>
    let ended : Report :=
      { exitCode := if result.toOption.getD false then 0 else 1
        printed := p.printed, traces := p.outcomes.filterMap Outcome.trace?
        events := if verbose then p.events else [], disk := p.disk }
    match result with
    | .ok _ => ended
    | .error e => { ended with fault := some e }

end Report

/-- The line that says how many fixtures were found. -/
def loadedLine (count : Nat) (directory : Text) : Text :=
  "Loaded " ++ Decimal.ofNat count ++ " step fixtures from " ++ directory ++ "\n"

/-- The text that explains the use of the program. -/
def helpText : Text :=
  let line := fun p : Parameter =>
    let short : Text := (p.letter?.map fun c => ", " ++ Parameter.short c).getD []
    let value : Text := if p.takesValue then " VALUE" else ""
    "  " ++ p.long ++ short ++ value
  let head : List Text :=
    ["Usage: [OPTIONS]", "",
      "  Executes MIPS step witnesses on the EVM modules and compares the post-state hashes", "",
      "Options:"]
  (head ++ Parameter.all.map line).flatMap fun line => line ++ ("\n" : Text)

variable {σ : Type} [Environment σ]

/-- Runs the corpus that some settings name. -/
def replay (factory : Nat → σ) (disk : Disk) (s : Settings) : Report :=
  let config := s.config
  match Bindings.ofConfig disk config with
  | .error e => .ofBindings disk e
  | .ok bindings => match Corpus.load disk s.fixtures with
    | .error e => .ofFault disk e
    | .ok corpus =>
      let plan : Plan σ :=
        { corpus, factory, bindings, config, workDirectory := s.work, sharing := s.sharing }
      .ofRun s.verbose (plan.run.start { disk, printed := loadedLine corpus.length s.fixtures })

/-- The directories that some arguments name: those that are read, and the one for reports. -/
def directories (arguments : List Text) : List Text × Text :=
  match Scan.read arguments with
  | .ok scan =>
    ([Parameter.fixtures, Parameter.bindings].filterMap scan.value?,
      (scan.value? .work).getD Settings.defaultWork)
  | .error _ => ([], Settings.defaultWork)

/-- Does what some arguments ask for. -/
def run (factory : Nat → σ) (disk : Disk) (arguments : List Text) : Report :=
  match Request.read disk arguments with
  | .error e => .ofRefusal disk e
  | .ok .help => { exitCode := 0, printed := helpText, disk }
  | .ok (.replay s) => replay factory disk s

end StepReplay.CommandLine
