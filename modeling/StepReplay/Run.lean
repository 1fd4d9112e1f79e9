import StepReplay.Outcome

set_option autoImplicit false

/-! # Runs

A run replays the cases of a corpus in order. As a rule each case has an engine of its own, newly
prepared, so that no case sees what another disclosed. In a shared run one engine serves all cases
from the first successful preparation on; an engine whose preparation failed is never used again.

What a run has done so far is a value, which is there also after a fault has ended the run. -/

namespace StepReplay

/-- What is to be run and how. -/
structure Plan (σ : Type) where
  corpus : List Fixture
  /-- The engines, by the number of engines that were made before. -/
  factory : Nat → σ
  bindings : Bindings
  config : Config := {}
  workDirectory : Text := "/tmp/step_diff"
  /-- Whether all cases run on one engine. -/
  sharing : Bool := false

/-- What has been done so far. -/
structure Progress (σ : Type) where
  /-- Engines that are done with, in the order in which they were made. -/
  retired : List σ := []
  /-- The engine that all further cases share. -/
  shared : Option σ := none
  events : List Event := []
  outcomes : List Outcome := []
  /-- What was printed. -/
  printed : Text := []
  disk : Disk := {}

namespace Progress

variable {σ : Type}

/-- All engines made so far. -/
def engines (p : Progress σ) : List σ :=
  p.retired ++ p.shared.toList

end Progress

/-- A part of a run that ends with an `α`. -/
abbrev Running (σ α : Type) := Attempt (Progress σ) α

namespace Plan

variable {σ : Type} [Environment σ]

/-! ## Cases -/

/-- A prepared engine for the next case. -/
def preparedEngine (plan : Plan σ) (p : Progress σ) : Except Fault σ × Progress σ :=
  match p.shared with
  | some env => (.ok env, p)
  | none =>
    let fresh := plan.factory p.engines.length
    match (Deployment.prepare plan.bindings plan.config).start ⟨fresh, p.events⟩ with
    | (.ok (), s) => (.ok s.env, { p with events := s.events })
    | (.error e, s) => (.error e, { p with retired := p.retired ++ [s.env], events := s.events })

/-- Puts an engine back after a case: a shared one is kept for the next. -/
def putBack (plan : Plan σ) (p : Progress σ) (env : σ) : Progress σ :=
  if plan.sharing then { p with shared := some env } else { p with retired := p.retired ++ [env] }

/-- The result of the step of a fixture on the next engine. -/
def stepCase (plan : Plan σ) (f : Fixture) (p : Progress σ) :
    Except Fault StepResult × Progress σ :=
  match plan.preparedEngine p with
  | (.error e, p) => (.error e, p)
  | (.ok env, p) =>
    let (result, s) := (Step.execute plan.config f.witness).start ⟨env, p.events⟩
    (result, plan.putBack { p with events := s.events } s.env)

/-- Runs the case of a fixture. -/
def runCase (plan : Plan σ) (f : Fixture) : Running σ Outcome := do
  let (result, p) := plan.stepCase f (← get)
  set p
  match f.outcome result with
  | .ok outcome => return outcome
  | .error e => throw e

/-! ## Reports -/

/-- Prints a text, unless it holds what cannot be encoded. -/
def print (t : Text) : Running σ Unit := do
  if (Utf8.encode? t).isNone then throw .unencodable
  modify fun p => { p with printed := p.printed ++ t }

/-- Prints words one after another as a line. Those before one that cannot be printed stay. -/
def printLine : List Text → Running σ Unit
  | [] => print "\n"
  | [word] => do
    print word
    print "\n"
  | word :: rest => do
    print word
    print " "
    printLine rest

/-- Changes the disk, unless the change fails. -/
def changeDisk (change : Disk → Except FileError Disk) : Running σ Unit := do
  let p ← get
  match change p.disk with
  | .ok disk => set { p with disk }
  | .error e => throw (.file e)

/-- Makes the work directory, unless something stands in its place. -/
def makeWorkDirectory (plan : Plan σ) : Running σ Unit := do
  let p ← get
  if !p.disk.holds plan.workDirectory then
    let (disk, error) := p.disk.makeDirectories Disk.depthLimit plan.workDirectory
    set { p with disk }
    if let some e := error then throw (.file e)

/-- Writes the report of a failing case. -/
def writeReport (plan : Plan σ) (f : Fixture) (o : Outcome) : Running σ Unit := do
  let name := Outcome.reportName f.name
  match Utf8.encode? name, Utf8.encode? (o.report f).report with
  | some _, some content =>
    changeDisk fun disk => disk.writeFile (Path.entryText plan.workDirectory name) content
  | _, _ => throw .unencodable

/-- The words that announce a failing case. -/
def announcement (name : Text) (f : Failure) : List Text :=
  ["Differential fault found:", name, "-", f.message]

/-- Announces a case that failed and writes its report. -/
def reportFailure (plan : Plan σ) (f : Fixture) (o : Outcome) : Running σ Unit := do
  if let some e := o.error then
    printLine (announcement f.name e)
    plan.writeReport f o

/-- The words that sum a run up. -/
def summary (outcomes : List Outcome) : List Text :=
  ["Finished", Decimal.ofNat outcomes.length, "steps,",
    Decimal.ofNat (outcomes.countP fun o => !o.clean), "failed"]

/-! ## The run -/

/-- Runs the case of a fixture, notes its outcome, and reports it if it failed. -/
def performCase (plan : Plan σ) (f : Fixture) : Running σ Unit := do
  let outcome ← plan.runCase f
  modify fun p => { p with outcomes := p.outcomes ++ [outcome] }
  plan.reportFailure f outcome

/-- Runs all cases in order. -/
def performAll (plan : Plan σ) : List Fixture → Running σ Unit
  | [] => pure ()
  | f :: rest => do
    plan.performCase f
    plan.performAll rest

/-- What is done before the first case. -/
def opening (plan : Plan σ) : Running σ Unit := do
  plan.makeWorkDirectory
  modify fun p => { p with outcomes := [] }

/-- What is done after the last case. -/
def closing : Running σ Bool := do
  let outcomes := (← get).outcomes
  printLine (summary outcomes)
  return outcomes.all Outcome.clean

/-- Runs the corpus. The result is whether every case was clean. -/
def run (plan : Plan σ) : Running σ Bool := do
  plan.opening
  plan.performAll plan.corpus
  closing

end Plan

end StepReplay
