import StepReplay.Fixture
import StepReplay.Json.Printer
import StepReplay.Step

set_option autoImplicit false

/-! # Outcomes

A case ends with the fingerprint that its step reached, with a failure, or with both where the
step went well but the native machine had reached another fingerprint. A failing case is written
down in a report that holds its fixture too, so that the case can be replayed from it. -/

namespace StepReplay

/-- What became of a case. -/
structure Outcome where
  name : Text
  stateHash : Option Hash := none
  error : Option Failure := none

namespace Outcome

/-- Whether nothing went wrong. -/
def clean (o : Outcome) : Bool :=
  o.error.isNone

/-- The fields of a failure: its kind and message, and the fingerprints that it compares. -/
def failureFields (f : Failure) : List (Text × Json) :=
  let compared : List (Text × Json) := match f.mismatch? with
    | some (expected, actual) =>
      [("expected", .string (hexText expected.bytes)), ("actual", .string (hexText actual.bytes))]
    | none => []
  ("errorType", .string f.kind) :: ("error", .string f.message) :: compared

/-- The fields of an outcome, only those that are there. -/
def fields (o : Outcome) : List (Text × Json) :=
  let name : Text × Json := ("name", .string o.name)
  let hash := o.stateHash.map fun h => (("stateHash", .string (hexText h.bytes)) : Text × Json)
  name :: hash.toList ++ (o.error.map failureFields).getD []

/-- The outcome of a case beside its fixture. -/
def report (o : Outcome) (f : Fixture) : Json :=
  .object (o.fields.concat ("fixture", f.toJson))

/-- What is told of a failure beside its report. That fingerprints differ is no more than the
report says. -/
def trace? (o : Outcome) : Option Text :=
  match o.error with
  | some f => if f.mismatch?.isNone then some (f.kind ++ ": " ++ f.message) else none
  | none => none

/-- The name of the report of a case, with the separators of paths replaced. -/
def reportName (name : Text) : Text :=
  name.map (fun c => if c = Path.slash then CodePoint.ofChar '_' else c) ++ ".failure.json"

end Outcome

namespace Fixture

/-- The failure of a step that reached another fingerprint than the native machine. -/
def divergence? (f : Fixture) (computed : Hash) : Option Failure :=
  match f.postStateHash with
  | some native => if native = computed then none else some (.nativeMismatch native computed)
  | none => none

/-- The outcome of the case of a fixture. Faults other than failures are no outcome. -/
def outcome (f : Fixture) : Except Fault StepResult → Except Fault Outcome
  | .ok r => .ok
    { name := f.name, stateHash := some r.stateHash, error := f.divergence? r.stateHash }
  | .error (.failure e) => .ok { name := f.name, error := some e }
  | .error e => .error e

end Fixture

end StepReplay
