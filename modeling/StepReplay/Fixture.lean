import StepReplay.Fault
import StepReplay.StepWitness

set_option autoImplicit false

/-! # Step fixtures

A fixture is a named step witness and, where the native machine was asked, the fingerprint of the
state that it reached. A file holds one fixture, which takes the name of the file, or an object
with a fixture for each name. A file that holds a fixture under the name `witness` therefore reads
as a single fixture. -/

namespace StepReplay

/-- A step to replay. -/
structure Fixture where
  name : Text
  witness : StepWitness
  postStateHash : Option Hash := none
  deriving DecidableEq

namespace Fixture

/-- The JSON form, without the name. -/
def toJson (f : Fixture) : Json :=
  let hash := f.postStateHash.map fun h =>
    (("postStateHash", .string (hexText h.bytes)) : Text × Json)
  .object (("witness", f.witness.toJson) :: hash.toList)

/-- The fixture of a JSON value. -/
def ofJson (name : Text) (j : Json) : Except DecodeError Fixture := do
  let some witness := j.field? "witness" | throw (.noWitness name)
  let witness ← StepWitness.ofJson witness
  let postStateHash ← StepWitness.readOptional (Block.read 32) (j.present? "postStateHash")
  return { name, witness, postStateHash }

/-! ## Files -/

/-- The fixtures of a document at a path. -/
def ofDocument (path : Path) (j : Json) : Except DecodeError (List Fixture) :=
  match j with
  | .object fields =>
    if (j.field? "witness").isSome then (ofJson path.fileStem j).map ([·])
    else fields.mapM fun (name, value) => ofJson name value
  | _ => .error (.noFixtures path.text)

/-- The fixtures in the content of a file. -/
def ofContent (path : Path) (content : Bytes) : Except Fault (List Fixture) := do
  let some text := Utf8.decode? content | throw .undecodable
  let document ← (Json.read text).mapError .document
  (ofDocument path document).mapError .decode

/-- The fixtures of a file of a disk. -/
def load (disk : Disk) (path : Path) : Except Fault (List Fixture) := do
  ofContent path (← (disk.readFile path.text).mapError .file)

end Fixture

/-! ## Corpora -/

namespace Corpus

/-- The files that may hold fixtures end with this suffix. -/
def suffix : Text := ".json"

/-- Whether a fault makes a file one that holds no fixtures. Other faults end the loading of a
corpus. -/
def isPassedOver : Fault → Bool
  | .undecodable | .failure (.decode _) => true
  | .document e => e != .tooDeep
  | _ => false

/-- The fixtures of a file met on a walk. -/
def ofFile (met : FileTree.Met) : Except Fault (List Fixture) :=
  let (place, name, content) := met
  let path := (Path.ofText place).child name
  if !name.endsWith suffix then .ok []
  else if path.text.exceeds pathLimit then .error (.file .nameTooLong)
  else match Fixture.ofContent path content with
    | .ok fixtures => .ok fixtures
    | .error e => if isPassedOver e then .ok [] else .error e

/-- The fixtures of all files of a tree that is named by a text, in the order of a walk. -/
def ofTree (place : Text) (t : FileTree) : Except Fault (List Fixture) :=
  ((t.walk place).mapM ofFile).map List.flatten

/-- The fixtures below what a text names; what is no directory has none. -/
def load (disk : Disk) (place : Text) : Except Fault (List Fixture) :=
  match disk.find place with
  | .ok found => ofTree place found
  | .error .nulInName => .error (.file .nulInName)
  | .error _ => .ok []

end Corpus

end StepReplay
