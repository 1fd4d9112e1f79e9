import StepReplay.Config
import StepReplay.Text.Blank

set_option autoImplicit false

/-! # Bytecode files

The modules come as two hex files, the creation code of the stepper and the finished code of the
oracle. Such a file may be laid out in any way: blanks are taken out before the digits are read,
wherever they stand. -/

namespace StepReplay

/-- The file of the stepper's creation code. -/
def creationFile : Text := "mips_creation.bin"

/-- The file of the oracle's code. -/
def oracleFile : Text := "preimage_oracle_deployed.bin"

/-- The code in the text of a bytecode file. -/
def codeOfText (path : Text) (t : Text) : Except Fault Bytes :=
  match HexForm.decode {} t.withoutBlanks with
  | .error e => .error (.failure (.malformedCode path e))
  | .ok [] => .error (.failure (.emptyCode path))
  | .ok code => .ok code

/-- The code in the content of a bytecode file. -/
def codeOfContent (path : Text) (content : Bytes) : Except Fault Bytes :=
  match Utf8.decode? content with
  | some t => codeOfText path t
  | none => .error .undecodable

/-- The code in a file of a disk. -/
def readCode (disk : Disk) (path : Path) : Except Fault Bytes :=
  match disk.readFile path.text with
  | .ok content => codeOfContent path.text content
  | .error .nulInName => .error (.file .nulInName)
  | .error e => .error (.failure (.unreadableCode path.text e))

/-- The code of the two modules. -/
structure Bindings where
  /-- The stepper's creation code, without the argument of its constructor. -/
  creation : Bytes
  /-- The oracle's code as it is installed. -/
  oracle : Bytes
  deriving DecidableEq

namespace Bindings

/-- The two files of a directory. -/
def load (disk : Disk) (directory : Path) : Except Fault Bindings := do
  let creation ← readCode disk (directory.child creationFile)
  let oracle ← readCode disk (directory.child oracleFile)
  return { creation, oracle }

/-- The two files of the directory of a configuration. The program's own directory comes without
them. -/
def ofConfig (disk : Disk) (c : Config) : Except Fault Bindings :=
  match c.bindingsDirectory with
  | some directory => load disk directory
  | none =>
    .error (.failure (.unreadableCode (Config.ownDirectory.child creationFile).text .notFound))

end Bindings

end StepReplay
