import StepReplay.FileTree

set_option autoImplicit false

/-! # Disks

A disk is a file tree with the directory in which the program runs, from which relative paths
start. The operations are those of a system and take a path as it is typed, because the text
itself counts: it may be too long, and a text that ends behind a slash names directories only. -/

namespace StepReplay

/-- A file tree and the place in it where relative paths start. -/
structure Disk where
  root : FileTree := .empty
  /-- The names on the way to the directory in which the program runs. -/
  here : List Text := []
  deriving Inhabited

namespace Disk

/-- Refuses a text that is no path, whatever the disk holds. -/
def checkPath (t : Text) : Except FileError Unit :=
  if t.contains (CodePoint.ofNat 0) then .error .nulInName
  else if t.isEmpty then .error .notFound
  else if t.exceeds pathLimit then .error .nameTooLong
  else .ok ()

/-- The names on the way to a path, dots among them. -/
def route (d : Disk) (t : Text) : List Text :=
  if t.head? = some Path.slash then Path.namesOf t else d.here ++ Path.namesOf t

/-! ## Reading -/

/-- What stands at a path. -/
def find (d : Disk) (t : Text) : Except FileError FileTree := do
  checkPath t
  match ← FileTree.descend [] d.root (d.route t) with
  | .file content =>
    if t.getLast? = some Path.slash then throw .notDirectory else return .file content
  | .directory entries => return .directory entries

/-- Whether anything stands at a path. -/
def holds (d : Disk) (t : Text) : Bool :=
  (d.find t).isOk

/-- The content of the file at a path. -/
def readFile (d : Disk) (t : Text) : Except FileError Bytes := do
  match ← d.find t with
  | .file content => return content
  | .directory _ => throw .isDirectory

/-! ## Writing -/

/-- The names on the way so far, nearest first, after one name more: two dots take one back. -/
def keep (kept : List Text) (name : Text) : List Text :=
  if name = Path.dot then kept else if name = Path.twoDots then kept.drop 1 else name :: kept

/-- The names of a route that leads somewhere without its dots. -/
def straighten (names : List Text) : List Text :=
  (names.foldl keep []).reverse

/-- The disk with a change at the end of a path. What lies in front of the last name must be a
directory, and where the last name only goes back to a directory the change is not made. -/
def update (d : Disk) (change : Option FileTree → Except FileError FileTree)
    (onDots : FileError) (t : Text) : Except FileError Disk := do
  checkPath t
  let way := (d.route t).dropLast
  match ← FileTree.descend [] d.root way, (Path.namesOf t).getLast? with
  | .file _, _ => throw .notDirectory
  | .directory _, none => throw onDots
  | .directory _, some name =>
    if name = Path.dot ∨ name = Path.twoDots then throw onDots
    let root ← FileTree.updateAt change (some d.root) (straighten way ++ [name])
    return { d with root }

/-- The disk with an empty directory at a path where there is nothing. -/
def makeDirectory (d : Disk) (t : Text) : Except FileError Disk :=
  d.update (fun
    | some _ => .error .occupied
    | none => .ok .empty) .occupied t

/-- The disk with a file at a path; its directory must be there. -/
def writeFile (d : Disk) (t : Text) (content : Bytes) : Except FileError Disk :=
  if t.getLast? = some Path.slash then .error .isDirectory
  else d.update (fun
    | some (.directory _) => .error .isDirectory
    | _ => .ok (.file content)) .isDirectory t

/-! ## Directories one inside another -/

/-- The disk with a directory at a path, or as it was. -/
def tryDirectory (d : Disk) (t : Text) : Disk × Option FileError :=
  match d.makeDirectory t with
  | .ok d => (d, none)
  | .error e => (d, some e)

/-- The most directories that are made one inside another. -/
def depthLimit : Nat := 988

/-- The disk with a directory at a path, after those on the way to it that are not there. What is
made before an error stays. That an outer directory turns out to be there is no error, but the
innermost one must be new. -/
def makeDirectories : Nat → Disk → Text → Disk × Option FileError
  | 0, d, _ => (d, some .tooDeep)
  | depth + 1, d, t =>
    let (outer, name) := Path.cutEntry t
    if outer.isEmpty ∨ name.isEmpty ∨ d.holds outer then d.tryDirectory t
    else match makeDirectories depth d outer with
      | (d, none) | (d, some .occupied) => if name = Path.dot then (d, none) else d.tryDirectory t
      | stuck => stuck

end Disk

end StepReplay
