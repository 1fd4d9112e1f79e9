import StepReplay.Bytes
import StepReplay.Path
import StepReplay.Table
import StepReplay.Text.Utf8

set_option autoImplicit false

/-! # File trees

Fixtures, bytecode and reports are files in a tree of directories. The tree is a value: reading
follows a row of names down from its top, and writing gives a new tree or an error. -/

namespace StepReplay

/-- A file with its content, or a directory with its entries by name. -/
inductive FileTree where
  | file (content : Bytes)
  | directory (entries : List (Text × FileTree))
  deriving Inhabited

/-- Why a path cannot be used. -/
inductive FileError where
  | notFound
  | notDirectory
  | isDirectory
  /-- What was to be made is there. -/
  | occupied
  | nameTooLong
  /-- No system can be asked for such a name. -/
  | nulInName
  /-- More directories would have to be made than can be made one inside another. -/
  | tooDeep
  deriving DecidableEq, Repr

/-- The system's number and wording for an error, with the path at fault. -/
def FileError.message (path : Text) (e : FileError) : Text :=
  let wording : Text := match e with
    | .notFound => "[Errno 2] No such file or directory"
    | .occupied => "[Errno 17] File exists"
    | .notDirectory => "[Errno 20] Not a directory"
    | .isDirectory => "[Errno 21] Is a directory"
    | .nameTooLong => "[Errno 36] File name too long"
    | .nulInName => "embedded null byte"
    | .tooDeep => "too many directories"
  wording ++ ": " ++ Quoted.encode path

/-! ## Limits -/

/-- The most bytes a name may have. -/
def nameLimit : Nat := 255

/-- The most bytes a path may have. -/
def pathLimit : Nat := 4095

/-- Whether a text has more bytes than a limit. -/
def Text.exceeds (limit : Nat) (t : Text) : Bool :=
  match Utf8.encode? t with
  | some b => limit < b.length
  | none => false

namespace FileTree

/-- A directory without entries. -/
def empty : FileTree := directory []

/-! ## Reading -/

/-- The tree at the end of a row of names. `above` holds the directories passed, nearest first, for
names of two dots; above the top there is the top itself. -/
def descend (above : List FileTree) (t : FileTree) : List Text → Except FileError FileTree
  | [] => .ok t
  | name :: names => match t with
    | file _ => .error .notDirectory
    | directory entries =>
      if name = Path.dot then descend above t names
      else if name = Path.twoDots then match above with
        | [] => descend [] t names
        | parent :: above => descend above parent names
      else if name.exceeds nameLimit then .error .nameTooLong
      else match Table.find? name entries with
        | some inner => descend (t :: above) inner names
        | none => .error .notFound

/-! ## Writing -/

/-- The tree with a change at the end of a row of names; all names but the last must be there. -/
def updateAt (change : Option FileTree → Except FileError FileTree) (t : Option FileTree) :
    List Text → Except FileError FileTree
  | [] => change t
  | name :: names =>
    if name.exceeds nameLimit then .error .nameTooLong
    else match t with
      | some (directory entries) => do
        let inner ← updateAt change (Table.find? name entries) names
        return directory (Table.put name inner entries)
      | some (file _) => .error .notDirectory
      | none => .error .notFound

/-! ## Walking -/

/-- Entries in the order of their names. -/
def sortByName {α : Type} (entries : List (Text × α)) : List (Text × α) :=
  entries.mergeSort fun a b => a.1.precedes b.1

/-- The files that stand directly in a directory. -/
def filesIn (entries : List (Text × FileTree)) : List (Text × Bytes) :=
  entries.filterMap fun
    | (name, file content) => some (name, content)
    | (_, directory _) => none

/-- A file met on a walk: the text of its directory, its name and its content. -/
abbrev Met := Text × Text × Bytes

mutual

/-- The files of a tree that is named by a text: those of a directory itself before those of its
subdirectories, and each of the two in the order of names. -/
def walk (place : Text) : FileTree → List Met
  | file _ => []
  | directory entries =>
    (sortByName (filesIn entries)).map (fun entry => (place, entry))
      ++ (sortByName (walkEach place entries)).flatMap (·.2)

/-- The files of each entry. Into a directory whose path is too long no walk leads. -/
def walkEach (place : Text) : List (Text × FileTree) → List (Text × List Met)
  | [] => []
  | (name, inner) :: rest =>
    let below := Path.entryText place name
    (name, if below.exceeds pathLimit then [] else walk below inner) :: walkEach place rest

end

mutual

/-- Every file of a tree with its path. -/
def allFiles (p : Path) : FileTree → List (Path × Bytes)
  | file content => [(p, content)]
  | directory entries => allFilesOf p entries

/-- Every file of some entries of a directory with its path. -/
def allFilesOf (p : Path) : List (Text × FileTree) → List (Path × Bytes)
  | [] => []
  | (name, inner) :: rest => allFiles (p.child name) inner ++ allFilesOf p rest

end

end FileTree

end StepReplay
