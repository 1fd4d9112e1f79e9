import StepReplay.CommandLine
import StepReplay.Environment.Evm

set_option autoImplicit false

/-! # The program

Brings the directories that the arguments name into a disk, runs the command line on it, and
writes what it printed and reported. -/

namespace StepReplay.Program

/-- The tree at a place of the system, down to a depth. Links to directories are left out, and so
is what cannot be read. -/
partial def load (depth : Option Nat) (place : String) : IO FileTree := do
  let here ← IO.FS.realPath place
  match ← here.readDir.toBaseIO with
  | .error _ =>
    let content ← if depth = some 0 then pure .empty else IO.FS.readBinFile here
    return .file content.toList
  | .ok entries =>
    if depth = some 0 then return .empty
    let inner ← entries.toList.filterMapM fun entry => do
      match ← (load (depth.map (· - 1)) entry.path.toString).toBaseIO with
      | .ok (.directory below) =>
        let real ← IO.FS.realPath entry.path
        return if real == here / entry.fileName then
          some (Text.ofString entry.fileName, FileTree.directory below) else none
      | .ok found => return some (Text.ofString entry.fileName, found)
      | .error _ => return none
    return .directory inner

/-- A tree with a change at the end of a row of names and directories on the way to it. -/
def plant (change : FileTree → FileTree) : List Text → FileTree → FileTree
  | [], tree => change tree
  | name :: names, tree =>
    let entries := match tree with
      | .directory entries => entries
      | .file _ => []
    let inner := (Table.find? name entries).getD .empty
    .directory (Table.put name (plant change names inner) entries)

/-- A disk with a tree at a path and every directory that the path goes through. -/
def place (disk : Disk) (name : Text) (tree : FileTree) : Disk :=
  let route := disk.route name
  let way := fun (root : FileTree) (count : Nat) =>
    plant id (Disk.straighten (route.take count)) root
  let root := (List.range route.length).foldl way disk.root
  { disk with root := plant (fun _ => tree) (Disk.straighten route) root }

/-- A disk that also has what stands in the system at a path, down to a depth. -/
def bring (depth : Option Nat) (disk : Disk) (name : Text) : IO Disk := do
  match ← (load depth name.toString).toBaseIO with
  | .ok tree => return place disk name tree
  | .error _ => return disk

/-- The files at a path of a disk. -/
def filesAt (disk : Disk) (name : Text) : List (Path × Bytes) :=
  match disk.find name with
  | .ok tree => tree.allFiles (Path.ofText name)
  | .error _ => []

/-- Makes the work directory and writes the files in it that were not there before. -/
def store (work : Text) (before after : Disk) : IO Unit := do
  if let .ok (.directory _) := after.find work then
    IO.FS.createDirAll work.toString
    let known := filesAt before work
    for file in filesAt after work do
      if !known.contains file then
        IO.FS.writeBinFile file.1.text.toString ⟨file.2.toArray⟩

/-- Prints lines on standard error. -/
def tell (lines : List Text) : IO Unit :=
  lines.forM fun line => IO.eprintln line.toString

end StepReplay.Program

open StepReplay Program in
/-- Replays the fixtures that the arguments name on a virtual machine. -/
def main (arguments : List String) : IO UInt32 := do
  let arguments := arguments.map Text.ofString
  let (sources, work) := CommandLine.directories arguments
  let here := Path.namesOf (Text.ofString (← IO.currentDir).toString)
  let around : Disk := { root := plant id here .empty, here }
  let disk ← sources.foldlM (bring none) (← bring (some 1) around work)
  let report := CommandLine.run (fun _ => ({} : VirtualMachine)) disk arguments
  store work disk report.disk
  IO.print report.printed.toString
  let errors := report.error.toList ++ (report.fault.map Fault.wording).toList
  tell (report.events.map Event.message ++ report.traces)
  tell (errors.map fun e => ("Error: " : Text) ++ e)
  return UInt32.ofNat report.exitCode
