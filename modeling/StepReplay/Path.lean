import StepReplay.Text.Quoted

set_option autoImplicit false

/-! # Paths

A path is a row of names, and it is written with one slash between neighbours. Empty names and
single dots say nothing, so they are dropped when a path is read; two dots are kept, since what
they lead to depends on the tree. Slashes in front are one slash, except that two of them may mean
something else to a system and stay two. -/

namespace StepReplay

/-- A path, from where the program runs or, behind the slashes in front, from the top. -/
structure Path where
  lead : Text := []
  names : List Text
  deriving DecidableEq

namespace Path

/-- The separator of names. -/
def slash : CodePoint := CodePoint.ofChar '/'

/-- The name that stands for the directory it is in. -/
def dot : Text := "."

/-- The name that stands for the directory above. -/
def twoDots : Text := ".."

/-- The names of a text, dots among them; none is empty. -/
def namesOf (t : Text) : List Text :=
  (t.cutAt slash).filter fun name => !name.isEmpty

/-- The slashes in front of a text as a path keeps them. -/
def leadOf (t : Text) : Text :=
  let slashes := t.takeWhile (· = slash)
  if slashes.length = 2 then slashes else slashes.take 1

/-- The path that a text stands for. -/
def ofText (t : Text) : Path :=
  ⟨leadOf t, (namesOf t).filter (· ≠ dot)⟩

/-- The path of an entry of a directory. -/
def child (p : Path) (name : Text) : Path :=
  { p with names := p.names ++ [name] }

/-- The text of a path; a single dot stands for no names at all. -/
def text (p : Path) : Text :=
  if p.lead.isEmpty ∧ p.names.isEmpty then dot else p.lead ++ Text.joined [slash] p.names

/-! ## Paths as they are typed -/

/-- The text of an entry of a directory that is named by a text. -/
def entryText (directory name : Text) : Text :=
  if directory.isEmpty ∨ directory.getLast? = some slash then directory ++ name
  else directory ++ slash :: name

/-- The text of an entry has one name more than that of its directory. -/
theorem namesOf_entryText {directory name : Text} (somewhere : directory ≠ [])
    (whole : slash ∉ name) (named : name ≠ []) :
    namesOf (entryText directory name) = namesOf directory ++ [name] := by
  have last : (name.cutAt slash).filter (fun name => !name.isEmpty) = [name] := by
    rw [Text.cutAt_of_not_mem whole]
    simp [named]
  unfold entryText namesOf
  split
  · rename_i ends
    obtain ⟨front, rfl⟩ : ∃ front, directory = front ++ [slash] :=
      List.getLast?_eq_some_iff.1 (ends.resolve_left (by simpa using somewhere))
    rw [List.append_assoc, List.singleton_append, Text.cutAt_append_mark, Text.cutAt_append_mark,
      List.filter_append, List.filter_append, last]
    simp [Text.cutAt]
  · rw [Text.cutAt_append_mark, List.filter_append, last]

theorem head?_entryText {directory : Text} (somewhere : directory ≠ []) (name : Text) :
    (entryText directory name).head? = directory.head? := by
  obtain _ | ⟨c, rest⟩ := directory
  · exact absurd rfl somewhere
  · unfold entryText
    split <;> rfl

/-- A text cut behind its last slash: what is in front, without the slashes at its end unless it
has nothing else, and the last name, which is empty where the text ends with a slash. -/
def cutLast (t : Text) : Text × Text :=
  let name := (t.reverse.takeWhile (· ≠ slash)).reverse
  let front := t.take (t.length - name.length)
  let bare := (front.reverse.dropWhile (· = slash)).reverse
  (if bare.isEmpty then front else bare, name)

/-- A text cut in front of its last name, without the slashes behind the name. -/
def cutEntry (t : Text) : Text × Text :=
  let (front, name) := cutLast t
  if name.isEmpty then cutLast front else (front, name)

/-! ## Stems -/

/-- Where in a text the last full stop stands. -/
def lastStop? (name : Text) : Option Nat :=
  (name.reverse.findIdx? (· = CodePoint.ofChar '.')).map fun i => name.length - 1 - i

/-- A name without its last suffix. A full stop at either end makes no suffix. -/
def stem (name : Text) : Text :=
  match lastStop? name with
  | some i => if 0 < i ∧ i < name.length - 1 then name.take i else name
  | none => name

/-- The last name of a path, without its suffix. -/
def fileStem (p : Path) : Text :=
  stem (p.names.getLast?.getD [])

end Path

end StepReplay
