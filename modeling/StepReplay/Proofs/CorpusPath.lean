import StepReplay.Proofs.Disk
import StepReplay.Proofs.FileTree
import StepReplay.Proofs.Path

set_option autoImplicit false

/-! # Paths of the files of a corpus

A walk goes by the texts of directories, and a file is opened by a path that is made of such a text
without its dots and empty names. The path leads where the row of names does: a dot on the way to a
directory is no step. -/

namespace StepReplay

namespace FileTree

/-! ## Rows of names as routes -/

/-- The names that lead to a file are names of a system. -/
theorem isName_of_mem_row {t : FileTree} {row : List Text} {content : Bytes} (proper : t.Proper)
    (there : t.fileAt? row = some content) : ∀ name ∈ row, IsName name := by
  induction row generalizing t with
  | nil => simp
  | cons name row ih =>
    cases proper with
    | file => cases there
    | directory named distinct each =>
      rw [fileAt?, Option.bind_eq_some_iff] at there
      obtain ⟨inner, found, there⟩ := there
      have entry := Table.mem_of_find? found
      exact List.forall_mem_cons.2 ⟨named _ entry, ih (each _ entry) there⟩

/-- The row of names of a file is a route to it. -/
theorem descend_row {t : FileTree} {row : List Text} {content : Bytes} (proper : t.Proper)
    (there : t.fileAt? row = some content) (above : List FileTree) :
    descend above t row = .ok (file content) := by
  induction row generalizing t above with
  | nil =>
    cases t with
    | file c =>
      cases there
      rfl
    | directory entries => cases there
  | cons name row ih =>
    cases proper with
    | file => cases there
    | directory named distinct each =>
      rw [fileAt?, Option.bind_eq_some_iff] at there
      obtain ⟨inner, found, there⟩ := there
      have entry := Table.mem_of_find? found
      have isName := named _ entry
      rw [descend_entry isName.dot isName.twoDots isName.short found]
      exact ih (each _ entry) there _

/-- A dot on a route that leads somewhere is no step. -/
theorem descend_without_dots {above : List FileTree} {t found : FileTree} {names : List Text}
    (reached : descend above t names = .ok found) :
    descend above t (names.filter (· ≠ Path.dot)) = .ok found := by
  induction names generalizing above t with
  | nil => exact reached
  | cons name names ih =>
    obtain ⟨entries, rfl, step⟩ := descend_cons_eq_ok reached
    rcases step with ⟨dot, on⟩ | ⟨dot, twoDots, rfl, on⟩ | ⟨dot, twoDots, parent, rest, rfl, on⟩ |
      ⟨dot, twoDots, short, inner, here, on⟩
    · rw [List.filter_cons_of_neg (by simp [dot])]
      exact ih on
    · rw [List.filter_cons_of_pos (by simp [dot])]
      simp only [descend, twoDots, ↓reduceIte]
      exact ih on
    · rw [List.filter_cons_of_pos (by simp [dot])]
      simp only [descend, twoDots, ↓reduceIte]
      exact ih on
    · rw [List.filter_cons_of_pos (by simp [dot]), descend_entry dot twoDots short here]
      exact ih on

/-- Nor is one on the second part of a route. -/
theorem descend_append_without_dots {above : List FileTree} {t found : FileTree}
    {front names : List Text} (reached : descend above t (front ++ names) = .ok found) :
    descend above t (front ++ names.filter (· ≠ Path.dot)) = .ok found := by
  induction front generalizing above t with
  | nil => exact descend_without_dots reached
  | cons name front ih =>
    obtain ⟨entries, rfl, step⟩ := descend_cons_eq_ok reached
    rw [List.cons_append]
    rcases step with ⟨dot, on⟩ | ⟨dot, twoDots, rfl, on⟩ | ⟨dot, twoDots, parent, rest, rfl, on⟩ |
      ⟨dot, twoDots, short, inner, here, on⟩
    · simp only [descend, dot, ↓reduceIte]
      exact ih on
    · simp only [descend, twoDots, ↓reduceIte]
      exact ih on
    · simp only [descend, twoDots, ↓reduceIte]
      exact ih on
    · rw [descend_entry dot twoDots short here]
      exact ih on

end FileTree

open FileTree

namespace Corpus

/-! ## The files of a tree -/

/-- The directory of a file to which a row of names leads, as a walk spells it. -/
def folder (place : Text) (row : List Text) : Text :=
  row.dropLast.foldl Path.entryText place

/-- The name of a file to which a row of names leads. -/
def fileName (row : List Text) : Text :=
  row.getLast?.getD []

/-- The path of a file to which a row of names leads. -/
def pathOf (place : Text) (row : List Text) : Path :=
  (Path.ofText (folder place row)).child (fileName row)

/-- A file as a walk from a place meets it. -/
def met (place : Text) (f : List Text × Bytes) : Met :=
  (folder place f.1, fileName f.1, f.2)

/-- Neither a directory on the way to a file nor the file itself has a path that is too long. -/
structure Fits (place : Text) (row : List Text) : Prop where
  directories : ∀ dirs, dirs ≠ [] → dirs <+: row.dropLast →
    (dirs.foldl Path.entryText place).exceeds pathLimit = false
  file : (pathOf place row).text.exceeds pathLimit = false

theorem folder_cons {place name : Text} {row : List Text} (some : row ≠ []) :
    folder place (name :: row) = folder (Path.entryText place name) row := by
  rw [folder, List.dropLast_cons_of_ne_nil some]
  rfl

theorem fileName_cons {name : Text} {row : List Text} (some : row ≠ []) :
    fileName (name :: row) = fileName row := by
  cases row with
  | nil => exact absurd rfl some
  | cons next row => rw [fileName, List.getLast?_cons_cons, fileName]

theorem Fits.inside {place name : Text} {row : List Text} (some : row ≠ [])
    (fits : Fits place (name :: row)) : Fits (Path.entryText place name) row := by
  constructor
  · intro dirs _ before
    refine fits.directories (name :: dirs) (List.cons_ne_nil _ _) ?_
    rw [List.dropLast_cons_of_ne_nil some]
    exact List.cons_prefix_cons.2 ⟨rfl, before⟩
  · have file := fits.file
    rwa [pathOf, folder_cons some, fileName_cons some] at file

theorem Fits.entry {place name : Text} {row : List Text} (some : row ≠ [])
    (fits : Fits place (name :: row)) : (Path.entryText place name).exceeds pathLimit = false := by
  refine fits.directories [name] (List.cons_ne_nil _ _) ?_
  rw [List.dropLast_cons_of_ne_nil some]
  exact List.cons_prefix_cons.2 ⟨rfl, List.nil_prefix⟩

/-! ## Opening the files of a tree -/

/-- The text of a directory below a place has the names of the place and then those of the way. -/
theorem namesOf_folder {place : Text} (somewhere : place ≠ []) {dirs : List Text}
    (named : ∀ name ∈ dirs, IsName name) :
    dirs.foldl Path.entryText place ≠ [] ∧
      (dirs.foldl Path.entryText place).head? = place.head? ∧
      Path.namesOf (dirs.foldl Path.entryText place) = Path.namesOf place ++ dirs := by
  induction dirs generalizing place with
  | nil => exact ⟨somewhere, rfl, (List.append_nil _).symm⟩
  | cons name dirs ih =>
    obtain ⟨isName, others⟩ := List.forall_mem_cons.1 named
    have first := Path.head?_entryText somewhere name
    have on : Path.entryText place name ≠ [] := by
      intro nothing
      rw [nothing, List.head?_nil, eq_comm, List.head?_eq_none_iff] at first
      exact somewhere first
    obtain ⟨some, head, names⟩ := ih on others
    refine ⟨some, head.trans first, ?_⟩
    rw [List.foldl_cons, names, Path.namesOf_entryText somewhere isName.whole isName.some,
      List.append_assoc]
    rfl

theorem nul_not_mem_folder {place : Text} (free : CodePoint.ofNat 0 ∉ place) {dirs : List Text}
    (named : ∀ name ∈ dirs, IsName name) :
    CodePoint.ofNat 0 ∉ dirs.foldl Path.entryText place := by
  induction dirs generalizing place with
  | nil => exact free
  | cons name dirs ih =>
    obtain ⟨isName, others⟩ := List.forall_mem_cons.1 named
    refine ih ?_ others
    have mark : CodePoint.ofNat 0 ≠ Path.slash := by decide
    unfold Path.entryText
    split <;> simp [free, isName.nulFree, mark]

theorem checkPath_eq_ok {t : Text} : Disk.checkPath t = .ok () ↔
    CodePoint.ofNat 0 ∉ t ∧ t ≠ [] ∧ t.exceeds pathLimit = false := by
  unfold Disk.checkPath
  split
  · rename_i nul
    exact iff_of_false (by rintro ⟨⟩) fun h => h.1 (by simpa using nul)
  · rename_i free
    split
    · rename_i nothing
      exact iff_of_false (by rintro ⟨⟩) fun h => h.2.1 (by simpa using nothing)
    · rename_i some
      split
      · rename_i long
        exact iff_of_false (by rintro ⟨⟩) fun h => by simp [h.2.2] at long
      · rename_i short
        exact iff_of_true rfl ⟨by simpa using free, by simpa using some, by simpa using short⟩

theorem find_of_descend {disk : Disk} {t : Text} {content : Bytes}
    (valid : Disk.checkPath t = .ok ()) (last : t.getLast? ≠ Option.some Path.slash)
    (reached : descend [] disk.root (disk.route t) = .ok (file content)) :
    disk.find t = .ok (file content) := by
  rw [Disk.find, valid, reached]
  exact if_neg last

/-- The path that a walk makes for a file is a path of that file. -/
theorem readFile_pathOf {disk : Disk} {place : Text} {entries : List (Text × FileTree)}
    {row : List Text} {content : Bytes} (found : disk.find place = .ok (directory entries))
    (proper : (directory entries).Proper)
    (there : (directory entries).fileAt? row = some content) (fits : Fits place row) :
    disk.readFile (pathOf place row).text = .ok content := by
  obtain ⟨valid, reached⟩ := Disk.find_eq_directory.1 found
  obtain ⟨free, somewhere, -⟩ := checkPath_eq_ok.1 valid
  have named := isName_of_mem_row proper there
  have short := fits.file
  obtain ⟨dirs, name, rfl⟩ : ∃ dirs name, row = dirs ++ [name] := by
    rcases List.eq_nil_or_concat row with rfl | ⟨dirs, name, split⟩
    · cases there
    · exact ⟨dirs, name, by rw [split, List.concat_eq_append]⟩
  have path : pathOf place (dirs ++ [name]) =
      (Path.ofText (dirs.foldl Path.entryText place)).child name := by
    rw [pathOf, folder, fileName, List.dropLast_concat, List.getLast?_concat, Option.getD_some]
  obtain ⟨way, last⟩ := List.forall_mem_append.1 named
  have isName := last name (List.mem_singleton_self name)
  obtain ⟨-, head, names⟩ := namesOf_folder somewhere way
  have nul := Path.not_hasNul_ofText (nul_not_mem_folder free way)
  rw [path] at short ⊢
  -- the names of the path are those of the row behind the place, without dots
  have read : Path.namesOf ((Path.ofText (dirs.foldl Path.entryText place)).child name).text =
      (Path.namesOf place ++ (dirs ++ [name])).filter (· ≠ Path.dot) := by
    have kept : [name].filter (· ≠ Path.dot) = [name] :=
      List.filter_cons_of_pos (by simp [isName.dot])
    rw [Path.namesOf_child isName.some isName.whole, names, ← List.append_assoc,
      List.filter_append (_ ++ _), kept]
  have start := Path.head?_child (t := dirs.foldl Path.entryText place) isName.some isName.whole
  obtain ⟨above, on⟩ := descend_append reached
  have whole : descend [] disk.root (disk.route place ++ (dirs ++ [name])) = .ok (file content) := by
    rw [on, descend_row proper there]
  have route : descend [] disk.root (disk.route
      ((Path.ofText (dirs.foldl Path.entryText place)).child name).text) = .ok (file content) := by
    unfold Disk.route at whole ⊢
    by_cases absolute : place.head? = some Path.slash
    · rw [if_pos absolute] at whole
      rw [if_pos (start.2 (head.trans absolute)), read]
      exact descend_without_dots whole
    · rw [if_neg absolute, List.append_assoc] at whole
      rw [if_neg (fun h => absolute (head.symm.trans (start.1 h))), read]
      exact descend_append_without_dots whole
  have checked : Disk.checkPath
      ((Path.ofText (dirs.foldl Path.entryText place)).child name).text = .ok () := by
    refine checkPath_eq_ok.2 ⟨(Path.nul_mem_child isName.nulFree).not.2 nul, ?_, short⟩
    intro nothing
    rw [nothing] at read
    have none : ((Path.namesOf place ++ (dirs ++ [name])).filter (· ≠ Path.dot)) = [] := read.symm
    rw [List.filter_eq_nil_iff] at none
    exact none name (by simp) (by simp [isName.dot])
  have file := find_of_descend checked
    (Path.getLast?_child isName.some isName.whole) route
  rw [Disk.readFile, file]
  rfl

end Corpus

end StepReplay
