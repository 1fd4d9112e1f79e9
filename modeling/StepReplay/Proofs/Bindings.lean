import Mathlib
import StepReplay.CommandLine
import StepReplay.Environment.Scripted
import StepReplay.Proofs.Except
import StepReplay.Proofs.Path

set_option autoImplicit false

/-! # Bytecode that cannot be used

A bytecode file that is missing, that is no hex text or that is empty is a deployment failure, and
the program ends with its message before any engine is made. A file that is no text at all is
something else: the fault that its bytes are no UTF-8 is not one of bytecode, and nothing turns it
into one. A directory whose name holds a NUL is as bad, but no argument of the program can name it. -/

namespace StepReplay

/-! ## One file -/

/-- A file whose bytes are no text. -/
def NotText (disk : Disk) (path : Path) : Prop :=
  ∃ content, disk.readFile path.text = .ok content ∧ Utf8.decode? content = none

/-- How the reading of a bytecode file ends. -/
inductive CodeRead (disk : Disk) (path : Path) : Except Fault Bytes → Prop
  | code {c : Bytes} (some : c ≠ []) : CodeRead disk path (.ok c)
  | failure {f : Failure} (kind : f.kind = "DeploymentFailure") :
    CodeRead disk path (.error (.failure f))
  | notText (broken : NotText disk path) : CodeRead disk path (.error .undecodable)
  | nul (nul : CodePoint.ofNat 0 ∈ path.text) : CodeRead disk path (.error (.file .nulInName))

/-- On the way down a tree nothing asks for a name with a NUL. -/
theorem FileTree.descend_ne_nul {above : List FileTree} {t : FileTree} {names : List Text} :
    descend above t names ≠ .error .nulInName := by
  induction names generalizing above t with
  | nil => simp [descend]
  | cons name names ih =>
    unfold descend
    split
    · simp
    · split
      · exact ih
      split
      · split <;> exact ih
      split
      · simp
      split
      · exact ih
      · simp

theorem Disk.find_eq_nul (disk : Disk) {t : Text} :
    disk.find t = .error .nulInName ↔ CodePoint.ofNat 0 ∈ t := by
  constructor
  · intro h
    refine Classical.byContradiction fun free => ?_
    rw [find, bind_eq_error] at h
    rcases h with refused | ⟨_, -, h⟩
    · unfold checkPath at refused
      rw [if_neg (by simpa using free)] at refused
      split at refused
      · cases refused
      · split at refused <;> cases refused
    · rcases bind_eq_error.1 h with stuck | ⟨found, -, h⟩
      · exact FileTree.descend_ne_nul stuck
      · split at h
        · split at h <;> cases h
        · cases h
  · intro member
    have refused : checkPath t = .error .nulInName := if_pos (by simpa using member)
    exact bind_eq_error.2 (.inl refused)

theorem Disk.readFile_eq_nul {disk : Disk} {t : Text} :
    disk.readFile t = .error .nulInName ↔ CodePoint.ofNat 0 ∈ t := by
  rw [← find_eq_nul disk, readFile, bind_eq_error]
  constructor
  · rintro (refused | ⟨found, -, h⟩)
    · exact refused
    · cases found <;> cases h
  · exact .inl

theorem readCode_read (disk : Disk) (path : Path) : CodeRead disk path (readCode disk path) := by
  unfold readCode
  split
  · rename_i content there
    unfold codeOfContent
    split
    · rename_i t text
      unfold codeOfText
      split
      · exact .failure rfl
      · exact .failure rfl
      · rename_i code some decoded
        exact .code (by simpa using some)
    · rename_i broken
      exact .notText ⟨content, there, broken⟩
  · rename_i nul
    exact .nul (Disk.readFile_eq_nul.1 nul)
  · exact .failure rfl

theorem readCode_eq_undecodable {disk : Disk} {path : Path} :
    readCode disk path = .error .undecodable ↔ NotText disk path := by
  constructor
  · intro h
    have read := readCode_read disk path
    rw [h] at read
    cases read with
    | notText broken => exact broken
  · rintro ⟨content, there, broken⟩
    rw [readCode, there]
    dsimp only
    rw [codeOfContent, broken]

theorem readCode_eq_nul {disk : Disk} {path : Path} :
    readCode disk path = .error (.file .nulInName) ↔ CodePoint.ofNat 0 ∈ path.text := by
  constructor
  · intro h
    have read := readCode_read disk path
    rw [h] at read
    cases read with
    | nul nul => exact nul
  · intro nul
    rw [readCode, Disk.readFile_eq_nul.2 nul]

/-! ## Both files -/

namespace Bindings

/-- The first of the two files that gives no code is no text. -/
def Undecodable (disk : Disk) (directory : Path) : Prop :=
  NotText disk (directory.child creationFile) ∨
    (∃ code, readCode disk (directory.child creationFile) = .ok code) ∧
      NotText disk (directory.child oracleFile)

/-- Two codes that are not empty, or a deployment failure. -/
def Promised (result : Except Fault Bindings) : Prop :=
  (∃ b, result = .ok b ∧ b.creation ≠ [] ∧ b.oracle ≠ []) ∨
    ∃ f : Failure, result = .error (.failure f) ∧ f.kind = "DeploymentFailure"

theorem load_eq_error {disk : Disk} {directory : Path} {e : Fault} :
    load disk directory = .error e ↔ readCode disk (directory.child creationFile) = .error e ∨
      (∃ code, readCode disk (directory.child creationFile) = .ok code) ∧
        readCode disk (directory.child oracleFile) = .error e := by
  rw [load, bind_eq_error]
  constructor
  · rintro (first | ⟨code, first, h⟩)
    · exact .inl first
    · rcases bind_eq_error.1 h with second | ⟨_, -, ⟨⟩⟩
      exact .inr ⟨⟨code, first⟩, second⟩
  · rintro (first | ⟨⟨code, first⟩, second⟩)
    · exact .inl first
    · exact .inr ⟨code, first, bind_eq_error.2 (.inl second)⟩

theorem load_eq_undecodable {disk : Disk} {directory : Path} :
    load disk directory = .error .undecodable ↔ Undecodable disk directory := by
  rw [load_eq_error, readCode_eq_undecodable, readCode_eq_undecodable]
  exact Iff.rfl

theorem load_eq_nul {disk : Disk} {directory : Path} :
    load disk directory = .error (.file .nulInName) ↔ directory.HasNul := by
  rw [load_eq_error, readCode_eq_nul, readCode_eq_nul, Path.nul_mem_child (by decide),
    Path.nul_mem_child (by decide)]
  exact ⟨fun h => h.elim id And.right, .inl⟩

/-- Apart from text that is none and names that cannot be asked for, loading ends as promised. -/
theorem promised_load {disk : Disk} {directory : Path} (text : ¬ Undecodable disk directory)
    (free : ¬ directory.HasNul) : Promised (load disk directory) := by
  rw [← load_eq_undecodable] at text
  rw [← load_eq_nul] at free
  have first := readCode_read disk (directory.child creationFile)
  have second := readCode_read disk (directory.child oracleFile)
  cases loaded : load disk directory with
  | ok b =>
    obtain ⟨creation, one, h⟩ := bind_eq_ok.1 loaded
    obtain ⟨oracle, two, same⟩ := bind_eq_ok.1 h
    cases same
    rw [one] at first
    rw [two] at second
    cases first with
    | code some =>
      cases second with
      | code some' => exact .inl ⟨_, rfl, some, some'⟩
  | error e =>
    rw [loaded] at text free
    have ends : CodeRead disk (directory.child creationFile) (.error e) ∨
        CodeRead disk (directory.child oracleFile) (.error e) := by
      rcases load_eq_error.1 loaded with one | ⟨-, two⟩
      · exact .inl (one ▸ first)
      · exact .inr (two ▸ second)
    rcases ends with ends | ends
    · cases ends with
      | failure kind => exact .inr ⟨_, rfl, kind⟩
      | notText broken => exact absurd rfl text
      | nul nul => exact absurd rfl free
    · cases ends with
      | failure kind => exact .inr ⟨_, rfl, kind⟩
      | notText broken => exact absurd rfl text
      | nul nul => exact absurd rfl free

end Bindings

/-! ## The command line -/

namespace CommandLine

/-- The directory of bytecode, if one was asked for, is there. -/
def Settings.Grounded (disk : Disk) (s : Settings) : Prop :=
  ∀ t, s.bindings = some t → ∃ entries, disk.find t = .ok (.directory entries)

theorem Settings.existing_eq_ok {disk : Disk} {p : Parameter} {t u : Text}
    (h : existing disk p t = .ok u) : u = t ∧ ∃ entries, disk.find t = .ok (.directory entries) := by
  unfold existing at h
  split at h
  · rename_i entries found
    cases h
    exact ⟨rfl, entries, found⟩
  · cases h
  · cases h
  · cases h

/-- One parameter more: only that of the directory itself says anything new about it. -/
theorem Settings.settle_grounded {disk : Disk} {scan : Scan} {s s' : Settings} {p : Parameter}
    (h : settle disk scan s p = .ok s') (grounded : s.Grounded disk) : s'.Grounded disk := by
  have other {α : Type} {x : Except Refusal α} {f : α → Settings} (h : x.map f = .ok s')
      (same : ∀ a, (f a).bindings = s.bindings) : s'.Grounded disk := by
    obtain ⟨a, -, rfl⟩ := map_eq_ok.1 h
    intro t asked
    exact grounded t ((same a).symm.trans asked)
  unfold settle at h
  split at h
  · cases h
  · exact other h fun _ => rfl
  · exact other h fun _ => rfl
  · obtain ⟨u, exists_, rfl⟩ := map_eq_ok.1 h
    obtain ⟨rfl, there⟩ := existing_eq_ok exists_
    rintro t ⟨⟩
    exact there
  · exact other h fun _ => rfl
  · exact other h fun _ => rfl
  · exact other h fun _ => rfl
  · cases h
    exact grounded
  · cases h
    exact grounded
  · cases h
    exact grounded

theorem Request.grounded {disk : Disk} {arguments : List Text} {s : Settings}
    (h : Request.read disk arguments = .ok (.replay s)) : s.Grounded disk := by
  obtain ⟨scan, -, h⟩ := bind_eq_ok.1 h
  split at h
  · cases h
  · obtain ⟨settings, checked, same⟩ := bind_eq_ok.1 h
    cases same
    obtain ⟨settled, folded, h⟩ := bind_eq_ok.1 checked
    split at h
    · cases h
      refine foldlM_keeps (P := Settings.Grounded disk) (fun _ _ _ => Settings.settle_grounded) folded ?_
      rintro t ⟨⟩
    · cases h

/-- Asked for by an argument, a directory of bytecode loads as promised or is not text. -/
theorem ofConfig_ends {disk : Disk} {s : Settings} (grounded : s.Grounded disk) :
    Bindings.Promised (Bindings.ofConfig disk s.config) ∨
      Bindings.ofConfig disk s.config = .error .undecodable ∧
        ∃ t, s.bindings = some t ∧ Bindings.Undecodable disk (Path.ofText t) := by
  cases asked : s.bindings with
  | none =>
    have ends : Bindings.ofConfig disk s.config = .error (.failure
        (.unreadableCode (Config.ownDirectory.child creationFile).text .notFound)) := by
      rw [Bindings.ofConfig, Settings.config, asked]
      rfl
    exact .inl (.inr ⟨_, ends, rfl⟩)
  | some t =>
    have ends : Bindings.ofConfig disk s.config = Bindings.load disk (Path.ofText t) := by
      rw [Bindings.ofConfig, Settings.config, asked]
      rfl
    obtain ⟨entries, there⟩ := grounded t asked
    have free : CodePoint.ofNat 0 ∉ t := by
      rw [← Disk.find_eq_nul disk, there]
      rintro ⟨⟩
    rw [ends]
    by_cases text : Bindings.Undecodable disk (Path.ofText t)
    · exact .inr ⟨Bindings.load_eq_undecodable.2 text, t, rfl, text⟩
    · exact .inl (Bindings.promised_load text (Path.not_hasNul_ofText free))

theorem run_of_replay {σ : Type} [Environment σ] (factory : Nat → σ) {disk : Disk}
    {arguments : List Text} {s : Settings} {e : Fault}
    (asked : Request.read disk arguments = .ok (.replay s))
    (failed : Bindings.ofConfig disk s.config = .error e) :
    run factory disk arguments = .ofBindings disk e := by
  rw [run, asked]
  dsimp only
  rw [replay]
  dsimp only
  rw [failed]

end CommandLine

/-- Loading bytecode ends with two codes that are not empty or with a deployment failure, except
that a file that is no text is a fault of its own, and so is a directory no system can be asked for.
The program thus ends with the message of the failure, before any engine is made and with nothing
printed or written, unless a file is no text: then it ends with the fault unhandled. -/
theorem Bindings.load_ends (disk : Disk) :
    (∀ directory : Path,
      (load disk directory = .error .undecodable ↔ Undecodable disk directory) ∧
      (load disk directory = .error (.file .nulInName) ↔ directory.HasNul) ∧
      (¬ Undecodable disk directory → ¬ directory.HasNul → Promised (load disk directory))) ∧
    ∀ (σ : Type) [Environment σ] (factory : Nat → σ) (arguments : List Text)
      (s : CommandLine.Settings),
      CommandLine.Request.read disk arguments = .ok (.replay s) →
        (∃ b, ofConfig disk s.config = .ok b ∧ b.creation ≠ [] ∧ b.oracle ≠ []) ∨
        (∃ f : Failure, ofConfig disk s.config = .error (.failure f) ∧
          f.kind = "DeploymentFailure" ∧
          CommandLine.run factory disk arguments = { exitCode := 1, error := some f.message, disk }) ∨
        (∃ t, s.bindings = some t ∧ Undecodable disk (Path.ofText t)) ∧
          ofConfig disk s.config = .error .undecodable ∧
          CommandLine.run factory disk arguments =
            { exitCode := 1, fault := some .undecodable, disk } := by
  refine ⟨fun directory => ⟨load_eq_undecodable, load_eq_nul, promised_load⟩, ?_⟩
  intro σ _ factory arguments s asked
  rcases CommandLine.ofConfig_ends (CommandLine.Request.grounded asked) with
    (loaded | ⟨f, failed, kind⟩) | ⟨failed, undecodable⟩
  · exact .inl loaded
  · exact .inr (.inl ⟨f, failed, kind, CommandLine.run_of_replay factory asked failed⟩)
  · exact .inr (.inr ⟨undecodable, failed, CommandLine.run_of_replay factory asked failed⟩)

/-- A disk with a directory in which the first bytecode file holds a byte that begins no text. -/
def binaryDisk : Disk where
  root := .directory [("b", .directory [(creationFile, .file [0xFF]), (oracleFile, .file [])])]

/-- The settings of a program that reads fixtures and bytecode from that directory. -/
def binarySettings : CommandLine.Settings :=
  { CommandLine.Settings.start with fixtures := "b", bindings := some "b" }

theorem Bindings.load_ends_binary :
    load binaryDisk (Path.ofText "b") = .error .undecodable ∧
      CommandLine.run (fun _ => ({} : Scripted)) binaryDisk ["--fixtures", "b", "--bindings", "b"] =
        { exitCode := 1, fault := some .undecodable, disk := binaryDisk } := by
  have failed : load binaryDisk (Path.ofText "b") = .error .undecodable :=
    ((load_ends binaryDisk).1 (Path.ofText "b")).1.2 (.inl ⟨[0xFF], rfl, rfl⟩)
  have asked : CommandLine.Request.read binaryDisk ["--fixtures", "b", "--bindings", "b"] =
      .ok (.replay binarySettings) := by cbv
  have found : ofConfig binaryDisk binarySettings.config = .error .undecodable := failed
  refine ⟨failed, ?_⟩
  rcases (load_ends binaryDisk).2 Scripted (fun _ => {}) _ binarySettings asked with
    ⟨b, loaded, -⟩ | ⟨f, loaded, -⟩ | ⟨-, -, ended⟩
  · rw [found] at loaded
    cases loaded
  · rw [found] at loaded
    cases loaded
  · exact ended

end StepReplay
