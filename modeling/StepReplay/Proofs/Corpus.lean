import StepReplay.Proofs.CorpusPath
import StepReplay.Proofs.FixtureFile

set_option autoImplicit false

/-! # Corpora

A corpus is what the files of a tree give, each on its own, in the order of a walk. -/

namespace StepReplay

open FileTree

namespace Corpus

/-! ## The files of a tree -/

theorem walkEach_eq_map (place : Text) (entries : List (Text × FileTree)) :
    walkEach place entries = entries.map fun e =>
      (e.1, if (Path.entryText place e.1).exceeds pathLimit then []
        else walk (Path.entryText place e.1) e.2) := by
  induction entries with
  | nil => rfl
  | cons e rest ih => rw [walkEach, ih, List.map_cons]

/-- A walk meets the files that it visits, as long as no path is too long. -/
theorem walk_eq_map_visited {t : FileTree} {place : Text} (proper : t.Proper)
    (fits : ∀ f ∈ visited t, Fits place f.1) :
    walk place t = (visited t).map (met place) := by
  induction t using by_entries generalizing place with
  | file c => rfl
  | directory entries ih =>
    cases proper with
    | directory named distinct each =>
      rw [visited_directory] at fits
      rw [visited_directory, walk, walkEach_eq_map, sortByName_map, List.flatMap_map,
        List.map_append, List.map_map, List.map_flatMap]
      congr 1
      refine List.flatMap_congr fun e here => ?_
      have entry := (sortByName_perm entries).mem_iff.1 here
      have below {f : List Text × Bytes} (visit : f ∈ visited e.2) :
          f.1 ≠ [] ∧ Fits place (e.1 :: f.1) := by
        refine ⟨((mem_visited (each e entry)).1 visit).1, ?_⟩
        exact fits _ (List.mem_append_right _
          (List.mem_flatMap.2 ⟨e, here, List.mem_map.2 ⟨f, visit, rfl⟩⟩))
      rw [List.map_map]
      dsimp only
      split
      · -- a directory that is not entered holds no files, for their paths would be longer still
        rename_i long
        cases files : visited e.2 with
        | nil => rfl
        | cons f rest =>
          obtain ⟨some, fits⟩ := below (f := f) (files ▸ List.mem_cons_self ..)
          rw [fits.entry some] at long
          cases long
      · rw [ih e entry (each e entry) fun f visit => (below visit).2.inside (below visit).1]
        refine List.map_congr_left fun f visit => ?_
        rw [Function.comp_apply, met, met, folder_cons (below visit).1,
          fileName_cons (below visit).1]

/-! ## What a file gives -/

/-- The fixtures of a file: all of those that its content holds, or none. -/
def given (place : Text) (row : List Text) (content : Bytes) : List Fixture :=
  if (fileName row).endsWith suffix then
    (Fixture.ofContent (pathOf place row) content).toOption.getD []
  else []

/-- Of all faults in the content of a file only too deep a document ends the loading of a corpus. -/
theorem isPassedOver_of_ofContent {path : Path} {content : Bytes} {e : Fault}
    (failed : Fixture.ofContent path content = .error e) (shallow : e ≠ .document .tooDeep) :
    isPassedOver e = true := by
  unfold Fixture.ofContent at failed
  split at failed
  · rcases bind_eq_error.1 failed with unread | ⟨j, -, refused⟩
    · obtain ⟨d, -, rfl⟩ := mapError_eq_error.1 unread
      have : d ≠ .tooDeep := fun same => shallow (same ▸ rfl)
      simpa [isPassedOver] using this
    · obtain ⟨d, -, rfl⟩ := mapError_eq_error.1 refused
      rfl
  · cases failed
    rfl

theorem ofFile_eq_given {place : Text} {row : List Text} {content : Bytes} (fits : Fits place row)
    (shallow : (fileName row).endsWith suffix = true →
      Fixture.ofContent (pathOf place row) content ≠ .error (.document .tooDeep)) :
    ofFile (met place (row, content)) = .ok (given place row content) := by
  have short := fits.file
  unfold ofFile given met
  unfold pathOf at short shallow ⊢
  dsimp only
  cases json : (fileName row).endsWith suffix with
  | false => rfl
  | true =>
    rw [if_neg (by simp), if_neg (by simp [short]), if_pos rfl]
    cases loaded : Fixture.ofContent ((Path.ofText (folder place row)).child (fileName row))
        content with
    | ok fixtures => rfl
    | error e =>
      rw [loaded] at shallow
      dsimp only
      rw [if_pos (isPassedOver_of_ofContent loaded fun same => shallow json (same ▸ rfl))]
      rfl

/-- A tree from which a corpus can be loaded: no path is too long for the system, and the documents
in its fixture files do not lie too deep inside one another for the reader. -/
structure Readable (place : Text) (t : FileTree) : Prop where
  proper : t.Proper
  fits : ∀ row content, t.fileAt? row = some content → row ≠ [] → Fits place row
  shallow : ∀ row content, t.fileAt? row = some content → (fileName row).endsWith suffix = true →
    Fixture.ofContent (pathOf place row) content ≠ .error (.document .tooDeep)

/-- The fixtures of the file to which a row of names leads, none where there is no file. -/
def share (place : Text) (t : FileTree) (row : List Text) : List Fixture :=
  match t.fileAt? row with
  | some content => given place row content
  | none => []

/-- The rows of names that lead to the files below a tree, in the order of a walk. -/
def rows (t : FileTree) : List (List Text) :=
  (visited t).map Prod.fst

theorem mem_rows {t : FileTree} (proper : t.Proper) {row : List Text} :
    row ∈ rows t ↔ row ≠ [] ∧ (t.fileAt? row).isSome = true := by
  rw [rows, List.mem_map]
  constructor
  · rintro ⟨⟨row, content⟩, visit, rfl⟩
    obtain ⟨some, there⟩ := (mem_visited proper).1 visit
    exact ⟨some, there ▸ rfl⟩
  · rintro ⟨some, there⟩
    obtain ⟨content, there⟩ := Option.isSome_iff_exists.1 there
    exact ⟨(row, content), (mem_visited proper).2 ⟨some, there⟩, rfl⟩

theorem pairwise_rows {t : FileTree} (proper : t.Proper) : (rows t).Pairwise Before :=
  List.pairwise_map.2 (pairwise_visited proper)

/-- A corpus is the fixtures of one file after another. -/
theorem ofTree_eq_ok {place : Text} {t : FileTree} (readable : Readable place t) :
    ofTree place t = .ok ((rows t).flatMap (share place t)) := by
  have there {f : List Text × Bytes} (visit : f ∈ visited t) :
      f.1 ≠ [] ∧ t.fileAt? f.1 = some f.2 := (mem_visited readable.proper).1 visit
  have fits : ∀ f ∈ visited t, Fits place f.1 := fun f visit =>
    readable.fits f.1 f.2 (there visit).2 (there visit).1
  have each : ∀ f ∈ visited t, (ofFile ∘ met place) f = .ok (given place f.1 f.2) := fun f visit =>
    ofFile_eq_given (fits f visit) (readable.shallow f.1 f.2 (there visit).2)
  have shares : (visited t).map (fun f => given place f.1 f.2) = (rows t).map (share place t) := by
    rw [rows, List.map_map]
    refine List.map_congr_left fun f visit => ?_
    rw [Function.comp_apply, share, (there visit).2]
  rw [ofTree, walk_eq_map_visited readable.proper fits, List.mapM_map, mapM_eq_ok_map each, shares,
    List.flatMap_def]
  rfl

/-! ## Two trees -/

/-- The rows of names that lead to files with fixtures. -/
def giving (place : Text) (t : FileTree) : List (List Text) :=
  (rows t).filter fun row => !(share place t row).isEmpty

theorem flatMap_giving (place : Text) (t : FileTree) :
    (giving place t).flatMap (share place t) = (rows t).flatMap (share place t) := by
  unfold giving
  induction rows t with
  | nil => rfl
  | cons row rest ih =>
    rw [List.filter_cons, List.flatMap_cons]
    split
    · rw [List.flatMap_cons, ih]
    · rename_i nothing
      have none : share place t row = [] := by simpa using nothing
      rw [none, List.nil_append, ih]

theorem pairwise_giving (place : Text) {t : FileTree} (proper : t.Proper) :
    (giving place t).Pairwise Before :=
  (pairwise_rows proper).sublist List.filter_sublist

theorem mem_giving {place : Text} {entries : List (Text × FileTree)}
    (proper : (directory entries).Proper) {row : List Text} :
    row ∈ giving place (directory entries) ↔ share place (directory entries) row ≠ [] := by
  rw [giving, List.mem_filter, mem_rows proper]
  constructor
  · rintro ⟨-, some⟩ nothing
    rw [nothing] at some
    cases some
  · intro some
    have there : ((directory entries).fileAt? row).isSome = true := by
      unfold share at some
      split at some
      · rename_i content there
        rw [there]
        rfl
      · exact absurd rfl some
    refine ⟨⟨?_, there⟩, by simpa using some⟩
    rintro rfl
    cases there

/-- Where two trees give the same but for one row of names, the corpora are the same around what
that row gives in each. -/
theorem flatMap_rows_around {place : Text} {es es' : List (Text × FileTree)}
    (proper : (directory es).Proper) (proper' : (directory es').Proper) (row : List Text)
    (same : ∀ other, other ≠ row →
      share place (directory es) other = share place (directory es') other) :
    ∃ before after,
      (rows (directory es)).flatMap (share place (directory es)) =
        before ++ share place (directory es) row ++ after ∧
      (rows (directory es')).flatMap (share place (directory es')) =
        before ++ share place (directory es') row ++ after := by
  have members : ∀ other, other ≠ row →
      (other ∈ giving place (directory es) ↔ other ∈ giving place (directory es')) := by
    intro other different
    rw [mem_giving proper, mem_giving proper', same other different]
  obtain ⟨before, after, others, first, second⟩ :=
    Before.split_both (pairwise_giving place proper) (pairwise_giving place proper') members
  have around {es : List (Text × FileTree)} (proper : (directory es).Proper)
      (split : giving place (directory es) = before ++ row :: after ∨
        row ∉ giving place (directory es) ∧ giving place (directory es) = before ++ after) :
      (rows (directory es)).flatMap (share place (directory es)) =
        before.flatMap (share place (directory es)) ++ share place (directory es) row ++
          after.flatMap (share place (directory es)) := by
    rw [← flatMap_giving]
    rcases split with whole | ⟨none, whole⟩
    · rw [whole, List.flatMap_append, List.flatMap_cons, List.append_assoc]
    · rw [mem_giving proper, not_not] at none
      rw [whole, none, List.flatMap_append, List.append_nil]
  have equal (part : List (List Text)) (inside : ∀ other ∈ part, other ∈ before ++ after) :
      part.flatMap (share place (directory es)) = part.flatMap (share place (directory es')) :=
    List.flatMap_congr fun other member => same other (others other (inside other member))
  refine ⟨before.flatMap (share place (directory es)), after.flatMap (share place (directory es)),
    around proper first, ?_⟩
  rw [around proper' second, equal before fun _ => List.mem_append_left _,
    equal after fun _ => List.mem_append_right _]

/-! ## Loading -/

variable {disk disk' : Disk} {place : Text} {entries entries' : List (Text × FileTree)}

theorem load_eq_ok (found : disk.find place = .ok (directory entries))
    (readable : Readable place (directory entries)) :
    load disk place =
      .ok ((rows (directory entries)).flatMap (share place (directory entries))) := by
  rw [load, found]
  exact ofTree_eq_ok readable

/-- What is loaded from the path of a file is what its content says. -/
theorem load_pathOf (found : disk.find place = .ok (directory entries))
    (readable : Readable place (directory entries)) {row : List Text} {content : Bytes}
    (there : (directory entries).fileAt? row = some content) :
    Fixture.load disk (pathOf place row) = Fixture.ofContent (pathOf place row) content := by
  have some : row ≠ [] := by
    rintro rfl
    cases there
  rw [Fixture.load,
    readFile_pathOf found readable.proper there (readable.fits row content there some)]
  rfl

/-- What a file gives is what is loaded from its path, if the file is one of fixtures. -/
theorem share_eq_load (found : disk.find place = .ok (directory entries))
    (readable : Readable place (directory entries)) {row : List Text}
    (there : ((directory entries).fileAt? row).isSome = true) :
    share place (directory entries) row =
      if (fileName row).endsWith suffix then
        (Fixture.load disk (pathOf place row)).toOption.getD []
      else [] := by
  obtain ⟨content, there⟩ := Option.isSome_iff_exists.1 there
  rw [share, there, load_pathOf found readable there]
  rfl

theorem Readable.of_reordered {t t' : FileTree} (readable : Readable place t)
    (order : Reordered t t') : Readable place t' := by
  obtain ⟨proper, same⟩ := order.same readable.proper
  refine ⟨proper, fun row content there => ?_, fun row content there => ?_⟩
  · exact readable.fits row content ((same row).symm.trans there)
  · exact readable.shallow row content ((same row).symm.trans there)

theorem share_congr {t t' : FileTree} {row : List Text} (same : t.fileAt? row = t'.fileAt? row) :
    share place t row = share place t' row := by
  rw [share, share, same]

/-- From a tree that can be read, the corpus is always loaded: it is what the files that end with
the suffix of fixture files give, each all of its fixtures or none, file after file in the order of
a walk. In which order directories keep their entries makes no difference to it. Nor does a change
of files that give the same before and after it, such as none; and a change of a single file leaves
all that the others give as it was. -/
theorem load_tree (found : disk.find place = .ok (directory entries))
    (readable : Readable place (directory entries)) :
    (∃ files : List (List Text), files.Pairwise Before ∧
      (∀ row, row ∈ files ↔ ((directory entries).fileAt? row).isSome = true) ∧
      load disk place = .ok (files.flatMap fun row =>
        if (fileName row).endsWith suffix then
          (Fixture.load disk (pathOf place row)).toOption.getD []
        else [])) ∧
    ∀ (disk' : Disk) (entries' : List (Text × FileTree)),
      disk'.find place = .ok (directory entries') →
        (Reordered (directory entries) (directory entries') →
          load disk' place = load disk place) ∧
        (Readable place (directory entries') →
          ((∀ row, share place (directory entries') row = share place (directory entries) row) →
            load disk' place = load disk place) ∧
          ∀ row, (∀ other, other ≠ row →
              (directory entries').fileAt? other = (directory entries).fileAt? other) →
            ∃ before after,
              load disk place = .ok (before ++ share place (directory entries) row ++ after) ∧
              load disk' place = .ok (before ++ share place (directory entries') row ++ after)) := by
  have loads := load_eq_ok found readable
  -- a tree that gives the same row by row gives the same corpus, whichever row is looked at
  have unchanged {disk' : Disk} {entries' : List (Text × FileTree)}
      (found' : disk'.find place = .ok (directory entries'))
      (readable' : Readable place (directory entries'))
      (same : ∀ row, share place (directory entries') row = share place (directory entries) row) :
      load disk' place = load disk place := by
    obtain ⟨before, after, first, second⟩ := flatMap_rows_around readable.proper readable'.proper []
      fun other _ => (same other).symm
    rw [loads, load_eq_ok found' readable', first, second, same]
  refine ⟨⟨rows (directory entries), pairwise_rows readable.proper, fun row => ?_, ?_⟩, ?_⟩
  · rw [mem_rows readable.proper]
    refine ⟨And.right, fun there => ⟨?_, there⟩⟩
    rintro rfl
    cases there
  · rw [loads]
    congr 1
    refine List.flatMap_congr fun row member => ?_
    exact share_eq_load found readable ((mem_rows readable.proper).1 member).2
  · intro disk' entries' found'
    refine ⟨fun order => ?_, fun readable' => ⟨unchanged found' readable', fun row same => ?_⟩⟩
    · obtain ⟨-, same⟩ := order.same readable.proper
      exact unchanged found' (readable.of_reordered order) fun row => share_congr (same row)
    · obtain ⟨before, after, first, second⟩ := flatMap_rows_around readable.proper readable'.proper
        row fun other different => share_congr (same other different).symm
      exact ⟨before, after, by rw [loads, first], by rw [load_eq_ok found' readable', second]⟩

/-- A directory of some files. -/
def flat (files : List (Text × Bytes)) : FileTree :=
  directory (files.map fun f => (f.1, file f.2))

/-- A disk with a directory of some files in the directory in which the program runs. -/
def flatDisk (files : List (Text × Bytes)) : Disk where
  root := directory [("c", flat files)]

theorem fileAt?_flat {files : List (Text × Bytes)} {row : List Text} {content : Bytes}
    (there : (flat files).fileAt? row = some content) :
    ∃ f ∈ files, row = [f.1] ∧ f.2 = content := by
  cases row with
  | nil => cases there
  | cons name row =>
    rw [flat, fileAt?, Option.bind_eq_some_iff] at there
    obtain ⟨inner, found, there⟩ := there
    obtain ⟨f, member, same⟩ := List.mem_map.1 (Table.mem_of_find? found)
    cases same
    cases row with
    | nil => exact ⟨f, member, rfl, Option.some.inj there⟩
    | cons next row => cases there

/-- One file more makes no difference to the others. -/
theorem fileAt?_flat_cons {f : Text × Bytes} {files : List (Text × Bytes)}
    (absent : f.1 ∉ files.map Prod.fst) {row : List Text} (other : row ≠ [f.1]) :
    (flat (f :: files)).fileAt? row = (flat files).fileAt? row := by
  cases row with
  | nil => rfl
  | cons name row =>
    rw [flat, flat, fileAt?, fileAt?, List.map_cons, Table.find?]
    split
    · rename_i same
      subst same
      have gone : Table.find? f.1 (files.map fun f => (f.1, file f.2)) = none :=
        Table.find?_eq_none_iff.2 (by rwa [List.map_map])
      cases row with
      | nil => exact absurd rfl other
      | cons next row =>
        rw [gone]
        rfl
    · rfl

theorem readable_flat {files : List (Text × Bytes)}
    (named : ∀ name ∈ files.map Prod.fst, IsName name ∧
      (pathOf place [name]).text.exceeds pathLimit = false)
    (distinct : (files.map Prod.fst).Nodup)
    (shallow : ∀ f ∈ files,
      Fixture.ofContent (pathOf place [f.1]) f.2 ≠ .error (.document .tooDeep)) :
    Readable place (flat files) := by
  rw [List.forall_mem_map] at named
  refine ⟨.directory (List.forall_mem_map.2 fun f member => (named f member).1) ?_
    (List.forall_mem_map.2 fun f _ => .file f.2), fun row content there _ => ?_,
    fun row content there _ => ?_⟩
  · rwa [List.map_map]
  · obtain ⟨f, member, rfl, rfl⟩ := fileAt?_flat there
    exact ⟨fun dirs some before => absurd (List.prefix_nil.1 before) some, (named f member).2⟩
  · obtain ⟨f, member, rfl, rfl⟩ := fileAt?_flat there
    exact shallow f member

/-- A fixture under the name of a file. -/
def plain : Fixture := ⟨"case", { state := Block.zero 226 }, none⟩

/-- A file of fixtures and, before it, a file that is none. -/
def mixed (content : Bytes) : List (Text × Bytes) :=
  [("bad.json", []), ("case.json", content)]

section Mixed

variable {content : Bytes} (holds : Json.Holds content plain.toJson)

theorem ofContent_bad :
    Fixture.ofContent (pathOf "c" ["bad.json"]) [] = .error (.document .malformed) := rfl

include holds

theorem ofContent_plain : Fixture.ofContent (pathOf "c" ["case.json"]) content = .ok [plain] := by
  have last : (pathOf "c" ["case.json"]).names.getLast? =
      some (Text.ofString "case" ++ Corpus.suffix) := rfl
  rw [Fixture.ofContent_of_holds holds, Fixture.ofDocument_single last (by decide)]
  rfl

/-- Both can be read, and so can the second alone. -/
theorem readable_mixed :
    Readable "c" (flat (mixed content)) ∧ Readable "c" (flat (mixed content).tail) := by
  have named (name : Text) (member : name ∈ [("bad.json" : Text), "case.json"]) : IsName name ∧
      (pathOf "c" [name]).text.exceeds pathLimit = false := by
    rcases List.mem_pair.1 member with rfl | rfl
    · exact ⟨by decide, rfl⟩
    · exact ⟨by decide, rfl⟩
  have distinct : ((mixed content).map Prod.fst).Nodup :=
    show [("bad.json" : Text), "case.json"].Nodup by decide
  have shallow (f : Text × Bytes) (member : f ∈ mixed content) :
      Fixture.ofContent (pathOf "c" [f.1]) f.2 ≠ .error (.document .tooDeep) := by
    rcases List.mem_pair.1 member with rfl | rfl
    · rw [ofContent_bad]
      rintro ⟨⟩
    · rw [ofContent_plain holds]
      rintro ⟨⟩
  constructor
  · exact readable_flat named distinct shallow
  · exact readable_flat (fun name member => named name (List.mem_cons_of_mem _ member))
      distinct.tail fun f member => shallow f (List.mem_cons_of_mem _ member)

/-- Of the two only the second gives anything. -/
theorem load_mixed {files : List (List Text)} (order : files.Pairwise Before)
    (members : ∀ row, row ∈ files ↔ ((flat (mixed content)).fileAt? row).isSome = true) :
    (files.flatMap fun row =>
      if (fileName row).endsWith suffix then
        (Fixture.load (flatDisk (mixed content)) (pathOf "c" row)).toOption.getD []
      else []) = [plain] := by
  have rows : files = [[Text.ofString "bad.json"], [Text.ofString "case.json"]] := by
    refine Before.eq_of_pairwise order ?_ fun row => ?_
    · exact List.pairwise_pair.2 (.files (by decide) (by decide))
    · rw [members, List.mem_pair]
      constructor
      · intro there
        obtain ⟨c, there⟩ := Option.isSome_iff_exists.1 there
        obtain ⟨f, member, rfl, -⟩ := fileAt?_flat there
        rcases List.mem_pair.1 member with rfl | rfl
        · exact .inl rfl
        · exact .inr rfl
      · rintro (rfl | rfl) <;> rfl
  have found : (flatDisk (mixed content)).find "c" = .ok (flat (mixed content)) := rfl
  have both := (readable_mixed holds).1
  have first : Fixture.load (flatDisk (mixed content)) (pathOf "c" ["bad.json"]) =
      Fixture.ofContent (pathOf "c" ["bad.json"]) [] := load_pathOf found both rfl
  have second : Fixture.load (flatDisk (mixed content)) (pathOf "c" ["case.json"]) =
      Fixture.ofContent (pathOf "c" ["case.json"]) content := load_pathOf found both rfl
  rw [rows, List.flatMap_cons, List.flatMap_singleton, first, second, ofContent_bad,
    ofContent_plain holds]
  rfl

omit holds

/-- Without the first, each row of names gives what it gave. -/
theorem share_mixed_tail (row : List Text) :
    share "c" (flat (mixed content).tail) row = share "c" (flat (mixed content)) row := by
  by_cases gone : row = [Text.ofString "bad.json"]
  · subst gone
    have before : share "c" (flat (mixed content)) [Text.ofString "bad.json"] =
        given "c" [Text.ofString "bad.json"] [] := rfl
    rw [given, ofContent_bad] at before
    exact before.symm
  · have absent : Text.ofString "bad.json" ∉ [Text.ofString "case.json"] := by decide
    exact share_congr (fileAt?_flat_cons absent gone).symm

end Mixed

theorem load_tree_flat : ∃ content, Json.Holds content plain.toJson ∧
    load (flatDisk (mixed content)) "c" = .ok [plain] ∧
    load (flatDisk (mixed content).reverse) "c" = .ok [plain] ∧
    load (flatDisk (mixed content).tail) "c" = .ok [plain] := by
  obtain ⟨content, -, holds⟩ := plain.holds_toJson .compact rfl
  obtain ⟨both, alone⟩ := readable_mixed holds
  have found : (flatDisk (mixed content)).find "c" = .ok (flat (mixed content)) := rfl
  obtain ⟨⟨files, order, members, loads⟩, others⟩ := load_tree found both
  have loaded := loads.trans (congrArg Except.ok (load_mixed holds order members))
  refine ⟨content, holds, loaded, ?_, ?_⟩
  · exact loaded ▸ (others _ _ rfl).1 (.entries (List.reverse_perm _).symm)
  · exact loaded ▸ ((others _ _ rfl).2 alone).1 share_mixed_tail

/-- The text of a directory that goes up and down very often. -/
def crampedPlace : Text :=
  (List.replicate 818 (Text.ofString "a/../")).flatten ++ "a"

/-- A disk with one file in that directory. -/
def crampedDisk : Disk where
  root := directory [("a", flat [("case.json", [])])]

set_option maxRecDepth 100000 in
theorem cramped_not_loaded :
    crampedDisk.find crampedPlace = .ok (flat [("case.json", [])]) ∧
      (flat [("case.json", [])]).Proper ∧
      (∀ row content, (flat [("case.json", [])]).fileAt? row = some content →
        Fixture.ofContent (pathOf crampedPlace row) content = .error (.document .malformed)) ∧
      load crampedDisk crampedPlace = .error (.file .nameTooLong) := by
  have proper : (flat [("case.json", [])]).Proper := by
    refine .directory (fun e member => ?_) (by decide) fun e member => ?_
    · obtain rfl := List.mem_singleton.1 member
      show IsName "case.json"
      decide
    · obtain rfl := List.mem_singleton.1 member
      exact .file []
  have long : (pathOf crampedPlace [Text.ofString "case.json"]).text.exceeds pathLimit = true := by
    decide +kernel
  have found : crampedDisk.find crampedPlace = .ok (flat [("case.json", [])]) := rfl
  refine ⟨found, proper, fun row content there => ?_, ?_⟩
  · obtain ⟨f, member, rfl, rfl⟩ := fileAt?_flat there
    obtain rfl := List.mem_singleton.1 member
    rfl
  · have met : walk crampedPlace (flat [("case.json", [])]) =
        [(crampedPlace, Text.ofString "case.json", [])] := by
      simp [flat, walk, walkEach, sortByName, filesIn]
    have failed : ofFile (crampedPlace, Text.ofString "case.json", []) =
        .error (.file .nameTooLong) := by
      unfold ofFile
      exact (if_neg (by decide)).trans (if_pos long)
    rw [load, found]
    dsimp only
    rw [ofTree, met, List.mapM_cons, failed]
    rfl

end Corpus

end StepReplay
