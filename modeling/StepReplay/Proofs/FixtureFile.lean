import StepReplay.Proofs.Fixture

set_option autoImplicit false

/-! # Fixture files

A file holds one fixture or an object with a fixture for each name, and the two are told apart by
the key `witness` of the object. An object of names is therefore read back as the fixtures that it
was made of unless one of the names is that key; then the file is taken for a single fixture, whose
witness has no state, and nothing of it is read. -/

namespace StepReplay

/-! ## Names of files -/

/-- A name is cut at its last full stop. -/
theorem Path.stem_append_suffix {stem : Text} (some : stem ≠ []) :
    Path.stem (stem ++ Corpus.suffix) = stem := by
  have back : (stem ++ Corpus.suffix).reverse = Corpus.suffix.reverse ++ stem.reverse :=
    List.reverse_append
  have stop : ((stem ++ Corpus.suffix).reverse.findIdx? (· = CodePoint.ofChar '.')) =
      Option.some 4 := by
    rw [back]
    rfl
  have length : (stem ++ Corpus.suffix).length = stem.length + 5 := List.length_append
  have := List.length_pos_iff.2 some
  rw [Path.stem, Path.lastStop?, stop]
  simp only [Option.map_some, length]
  rw [if_pos (by omega)]
  exact List.take_left' (by omega)

namespace Fixture

/-! ## Documents -/

/-- The object of some fixtures, each under its name. -/
def table (fs : List Fixture) : Json :=
  .object (fs.map fun f => (f.name, f.toJson))

theorem ofContent_of_holds {content : Bytes} {j : Json} (holds : Json.Holds content j) (path : Path) :
    ofContent path content = (ofDocument path j).mapError .decode := by
  obtain ⟨t, bytes, read⟩ := holds
  rw [ofContent, bytes]
  simp only [read]
  rfl

theorem mapM_ofJson (fs : List Fixture) :
    (fs.map fun f => (f.name, f.toJson)).mapM (fun (name, value) => ofJson name value) = .ok fs := by
  rw [List.mapM_map, mapM_eq_ok_map (g := id) fun f _ => f.ofJson_toJson f.name, List.map_id]

theorem keys_table (fs : List Fixture) :
    (fs.map fun f => (f.name, f.toJson)).map Prod.fst = fs.map name := by
  rw [List.map_map]
  rfl

/-- Without the key of a single fixture, the object is read name by name. -/
theorem ofDocument_table {fs : List Fixture} (free : ∀ f ∈ fs, f.name ≠ "witness") (path : Path) :
    ofDocument path (table fs) = .ok fs := by
  have absent : (table fs).field? "witness" = none := by
    rw [table, Json.field?, Table.find?_eq_none_iff, keys_table]
    rintro member
    obtain ⟨f, here, named⟩ := List.mem_map.1 member
    exact free f here named
  rw [table] at absent ⊢
  rw [ofDocument, absent, if_neg (by simp)]
  exact mapM_ofJson fs

/-- With the key of a single fixture, what stands there is a fixture and no witness. -/
theorem ofDocument_table_of_mem {fs : List Fixture} (taken : ∃ f ∈ fs, f.name = "witness")
    (path : Path) : ofDocument path (table fs) = .error .noState := by
  obtain ⟨f, here, named⟩ := taken
  obtain ⟨j, found⟩ : ∃ j, (table fs).field? "witness" = some j := by
    refine Option.ne_none_iff_exists'.1 fun absent => ?_
    rw [table, Json.field?, Table.find?_eq_none_iff, keys_table] at absent
    exact absent (List.mem_map.2 ⟨f, here, named⟩)
  obtain ⟨g, -, fixture⟩ := List.mem_map.1 (Table.mem_of_find? found)
  obtain rfl := (Prod.mk.inj fixture).2
  have stateless : g.toJson.field? "state" = none := by
    obtain ⟨fields, object, some, -⟩ := g.toJson_eq_object
    have other : Text.ofString "state" ∉ keys := by decide
    rw [object, Json.field?, Table.find?_eq_none_iff]
    exact fun member => other (some.subset member)
  rw [table] at found ⊢
  rw [ofDocument, if_pos (by rw [found]; rfl), ofJson, found]
  dsimp only
  rw [StepWitness.ofJson, stateless]
  rfl

theorem ofDocument_single {path : Path} {stem : Text}
    (last : path.names.getLast? = some (stem ++ Corpus.suffix)) (some : stem ≠ []) (f : Fixture) :
    ofDocument path f.toJson = .ok [{ f with name := stem }] := by
  have single : (f.toJson.field? "witness").isSome = true := by rw [f.field?_toJson.1]; rfl
  have named : path.fileStem = stem := by
    rw [Path.fileStem, last, Option.getD_some, Path.stem_append_suffix some]
  obtain ⟨fields, object, -⟩ := f.toJson_eq_object
  rw [object] at single
  rw [object, ofDocument, if_pos single, ← object, ofJson_toJson, named]
  rfl

/-! ## Files -/

theorem load_of_holds {disk : Disk} {path : Path} {content : Bytes} {j : Json}
    (there : disk.readFile path.text = .ok content) (holds : Json.Holds content j) :
    load disk path = (ofDocument path j).mapError .decode := by
  rw [load, there]
  exact ofContent_of_holds holds path

/-- The object of some fixtures can be written in any style that keeps its order, if the style takes
their names, and the file holds the object. -/
theorem holds_table (style : Json.Style) (unsorted : style.sorted = false) {fs : List Fixture}
    (distinct : (fs.map name).Nodup) (taken : ∀ f ∈ fs, style.Takes f.name) :
    ∃ content, Utf8.encode? ((table fs).write style 0) = some content ∧
      Json.Holds content (table fs) := by
  have built : Json.Built style.Takes Json.depthLimit (table fs) := by
    show Json.Built style.Takes (988 + 1) (table fs)
    refine .object (List.forall_mem_map.2 taken)
      (List.forall_mem_map.2 fun f _ => ?_) (by rwa [keys_table])
    exact f.built_toJson style.acceptsAscii_takes 986
  have whole := built.holds
  rwa [built.arranged_eq unsorted] at whole

/-- Likewise for the form of a single fixture, which every style takes. -/
theorem holds_toJson (style : Json.Style) (unsorted : style.sorted = false) (f : Fixture) :
    ∃ content, Utf8.encode? (f.toJson.write style 0) = some content ∧
      Json.Holds content f.toJson := by
  have built : Json.Built style.Takes Json.depthLimit f.toJson :=
    f.built_toJson style.acceptsAscii_takes 987
  have whole := built.holds
  rwa [built.arranged_eq unsorted] at whole

/-- A file that holds the object of some fixtures is read back as these fixtures in their order,
unless one of them has the name that marks a single fixture: then nothing is read. A file that holds
a single fixture is read back as that fixture under the name of the file without its suffix. And
there are such files, in every style that keeps the order of fields, for all names that the style
takes. -/
theorem load_written {disk : Disk} {path : Path} {content : Bytes}
    (there : disk.readFile path.text = .ok content) :
    (∀ fs, Json.Holds content (table fs) → (∀ f ∈ fs, f.name ≠ "witness") →
      load disk path = .ok fs) ∧
    (∀ fs, Json.Holds content (table fs) → (∃ f ∈ fs, f.name = "witness") →
      load disk path = .error (.decode .noState)) ∧
    (∀ (f : Fixture) (stem : Text), Json.Holds content f.toJson → stem ≠ [] →
      path.names.getLast? = some (stem ++ Corpus.suffix) →
        load disk path = .ok [{ f with name := stem }]) ∧
    ∀ style : Json.Style, style.sorted = false →
      (∀ fs : List Fixture, (fs.map name).Nodup → (∀ f ∈ fs, style.Takes f.name) →
        ∃ written, Utf8.encode? ((table fs).write style 0) = some written ∧
          Json.Holds written (table fs)) ∧
      ∀ f : Fixture, ∃ written, Utf8.encode? (f.toJson.write style 0) = some written ∧
        Json.Holds written f.toJson := by
  refine ⟨fun fs holds free => ?_, fun fs holds taken => ?_, fun f stem holds some last => ?_,
    fun style unsorted => ⟨fun fs distinct takes => ?_, fun f => ?_⟩⟩
  · rw [load_of_holds there holds, ofDocument_table free]
    rfl
  · rw [load_of_holds there holds, ofDocument_table_of_mem taken]
    rfl
  · rw [load_of_holds there holds, ofDocument_single last some]
    rfl
  · exact holds_table style unsorted distinct takes
  · exact holds_toJson style unsorted f

/-- A disk with one file of some content in the directory in which the program runs. -/
def fileDisk (name : Text) (content : Bytes) : Disk where
  root := .directory [(name, .file content)]

/-- The path of a file of one fixture or of several. -/
def filePath : Path := Path.ofText "case.json"

theorem readFile_fileDisk (content : Bytes) :
    (fileDisk "case.json" content).readFile filePath.text = .ok content := rfl

theorem takes_of_ascii {fs : List Fixture} (ascii : fs.all (·.name.all (·.val < 0x80)) = true) :
    ∀ f ∈ fs, Json.Style.compact.Takes f.name :=
  fun f member => Json.Style.compact.acceptsAscii_takes f.name (List.all_eq_true.1 ascii f member)

/-- Two fixtures of one state, the second with an offset and a fingerprint. -/
def pair : List Fixture :=
  [⟨"plain", { state := Block.zero 226 }, none⟩,
    ⟨"hashed", { state := Block.zero 226, preimageOffset := some 0 }, some (Block.zero 32)⟩]

theorem load_written_pair :
    (∃ content, Json.Holds content (table pair) ∧
      load (fileDisk "case.json" content) filePath = .ok pair) ∧
    ∀ f ∈ pair, ∃ content, Json.Holds content f.toJson ∧
      load (fileDisk "case.json" content) filePath = .ok [{ f with name := "case" }] := by
  constructor
  · have distinct : (pair.map name).Nodup := by decide
    obtain ⟨content, -, holds⟩ := holds_table .compact rfl distinct
      (takes_of_ascii (by decide))
    exact ⟨content, holds, (load_written (readFile_fileDisk content)).1 pair holds (by decide)⟩
  · intro f _
    obtain ⟨content, -, holds⟩ := f.holds_toJson .compact rfl
    exact ⟨content, holds,
      (load_written (readFile_fileDisk content)).2.2.1 f "case" holds (by decide) rfl⟩

/-- A fixture that has the name that marks a single one. -/
def misnamed : Fixture := ⟨"witness", { state := Block.zero 226 }, none⟩

theorem misnamed_not_read_back : ([misnamed].map name).Nodup ∧
    ∃ content, Utf8.encode? ((table [misnamed]).write .compact 0) = some content ∧
      Json.Holds content (table [misnamed]) ∧
      (fileDisk "case.json" content).readFile filePath.text = .ok content ∧
      load (fileDisk "case.json" content) filePath ≠ .ok [misnamed] := by
  have distinct : ([misnamed].map name).Nodup := by decide
  obtain ⟨content, written, holds⟩ := holds_table .compact rfl distinct
    (takes_of_ascii (by decide))
  refine ⟨distinct, content, written, holds, readFile_fileDisk content, ?_⟩
  rw [load_of_holds (readFile_fileDisk content) holds,
    ofDocument_table_of_mem ⟨misnamed, List.mem_singleton_self _, rfl⟩]
  rintro ⟨⟩

end Fixture

end StepReplay
