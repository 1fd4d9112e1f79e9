import Mathlib.Data.List.Forall2
import StepReplay.Disk
import StepReplay.Proofs.Except

set_option autoImplicit false

/-! # Writing into a directory

A file that is written into a directory is found there afterwards, and the directory is otherwise as
it was. This holds for every text that names the directory, dots included. A route with dots may
pass other directories on its way than the one without, so two things are needed: that the names
kept on a route lead where the route does (`leads_of_descend`), and that after a write every route
that led to a directory still does (`descend_grown`). -/

namespace StepReplay

namespace FileTree

/-! ## Routes with dots -/

/-- `Leads root kept above t`: some names, nearest first, none of them dots, lead from the root to a
tree, past the directories above it. -/
inductive Leads (root : FileTree) : List Text → List FileTree → FileTree → Prop
  | top : Leads root [] [] root
  | down {kept : List Text} {above : List FileTree} {entries : List (Text × FileTree)}
      {name : Text} {inner : FileTree} (before : Leads root kept above (directory entries))
      (dot : name ≠ Path.dot) (twoDots : name ≠ Path.twoDots)
      (short : name.exceeds nameLimit = false) (here : Table.find? name entries = some inner) :
      Leads root (name :: kept) (directory entries :: above) inner

/-- A step down to an entry of a directory. -/
theorem descend_entry {above : List FileTree} {entries : List (Text × FileTree)} {name : Text}
    {inner : FileTree} (dot : name ≠ Path.dot) (twoDots : name ≠ Path.twoDots)
    (short : name.exceeds nameLimit = false) (here : Table.find? name entries = some inner)
    (names : List Text) :
    descend above (directory entries) (name :: names) =
      descend (directory entries :: above) inner names := by
  simp [descend, dot, twoDots, short, here]

/-- What a step along a route that leads somewhere can be. -/
theorem descend_cons_eq_ok {above : List FileTree} {t found : FileTree} {name : Text}
    {names : List Text} (h : descend above t (name :: names) = .ok found) :
    ∃ entries, t = directory entries ∧
      ((name = Path.dot ∧ descend above t names = .ok found) ∨
      (name ≠ Path.dot ∧ name = Path.twoDots ∧ above = [] ∧ descend [] t names = .ok found) ∨
      (name ≠ Path.dot ∧ name = Path.twoDots ∧ ∃ parent rest, above = parent :: rest ∧
        descend rest parent names = .ok found) ∨
      (name ≠ Path.dot ∧ name ≠ Path.twoDots ∧ name.exceeds nameLimit = false ∧
        ∃ inner, Table.find? name entries = some inner ∧
          descend (t :: above) inner names = .ok found)) := by
  cases t with
  | file content => cases h
  | directory entries =>
    refine ⟨entries, rfl, ?_⟩
    unfold descend at h
    dsimp only at h
    split at h
    · rename_i dot
      exact .inl ⟨dot, h⟩
    · rename_i dot
      split at h
      · rename_i twoDots
        cases above with
        | nil => exact .inr (.inl ⟨dot, twoDots, rfl, h⟩)
        | cons parent rest => exact .inr (.inr (.inl ⟨dot, twoDots, parent, rest, rfl, h⟩))
      · rename_i twoDots
        split at h
        · cases h
        · rename_i short
          split at h
          · rename_i inner here
            exact .inr (.inr (.inr ⟨dot, twoDots, by simpa using short, inner, here, h⟩))
          · cases h

/-- The rest of a route goes on from where its beginning leads. -/
theorem descend_append {t found : FileTree} {above : List FileTree} {names : List Text}
    (reached : descend above t names = .ok found) :
    ∃ above', ∀ rest, descend above t (names ++ rest) = descend above' found rest := by
  induction names generalizing t above with
  | nil =>
    cases reached
    exact ⟨above, fun _ => rfl⟩
  | cons name names ih =>
    obtain ⟨entries, rfl, step⟩ := descend_cons_eq_ok reached
    rcases step with ⟨dot, on⟩ | ⟨dot, twoDots, rfl, on⟩ | ⟨dot, twoDots, parent, rest, rfl, on⟩ |
      ⟨dot, twoDots, short, inner, here, on⟩
    · simp only [List.cons_append, descend, dot, ↓reduceIte]
      exact ih on
    · simp only [List.cons_append, descend, twoDots, ↓reduceIte]
      exact ih on
    · simp only [List.cons_append, descend, twoDots, ↓reduceIte]
      exact ih on
    · simp only [List.cons_append, descend_entry dot twoDots short here]
      exact ih on

theorem descend_leads {root : FileTree} {kept : List Text} {above : List FileTree} {t : FileTree}
    (h : Leads root kept above t) (names : List Text) :
    descend [] root (kept.reverse ++ names) = descend above t names := by
  induction h generalizing names with
  | top => rfl
  | down before dot twoDots short here ih =>
    rw [List.reverse_cons, List.append_assoc, List.singleton_append, ih,
      descend_entry dot twoDots short here]

/-- The names that are kept on a route lead to where the route does. -/
theorem leads_of_descend {root t found : FileTree} {kept : List Text} {above : List FileTree}
    {names : List Text} (h : Leads root kept above t) (reached : descend above t names = .ok found) :
    ∃ above', Leads root (names.foldl Disk.keep kept) above' found := by
  induction names generalizing kept above t with
  | nil =>
    cases reached
    exact ⟨above, h⟩
  | cons name names ih =>
    obtain ⟨entries, rfl, step⟩ := descend_cons_eq_ok reached
    rw [List.foldl_cons]
    rcases step with ⟨dot, led⟩ | ⟨dot, twoDots, rfl, led⟩ | ⟨dot, twoDots, parent, rest, rfl, led⟩ |
      ⟨dot, twoDots, short, inner, here, led⟩
    · rw [Disk.keep, if_pos dot]
      exact ih h led
    · -- two dots at the top stay there
      rw [Disk.keep, if_neg dot, if_pos twoDots]
      cases h
      exact ih .top led
    · rw [Disk.keep, if_neg dot, if_pos twoDots]
      cases h with
      | down before => exact ih before led
    · rw [Disk.keep, if_neg dot, if_neg twoDots]
      exact ih (h.down dot twoDots short here) led

/-! ## Changes below a directory -/

/-- A change at the end of some names is a change of what the first of them lead to. -/
theorem updateAt_leads {change : Option FileTree → Except FileError FileTree}
    {root root' t : FileTree} {kept : List Text} {above : List FileTree} {names : List Text}
    (h : Leads root kept above t)
    (updated : updateAt change (some root) (kept.reverse ++ names) = .ok root') :
    ∃ t' above', updateAt change (some t) names = .ok t' ∧ Leads root' kept above' t' := by
  induction h generalizing names with
  | top => exact ⟨root', [], updated, .top⟩
  | down before dot twoDots short here ih =>
    rename_i kept above entries name inner
    rw [List.reverse_cons, List.append_assoc, List.singleton_append] at updated
    obtain ⟨t', above', changed, leads⟩ := ih updated
    simp only [updateAt, short, Bool.false_eq_true, ↓reduceIte, here, bind_eq_ok] at changed
    obtain ⟨inner', changed, same⟩ := changed
    cases same
    exact ⟨inner', _, changed, leads.down dot twoDots short (Table.find?_put_self ..)⟩

theorem Leads.unique {root t t' : FileTree} {kept : List Text} {above above' : List FileTree}
    (h : Leads root kept above t) (h' : Leads root kept above' t') : t = t' := by
  have one := descend_leads h []
  have other := descend_leads h' []
  rw [one] at other
  cases other
  rfl

/-- `Grown t t'`: one tree comes from another by a change at one place, where no directory stood. -/
inductive Grown : FileTree → FileTree → Prop
  | same (t : FileTree) : Grown t t
  | file (content : Bytes) (t : FileTree) : Grown (file content) t
  | inside {entries : List (Text × FileTree)} {name : Text} {inner inner' : FileTree}
      (here : Table.find? name entries = some inner) (grown : Grown inner inner') :
      Grown (directory entries) (directory (Table.put name inner' entries))
  | added {entries : List (Text × FileTree)} {name : Text} (absent : Table.find? name entries = none)
      (inner : FileTree) : Grown (directory entries) (directory (Table.put name inner entries))

theorem updateAt_grown {change : Option FileTree → Except FileError FileTree} {t t' : FileTree}
    {names : List Text} (careful : ∀ entries t, change (some (directory entries)) ≠ .ok t)
    (updated : updateAt change (some t) names = .ok t') : Grown t t' := by
  induction names generalizing t t' with
  | nil =>
    cases t with
    | file content => exact .file content t'
    | directory entries => exact absurd updated (careful entries t')
  | cons name names ih =>
    unfold updateAt at updated
    split at updated
    · cases updated
    · cases t with
      | file content => cases updated
      | directory entries =>
        obtain ⟨inner', changed, same⟩ := bind_eq_ok.1 updated
        cases same
        cases here : Table.find? name entries with
        | none => exact .added here inner'
        | some inner =>
          rw [here] at changed
          exact .inside here (ih changed)

theorem Grown.entry {entries : List (Text × FileTree)} {t' : FileTree}
    (h : Grown (directory entries) t') : ∃ entries', t' = directory entries' ∧
      ∀ name inner, Table.find? name entries = some inner →
        ∃ inner', Table.find? name entries' = some inner' ∧ Grown inner inner' := by
  cases h with
  | same => exact ⟨entries, rfl, fun name inner here => ⟨inner, here, .same inner⟩⟩
  | inside here grown =>
    rename_i changed old new
    refine ⟨_, rfl, fun name inner found => ?_⟩
    by_cases this : name = changed
    · subst this
      rw [found] at here
      cases here
      exact ⟨new, Table.find?_put_self .., grown⟩
    · exact ⟨inner, by rw [Table.find?_put_of_ne this, found], .same inner⟩
  | added absent new =>
    rename_i changed
    refine ⟨_, rfl, fun name inner found => ?_⟩
    have other : name ≠ changed := by
      rintro rfl
      simp [found] at absent
    exact ⟨inner, by rw [Table.find?_put_of_ne other, found], .same inner⟩

/-- A route that leads to a directory does so after a tree has grown. -/
theorem descend_grown {t t' : FileTree} {above above' : List FileTree} {names : List Text}
    {entries : List (Text × FileTree)} (grown : Grown t t') (all : List.Forall₂ Grown above above')
    (reached : descend above t names = .ok (directory entries)) :
    ∃ entries', descend above' t' names = .ok (directory entries') := by
  induction names generalizing t t' above above' with
  | nil =>
    cases reached
    obtain ⟨entries', rfl, -⟩ := grown.entry
    exact ⟨entries', rfl⟩
  | cons name names ih =>
    obtain ⟨present, rfl, step⟩ := descend_cons_eq_ok reached
    obtain ⟨present', rfl, each⟩ := grown.entry
    rcases step with ⟨dot, on⟩ | ⟨dot, twoDots, rfl, on⟩ | ⟨dot, twoDots, parent, rest, rfl, on⟩ |
      ⟨dot, twoDots, short, inner, here, on⟩
    · simp only [descend, dot, ↓reduceIte]
      exact ih grown all on
    · cases all
      simp only [descend, twoDots, ↓reduceIte]
      exact ih grown .nil on
    · cases all with
      | cons first others =>
        simp only [descend, twoDots, ↓reduceIte]
        exact ih first others on
    · obtain ⟨inner', here', inside⟩ := each name inner here
      rw [descend_entry dot twoDots short here']
      exact ih inside (.cons grown all) on

end FileTree

namespace Disk

/-! ## Paths -/

theorem find_eq_directory {d : Disk} {t : Text} {entries : List (Text × FileTree)} :
    d.find t = .ok (.directory entries) ↔
      checkPath t = .ok () ∧ FileTree.descend [] d.root (d.route t) = .ok (.directory entries) := by
  simp only [find, bind_eq_ok]
  constructor
  · rintro ⟨_, valid, found, reached, same⟩
    cases found with
    | file content =>
      dsimp only at same
      split at same <;> cases same
    | directory found =>
      cases same
      exact ⟨valid, reached⟩
  · rintro ⟨valid, reached⟩
    exact ⟨(), valid, _, reached, rfl⟩

/-- An update that goes through changes one entry of a directory, and every name of the directory
leads there still. -/
theorem update_eq_ok {d d' : Disk} {change : Option FileTree → Except FileError FileTree}
    {onDots : FileError} {t : Text}
    (careful : ∀ entries t, change (some (.directory entries)) ≠ .ok t)
    (h : d.update change onDots t = .ok d') :
    checkPath t = .ok () ∧ ∃ way name entries inner, d.route t = way ++ [name] ∧
      name ≠ Path.dot ∧ name ≠ Path.twoDots ∧ name.exceeds nameLimit = false ∧
      FileTree.descend [] d.root way = .ok (.directory entries) ∧
      change (Table.find? name entries) = .ok inner ∧ d'.here = d.here ∧
      FileTree.descend [] d'.root way = .ok (.directory (Table.put name inner entries)) := by
  simp only [update, bind_eq_ok] at h
  obtain ⟨_, valid, found, reached, h⟩ := h
  cases found with
  | file content => cases h
  | directory entries =>
    cases last : (Path.namesOf t).getLast? with
    | none =>
      rw [last] at h
      cases h
    | some name =>
      rw [last] at h
      dsimp only at h
      obtain ⟨way, whole⟩ : ∃ way, d.route t = way ++ [name] := by
        obtain ⟨front, names⟩ := List.getLast?_eq_some_iff.1 last
        rw [route, names]
        split
        · exact ⟨front, rfl⟩
        · exact ⟨d.here ++ front, (List.append_assoc ..).symm⟩
      rw [whole, List.dropLast_concat] at reached h
      split at h
      · cases h
      · rename_i proper
        rw [not_or] at proper
        obtain ⟨root, updated, same⟩ := bind_eq_ok.1 h
        cases same
        -- the change is made along the straightened route, so what it gives is known there
        obtain ⟨above, leads⟩ := FileTree.leads_of_descend .top reached
        obtain ⟨t', above', changed, leads'⟩ := FileTree.updateAt_leads leads updated
        unfold FileTree.updateAt at changed
        split at changed
        · cases changed
        · rename_i short
          obtain ⟨inner, new, same⟩ := bind_eq_ok.1 changed
          cases same
          -- the route as it was typed still leads somewhere, hence to the same place
          obtain ⟨after, reached'⟩ :=
            FileTree.descend_grown (FileTree.updateAt_grown careful updated) .nil reached
          obtain ⟨above'', leads''⟩ := FileTree.leads_of_descend .top reached'
          cases leads'.unique leads''
          exact ⟨valid, way, name, entries, inner, whole, proper.1, proper.2, by simpa using short,
            reached, new, rfl, reached'⟩

/-! ## Writing a file -/

theorem route_entryText (d : Disk) {directory name : Text} (somewhere : directory ≠ [])
    (whole : Path.slash ∉ name) (named : name ≠ []) :
    d.route (Path.entryText directory name) = d.route directory ++ [name] := by
  unfold route
  rw [Path.head?_entryText somewhere, Path.namesOf_entryText somewhere whole named]
  split
  · rfl
  · rw [List.append_assoc]

/-- A file that is written into a directory is one of its entries afterwards, and the others are
what they were. -/
theorem find_writeFile {d d' : Disk} {directory name : Text} {content : Bytes}
    {entries : List (Text × FileTree)} (whole : Path.slash ∉ name) (named : name ≠ [])
    (found : d.find directory = .ok (.directory entries))
    (written : d.writeFile (Path.entryText directory name) content = .ok d') :
    d'.find directory = .ok (.directory (Table.put name (.file content) entries)) := by
  obtain ⟨valid, reached⟩ := find_eq_directory.1 found
  have somewhere : directory ≠ [] := by
    rintro rfl
    cases valid
  unfold writeFile at written
  split at written
  · cases written
  · obtain ⟨-, way, last, present, inner, ends, -, -, -, reached', changed, here, after⟩ :=
      update_eq_ok (by rintro entries t ⟨⟩) written
    rw [route_entryText d somewhere whole named] at ends
    obtain ⟨rfl, same⟩ := List.append_inj' ends rfl
    cases same
    rw [reached] at reached'
    cases reached'
    have file : inner = .file content := by
      split at changed
      · cases changed
      · cases changed
        rfl
    subst file
    have same : d'.route directory = d.route directory := by rw [route, route, here]
    exact find_eq_directory.2 ⟨valid, same ▸ after⟩

/-! ## Making a directory -/

/-- A directory that is made is empty. -/
theorem find_makeDirectory {d d' : Disk} {t : Text} (made : d.makeDirectory t = .ok d') :
    d'.find t = .ok (.directory []) := by
  obtain ⟨valid, way, name, entries, inner, route, dot, twoDots, short, -, changed, here, after⟩ :=
    update_eq_ok (by rintro entries t ⟨⟩) made
  have new : inner = .directory [] := by
    split at changed
    · cases changed
    · cases changed
      rfl
  subst new
  have same : d'.route t = way ++ [name] := by rw [← route, Disk.route, Disk.route, here]
  obtain ⟨above, on⟩ := FileTree.descend_append after
  refine find_eq_directory.2 ⟨valid, ?_⟩
  rw [same, on, FileTree.descend_entry dot twoDots short (Table.find?_put_self ..)]
  rfl

theorem find_makeDirectories {depth : Nat} {d d' : Disk} {t : Text}
    (made : makeDirectories depth d t = (d', none)) (proper : (Path.cutEntry t).2 ≠ Path.dot) :
    d'.find t = .ok (.directory []) := by
  have single {d : Disk} (made : d.tryDirectory t = (d', none)) :
      d'.find t = .ok (.directory []) := by
    unfold tryDirectory at made
    split at made
    · rename_i new
      cases made
      exact find_makeDirectory new
    · cases made
  cases depth with
  | zero => cases made
  | succ depth =>
    simp only [makeDirectories, proper, ↓reduceIte] at made
    split at made
    · exact single made
    · split at made
      · exact single made
      · exact single made
      · rename_i ended _
        exact absurd made (ended d')

end Disk

end StepReplay
