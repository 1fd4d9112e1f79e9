import StepReplay.FileTree
import StepReplay.Proofs.Table

set_option autoImplicit false

/-! # The order of a walk

A walk meets the files of a tree in an order that depends on their places alone: first those of a
directory, then those of its subdirectories, each of the two by the order of names (`Before`). The
order in which a directory keeps its entries is not seen. Files are told apart by the row of names
that leads to them, so a walk is a list of rows in order (`visited`), and a list in this order is
known once it is known what is in it. -/

namespace StepReplay

/-! ## The order of names -/

namespace Text

theorem precedes_antisymm {s t : Text} (st : s.precedes t = true) (ts : t.precedes s = true) :
    s = t := by
  induction s generalizing t with
  | nil =>
    cases t with
    | nil => rfl
    | cons c t => cases ts
  | cons a s ih =>
    cases t with
    | nil => cases st
    | cons b t =>
      simp only [precedes, Bool.or_eq_true, decide_eq_true_eq, Bool.and_eq_true, beq_iff_eq] at st ts
      have same : a.val = b.val := by omega
      rw [ih (st.resolve_left (by omega)).2 (ts.resolve_left (by omega)).2, Fin.ext same]

theorem precedes_trans {r s t : Text} (rs : r.precedes s = true) (st : s.precedes t = true) :
    r.precedes t = true := by
  induction r generalizing s t with
  | nil => rfl
  | cons a r ih =>
    cases s with
    | nil => cases rs
    | cons b s =>
      cases t with
      | nil => cases st
      | cons c t =>
        simp only [precedes, Bool.or_eq_true, decide_eq_true_eq, Bool.and_eq_true, beq_iff_eq] at *
        rcases rs with less | ⟨same, rs⟩
        · exact .inl (by omega)
        · rcases st with less | ⟨same', st⟩
          · exact .inl (by omega)
          · exact .inr ⟨by omega, ih rs st⟩

theorem precedes_total (s t : Text) : (s.precedes t || t.precedes s) = true := by
  induction s generalizing t with
  | nil => rfl
  | cons a s ih =>
    cases t with
    | nil => rfl
    | cons b t =>
      have := ih t
      simp only [precedes, Bool.or_eq_true, decide_eq_true_eq, Bool.and_eq_true, beq_iff_eq] at *
      rcases Nat.lt_trichotomy a.val b.val with less | same | more
      · exact .inl (.inl less)
      · exact this.imp (fun h => .inr ⟨same, h⟩) (fun h => .inr ⟨same.symm, h⟩)
      · exact .inr (.inl more)

end Text

namespace FileTree

/-! ## Entries in order -/

variable {α β : Type}

theorem sortByName_perm (entries : List (Text × α)) : (sortByName entries).Perm entries :=
  List.mergeSort_perm ..

theorem sortByName_map (f : Text × α → β) (entries : List (Text × α)) :
    sortByName (entries.map fun e => (e.1, f e)) =
      (sortByName entries).map fun e => (e.1, f e) :=
  (List.map_mergeSort (f := fun e : Text × α => (e.1, f e)) fun _ _ _ _ => rfl).symm

/-- Entries with different names stand in the strict order of their names. -/
theorem pairwise_sortByName {entries : List (Text × α)} (distinct : (entries.map Prod.fst).Nodup) :
    (sortByName entries).Pairwise fun a b => a.1 ≠ b.1 ∧ a.1.precedes b.1 = true := by
  have names : ((sortByName entries).map Prod.fst).Nodup :=
    ((sortByName_perm entries).map Prod.fst).nodup_iff.2 distinct
  have sorted : (sortByName entries).Pairwise fun a b => a.1.precedes b.1 = true := by
    refine List.pairwise_mergeSort ?_ ?_ entries
    · exact fun _ _ _ => Text.precedes_trans
    · exact fun a b => Text.precedes_total a.1 b.1
  exact (List.pairwise_map.1 names).and sorted

/-! ## Trees of a system -/

/-- A name that a system gives to an entry of a directory. -/
structure IsName (name : Text) : Prop where
  some : name ≠ []
  whole : Path.slash ∉ name
  nulFree : CodePoint.ofNat 0 ∉ name
  dot : name ≠ Path.dot
  twoDots : name ≠ Path.twoDots
  short : name.exceeds nameLimit = false

instance (name : Text) : Decidable (IsName name) :=
  decidable_of_iff
    (name ≠ [] ∧ Path.slash ∉ name ∧ CodePoint.ofNat 0 ∉ name ∧ name ≠ Path.dot ∧
      name ≠ Path.twoDots ∧ name.exceeds nameLimit = false)
    ⟨fun ⟨nonempty, whole, nulFree, dot, twoDots, short⟩ =>
        ⟨nonempty, whole, nulFree, dot, twoDots, short⟩,
      fun h => ⟨h.some, h.whole, h.nulFree, h.dot, h.twoDots, h.short⟩⟩

/-- A tree as a system keeps it: the entries of each directory have names, and different ones. -/
inductive Proper : FileTree → Prop
  | file (content : Bytes) : Proper (file content)
  | directory {entries : List (Text × FileTree)} (named : ∀ e ∈ entries, IsName e.1)
      (distinct : (entries.map Prod.fst).Nodup) (each : ∀ e ∈ entries, Proper e.2) :
      Proper (directory entries)

mutual

/-- What holds of every file, and of a directory if it holds of its entries, holds of every tree. -/
theorem by_entries {P : FileTree → Prop} (file : ∀ content, P (file content))
    (directory : ∀ entries, (∀ e ∈ entries, P e.2) → P (directory entries)) : ∀ t, P t
  | .file content => file content
  | .directory entries => directory entries (by_entries_each file directory entries)

theorem by_entries_each {P : FileTree → Prop} (file : ∀ content, P (file content))
    (directory : ∀ entries, (∀ e ∈ entries, P e.2) → P (directory entries)) :
    ∀ entries : List (Text × FileTree), ∀ e ∈ entries, P e.2
  | [] => by simp
  | (_, inner) :: rest =>
    List.forall_mem_cons.2
      ⟨by_entries file directory inner, by_entries_each file directory rest⟩

end

/-- The content of the file to which a row of names leads. -/
def fileAt? : List Text → FileTree → Option Bytes
  | [], file content => some content
  | name :: row, directory entries => (Table.find? name entries).bind (fileAt? row)
  | _, _ => none

/-- A tree whose directories may keep the same entries in another order. -/
inductive Reordered : FileTree → FileTree → Prop
  | refl (t : FileTree) : Reordered t t
  | trans {t t' t'' : FileTree} (first : Reordered t t') (second : Reordered t' t'') :
      Reordered t t''
  | entries {es es' : List (Text × FileTree)} (perm : es.Perm es') :
      Reordered (directory es) (directory es')
  | inside {before after : List (Text × FileTree)} {name : Text} {inner inner' : FileTree}
      (below : Reordered inner inner') :
      Reordered (directory (before ++ (name, inner) :: after))
        (directory (before ++ (name, inner') :: after))

theorem bind_find?_replaced {before after : List (Text × FileTree)} {name : Text}
    {inner inner' : FileTree} {f : FileTree → Option Bytes} (same : f inner' = f inner)
    (key : Text) :
    (Table.find? key (before ++ (name, inner') :: after)).bind f =
      (Table.find? key (before ++ (name, inner) :: after)).bind f := by
  induction before with
  | nil =>
    rw [List.nil_append, List.nil_append, Table.find?, Table.find?]
    split
    · exact same
    · rfl
  | cons e before ih =>
    rw [List.cons_append, List.cons_append, Table.find?, Table.find?]
    split
    · rfl
    · exact ih

/-- A row of names leads to the same file, in whatever order directories keep their entries. -/
theorem Reordered.same {t t' : FileTree} (h : Reordered t t') (proper : t.Proper) :
    t'.Proper ∧ ∀ row, t'.fileAt? row = t.fileAt? row := by
  induction h with
  | refl t => exact ⟨proper, fun _ => rfl⟩
  | trans _ _ ih ih' =>
    obtain ⟨proper', same⟩ := ih proper
    obtain ⟨proper'', same'⟩ := ih' proper'
    exact ⟨proper'', fun row => (same' row).trans (same row)⟩
  | entries perm =>
    cases proper with
    | directory named distinct each =>
      have distinct' := ((perm.map Prod.fst).nodup_iff).1 distinct
      refine ⟨.directory (fun e member => named e (perm.mem_iff.2 member)) distinct'
        (fun e member => each e (perm.mem_iff.2 member)), fun row => ?_⟩
      cases row with
      | nil => rfl
      | cons name row => rw [fileAt?, fileAt?, Table.find?_of_perm perm distinct']
  | inside below ih =>
    cases proper with
    | directory named distinct each =>
      rw [List.forall_mem_append, List.forall_mem_cons] at named each
      obtain ⟨proper', same⟩ := ih each.2.1
      refine ⟨.directory ?_ (by simpa using distinct) ?_, fun row => ?_⟩
      · exact List.forall_mem_append.2 ⟨named.1, List.forall_mem_cons.2 named.2⟩
      · exact List.forall_mem_append.2 ⟨each.1, List.forall_mem_cons.2 ⟨proper', each.2.2⟩⟩
      · cases row with
        | nil => rfl
        | cons name row => exact bind_find?_replaced (same row) name

/-! ## Places -/

/-- Of two rows of names, the first leads to what a walk meets before what the second leads to: the
files of a directory come before what is in its subdirectories, and neighbours come in the order of
their names. -/
inductive Before : List Text → List Text → Prop
  | files {a b : Text} (other : a ≠ b) (order : a.precedes b = true) : Before [a] [b]
  | deeper {a b : Text} {s : List Text} (below : s ≠ []) : Before [a] (b :: s)
  | directories {a b : Text} {r s : List Text} (other : a ≠ b) (order : a.precedes b = true)
      (first : r ≠ []) (second : s ≠ []) : Before (a :: r) (b :: s)
  | inside {a : Text} {r s : List Text} (before : Before r s) : Before (a :: r) (a :: s)

namespace Before

variable {r s : List Text}

theorem ne_nil (h : Before r s) : r ≠ [] ∧ s ≠ [] := by
  cases h <;> exact ⟨List.cons_ne_nil _ _, List.cons_ne_nil _ _⟩

theorem asymm (h : Before r s) : ¬ Before s r := by
  induction h with
  | files other order =>
    intro back
    cases back with
    | files _ order' => exact other (Text.precedes_antisymm order order')
    | deeper below => exact below rfl
    | directories _ _ first => exact first rfl
    | inside back => exact other rfl
  | deeper below =>
    intro back
    cases back with
    | files => exact below rfl
    | deeper nothing => exact nothing rfl
    | directories _ _ _ nothing => exact nothing rfl
    | inside back => exact back.ne_nil.2 rfl
  | directories other order first second =>
    intro back
    cases back with
    | files => exact first rfl
    | deeper => exact second rfl
    | directories _ order' => exact other (Text.precedes_antisymm order order')
    | inside => exact other rfl
  | inside before ih =>
    intro back
    cases back with
    | files other => exact other rfl
    | deeper => exact before.ne_nil.2 rfl
    | directories other => exact other rfl
    | inside back => exact ih back

end Before

namespace Before

/-! ## Rows in order -/

/-- Rows in order are known once it is known which rows they are. -/
theorem eq_of_pairwise {r s : List (List Text)} (first : r.Pairwise Before)
    (second : s.Pairwise Before) (same : ∀ row, row ∈ r ↔ row ∈ s) : r = s := by
  have distinct {r : List (List Text)} (sorted : r.Pairwise Before) : r.Nodup := by
    refine sorted.imp fun {a b} h same => ?_
    subst same
    exact h.asymm h
  refine List.Perm.eq_of_pairwise (fun _ _ _ _ h back => absurd back h.asymm) first second ?_
  exact (List.perm_ext_iff_of_nodup (distinct first) (distinct second)).2 same

/-- Rows in order stand around one of them as the order says. -/
theorem split_at {r : List (List Text)} (sorted : r.Pairwise Before) {row : List Text}
    (here : row ∈ r) :
    ∃ before after, r = before ++ row :: after ∧ (before ++ after).Pairwise Before ∧
      (∀ other, other ∈ before ↔ other ∈ r ∧ Before other row) ∧
      (∀ other, other ∈ after ↔ other ∈ r ∧ Before row other) ∧
      ∀ other, other ∈ before ++ after ↔ other ∈ r ∧ other ≠ row := by
  obtain ⟨before, after, rfl⟩ := List.append_of_mem here
  obtain ⟨-, behind, across⟩ := List.pairwise_append.1 sorted
  have first : ∀ other ∈ before, Before other row := fun other member =>
    across other member row (List.mem_cons_self ..)
  have second : ∀ other ∈ after, Before row other := (List.pairwise_cons.1 behind).1
  have irrefl : ¬ Before row row := fun h => h.asymm h
  refine ⟨before, after, rfl, ?_, fun other => ?_, fun other => ?_, fun other => ?_⟩
  · exact sorted.sublist (List.sublist_cons_self row after |>.append_left before)
  · constructor
    · exact fun member => ⟨List.mem_append_left _ member, first other member⟩
    · rintro ⟨member, order⟩
      rcases List.mem_append.1 member with early | late
      · exact early
      · rcases List.mem_cons.1 late with rfl | late
        · exact absurd order irrefl
        · exact absurd order (second other late).asymm
  · constructor
    · exact fun member => ⟨List.mem_append_right _ (List.mem_cons_of_mem _ member),
        second other member⟩
    · rintro ⟨member, order⟩
      rcases List.mem_append.1 member with early | late
      · exact absurd order (first other early).asymm
      · rcases List.mem_cons.1 late with rfl | late
        · exact absurd order irrefl
        · exact late
  · rw [List.mem_append, List.mem_append, List.mem_cons]
    constructor
    · rintro (early | late)
      · exact ⟨.inl early, fun same => irrefl (same ▸ first other early)⟩
      · exact ⟨.inr (.inr late), fun same => irrefl (same ▸ second other late)⟩
    · rintro ⟨early | rfl | late, other⟩
      · exact .inl early
      · exact absurd rfl other
      · exact .inr late

/-- Rows in order that are the same but for one stand around that one in the same way. -/
theorem split_both {r s : List (List Text)} (first : r.Pairwise Before) (second : s.Pairwise Before)
    {row : List Text} (same : ∀ other, other ≠ row → (other ∈ r ↔ other ∈ s)) :
    ∃ before after, (∀ other ∈ before ++ after, other ≠ row) ∧
      (r = before ++ row :: after ∨ row ∉ r ∧ r = before ++ after) ∧
      (s = before ++ row :: after ∨ row ∉ s ∧ s = before ++ after) := by
  have irrefl : ¬ Before row row := fun h => h.asymm h
  -- rows without the one in question are those around it in the other list
  have rest {r s before after : List (List Text)} (none : row ∉ r) (sorted : r.Pairwise Before)
      (around : (before ++ after).Pairwise Before)
      (kept : ∀ other, other ∈ before ++ after ↔ other ∈ s ∧ other ≠ row)
      (same : ∀ other, other ≠ row → (other ∈ r ↔ other ∈ s)) : r = before ++ after := by
    refine eq_of_pairwise sorted around fun other => ?_
    rw [kept]
    constructor
    · intro member
      have different : other ≠ row := fun same => none (same ▸ member)
      exact ⟨(same other different).1 member, different⟩
    · exact fun ⟨member, different⟩ => (same other different).2 member
  by_cases here : row ∈ r
  · obtain ⟨before, after, split, around, early, late, kept⟩ := split_at first here
    refine ⟨before, after, fun other member => ((kept other).1 member).2, .inl split, ?_⟩
    by_cases there : row ∈ s
    · obtain ⟨before', after', split', around', early', late', -⟩ := split_at second there
      obtain ⟨sorted, sorted', -⟩ := List.pairwise_append.1 around
      obtain ⟨ordered, ordered', -⟩ := List.pairwise_append.1 around'
      have firsts : before = before' := by
        refine eq_of_pairwise sorted ordered fun other => ?_
        rw [early, early']
        refine and_congr_left fun order => same other ?_
        rintro rfl
        exact irrefl order
      have lasts : after = after' := by
        refine eq_of_pairwise sorted' ordered' fun other => ?_
        rw [late, late']
        refine and_congr_left fun order => same other ?_
        rintro rfl
        exact irrefl order
      subst firsts lasts
      exact .inl split'
    · exact .inr ⟨there, rest there second around kept fun other different =>
        (same other different).symm⟩
  · by_cases there : row ∈ s
    · obtain ⟨before, after, split, around, -, -, kept⟩ := split_at second there
      exact ⟨before, after, fun other member => ((kept other).1 member).2,
        .inr ⟨here, rest here first around kept same⟩, .inl split⟩
    · have equal : r = s := by
        refine eq_of_pairwise first second fun other => ?_
        by_cases different : other = row
        · subst different
          exact iff_of_false here there
        · exact same other different
      refine ⟨r, [], ?_, .inr ⟨here, (List.append_nil r).symm⟩,
        .inr ⟨there, by rw [List.append_nil, equal]⟩⟩
      rintro other member rfl
      rw [List.append_nil] at member
      exact here member

end Before

/-! ## What a walk visits -/

mutual

/-- The files of a tree in the order of a walk, each behind the row of names that leads to it. -/
def visited : FileTree → List (List Text × Bytes)
  | file _ => []
  | directory entries =>
    (sortByName (filesIn entries)).map (fun e => ([e.1], e.2))
      ++ (sortByName (visitedEach entries)).flatMap (·.2)

/-- The files below each entry. -/
def visitedEach : List (Text × FileTree) → List (Text × List (List Text × Bytes))
  | [] => []
  | (name, inner) :: rest =>
    (name, (visited inner).map fun f => (name :: f.1, f.2)) :: visitedEach rest

end

theorem visitedEach_eq_map (entries : List (Text × FileTree)) :
    visitedEach entries =
      entries.map fun e => (e.1, (visited e.2).map fun f => (e.1 :: f.1, f.2)) := by
  induction entries with
  | nil => rfl
  | cons e rest ih => rw [visitedEach, ih, List.map_cons]

/-- The files of a directory: its own, and then those below its entries, entry by entry. -/
theorem visited_directory (entries : List (Text × FileTree)) :
    visited (directory entries) =
      (sortByName (filesIn entries)).map (fun e => ([e.1], e.2)) ++
        (sortByName entries).flatMap fun e => (visited e.2).map fun f => (e.1 :: f.1, f.2) := by
  rw [visited, visitedEach_eq_map, sortByName_map, List.flatMap_map]

theorem mem_filesIn {entries : List (Text × FileTree)} {name : Text} {content : Bytes} :
    (name, content) ∈ filesIn entries ↔ (name, file content) ∈ entries := by
  rw [filesIn, List.mem_filterMap]
  constructor
  · rintro ⟨⟨other, inner⟩, member, h⟩
    cases inner with
    | file c =>
      cases h
      exact member
    | directory => cases h
  · exact fun member => ⟨_, member, rfl⟩

theorem names_filesIn_sublist (entries : List (Text × FileTree)) :
    ((filesIn entries).map Prod.fst).Sublist (entries.map Prod.fst) := by
  induction entries with
  | nil => exact .slnil
  | cons e rest ih =>
    obtain ⟨name, inner⟩ := e
    cases inner with
    | file content => exact ih.cons_cons name
    | directory below => exact ih.cons name

/-- A walk visits the files that stand below a directory at the end of some names, and no others. -/
theorem mem_visited {t : FileTree} (proper : t.Proper) {row : List Text} {content : Bytes} :
    (row, content) ∈ visited t ↔ row ≠ [] ∧ fileAt? row t = some content := by
  induction t using by_entries generalizing row with
  | file c =>
    cases row with
    | nil => simp [visited]
    | cons name row => simp [visited, fileAt?]
  | directory entries ih =>
    cases proper with
    | directory named distinct each =>
      rw [visited_directory, List.mem_append, List.mem_map, List.mem_flatMap]
      constructor
      · rintro (⟨⟨name, c⟩, here, same⟩ | ⟨e, here, h⟩)
        · cases same
          have entry := mem_filesIn.1 ((sortByName_perm _).mem_iff.1 here)
          refine ⟨List.cons_ne_nil _ _, ?_⟩
          rw [fileAt?, (Table.find?_eq_some_iff distinct).2 entry]
          rfl
        · obtain ⟨⟨below, c⟩, visit, same⟩ := List.mem_map.1 h
          cases same
          have entry := (sortByName_perm _).mem_iff.1 here
          refine ⟨List.cons_ne_nil _ _, ?_⟩
          rw [fileAt?, (Table.find?_eq_some_iff distinct).2 entry]
          exact ((ih e entry (each e entry)).1 visit).2
      · rintro ⟨some, there⟩
        cases row with
        | nil => exact absurd rfl some
        | cons name row =>
          rw [fileAt?, Option.bind_eq_some_iff] at there
          obtain ⟨inner, found, there⟩ := there
          have entry := (Table.find?_eq_some_iff distinct).1 found
          cases row with
          | nil =>
            cases inner with
            | file c =>
              cases there
              exact .inl ⟨(name, content), (sortByName_perm _).mem_iff.2 (mem_filesIn.2 entry), rfl⟩
            | directory => cases there
          | cons next row =>
            have visit := (ih _ entry (each _ entry)).2 ⟨List.cons_ne_nil _ _, there⟩
            exact .inr ⟨(name, inner), (sortByName_perm _).mem_iff.2 entry,
              List.mem_map.2 ⟨_, visit, rfl⟩⟩

/-- A walk visits files in the order of their places. -/
theorem pairwise_visited {t : FileTree} (proper : t.Proper) :
    (visited t).Pairwise fun f g => Before f.1 g.1 := by
  induction t using by_entries with
  | file c => exact .nil
  | directory entries ih =>
    cases proper with
    | directory named distinct each =>
      have deeper {e : Text × FileTree} (here : e ∈ sortByName entries) {f : List Text × Bytes}
          (visit : f ∈ visited e.2) : f.1 ≠ [] :=
        ((mem_visited (each e ((sortByName_perm _).mem_iff.1 here))).1 visit).1
      rw [visited_directory, List.pairwise_append]
      refine ⟨?_, ?_, ?_⟩
      · have own := pairwise_sortByName (distinct.sublist (names_filesIn_sublist entries))
        exact List.pairwise_map.2 (own.imp fun h => .files h.1 h.2)
      · rw [List.pairwise_flatMap]
        constructor
        · intro e here
          have entry := (sortByName_perm _).mem_iff.1 here
          exact List.pairwise_map.2 ((ih e entry (each e entry)).imp .inside)
        · refine (pairwise_sortByName distinct).imp_of_mem fun {a b} first second order => ?_
          intro x left y right
          obtain ⟨f, visitF, rfl⟩ := List.mem_map.1 left
          obtain ⟨g, visitG, rfl⟩ := List.mem_map.1 right
          exact .directories order.1 order.2 (deeper first visitF) (deeper second visitG)
      · intro x own y below
        obtain ⟨f, -, rfl⟩ := List.mem_map.1 own
        obtain ⟨e, here, h⟩ := List.mem_flatMap.1 below
        obtain ⟨g, visit, rfl⟩ := List.mem_map.1 h
        exact .deeper (deeper here visit)

end FileTree

end StepReplay
