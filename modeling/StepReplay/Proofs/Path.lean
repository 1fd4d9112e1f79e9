import StepReplay.Path
import StepReplay.Proofs.Text

set_option autoImplicit false

/-! # Texts of paths

A path is written so that its names can be told apart again, and nothing comes into its text beside
them but slashes and a dot. -/

namespace StepReplay.Path

variable {p : CodePoint → Prop}

theorem forall_mem_namesOf {t : Text} (all : ∀ c ∈ t, p c) : ∀ name ∈ namesOf t, ∀ c ∈ name, p c :=
  fun name member => Text.forall_mem_cutAt all name (List.mem_filter.1 member).1

theorem forall_mem_text {path : Path} (lead : ∀ c ∈ path.lead, p c)
    (each : ∀ name ∈ path.names, ∀ c ∈ name, p c) (marks : p slash ∧ p (CodePoint.ofChar '.')) :
    ∀ c ∈ path.text, p c := by
  unfold text
  split
  · intro c member
    rw [List.mem_singleton.1 member]
    exact marks.2
  · refine List.forall_mem_append.2 ⟨lead, Text.forall_mem_joined ?_ each⟩
    intro c member
    rw [List.mem_singleton.1 member]
    exact marks.1

theorem eq_slash_of_mem_leadOf {t : Text} {c : CodePoint} (h : c ∈ leadOf t) : c = slash := by
  have all : ∀ c ∈ t.takeWhile (· = slash), c = slash := fun c member => by
    simpa using List.all_eq_true.1 (List.all_takeWhile (l := t) (p := fun c => c = slash)) c member
  unfold leadOf at h
  dsimp only at h
  split at h
  · exact all c h
  · exact all c (List.mem_of_mem_take h)

/-! ## Names read off a text -/

theorem namesOf_slash_cons (t : Text) : namesOf (slash :: t) = namesOf t := by
  rw [namesOf, Text.cutAt, if_pos rfl]
  rfl

/-- The names of a path are read off its text. -/
theorem namesOf_text (path : Path) (lead : ∀ c ∈ path.lead, c = slash) (some : path.names ≠ [])
    (named : ∀ name ∈ path.names, name ≠ [] ∧ slash ∉ name) : namesOf path.text = path.names := by
  have drop : ∀ front : Text, (∀ c ∈ front, c = slash) → ∀ t, namesOf (front ++ t) = namesOf t := by
    intro front
    induction front with
    | nil => exact fun _ _ => rfl
    | cons c front ih =>
      intro slashes t
      obtain ⟨rfl, others⟩ := List.forall_mem_cons.1 slashes
      rw [List.cons_append, namesOf_slash_cons, ih others]
  have written : path.text = path.lead ++ Text.joined [slash] path.names := by
    rw [text, if_neg (by simp [some])]
  rw [written, drop _ lead]
  cases names : path.names with
  | nil => exact absurd names some
  | cons name rest =>
    rw [names] at named
    rw [namesOf, Text.cutAt_joined fun t member => (named t member).2, List.filter_eq_self]
    intro t member
    simp [(named t member).1]

theorem leadOf_ne_nil {t : Text} : leadOf t ≠ [] ↔ t.head? = some slash := by
  cases t with
  | nil => simp [leadOf]
  | cons c t =>
    by_cases same : c = slash
    · subst same
      simp only [leadOf, List.takeWhile_cons, decide_true, ↓reduceIte, List.head?_cons, iff_true]
      split <;> simp
    · simp [leadOf, same]

theorem child_text_eq (t name : Text) :
    ((ofText t).child name).text =
      leadOf t ++ Text.joined [slash] ((namesOf t).filter (· ≠ dot) ++ [name]) := by
  rw [text, if_neg (by simp [child])]
  rfl

theorem of_mem_namesOf {t name : Text} (member : name ∈ namesOf t) : name ≠ [] ∧ slash ∉ name := by
  obtain ⟨piece, some⟩ := List.mem_filter.1 member
  exact ⟨by simpa using some, Text.not_mem_of_mem_cutAt piece⟩

section Child

variable {t name : Text} (some : name ≠ []) (whole : slash ∉ name)

include some whole

theorem of_mem_names_child {kept : Text} (member : kept ∈ ((ofText t).child name).names) :
    kept ≠ [] ∧ slash ∉ kept := by
  rcases List.mem_append.1 member with front | last
  · exact of_mem_namesOf (List.mem_filter.1 front).1
  · rw [List.mem_singleton.1 last]
    exact ⟨some, whole⟩

theorem namesOf_child :
    namesOf ((ofText t).child name).text = (namesOf t).filter (· ≠ dot) ++ [name] :=
  namesOf_text ((ofText t).child name) (fun _ => eq_slash_of_mem_leadOf) (by simp [child])
    fun _ => of_mem_names_child some whole

theorem head?_child : ((ofText t).child name).text.head? = Option.some slash ↔
    t.head? = Option.some slash := by
  rw [child_text_eq, ← leadOf_ne_nil (t := t)]
  cases lead : leadOf t with
  | cons c rest =>
    have same : c = slash := eq_slash_of_mem_leadOf (t := t) (lead ▸ List.mem_cons_self ..)
    simp [same]
  | nil =>
    refine iff_of_false (fun h => ?_) (fun h => h rfl)
    obtain ⟨first, row, names⟩ : ∃ first row,
        (namesOf t).filter (· ≠ dot) ++ [name] = first :: row := by
      cases names : (namesOf t).filter (· ≠ dot) with
      | nil => exact ⟨name, [], rfl⟩
      | cons first row => exact ⟨first, _, rfl⟩
    have proper := of_mem_names_child (t := t) some whole
      (names ▸ List.mem_cons_self .. : first ∈ (namesOf t).filter (· ≠ dot) ++ [name])
    obtain ⟨back, begins⟩ := Text.joined_cons [slash] first row
    rw [names, begins, List.nil_append] at h
    cases first with
    | nil => exact proper.1 rfl
    | cons c rest =>
      cases h
      exact proper.2 (List.mem_cons_self ..)

theorem getLast?_child : ((ofText t).child name).text.getLast? ≠ Option.some slash := by
  obtain ⟨front, ends⟩ := Text.joined_concat [slash] name ((namesOf t).filter (· ≠ dot))
  rw [child_text_eq, ends, ← List.append_assoc, List.getLast?_append]
  cases last : name.getLast? with
  | none => exact absurd (List.getLast?_eq_none_iff.1 last) some
  | some c =>
    rw [Option.some_or]
    rintro ⟨⟩
    exact whole (List.mem_of_getLast? last)

end Child

/-- No system can be asked for the path, because of a NUL in it. -/
def HasNul (path : Path) : Prop :=
  CodePoint.ofNat 0 ∈ path.lead ∨ ∃ name ∈ path.names, CodePoint.ofNat 0 ∈ name

/-- An entry is asked for in vain just when its directory is, unless it is the name of the entry. -/
theorem nul_mem_child {path : Path} {name : Text} (free : CodePoint.ofNat 0 ∉ name) :
    CodePoint.ofNat 0 ∈ (path.child name).text ↔ path.HasNul := by
  constructor
  · intro member
    refine Classical.byContradiction fun none => ?_
    rw [HasNul, not_or, not_exists] at none
    refine forall_mem_text (p := (· ≠ CodePoint.ofNat 0)) ?_ ?_ (by decide) _ member rfl
    · rintro c lead rfl
      exact none.1 lead
    · rw [child, List.forall_mem_append]
      refine ⟨?_, ?_⟩
      · rintro kept member c held rfl
        exact none.2 kept ⟨member, held⟩
      · simp only [List.mem_singleton, forall_eq]
        rintro c held rfl
        exact free held
  · intro nul
    rw [text, if_neg (by simp [child])]
    rcases nul with lead | ⟨kept, member, held⟩
    · exact List.mem_append_left _ lead
    · exact List.mem_append_right _ (Text.mem_joined (List.mem_append_left _ member) held)

theorem not_hasNul_ofText {t : Text} (free : CodePoint.ofNat 0 ∉ t) : ¬ (ofText t).HasNul := by
  rintro (lead | ⟨name, member, held⟩)
  · have slashes := eq_slash_of_mem_leadOf lead
    exact absurd slashes (by decide)
  · refine forall_mem_namesOf (p := (· ≠ CodePoint.ofNat 0)) ?_ name (List.mem_filter.1 member).1
      _ held rfl
    rintro c here rfl
    exact free here

end StepReplay.Path
