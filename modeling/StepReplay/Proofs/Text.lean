import StepReplay.Text

set_option autoImplicit false

/-! # Texts cut and joined

What a text is cut into holds nothing but what the text held, and what is joined nothing but what
the pieces and the separators held. Pieces without the mark that joins them are cut apart again, and
what was cut at a mark is joined by it again. -/

namespace StepReplay.Text

variable {p : CodePoint → Prop} {mark : CodePoint}

theorem joined_cons_cons (separator s t : Text) (row : List Text) :
    joined separator (s :: t :: row) = s ++ separator ++ joined separator (t :: row) :=
  rfl

/-- A joined row begins with its first piece and ends with its last one. -/
theorem joined_cons (separator t : Text) (row : List Text) :
    ∃ back, joined separator (t :: row) = t ++ back := by
  cases row with
  | nil => exact ⟨[], (List.append_nil t).symm⟩
  | cons next row => exact ⟨_, List.append_assoc ..⟩

theorem joined_concat (separator t : Text) (row : List Text) :
    ∃ front, joined separator (row ++ [t]) = front ++ t := by
  induction row with
  | nil => exact ⟨[], rfl⟩
  | cons first row ih =>
    obtain ⟨front, rest⟩ := ih
    refine ⟨first ++ separator ++ front, ?_⟩
    rw [List.append_assoc, ← rest]
    cases row <;> rfl

theorem forall_mem_joined {separator : Text} {row : List Text} (between : ∀ c ∈ separator, p c)
    (each : ∀ t ∈ row, ∀ c ∈ t, p c) : ∀ c ∈ joined separator row, p c := by
  induction row with
  | nil => simp [joined]
  | cons t row ih =>
    obtain ⟨here, others⟩ := List.forall_mem_cons.1 each
    cases row with
    | nil => exact here
    | cons next row =>
      rw [joined_cons_cons]
      exact List.forall_mem_append.2 ⟨List.forall_mem_append.2 ⟨here, between⟩, ih others⟩

theorem mem_joined {separator t : Text} {row : List Text} (here : t ∈ row) {c : CodePoint}
    (held : c ∈ t) : c ∈ joined separator row := by
  induction row with
  | nil => cases here
  | cons first row ih =>
    cases row with
    | nil =>
      rw [List.mem_singleton.1 here] at held
      exact held
    | cons next row =>
      rw [joined_cons_cons]
      rcases List.mem_cons.1 here with rfl | later
      · exact List.mem_append_left _ (List.mem_append_left _ held)
      · exact List.mem_append_right _ (ih later)

theorem forall_mem_cutAt {t : Text} (all : ∀ c ∈ t, p c) :
    ∀ piece ∈ cutAt mark t, ∀ c ∈ piece, p c := by
  induction t with
  | nil => simp [cutAt]
  | cons c t ih =>
    obtain ⟨here, others⟩ := List.forall_mem_cons.1 all
    have pieces := ih others
    unfold cutAt
    split
    · exact List.forall_mem_cons.2 ⟨by simp, pieces⟩
    · split
      · rename_i first rest cut
        rw [cut, List.forall_mem_cons] at pieces
        exact List.forall_mem_cons.2 ⟨List.forall_mem_cons.2 ⟨here, pieces.1⟩, pieces.2⟩
      · simpa using here

theorem not_mem_of_mem_cutAt {t piece : Text} (h : piece ∈ cutAt mark t) : mark ∉ piece := by
  induction t generalizing piece with
  | nil => simp [List.mem_singleton.1 h]
  | cons c t ih =>
    unfold cutAt at h
    split at h
    · rcases List.mem_cons.1 h with rfl | later
      · exact List.not_mem_nil
      · exact ih later
    · rename_i other
      split at h
      · rename_i first rest cut
        rw [cut] at ih
        rcases List.mem_cons.1 h with rfl | later
        · rw [List.mem_cons, not_or]
          exact ⟨Ne.symm other, ih (List.mem_cons_self ..)⟩
        · exact ih (List.mem_cons_of_mem _ later)
      · simpa [List.mem_singleton.1 h] using Ne.symm other

theorem cutAt_joined {t : Text} {row : List Text} (whole : ∀ piece ∈ t :: row, mark ∉ piece) :
    cutAt mark (joined [mark] (t :: row)) = t :: row := by
  induction row generalizing t with
  | nil => exact cutAt_of_not_mem (whole t (List.mem_singleton_self t))
  | cons next row ih =>
    obtain ⟨here, others⟩ := List.forall_mem_cons.1 whole
    rw [joined_cons_cons, List.append_assoc, List.singleton_append, cutAt_append_mark,
      cutAt_of_not_mem here, ih others]
    rfl

/-- The pieces of a text, joined at the mark that it was cut at, are the text again. -/
theorem joined_cutAt (mark : CodePoint) (t : Text) : joined [mark] (cutAt mark t) = t := by
  induction t with
  | nil => rfl
  | cons c rest ih =>
    obtain ⟨piece, pieces, cut⟩ := List.exists_cons_of_ne_nil (cutAt_ne_nil mark rest)
    by_cases same : c = mark
    · rw [cutAt, if_pos same, cut, joined_cons_cons, ← cut, ih, same]
      rfl
    · rw [cut] at ih
      rw [cutAt, if_neg same, cut, ← ih]
      cases pieces <;> rfl

end StepReplay.Text
