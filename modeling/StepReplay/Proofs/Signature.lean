import Mathlib.Data.List.Basic
import Mathlib.Data.List.TakeWhile
import StepReplay.Proofs.Calldata
import StepReplay.Proofs.Text

set_option autoImplicit false

/-! # Signatures and their texts

A text is read as a signature by cutting it at its first parenthesis and at the commas behind it. A
signature is written by joining the same pieces, so its text is read as the signature again,
provided that the marks stand nowhere inside the pieces and that there is a name in front. One list
of types is left out, the one that holds nothing but an empty type, because its text is that of no
types at all. `parse_eq_ok` says both at once, and a call is therefore always encoded with the types
whose text has been hashed for it. -/

namespace StepReplay.Signature

/-- `s.Regular`: the marks in the text of a signature are the ones that join its parts. -/
structure Regular (s : Signature) : Prop where
  named : s.name ≠ []
  name : CodePoint.ofChar '(' ∉ s.name
  types : ∀ type ∈ s.types, CodePoint.ofChar ',' ∉ type
  /-- A single empty type leaves no mark. -/
  visible : s.types ≠ [[]]

/-- `Enclosed t`: a text has something in front of its first parenthesis, and ends with the other
one. -/
structure Enclosed (t : Text) : Prop where
  opened : ∃ name rest, t = name ++ CodePoint.ofChar '(' :: rest ∧ name ≠ [] ∧
    CodePoint.ofChar '(' ∉ name
  closed : t.getLast? = some (CodePoint.ofChar ')')

variable {t : Text} {s : Signature}

/-! ## Types -/

/-- Which types a text between parentheses stands for: none if it is empty, and otherwise the pieces
between its commas. -/
theorem types_eq_iff {inner : Text} {types : List Text} :
    types = (if inner.isEmpty then [] else Text.cutAt (CodePoint.ofChar ',') inner) ↔
      (∀ type ∈ types, CodePoint.ofChar ',' ∉ type) ∧ types ≠ [[]] ∧
        Text.joined [CodePoint.ofChar ','] types = inner := by
  constructor
  · intro same
    by_cases empty : inner = []
    · simp [same, empty, Text.joined]
    · have cut : types = Text.cutAt (CodePoint.ofChar ',') inner := by simp [same, empty]
      have whole : Text.joined [CodePoint.ofChar ','] types = inner := by
        rw [cut, Text.joined_cutAt]
      refine ⟨fun type member => Text.not_mem_of_mem_cutAt (cut ▸ member), ?_, whole⟩
      intro single
      rw [single] at whole
      exact empty whole.symm
  · rintro ⟨free, visible, rfl⟩
    cases types with
    | nil => rfl
    | cons type others =>
      have some : Text.joined [CodePoint.ofChar ','] (type :: others) ≠ [] := by
        intro nothing
        cases others with
        | nil => exact visible (congrArg (fun t => [t]) nothing)
        | cons next others => simp [Text.joined_cons_cons] at nothing
      rw [Text.cutAt_joined free]
      simp [some]

/-! ## Texts -/

theorem text_eq (s : Signature) :
    s.text = s.name ++ CodePoint.ofChar '(' ::
      (Text.joined [CodePoint.ofChar ','] s.types ++ [CodePoint.ofChar ')']) := by
  simp only [text, List.append_assoc]
  rfl

/-- Reading goes by the first parenthesis. -/
theorem parse_append {name rest : Text} (free : CodePoint.ofChar '(' ∉ name) :
    parse (name ++ CodePoint.ofChar '(' :: rest) =
      if name.isEmpty ∨ rest.getLast? ≠ some (CodePoint.ofChar ')') then
        .error (.malformedSignature (name ++ CodePoint.ofChar '(' :: rest))
      else
        .ok ⟨name, if rest.dropLast.isEmpty then []
          else Text.cutAt (CodePoint.ofChar ',') rest.dropLast⟩ := by
  have front :
      (name ++ CodePoint.ofChar '(' :: rest).takeWhile (· ≠ CodePoint.ofChar '(') = name := by
    rw [List.takeWhile_append_of_pos]
    · simp
    · intro c member
      simp only [decide_eq_true_eq]
      intro same
      exact free (same ▸ member)
  have back : (name ++ CodePoint.ofChar '(' :: rest).drop (name.length + 1) = rest := by
    rw [← List.drop_drop, List.drop_left]
    rfl
  rw [parse, front, back]

/-- A text without a parenthesis is no signature. -/
theorem parse_of_not_mem (free : CodePoint.ofChar '(' ∉ t) :
    parse t = .error (.malformedSignature t) := by
  have front : t.takeWhile (· ≠ CodePoint.ofChar '(') = t := by
    rw [List.takeWhile_eq_self_iff]
    intro c member
    simp only [decide_eq_true_eq]
    intro same
    exact free (same ▸ member)
  rw [parse, front, List.drop_eq_nil_of_le (Nat.le_succ _)]
  simp

/-- A text is cut at its first parenthesis, if it has one. -/
theorem exists_front (t : Text) : CodePoint.ofChar '(' ∉ t ∨
    ∃ name rest, t = name ++ CodePoint.ofChar '(' :: rest ∧ CodePoint.ofChar '(' ∉ name := by
  by_cases member : CodePoint.ofChar '(' ∈ t
  · obtain ⟨name, rest, whole, free⟩ := List.eq_append_cons_of_mem member
    exact .inr ⟨name, rest, whole, free⟩
  · exact .inl member

/-- What a text is read as is the one regular signature with that text. -/
theorem parse_eq_ok : parse t = .ok s ↔ s.Regular ∧ s.text = t := by
  constructor
  · intro read
    rcases exists_front t with free | ⟨name, rest, rfl, free⟩
    · simp [parse_of_not_mem free] at read
    · rw [parse_append free] at read
      split at read
      · cases read
      · rename_i fine
        simp only [not_or, ne_eq, not_not] at fine
        obtain ⟨named, closed⟩ := fine
        obtain rfl := Except.ok.inj read
        obtain ⟨types, visible, whole⟩ := types_eq_iff.1 (rfl :
          (if rest.dropLast.isEmpty then []
            else Text.cutAt (CodePoint.ofChar ',') rest.dropLast) = _)
        refine ⟨⟨by simpa using named, free, types, visible⟩, ?_⟩
        rw [text_eq, whole, List.dropLast_append_getLast? _ closed]
  · rintro ⟨regular, rfl⟩
    have types := types_eq_iff.2 ⟨regular.types, regular.visible, rfl⟩
    rw [text_eq, parse_append regular.name, if_neg (by simp [regular.named])]
    rw [List.dropLast_concat, ← types]

/-- The text of a single empty type is read as that of none. -/
example : parse (text ⟨"reset", [""]⟩) = .ok ⟨"reset", []⟩ := rfl

/-- The end of a text lies behind its first parenthesis. -/
theorem closed_iff {name rest : Text} :
    (name ++ CodePoint.ofChar '(' :: rest).getLast? = some (CodePoint.ofChar ')') ↔
      rest.getLast? = some (CodePoint.ofChar ')') := by
  have other : CodePoint.ofChar '(' ≠ CodePoint.ofChar ')' := by decide
  rw [List.getLast?_append, List.getLast?_cons, Option.some_or]
  cases rest.getLast? with
  | none => simp [other]
  | some c => rfl

/-- The texts that are read are those that are enclosed. -/
theorem exists_parse_iff : (∃ s, parse t = .ok s) ↔ Enclosed t := by
  constructor
  · rintro ⟨s, read⟩
    obtain ⟨regular, rfl⟩ := parse_eq_ok.1 read
    rw [text_eq]
    refine ⟨⟨_, _, rfl, regular.named, regular.name⟩, ?_⟩
    rw [closed_iff, List.getLast?_concat]
  · rintro ⟨⟨name, rest, rfl, named, free⟩, closed⟩
    rw [parse_append free, if_neg (by simp [named, closed_iff.1 closed])]
    exact ⟨_, rfl⟩

/-- A text that is not enclosed is refused as it is. -/
theorem parse_of_not_enclosed (loose : ¬ Enclosed t) :
    parse t = .error (.malformedSignature t) := by
  have refused : ∀ s, parse t ≠ .ok s := fun s read => loose (exists_parse_iff.1 ⟨s, read⟩)
  unfold parse at refused ⊢
  dsimp only at refused ⊢
  split at refused
  · rename_i malformed
    rw [if_pos malformed]
  · exact absurd rfl (refused _)

/-- Texts that stand for a signature and regular signatures correspond to one another: a text is
read as a signature just when that signature is regular and has this text. Read are exactly the
enclosed texts, and all others are refused as they are. So the types that the arguments of a call
are encoded with are those whose text is hashed into the first four bytes of the call, and no other
regular signature has that text. -/
theorem parse_inverse :
    (∀ t, (∃ s, parse t = .ok s) ↔ Enclosed t) ∧
    (∀ t, ¬ Enclosed t → parse t = .error (.malformedSignature t)) ∧
    (∀ t s, parse t = .ok s ↔ s.Regular ∧ s.text = t) ∧
    ∀ (t : Text) (arguments : List Argument) (calldata : Bytes),
      Calldata.encodeCall t arguments = .ok calldata →
        ∃ s front encoded, s.Regular ∧ s.text = t ∧
          (∀ s' : Signature, s'.Regular → s'.text = t → s' = s) ∧
          selector s.text = .ok front ∧
          Calldata.encodeArguments s.types arguments = .ok encoded ∧
          calldata = front ++ encoded := by
  refine ⟨fun t => exists_parse_iff, fun t => parse_of_not_enclosed, fun t s => parse_eq_ok, ?_⟩
  intro t arguments calldata called
  obtain ⟨s, front, encoded, read, hashed, filled, joined⟩ := Calldata.encodeCall_eq_ok.1 called
  obtain ⟨regular, written⟩ := parse_eq_ok.1 read
  refine ⟨s, front, encoded, regular, written, ?_, written ▸ hashed, filled, joined.symm⟩
  intro s' regular' written'
  have read' := parse_eq_ok.2 ⟨regular', written'⟩
  exact Except.ok.inj (read'.symm.trans read)

/-- Without a parenthesis a text is refused. One in a name that closes nothing does no harm. -/
theorem parse_inverse_stray :
    parse "step" = .error (.malformedSignature "step") ∧
    ∃ front encoded, selector "a)b(uint256,bytes32)" = .ok front ∧
      Calldata.encodeArguments ["uint256", "bytes32"] [.int 7, .bytes [1]] = .ok encoded ∧
      Calldata.encodeCall "a)b(uint256,bytes32)" [.int 7, .bytes [1]] = .ok (front ++ encoded) := by
  have loose : ¬ Enclosed "step" := fun enclosed => absurd enclosed.closed (by decide)
  have encodable :
      (Calldata.encodeCall "a)b(uint256,bytes32)" [.int 7, .bytes [1]]).isOk = true := by
    decide +kernel
  refine ⟨parse_inverse.2.1 _ loose, ?_⟩
  cases called : Calldata.encodeCall "a)b(uint256,bytes32)" [.int 7, .bytes [1]] with
  | error e =>
    rw [called] at encodable
    cases encodable
  | ok calldata =>
    obtain ⟨s, front, encoded, -, written, only, hashed, filled, rfl⟩ :=
      parse_inverse.2.2.2 _ _ _ called
    have regular : Regular ⟨"a)b", ["uint256", "bytes32"]⟩ := by
      constructor <;> decide
    have same : (⟨"a)b", ["uint256", "bytes32"]⟩ : Signature) = s := only _ regular rfl
    rw [written] at hashed
    rw [← same] at filled
    exact ⟨front, encoded, hashed, filled, rfl⟩

end StepReplay.Signature
