set_option autoImplicit false

/-! # Text as code points

A fixture file may name one half of a surrogate pair by a JSON escape, and such a half is no
`Char`. Text that comes from outside is therefore a list of code points: lengths, slices and the
order of names all count code points, so a list of them is also the shape those rules are stated
on. Fixed wording stays a `String` literal and is read as text by a coercion. -/

namespace StepReplay

/-- A Unicode code point, surrogates included. -/
abbrev CodePoint := Fin 0x110000

/-- A sequence of code points. -/
abbrev Text := List CodePoint

namespace CodePoint

/-- The code point of a character. -/
def ofChar (c : Char) : CodePoint :=
  ⟨c.toNat, by
    have h := c.valid
    simp only [UInt32.isValidChar, Nat.isValidChar] at h
    simp only [Char.toNat]
    omega⟩

/-- Surrogates are the code points that stand for no character on their own. -/
def isSurrogate (c : CodePoint) : Bool :=
  0xD800 ≤ c.val && c.val ≤ 0xDFFF

/-- The character at a code point; a surrogate is shown as the replacement character. -/
def toChar (c : CodePoint) : Char :=
  if c.isSurrogate then '\uFFFD' else Char.ofNat c.val

/-- The code point with a number, which callers keep below the bound. -/
def ofNat (n : Nat) : CodePoint :=
  Fin.ofNat 0x110000 n

end CodePoint

namespace Text

/-- The code points of a string. -/
def ofString (s : String) : Text :=
  s.toList.map CodePoint.ofChar

instance : Coe String Text := ⟨ofString⟩

/-- The text as a string, for showing it. -/
def toString (t : Text) : String :=
  String.ofList (t.map CodePoint.toChar)

/-- Texts are ordered by code points, a proper beginning first. -/
def precedes : Text → Text → Bool
  | [], _ => true
  | _ :: _, [] => false
  | a :: s, b :: t => a.val < b.val || (a.val == b.val && precedes s t)

/-- Texts joined with a separator between neighbours. -/
def joined (separator : Text) : List Text → Text
  | [] => []
  | [t] => t
  | t :: rest => t ++ separator ++ joined separator rest

/-- The text cut at every occurrence of a code point: always one piece more than occurrences. -/
def cutAt (mark : CodePoint) : Text → List Text
  | [] => [[]]
  | c :: rest =>
    if c = mark then [] :: cutAt mark rest
    else match cutAt mark rest with
      | piece :: pieces => (c :: piece) :: pieces
      | [] => [[c]]

theorem cutAt_ne_nil (mark : CodePoint) (t : Text) : cutAt mark t ≠ [] := by
  cases t with
  | nil => exact List.cons_ne_nil _ _
  | cons c rest =>
    unfold cutAt
    split
    · exact List.cons_ne_nil _ _
    · split <;> exact List.cons_ne_nil _ _

theorem cutAt_append_mark (mark : CodePoint) (s t : Text) :
    cutAt mark (s ++ mark :: t) = cutAt mark s ++ cutAt mark t := by
  induction s with
  | nil => simp [cutAt]
  | cons c rest ih =>
    rw [List.cons_append, cutAt, cutAt, ih]
    split
    · rfl
    · cases pieces : cutAt mark rest with
      | nil => exact absurd pieces (cutAt_ne_nil mark rest)
      | cons piece pieces => rfl

theorem cutAt_of_not_mem {mark : CodePoint} {t : Text} (h : mark ∉ t) : cutAt mark t = [t] := by
  induction t with
  | nil => rfl
  | cons c rest ih =>
    rw [List.mem_cons, not_or] at h
    rw [cutAt, if_neg (Ne.symm h.1), ih h.2]

/-- Whether a text ends with another. -/
def endsWith (t ending : Text) : Bool :=
  ending.reverse.isPrefixOf t.reverse

end Text

end StepReplay
