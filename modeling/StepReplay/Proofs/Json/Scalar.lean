import Mathlib.Data.List.Chain
import Mathlib.Data.List.TakeDrop
import StepReplay.Json.Printer
import StepReplay.Json.Reader
import StepReplay.Proofs.Hex

set_option autoImplicit false

/-! # Strings and numbers of a document read back

A string is read one escape at a time. What the reader holds back is a first half of a surrogate
pair, because the next escape may be its second half; so two halves that stand next to each other
in a text come back as one code point, and a text in which they do not (`Unpaired`) comes back as
it was. Text that is not escaped has no such trouble, whatever it holds.

A number ends where the text behind it says so (`Stops`), and the separators of a document all do. -/

namespace StepReplay.Json

/-! ## Escapes -/

theorem unit?_digits {n : Nat} (h : n < 0x10000) :
    ∃ a b c d, Hex.ofNat 4 n = [a, b, c, d] ∧ unit? a b c d = some n := by
  refine ⟨Hex.ofDigit (n / 16 / 16 / 16 % 16), Hex.ofDigit (n / 16 / 16 % 16),
    Hex.ofDigit (n / 16 % 16), Hex.ofDigit (n % 16), rfl, ?_⟩
  have whole : ((n / 16 / 16 / 16 % 16 * 16 + n / 16 / 16 % 16) * 16 + n / 16 % 16) * 16 + n % 16
      = n := by omega
  simp only [unit?, Hex.digit?_ofDigit _ (Nat.mod_lt _ (show 0 < 16 by decide)),
    Option.bind_eq_bind, Option.bind_some, whole]
  rfl

theorem stringOnto_unit (held : Held) {n : Nat} (h : n < 0x10000) (rest : Text) :
    stringOnto held (escapeUnit n ++ rest) = stringOnto (held.pushUnit n) rest := by
  obtain ⟨a, b, c, d, digits, unit⟩ := unit?_digits h
  have text : escapeUnit n ++ rest =
      CodePoint.ofChar '\\' :: CodePoint.ofChar 'u' :: a :: b :: c :: d :: rest := by
    rw [escapeUnit, digits]
    rfl
  rw [text, stringOnto, if_neg (by decide), if_pos rfl, if_pos rfl, unit]

theorem stringOnto_letter (held : Held) {e c : CodePoint} (h : escapeOf? e = some c) (rest : Text) :
    stringOnto held (CodePoint.ofChar '\\' :: e :: rest) = stringOnto (held.push c) rest := by
  have letter : e ≠ CodePoint.ofChar 'u' := by
    rintro rfl
    cases h
  rw [stringOnto.eq_def]
  dsimp only
  rw [if_neg (by decide), if_pos rfl, if_neg letter, h]

theorem stringOnto_plain (held : Held) {c : CodePoint} (quote : c ≠ CodePoint.ofChar '"')
    (backslash : c ≠ CodePoint.ofChar '\\') (visible : ¬ c.val < 0x20) (rest : Text) :
    stringOnto held (c :: rest) = stringOnto (held.push c) rest := by
  rw [stringOnto.eq_def]
  dsimp only
  rw [if_neg quote, if_neg backslash, if_neg visible]

/-! ## Halves of surrogate pairs -/

/-- `b` does not complete a surrogate pair that `a` begins. -/
def Apart (a b : CodePoint) : Prop :=
  isHighSurrogate a.val = true → isLowSurrogate b.val = false

/-- No first half of a surrogate pair stands right before a second half. -/
def Unpaired (t : Text) : Prop :=
  t.IsChain Apart

theorem val_ofNat {n : Nat} (h : n < 0x110000) : (CodePoint.ofNat n).val = n :=
  Nat.mod_eq_of_lt h

theorem ofNat_val (c : CodePoint) : CodePoint.ofNat c.val = c :=
  Fin.ext (val_ofNat c.isLt)

namespace Held

/-- What is held back is a first half. -/
def Sound (h : Held) : Prop :=
  ∀ n, h.high = some n → isHighSurrogate n = true

theorem sound_push (h : Held) (c : CodePoint) : (h.push c).Sound := by
  rintro n ⟨⟩

theorem pushUnit_high (h : Held) {n : Nat} (half : isHighSurrogate n = true) :
    h.pushUnit n = ⟨h.all, some n⟩ := by
  have other : isLowSurrogate n = false := by
    rw [isHighSurrogate, Bool.and_eq_true, decide_eq_true_eq, decide_eq_true_eq] at half
    rw [isLowSurrogate, Bool.and_eq_false_iff, decide_eq_false_iff_not]
    exact .inl (by omega)
  unfold pushUnit all
  cases h.high <;> simp [half, other]

/-- A unit that completes no pair is one code point more. -/
theorem all_pushUnit {h : Held} {n : Nat} (apart : h.high.isSome = true → isLowSurrogate n = false) :
    (h.pushUnit n).all = CodePoint.ofNat n :: h.all := by
  cases half : isHighSurrogate n with
  | true =>
    rw [pushUnit_high h half]
    rfl
  | false =>
    unfold pushUnit
    cases held : h.high with
    | none => simp [half, push, all]
    | some high => simp [half, apart (by rw [held]; rfl), push, all]

theorem high_pushUnit {h : Held} {n : Nat} (apart : h.high.isSome = true → isLowSurrogate n = false)
    {m : Nat} (back : (h.pushUnit n).high = some m) : m = n ∧ isHighSurrogate n = true := by
  cases half : isHighSurrogate n with
  | true =>
    rw [pushUnit_high h half] at back
    exact ⟨(Option.some.inj back).symm, rfl⟩
  | false =>
    unfold pushUnit at back
    cases held : h.high with
    | none => simp [held, half, push] at back
    | some high => simp [held, half, apart (by rw [held]; rfl), push] at back

end Held

/-- The two units of a code point beyond U+FFFF are read as that code point. -/
theorem stringOnto_units (held : Held) {c : CodePoint} (beyond : 0x10000 ≤ c.val) (rest : Text) :
    stringOnto held (escapeUnit (0xD800 + (c.val - 0x10000) / 0x400)
        ++ escapeUnit (0xDC00 + (c.val - 0x10000) % 0x400) ++ rest) =
      stringOnto (held.push c) rest := by
  have bound := c.isLt
  have high : isHighSurrogate (0xD800 + (c.val - 0x10000) / 0x400) = true := by
    rw [isHighSurrogate, Bool.and_eq_true, decide_eq_true_eq, decide_eq_true_eq]
    omega
  have low : isLowSurrogate (0xDC00 + (c.val - 0x10000) % 0x400) = true := by
    rw [isLowSurrogate, Bool.and_eq_true, decide_eq_true_eq, decide_eq_true_eq]
    omega
  have joined : joinedHalves (0xD800 + (c.val - 0x10000) / 0x400)
      (0xDC00 + (c.val - 0x10000) % 0x400) = c := by
    have whole : 0x10000 + (0xD800 + (c.val - 0x10000) / 0x400 - 0xD800) * 0x400
        + (0xDC00 + (c.val - 0x10000) % 0x400 - 0xDC00) = c.val := by omega
    rw [joinedHalves, whole, ofNat_val]
  rw [List.append_assoc, stringOnto_unit held (by omega), stringOnto_unit _ (by omega),
    Held.pushUnit_high held high]
  simp only [Held.pushUnit, low, ↓reduceIte, joined]
  rfl

/-! ## Strings -/

/-- The written form of a code point is read as that code point, unless it completes a pair. -/
theorem stringOnto_escape {ascii : Bool} {held : Held} {c : CodePoint}
    (apart : ascii = true → held.high.isSome = true → isLowSurrogate c.val = false) (rest : Text) :
    ∃ held', stringOnto held (escape ascii c ++ rest) = stringOnto held' rest ∧
      held'.all = c :: held.all ∧ held'.Sound ∧ ∀ n, held'.high = some n → n = c.val := by
  have pushed {text : Text} (h : stringOnto held text = stringOnto (held.push c) rest) :
      ∃ held', stringOnto held text = stringOnto held' rest ∧
        held'.all = c :: held.all ∧ held'.Sound ∧ ∀ n, held'.high = some n → n = c.val := by
    refine ⟨held.push c, h, rfl, held.sound_push c, ?_⟩
    rintro n ⟨⟩
  have named {e : Char} (letter : escapeOf? (CodePoint.ofChar e) = some c) :
      ∃ held', stringOnto held ([CodePoint.ofChar '\\', CodePoint.ofChar e] ++ rest) =
        stringOnto held' rest ∧ held'.all = c :: held.all ∧ held'.Sound ∧
          ∀ n, held'.high = some n → n = c.val :=
    pushed (stringOnto_letter held letter rest)
  -- the cases of writing: a backslash and the code point, a letter, a number, nothing
  unfold escape
  split
  · rename_i same
    refine pushed (stringOnto_letter held ?_ rest)
    rw [escapeOf?, if_pos (by rcases same with rfl | rfl <;> simp)]
  rename_i plain
  rw [not_or] at plain
  split
  · rename_i value
    exact named (e := 'b') (congrArg some (Fin.ext value.symm))
  split
  · rename_i value
    exact named (e := 'f') (congrArg some (Fin.ext value.symm))
  split
  · rename_i value
    exact named (e := 'n') (congrArg some (Fin.ext value.symm))
  split
  · rename_i value
    exact named (e := 'r') (congrArg some (Fin.ext value.symm))
  split
  · rename_i value
    exact named (e := 't') (congrArg some (Fin.ext value.symm))
  split
  · rename_i numbered
    unfold escapePoint
    split
    · rename_i narrow
      have alone : held.high.isSome = true → isLowSurrogate c.val = false := by
        intro back
        rcases numbered with control | ⟨strict, -⟩
        · rw [isLowSurrogate, Bool.and_eq_false_iff, decide_eq_false_iff_not]
          exact .inl (by omega)
        · exact apart strict back
      refine ⟨held.pushUnit c.val, stringOnto_unit held narrow rest, ?_, ?_, ?_⟩
      · rw [Held.all_pushUnit alone, ofNat_val]
      · intro n back
        obtain ⟨rfl, half⟩ := Held.high_pushUnit alone back
        exact half
      · exact fun n back => (Held.high_pushUnit alone back).1
    · rename_i wide
      exact pushed (stringOnto_units held (by omega) rest)
  · rename_i visible
    rw [not_or] at visible
    exact pushed (stringOnto_plain held plain.1 plain.2 visible.1 rest)

/-- A text is read as it was written, up to its closing quote. -/
theorem stringOnto_escapes {ascii : Bool} {t : Text} {held : Held} (sound : held.Sound)
    (apart : ascii = true → (held.high.toList.map CodePoint.ofNat ++ t).IsChain Apart)
    (rest : Text) :
    stringOnto held (t.flatMap (escape ascii) ++ CodePoint.ofChar '"' :: rest) =
      .ok (held.all.reverse ++ t, rest) := by
  induction t generalizing held with
  | nil =>
    rw [List.flatMap_nil, List.nil_append, List.append_nil]
    unfold stringOnto
    rfl
  | cons c t ih =>
    have alone : ascii = true → held.high.isSome = true → isLowSurrogate c.val = false := by
      intro strict back
      obtain ⟨n, high⟩ := Option.isSome_iff_exists.1 back
      have chain := apart strict
      rw [high] at chain
      have half := sound n high
      have small : n < 0x110000 := by
        rw [isHighSurrogate, Bool.and_eq_true, decide_eq_true_eq, decide_eq_true_eq] at half
        omega
      refine (List.isChain_cons_cons.1 chain).1 ?_
      rwa [val_ofNat small]
    obtain ⟨held', read, all, sound', last⟩ :=
      stringOnto_escape alone (t.flatMap (escape ascii) ++ CodePoint.ofChar '"' :: rest)
    rw [List.flatMap_cons, List.append_assoc, read, ih sound', all, List.reverse_cons,
      List.append_assoc, List.singleton_append]
    intro strict
    have chain : (c :: t).IsChain Apart := (List.isChain_append.1 (apart strict)).2.1
    cases high : held'.high with
    | none => exact chain.tail
    | some n =>
      rw [last n high]
      simpa [ofNat_val] using chain

theorem readString_escapes {ascii : Bool} {t : Text} (apart : ascii = true → Unpaired t)
    (rest : Text) :
    readString (t.flatMap (escape ascii) ++ CodePoint.ofChar '"' :: rest) = .ok (t, rest) :=
  stringOnto_escapes (by rintro n ⟨⟩) apart rest

end StepReplay.Json

/-! ## Numerals -/

namespace StepReplay.Decimal

theorem digit?_ofDigit : ∀ d < 10, (CodePoint.ofDigit d).digit? = some d := by decide

theorem digit?_of_mem_ofNat {n : Nat} {c : CodePoint} (h : c ∈ ofNat n) :
    c.digit?.isSome = true := by
  induction n using ofNat.induct with
  | case1 n small =>
    rw [ofNat, if_pos small, List.mem_singleton] at h
    rw [h, digit?_ofDigit n small]
    rfl
  | case2 n large ih =>
    rw [ofNat, if_neg large, List.mem_append, List.mem_singleton] at h
    rcases h with front | last
    · exact ih front
    · rw [last, digit?_ofDigit _ (Nat.mod_lt n (by decide))]
      rfl

theorem ofNat_ne_nil (n : Nat) : ofNat n ≠ [] := by
  rw [ofNat]
  split
  · exact List.cons_ne_nil _ _
  · exact List.append_ne_nil_of_right_ne_nil _ (List.cons_ne_nil _ _)

theorem readFrom_concat {acc n d : Nat} {t : Text} {c : CodePoint} (front : readFrom acc t = some n)
    (last : c.digit? = some d) : readFrom acc (t ++ [c]) = some (n * 10 + d) := by
  induction t generalizing acc with
  | nil =>
    cases front
    simp [readFrom, last]
  | cons first t ih =>
    rw [readFrom] at front
    rw [List.cons_append, readFrom]
    cases digit : first.digit? with
    | none =>
      rw [digit] at front
      cases front
    | some e =>
      rw [digit] at front
      exact ih front

theorem read?_ofNat (n : Nat) : read? (ofNat n) = some n := by
  have value : readFrom 0 (ofNat n) = some n := by
    induction n using ofNat.induct with
    | case1 n small =>
      rw [ofNat, if_pos small, readFrom, digit?_ofDigit n small]
      simp [readFrom]
    | case2 n large ih =>
      rw [ofNat, if_neg large, readFrom_concat ih (digit?_ofDigit _ (Nat.mod_lt n (by decide)))]
      congr 1
      omega
  rw [read?, if_neg (by simp [ofNat_ne_nil]), value]

/-- Only zero is written with a zero in front. -/
theorem head?_ofNat {n : Nat} (h : (ofNat n).head? = some (CodePoint.ofChar '0')) : n = 0 := by
  induction n using ofNat.induct with
  | case1 n small =>
    rw [ofNat, if_pos small, List.head?_cons, Option.some.injEq] at h
    have zero : ∀ d < 10, CodePoint.ofDigit d = CodePoint.ofChar '0' → d = 0 := by decide
    exact zero n small h
  | case2 n large ih =>
    rw [ofNat, if_neg large, List.head?_append_of_ne_nil _ (ofNat_ne_nil _)] at h
    have := ih h
    omega

end StepReplay.Decimal

namespace StepReplay.Json

/-! ## Numbers -/

/-- A number that ends where a text begins goes no further. -/
def Stops (t : Text) : Prop :=
  ∀ c, t.head? = some c → isDigit c = false ∧ c ≠ CodePoint.ofChar '.' ∧ c ≠ CodePoint.ofChar 'e' ∧
    c ≠ CodePoint.ofChar 'E'

namespace Stops

variable {rest : Text}

theorem digits_append {row : Text} (stops : Stops rest) (all : ∀ c ∈ row, isDigit c = true) :
    digits (row ++ rest) = (row, rest) := by
  have none : rest.takeWhile isDigit = [] ∧ rest.dropWhile isDigit = rest := by
    cases rest with
    | nil => exact ⟨rfl, rfl⟩
    | cons c rest => simp [(stops c rfl).1]
  rw [digits, List.span_eq_takeWhile_dropWhile, List.takeWhile_append_of_pos all,
    List.dropWhile_append_of_pos all, none.1, none.2, List.append_nil]

theorem fraction_eq_none (stops : Stops rest) : fraction rest = none := by
  cases rest with
  | nil => rfl
  | cons c rest => rw [fraction, if_neg (stops c rfl).2.1]

theorem power_eq_none (stops : Stops rest) : power rest = none := by
  cases rest with
  | nil => rfl
  | cons c rest => rw [power, if_neg (not_or.2 (stops c rfl).2.2)]

end Stops

theorem readNumber_ofNat (negative : Bool) {n : Nat} (few : (Decimal.ofNat n).length ≤ digitLimit)
    {rest : Text} (stops : Stops rest) :
    readNumber negative (Decimal.ofNat n ++ rest) =
      .ok (.int (if negative then -(n : Int) else n), rest) := by
  have row : digits (Decimal.ofNat n ++ rest) = (Decimal.ofNat n, rest) :=
    stops.digits_append fun c => Decimal.digit?_of_mem_ofNat
  -- a zero in front ends the whole part, but only zero itself has one
  have whole : (if (Decimal.ofNat n).head? = some (CodePoint.ofChar '0') then
      ((Decimal.ofNat n).take 1, (Decimal.ofNat n).drop 1 ++ rest) else (Decimal.ofNat n, rest)) =
      (Decimal.ofNat n, rest) := by
    split
    · rename_i zero
      rw [Decimal.head?_ofNat zero, Decimal.ofNat, if_pos (by decide)]
      rfl
    · rfl
  have some : (Decimal.ofNat n).isEmpty = false := by simp [Decimal.ofNat_ne_nil]
  simp only [readNumber, row, whole, some, stops.fraction_eq_none, Option.getD_none,
    stops.power_eq_none, Decimal.read?_ofNat, Option.getD_some]
  simp [Nat.not_lt.2 few]

/-- No word begins like a numeral. -/
theorem readWord?_of_digit {c : CodePoint} (digit : isDigit c = true) (rest : Text) :
    readWord? (c :: rest) = none ∧ readWord? (CodePoint.ofChar '-' :: c :: rest) = none := by
  have other {a : Char} (h : isDigit (CodePoint.ofChar a) = false) : CodePoint.ofChar a ≠ c := by
    rintro rfl
    rw [digit] at h
    cases h
  -- the first letters of the words and, for words that might follow a minus, the second ones
  have first : CodePoint.ofChar 'n' ≠ c ∧ CodePoint.ofChar 't' ≠ c ∧ CodePoint.ofChar 'f' ≠ c ∧
      CodePoint.ofChar 'N' ≠ c ∧ CodePoint.ofChar 'I' ≠ c ∧ CodePoint.ofChar '-' ≠ c :=
    ⟨other rfl, other rfl, other rfl, other rfl, other rfl, other rfl⟩
  have second : CodePoint.ofChar 'u' ≠ c ∧ CodePoint.ofChar 'r' ≠ c ∧ CodePoint.ofChar 'a' ≠ c :=
    ⟨other rfl, other rfl, other rfl⟩
  simp [readWord?, words, afterWord?, Text.ofString, first, second]

/-- An integer is read as it was written, up to where it stops. -/
theorem readScalar_ofInt {n : Int} (few : (Decimal.ofNat n.natAbs).length ≤ digitLimit)
    {rest : Text} (stops : Stops rest) :
    readScalar (Decimal.ofInt n ++ rest) = .ok (.int n, rest) := by
  -- the digits are what `readNumber_ofNat` reads, whether or not a minus stands in front
  have numeral (m : Nat) : ∃ c row, Decimal.ofNat m ++ rest = c :: row ∧ isDigit c = true := by
    cases digits : Decimal.ofNat m with
    | nil => exact absurd digits (Decimal.ofNat_ne_nil m)
    | cons c row =>
      refine ⟨c, row ++ rest, rfl, Decimal.digit?_of_mem_ofNat (n := m) ?_⟩
      rw [digits]
      exact List.mem_cons_self ..
  cases n with
  | ofNat m =>
    obtain ⟨c, row, text, digit⟩ := numeral m
    have number := readNumber_ofNat (n := m) false few stops
    have sign : c ≠ CodePoint.ofChar '-' := by
      rintro rfl
      cases digit
    rw [text] at number
    rw [Decimal.ofInt, text, readScalar, (readWord?_of_digit digit row).1]
    dsimp only
    rw [if_neg sign, number]
    rfl
  | negSucc m =>
    obtain ⟨c, row, text, digit⟩ := numeral (m + 1)
    have number := readNumber_ofNat true few stops
    rw [Int.natAbs_negSucc, text] at number
    have minus : Decimal.ofInt (.negSucc m) ++ rest = CodePoint.ofChar '-' :: c :: row := by
      rw [Decimal.ofInt, List.append_assoc, text]
      rfl
    rw [minus, readScalar, (readWord?_of_digit digit row).2]
    dsimp only
    rw [if_pos rfl, number]
    rfl

end StepReplay.Json
