import Mathlib.Data.List.TakeWhile
import StepReplay.Proofs.Except
import StepReplay.Proofs.Hex

set_option autoImplicit false

/-! # The grammar of hex text

A hex text is a row of digits, two for each byte, that may stand behind one mark, and blanks may
stand around both but not between them. `Spells` says that in terms of the whole text, without a
word on how it is read, and each text spells exactly one row. A row is accepted if it is made of
pairs of digits; its bytes are then the ones whose lowercase row it is, up to the case of its
letters (`decode?_eq_some`). So reading loses nothing but blanks, mark and case. -/

namespace StepReplay

/-- The small letter of a Latin capital; any other code point stays. -/
def CodePoint.lowercase (c : CodePoint) : CodePoint :=
  if 0x41 ≤ c.val ∧ c.val ≤ 0x5A then CodePoint.ofNat (c.val + 0x20) else c

/-- The text with small letters for Latin capitals. -/
def Text.lowercase (t : Text) : Text :=
  t.map CodePoint.lowercase

/-! ## Rows of digits -/

namespace Hex

/-- The hex digits of either case. -/
def alphabet : Text := "0123456789abcdefABCDEF"

/-- A row of digits that makes whole bytes. -/
structure Paired (t : Text) : Prop where
  even : t.length % 2 = 0
  digits : ∀ c ∈ t, c ∈ alphabet

theorem mem_alphabet {c : CodePoint} :
    c ∈ alphabet ↔ (0x30 ≤ c.val ∧ c.val ≤ 0x39) ∨ (0x41 ≤ c.val ∧ c.val ≤ 0x46) ∨
      (0x61 ≤ c.val ∧ c.val ≤ 0x66) := by
  have listed : alphabet = [0x30, 0x31, 0x32, 0x33, 0x34, 0x35, 0x36, 0x37, 0x38, 0x39,
    0x61, 0x62, 0x63, 0x64, 0x65, 0x66, 0x41, 0x42, 0x43, 0x44, 0x45, 0x46] := by decide
  simp only [listed, List.mem_cons, List.not_mem_nil, or_false, Fin.ext_iff]
  show c.val = 0x30 ∨ _ ↔ _
  omega

/-- Reading a digit and writing its value changes the case of the digit only. -/
theorem digit?_eq_some {c : CodePoint} {v : Nat} (h : digit? c = some v) :
    v < 16 ∧ ofDigit v = c.lowercase ∧ c ∈ alphabet := by
  rw [mem_alphabet, ofDigit, CodePoint.lowercase]
  simp only [digit?] at h
  split at h
  case isTrue decimal =>
    obtain rfl := Option.some.inj h
    refine ⟨by omega, ?_, by omega⟩
    rw [if_pos (by omega), if_neg (by omega)]
    apply Fin.ext
    simp only [CodePoint.ofNat, Fin.val_ofNat]
    omega
  case isFalse =>
    split at h
    case isTrue capital =>
      obtain rfl := Option.some.inj h
      refine ⟨by omega, ?_, by omega⟩
      rw [if_neg (by omega), if_pos (by omega), show 0x57 + (c.val - 0x37) = c.val + 0x20 by omega]
    case isFalse =>
      split at h
      case isTrue small =>
        obtain rfl := Option.some.inj h
        refine ⟨by omega, ?_, by omega⟩
        rw [if_neg (by omega), if_neg (by omega)]
        apply Fin.ext
        simp only [CodePoint.ofNat, Fin.val_ofNat]
        omega
      case isFalse => exact absurd h (by simp)

theorem isSome_digit?_iff {c : CodePoint} : (digit? c).isSome ↔ c ∈ alphabet := by
  constructor
  · intro some
    obtain ⟨v, value⟩ := Option.isSome_iff_exists.1 some
    exact (digit?_eq_some value).2.2
  · intro member
    rw [mem_alphabet] at member
    simp only [digit?]
    split
    · rfl
    · split
      · rfl
      · rw [if_pos (by omega)]
        rfl

/-- The byte of two digits is written in their small letters. -/
theorem byte?_eq_some {high low : CodePoint} {x : UInt8} (h : byte? high low = some x) :
    ofByte x = [high.lowercase, low.lowercase] ∧ high ∈ alphabet ∧ low ∈ alphabet := by
  simp only [byte?, Option.bind_eq_bind, Option.bind_eq_some_iff] at h
  obtain ⟨n, first, m, second, whole⟩ := h
  obtain rfl := Option.some.inj whole
  obtain ⟨small, written, member⟩ := digit?_eq_some first
  obtain ⟨small', written', member'⟩ := digit?_eq_some second
  have value : (UInt8.ofNat (n * 16 + m)).toNat = n * 16 + m := by
    rw [UInt8.toNat_ofNat']
    omega
  refine ⟨?_, member, member'⟩
  rw [ofByte, value, show (n * 16 + m) / 16 = n by omega, show (n * 16 + m) % 16 = m by omega,
    written, written']

theorem isSome_byte? {high low : CodePoint} (h : high ∈ alphabet) (l : low ∈ alphabet) :
    ∃ x, byte? high low = some x := by
  obtain ⟨n, first⟩ := Option.isSome_iff_exists.1 (isSome_digit?_iff.2 h)
  obtain ⟨m, second⟩ := Option.isSome_iff_exists.1 (isSome_digit?_iff.2 l)
  exact ⟨UInt8.ofNat (n * 16 + m), by rw [byte?, first, second]; rfl⟩

theorem paired_cons_cons {high low : CodePoint} {rest : Text} :
    Paired (high :: low :: rest) ↔ high ∈ alphabet ∧ low ∈ alphabet ∧ Paired rest := by
  constructor
  · rintro ⟨even, digits⟩
    simp only [List.length_cons] at even
    simp only [List.forall_mem_cons] at digits
    exact ⟨digits.1, digits.2.1, by omega, digits.2.2⟩
  · rintro ⟨first, second, even, digits⟩
    refine ⟨?_, ?_⟩
    · simp only [List.length_cons]
      omega
    · simp only [List.forall_mem_cons]
      exact ⟨first, second, digits⟩

/-- The bytes read off a row, two digits at a time, are written as the row in small letters. -/
theorem decodeOnto_eq_some {acc b : Bytes} {t : Text} (h : decodeOnto acc t = some b) :
    Paired t ∧ ∃ read, b = acc.reverse ++ read ∧ encode read = t.lowercase := by
  fun_induction decodeOnto acc t with
  | case1 acc =>
    obtain rfl := Option.some.inj h
    exact ⟨⟨rfl, by simp⟩, [], by simp, rfl⟩
  | case2 => exact absurd h (by simp)
  | case3 acc high low rest x byte ih =>
    obtain ⟨written, first, second⟩ := byte?_eq_some byte
    obtain ⟨row, read, rfl, text⟩ := ih h
    refine ⟨paired_cons_cons.2 ⟨first, second, row⟩, x :: read, by simp, ?_⟩
    rw [encode, List.flatMap_cons, written, ← encode, text]
    rfl
  | case4 => exact absurd h (by simp)

theorem isSome_decodeOnto {t : Text} (row : Paired t) (acc : Bytes) :
    ∃ b, decodeOnto acc t = some b := by
  fun_induction decodeOnto acc t with
  | case1 acc => exact ⟨_, rfl⟩
  | case2 => exact absurd row.even (by simp)
  | case3 acc high low rest x byte ih => exact ih (paired_cons_cons.1 row).2.2
  | case4 acc high low rest none =>
    obtain ⟨first, second, -⟩ := paired_cons_cons.1 row
    obtain ⟨x, byte⟩ := isSome_byte? first second
    exact absurd (none.symm.trans byte) (by simp)

theorem encode_injective {b b' : Bytes} (same : encode b = encode b') : b = b' := by
  have read := decode?_encode b
  rw [same, decode?_encode] at read
  exact (Option.some.inj read).symm

/-- The bytes of a row are the ones that are written as the row in small letters. -/
theorem decode?_eq_some {t : Text} {b : Bytes} :
    decode? t = some b ↔ Paired t ∧ encode b = t.lowercase := by
  constructor
  · intro read
    obtain ⟨row, b', rfl, text⟩ := decodeOnto_eq_some read
    exact ⟨row, text⟩
  · rintro ⟨row, text⟩
    obtain ⟨b', read⟩ := isSome_decodeOnto row []
    obtain ⟨-, _, rfl, text'⟩ := decodeOnto_eq_some read
    rw [decode?, read, encode_injective (text.trans text'.symm)]

theorem decode?_eq_none {t : Text} : decode? t = none ↔ ¬ Paired t := by
  constructor
  · intro none row
    obtain ⟨b, read⟩ := isSome_decodeOnto row []
    exact absurd (none.symm.trans read) (by simp)
  · intro unpaired
    cases read : decode? t with
    | none => rfl
    | some b => exact absurd (decode?_eq_some.1 read).1 unpaired

theorem length_encode (b : Bytes) : (encode b).length = 2 * b.length := by
  induction b with
  | nil => rfl
  | cons x rest ih =>
    rw [encode, List.flatMap_cons, ← encode, List.length_append, ih, List.length_cons]
    show 2 + _ = _
    omega

end Hex

/-! ## What surrounds a row -/

/-- A text is `core` with blanks around it that do not belong to it. -/
structure Text.Trimmed (t core : Text) : Prop where
  around : ∃ left right, t = left ++ core ++ right ∧ (∀ c ∈ left, c.isBlank) ∧
    ∀ c ∈ right, c.isBlank
  first : ∀ c, core.head? = some c → c.isBlank = false
  last : ∀ c, core.getLast? = some c → c.isBlank = false

/-- Blanks in front of a text that does not start with one are what is dropped. -/
theorem Text.dropWhile_blanks {left t : Text} (blank : ∀ c ∈ left, c.isBlank)
    (first : ∀ c, t.head? = some c → c.isBlank = false) :
    (left ++ t).dropWhile CodePoint.isBlank = t := by
  rw [List.dropWhile_append_of_pos blank]
  cases t with
  | nil => rfl
  | cons c rest => rw [List.dropWhile_cons_of_neg (by simp [first c rfl])]

theorem Text.head?_dropWhile_blank {t : Text} {c : CodePoint}
    (h : (t.dropWhile CodePoint.isBlank).head? = some c) : c.isBlank = false := by
  have first := List.head?_dropWhile_not CodePoint.isBlank t
  rwa [h] at first

theorem Text.trim_eq_iff {t core : Text} : t.trim = core ↔ t.Trimmed core := by
  constructor
  · rintro rfl
    have front := List.takeWhile_append_dropWhile (p := CodePoint.isBlank) (l := t)
    have back := List.takeWhile_append_dropWhile (p := CodePoint.isBlank) (l := t.trimStart.reverse)
    have start : t.trimStart =
        t.trim ++ (t.trimStart.reverse.takeWhile CodePoint.isBlank).reverse := by
      rw [trim, ← List.reverse_append, back, List.reverse_reverse]
    refine ⟨⟨t.takeWhile CodePoint.isBlank, (t.trimStart.reverse.takeWhile CodePoint.isBlank).reverse,
      ?_, ?_, ?_⟩, ?_, ?_⟩
    · rw [List.append_assoc, ← start]
      exact front.symm
    · intro c member
      exact List.mem_takeWhile_imp member
    · intro c member
      exact List.mem_takeWhile_imp (List.mem_reverse.1 member)
    · intro c head
      apply head?_dropWhile_blank (t := t)
      show t.trimStart.head? = some c
      rw [start, List.head?_append, head]
      rfl
    · intro c last
      rw [trim, List.getLast?_reverse] at last
      exact head?_dropWhile_blank last
  · rintro ⟨⟨left, right, rfl, blankLeft, blankRight⟩, first, last⟩
    cases core with
    | nil =>
      have blank : ∀ c ∈ left ++ [] ++ right, c.isBlank := by
        intro c member
        rw [List.append_nil] at member
        exact (List.mem_append.1 member).elim (blankLeft c) (blankRight c)
      rw [trim, trimStart, List.dropWhile_eq_nil_iff.2 blank]
      rfl
    | cons c rest =>
      have behind : ∀ c ∈ right.reverse, c.isBlank := fun c member =>
        blankRight c (List.mem_reverse.1 member)
      have core : ∀ d, (c :: rest).reverse.head? = some d → d.isBlank = false := fun d head =>
        last d (by rwa [List.head?_reverse] at head)
      have whole : ∀ d, (c :: rest ++ right).head? = some d → d.isBlank = false := first
      rw [trim, trimStart, List.append_assoc, dropWhile_blanks blankLeft whole,
        List.reverse_append, dropWhile_blanks behind core, List.reverse_reverse]

namespace HexForm

/-- A text is `d` behind its mark, or `d` itself when it has none. -/
inductive Unmarked : Text → Text → Prop
  | small (d : Text) : Unmarked ("0x" ++ d) d
  | capital (d : Text) : Unmarked ("0X" ++ d) d
  | bare (d : Text) (small : ¬ Text.ofString "0x" <+: d) (capital : ¬ Text.ofString "0X" <+: d) :
    Unmarked d d

/-- The row `d` stands in a text, behind one mark at most and with blanks around both. -/
def Spells (t d : Text) : Prop :=
  ∃ core, t.Trimmed core ∧ Unmarked core d

theorem withoutMark_eq_iff {t d : Text} : withoutMark t = d ↔ Unmarked t d := by
  have small (d : Text) : withoutMark ("0x" ++ d) = d := if_pos (.inl rfl)
  have capital (d : Text) : withoutMark ("0X" ++ d) = d := if_pos (.inr rfl)
  have prefixed {mark : Text} (length : mark.length = 2) :
      t.take 2 = mark ↔ mark <+: t := by
    rw [List.prefix_iff_eq_take, length, eq_comm]
  constructor
  · rintro rfl
    by_cases hs : Text.ofString "0x" <+: t
    · obtain ⟨d, rfl⟩ := hs
      rw [small]
      exact .small d
    · by_cases hc : Text.ofString "0X" <+: t
      · obtain ⟨d, rfl⟩ := hc
        rw [capital]
        exact .capital d
      · rw [withoutMark, if_neg]
        · exact .bare t hs hc
        · rw [prefixed rfl, prefixed rfl]
          exact not_or.2 ⟨hs, hc⟩
  · intro unmarked
    cases unmarked with
    | small => exact small d
    | capital => exact capital d
    | bare _ hs hc =>
      rw [withoutMark, if_neg]
      rw [prefixed rfl, prefixed rfl]
      exact not_or.2 ⟨hs, hc⟩

/-- Every text spells one row, the one that is read. -/
theorem digits_eq_iff {t d : Text} : digits t = d ↔ Spells t d := by
  constructor
  · rintro rfl
    exact ⟨t.trim, Text.trim_eq_iff.1 rfl, withoutMark_eq_iff.1 rfl⟩
  · rintro ⟨core, trimmed, unmarked⟩
    rw [digits, Text.trim_eq_iff.2 trimmed, withoutMark_eq_iff.2 unmarked]

/-! ## What is accepted -/

variable {t d : Text} {size : Option Int} {b : Bytes}

theorem encode_eq_ok {s : Text} :
    encode ⟨size⟩ b = .ok s ↔ (size = none ∨ size = some (b.length : Int)) ∧ s = hexText b := by
  rw [encode]
  constructor
  · intro written
    obtain ⟨b', passed, rfl⟩ := map_eq_ok.1 written
    obtain ⟨fits, rfl⟩ := checkSize_eq_ok.1 passed
    exact ⟨fits, rfl⟩
  · rintro ⟨fits, rfl⟩
    rw [checkSize_fits fits]
    rfl

/-- The bytes of a row are half as many as its digits. -/
theorem length_of_encode (same : Hex.encode b = d.lowercase) : b.length = d.length / 2 := by
  have doubled := Hex.length_encode b
  rw [same, Text.lowercase, List.length_map] at doubled
  omega

theorem decode_eq_ok (spelt : Spells t d) :
    decode ⟨size⟩ t = .ok b ↔ Hex.Paired d ∧ Hex.encode b = d.lowercase ∧
      (size = none ∨ size = some (b.length : Int)) := by
  rw [decode, digits_eq_iff.2 spelt]
  cases read : Hex.decode? d with
  | none =>
    have unpaired := Hex.decode?_eq_none.1 read
    exact ⟨fun h => (by cases h), fun h => absurd h.1 unpaired⟩
  | some b' =>
    obtain ⟨row, text⟩ := Hex.decode?_eq_some.1 read
    dsimp only
    rw [checkSize_eq_ok]
    constructor
    · rintro ⟨fits, rfl⟩
      exact ⟨row, text, fits⟩
    · rintro ⟨-, text', fits⟩
      obtain rfl := Hex.encode_injective (text'.trans text.symm)
      exact ⟨fits, rfl⟩

theorem decode_eq_error (spelt : Spells t d) {e : DecodeError} :
    decode ⟨size⟩ t = .error e ↔ ¬ Hex.Paired d ∧ e = .notHex t ∨
      Hex.Paired d ∧ ∃ n, size = some n ∧ n ≠ (d.length / 2 : Nat) ∧
        e = .wrongSize n (d.length / 2) := by
  rw [decode, digits_eq_iff.2 spelt]
  cases read : Hex.decode? d with
  | none =>
    have unpaired := Hex.decode?_eq_none.1 read
    constructor
    · rintro ⟨⟩
      exact .inl ⟨unpaired, rfl⟩
    · rintro (⟨-, rfl⟩ | ⟨row, -⟩)
      · rfl
      · exact absurd row unpaired
  | some b' =>
    obtain ⟨row, text⟩ := Hex.decode?_eq_some.1 read
    dsimp only
    rw [checkSize_eq_error, length_of_encode text]
    constructor
    · exact fun wrong => .inr ⟨row, wrong⟩
    · rintro (⟨unpaired, -⟩ | ⟨-, wrong⟩)
      · exact absurd row unpaired
      · exact wrong

/-- What has been written is read back. -/
theorem decode_of_encode {s : Text} (written : encode ⟨size⟩ b = .ok s) :
    decode ⟨size⟩ s = .ok b := by
  obtain ⟨fits, rfl⟩ := encode_eq_ok.1 written
  exact (read_hexText ⟨size⟩ b).trans (checkSize_fits fits)

/-- A text spells one row of digits, which stands behind one mark at most and with blanks around
both. It is refused as no hex text exactly if the row is no row of pairs of hex digits, and for its
size exactly if it is one and another size is asked for than half its length. Else its bytes are the
ones whose hex text is the row in small letters behind `0x`, half as many as there are digits. So
what has been written is read back, what has been read is written in one way, which is read as the
same bytes again, and two texts are read alike exactly if their rows agree up to the case of
letters. -/
theorem reads_grammar (t : Text) :
    ∃ d, (∀ d', Spells t d' ↔ d' = d) ∧
      (∀ size e, decode ⟨size⟩ t = .error e ↔ ¬ Hex.Paired d ∧ e = .notHex t ∨
        Hex.Paired d ∧ ∃ n, size = some n ∧ n ≠ (d.length / 2 : Nat) ∧
          e = .wrongSize n (d.length / 2)) ∧
      (∀ size b, decode ⟨size⟩ t = .ok b ↔ Hex.Paired d ∧
        (size = none ∨ size = some ((d.length / 2 : Nat) : Int)) ∧
          encode ⟨none⟩ b = .ok ("0x" ++ d.lowercase)) ∧
      (∀ size b, decode ⟨size⟩ t = .ok b → 2 * b.length = d.length ∧
        ∃ s, encode ⟨size⟩ b = .ok s ∧ decode ⟨size⟩ s = .ok b) ∧
      (∀ size size' t' d' b b', Spells t' d' → decode ⟨size⟩ t = .ok b →
        decode ⟨size'⟩ t' = .ok b' → (b = b' ↔ d.lowercase = d'.lowercase)) ∧
      ∀ size b, encode ⟨size⟩ b = .ok t → decode ⟨size⟩ t = .ok b := by
  have spelt : Spells t (digits t) := digits_eq_iff.1 rfl
  refine ⟨digits t, fun d' => digits_eq_iff.symm.trans eq_comm, fun size e => decode_eq_error spelt,
    fun size b => ?_, fun size b read => ?_, ?_, fun size b => decode_of_encode⟩
  · rw [decode_eq_ok spelt]
    constructor
    · rintro ⟨row, text, fits⟩
      rw [length_of_encode text] at fits
      exact ⟨row, fits, by rw [← text]; rfl⟩
    · rintro ⟨row, fits, written⟩
      have text := List.append_cancel_left (encode_eq_ok.1 written).2
      rw [← length_of_encode text.symm] at fits
      exact ⟨row, text.symm, fits⟩
  · obtain ⟨row, text, fits⟩ := (decode_eq_ok spelt).1 read
    have written : encode ⟨size⟩ b = .ok (hexText b) := encode_eq_ok.2 ⟨fits, rfl⟩
    have even := row.even
    have half := length_of_encode text
    exact ⟨by omega, _, written, decode_of_encode written⟩
  · intro size size' t' d' b b' spelt' read read'
    obtain ⟨-, text, -⟩ := (decode_eq_ok spelt).1 read
    obtain ⟨-, text', -⟩ := (decode_eq_ok spelt').1 read'
    rw [← text, ← text']
    exact ⟨congrArg Hex.encode, Hex.encode_injective⟩

end HexForm

end StepReplay
