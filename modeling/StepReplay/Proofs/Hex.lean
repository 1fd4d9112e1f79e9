import StepReplay.Form
import StepReplay.Proofs.Bytes

set_option autoImplicit false

/-! # Hex text read back

Each half of a byte is one digit, and reading takes two digits at a time, so the text of a byte
string gives the bytes back. The blanks and the mark that reading passes over do no harm, because
no digit is blank and the text has its mark in front. `read_hexText` says what any form makes of the
hex text of a buffer: it checks the size and nothing else. -/

namespace StepReplay

/-! ## Digits -/

namespace Hex

theorem digit?_ofDigit : ∀ d < 16, digit? (ofDigit d) = some d := by decide

theorem isBlank_ofDigit : ∀ d < 16, (ofDigit d).isBlank = false := by decide

theorem byte?_ofDigit {high low : Nat} (h : high < 16) (l : low < 16) :
    byte? (ofDigit high) (ofDigit low) = some (UInt8.ofNat (high * 16 + low)) := by
  rw [byte?, digit?_ofDigit high h, digit?_ofDigit low l]
  rfl

theorem decodeOnto_encode (acc b : Bytes) : decodeOnto acc (encode b) = some (acc.reverse ++ b) := by
  induction b generalizing acc with
  | nil => simp [encode, decodeOnto]
  | cons x rest ih =>
    have bound : x.toNat < 256 := x.toNat_lt
    have whole : UInt8.ofNat (x.toNat / 16 * 16 + x.toNat % 16) = x := by
      rw [Nat.div_add_mod', UInt8.ofNat_toNat]
    have byte : byte? (ofDigit (x.toNat / 16)) (ofDigit (x.toNat % 16)) = some x := by
      rw [byte?_ofDigit (by omega) (by omega), whole]
    have next : encode (x :: rest) =
        ofDigit (x.toNat / 16) :: ofDigit (x.toNat % 16) :: encode rest := rfl
    rw [next, decodeOnto, byte]
    dsimp only
    rw [ih, List.reverse_cons, List.append_assoc, List.singleton_append]

theorem decode?_encode (b : Bytes) : decode? (encode b) = some b := by
  rw [decode?, decodeOnto_encode]
  rfl

theorem isBlank_of_mem_encode {b : Bytes} {c : CodePoint} (h : c ∈ encode b) :
    c.isBlank = false := by
  obtain ⟨x, -, digit⟩ := List.mem_flatMap.1 h
  have bound : x.toNat < 256 := x.toNat_lt
  simp only [ofByte, List.mem_cons, List.not_mem_nil, or_false] at digit
  rcases digit with rfl | rfl
  · exact isBlank_ofDigit _ (by omega)
  · exact isBlank_ofDigit _ (by omega)

end Hex

/-! ## Forms -/

theorem checkSize_fits {size : Option Int} {b : Bytes}
    (fits : size = none ∨ size = some (b.length : Int)) : checkSize size b = .ok b := by
  obtain rfl | rfl := fits
  · rfl
  · rw [checkSize, if_pos rfl]

theorem checkSize_eq_error {size : Option Int} {b : Bytes} {e : DecodeError} :
    checkSize size b = .error e ↔
      ∃ n, size = some n ∧ n ≠ b.length ∧ e = .wrongSize n b.length := by
  cases size with
  | none =>
    constructor
    · rintro ⟨⟩
    · rintro ⟨n, ⟨⟩, -⟩
  | some n =>
    rw [checkSize]
    split
    case isTrue same =>
      constructor
      · rintro ⟨⟩
      · rintro ⟨_, ⟨⟩, other, -⟩
        exact absurd same.symm other
    case isFalse other =>
      constructor
      · rintro ⟨⟩
        exact ⟨n, rfl, Ne.symm other, rfl⟩
      · rintro ⟨_, ⟨⟩, -, rfl⟩
        rfl

theorem checkSize_eq_ok {size : Option Int} {b b' : Bytes} :
    checkSize size b = .ok b' ↔ (size = none ∨ size = some (b.length : Int)) ∧ b' = b := by
  constructor
  · intro passed
    cases size with
    | none => exact ⟨.inl rfl, (Except.ok.inj passed).symm⟩
    | some n =>
      rw [checkSize] at passed
      split at passed
      case isTrue same => exact ⟨.inr (by rw [same]), (Except.ok.inj passed).symm⟩
      case isFalse => cases passed
  · rintro ⟨fits, rfl⟩
    exact checkSize_fits fits

theorem Text.trim_of_not_blank {t : Text} (h : ∀ c ∈ t, c.isBlank = false) : t.trim = t := by
  have keeps : ∀ s : Text, (∀ c ∈ s, c.isBlank = false) → s.dropWhile CodePoint.isBlank = s := by
    intro s none
    cases s with
    | nil => rfl
    | cons c rest => rw [List.dropWhile_cons_of_neg (by simp [none c (List.mem_cons_self ..)])]
  rw [trim, trimStart, keeps t h, keeps _ fun c member => h c (List.mem_reverse.1 member),
    List.reverse_reverse]

namespace HexForm

theorem digits_hexText (b : Bytes) : digits (hexText b) = Hex.encode b := by
  have plain : (Text.ofString "0x").any CodePoint.isBlank = false := by decide
  have unblank : ∀ c ∈ hexText b, c.isBlank = false := by
    intro c member
    rcases List.mem_append.1 member with mark | digit
    · simpa using List.any_eq_false.1 plain c mark
    · exact Hex.isBlank_of_mem_encode digit
  have mark : (Text.ofString "0x").length = 2 := by decide
  rw [digits, Text.trim_of_not_blank unblank, hexText, withoutMark,
    if_pos (.inl (List.take_left' mark)), List.drop_left' mark]

theorem read_hexText (form : HexForm) (b : Bytes) :
    form.read (.string (hexText b)) = checkSize form.size b := by
  rw [read, decode, digits_hexText, Hex.decode?_encode]

end HexForm

theorem Block.read_hexText {n : Nat} (b : Block n) :
    Block.read n (.string (hexText b.bytes)) = .ok b := by
  have size : (some (n : Int) : Option Int) = some (b.bytes.length : Int) := by rw [b.length_bytes]
  rw [Block.read, HexForm.read_hexText, checkSize_fits (.inr size)]
  exact Block.ofBytes_bytes b

end StepReplay
