import StepReplay.Text

set_option autoImplicit false

/-! # Decimal numerals

Numbers in messages, in reports and in fixture files are written in plain decimal: no leading
zeros, a minus sign before negative ones. Reading takes digits one by one, so that writing and
reading are each one recursion. -/

namespace StepReplay

/-- The value of an ASCII digit. -/
def CodePoint.digit? (c : CodePoint) : Option Nat :=
  if 0x30 ≤ c.val ∧ c.val ≤ 0x39 then some (c.val - 0x30) else none

/-- The ASCII digit with a value below ten. -/
def CodePoint.ofDigit (d : Nat) : CodePoint :=
  CodePoint.ofNat (0x30 + d)

namespace Decimal

/-- The numeral of a natural number. -/
def ofNat (n : Nat) : Text :=
  if n < 10 then [CodePoint.ofDigit n] else ofNat (n / 10) ++ [CodePoint.ofDigit (n % 10)]
termination_by n

theorem ascii_of_mem_ofNat {n : Nat} {c : CodePoint} (h : c ∈ ofNat n) : c.val < 0x80 := by
  have digit : ∀ d < 10, (CodePoint.ofDigit d).val < 0x80 := by decide
  induction n using ofNat.induct with
  | case1 n small =>
    rw [ofNat, if_pos small, List.mem_singleton] at h
    exact h ▸ digit n small
  | case2 n large ih =>
    rw [ofNat, if_neg large, List.mem_append, List.mem_singleton] at h
    rcases h with front | last
    · exact ih front
    · exact last ▸ digit (n % 10) (Nat.mod_lt n (by decide))

/-- The numeral of an integer. -/
def ofInt : Int → Text
  | .ofNat n => ofNat n
  | .negSucc n => "-" ++ ofNat (n + 1)

/-- The number that a row of digits denotes, read onto a number already read. -/
def readFrom (acc : Nat) : Text → Option Nat
  | [] => some acc
  | c :: rest => match c.digit? with
    | some d => readFrom (acc * 10 + d) rest
    | none => none

/-- The number that a non-empty row of digits denotes. -/
def read? (t : Text) : Option Nat :=
  if t.isEmpty then none else readFrom 0 t

/-- A numeral filled with zeros to a least width. -/
def padded (width n : Nat) : Text :=
  let digits := ofNat n
  List.replicate (width - digits.length) (CodePoint.ofDigit 0) ++ digits

end Decimal

end StepReplay
