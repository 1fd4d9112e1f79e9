import StepReplay.Text
import StepReplay.Bytes

set_option autoImplicit false

/-! # Hex digits

Two digits make a byte, the high half first. Writing uses lowercase digits and reading takes
either case, so a byte string has one written form and each of its digits may be read from two. -/

namespace StepReplay.Hex

/-- The value of a hex digit. -/
def digit? (c : CodePoint) : Option Nat :=
  let n := c.val
  if 0x30 ≤ n ∧ n ≤ 0x39 then some (n - 0x30)
  else if 0x41 ≤ n ∧ n ≤ 0x46 then some (n - 0x37)
  else if 0x61 ≤ n ∧ n ≤ 0x66 then some (n - 0x57)
  else none

/-- The lowercase hex digit with a value below sixteen. -/
def ofDigit (d : Nat) : CodePoint :=
  if d < 10 then CodePoint.ofNat (0x30 + d) else CodePoint.ofNat (0x57 + d)

/-- The lowest hex digits of a number, as many as asked for. -/
def ofNat : Nat → Nat → Text
  | 0, _ => []
  | width + 1, n => ofNat width (n / 16) ++ [ofDigit (n % 16)]

/-- The two digits of a byte. -/
def ofByte (b : UInt8) : Text :=
  [ofDigit (b.toNat / 16), ofDigit (b.toNat % 16)]

/-- The digits of a byte string. -/
def encode (b : Bytes) : Text :=
  b.flatMap ofByte

/-- The byte with two digits. -/
def byte? (high low : CodePoint) : Option UInt8 := do
  let h ← digit? high
  let l ← digit? low
  return UInt8.ofNat (h * 16 + l)

/-- Bytes read off a row of digits, newest first. -/
def decodeOnto (acc : Bytes) : Text → Option Bytes
  | [] => some acc.reverse
  | [_] => none
  | high :: low :: rest => match byte? high low with
    | some b => decodeOnto (b :: acc) rest
    | none => none

/-- The byte string with the given digits, an even number of them. -/
def decode? (t : Text) : Option Bytes :=
  decodeOnto [] t

end StepReplay.Hex
