import StepReplay.Text.Blank
import StepReplay.Text.Decimal

set_option autoImplicit false

/-! # Integers as they are typed

A number on a command line is read more freely than one in a file. White space around it does not
count, it may have a sign, single underscores may part its digits, and the digits may be those of
any script of Unicode 14. -/

namespace StepReplay

/-- The zeros of the scripts; the other nine digits of a script follow its zero. -/
def scriptZeros : List Nat :=
  [0x0030, 0x0660, 0x06F0, 0x07C0, 0x0966, 0x09E6, 0x0A66, 0x0AE6, 0x0B66, 0x0BE6, 0x0C66, 0x0CE6,
   0x0D66, 0x0DE6, 0x0E50, 0x0ED0, 0x0F20, 0x1040, 0x1090, 0x17E0, 0x1810, 0x1946, 0x19D0, 0x1A80,
   0x1A90, 0x1B50, 0x1BB0, 0x1C40, 0x1C50, 0xA620, 0xA8D0, 0xA900, 0xA9D0, 0xA9F0, 0xAA50, 0xABF0,
   0xFF10, 0x104A0, 0x10D30, 0x11066, 0x110F0, 0x11136, 0x111D0, 0x112F0, 0x11450, 0x114D0,
   0x11650, 0x116C0, 0x11730, 0x118E0, 0x11950, 0x11C50, 0x11D50, 0x11DA0, 0x16A60, 0x16AC0,
   0x16B50, 0x1D7CE, 0x1D7D8, 0x1D7E2, 0x1D7EC, 0x1D7F6, 0x1E140, 0x1E2F0, 0x1E950, 0x1FBF0]

/-- The value of a digit of any script. -/
def CodePoint.scriptDigit? (c : CodePoint) : Option Nat :=
  (scriptZeros.find? fun first => first ≤ c.val && c.val ≤ first + 9).map fun first => c.val - first

namespace Integer

/-- The most digits a typed number may have. -/
def digitLimit : Nat := 4300

/-- The underscore. -/
def underscore : CodePoint := CodePoint.ofChar '_'

/-- The values of the digits of a numeral in which single underscores may stand between digits. -/
def digits? : Text → Option (List Nat)
  | [] => none
  | [c] => c.scriptDigit?.map ([·])
  | c :: mark :: rest => do
    let d ← c.scriptDigit?
    let others ← if mark = underscore then digits? rest else digits? (mark :: rest)
    return d :: others

/-- The number with the given digits, unless there are too many. -/
def ofDigits? (digits : List Nat) : Option Int :=
  if digitLimit < digits.length then none
  else some (digits.foldl (fun acc d => acc * 10 + d) 0 : Nat)

/-- Whether a code point may stand around a number. The four ASCII separators are blank elsewhere
but may not. -/
def isSpace (c : CodePoint) : Bool :=
  c.isBlank && !(0x1C ≤ c.val && c.val ≤ 0x1F)

/-- A text without the white space at either end. -/
def trim (t : Text) : Text :=
  ((t.dropWhile isSpace).reverse.dropWhile isSpace).reverse

/-- The integer that a text stands for. -/
def read? (t : Text) : Option Int :=
  match trim t with
  | [] => none
  | c :: rest =>
    if c = CodePoint.ofChar '-' then (digits? rest >>= ofDigits?).map fun n => -n
    else if c = CodePoint.ofChar '+' then digits? rest >>= ofDigits?
    else digits? (c :: rest) >>= ofDigits?

end Integer

end StepReplay
