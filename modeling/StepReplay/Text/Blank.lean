import StepReplay.Text

set_option autoImplicit false

/-! # Blank code points

The blanks around hex digits, and anywhere inside a bytecode file, are the white space of the
Unicode standard together with the four ASCII separators U+001C to U+001F. -/

namespace StepReplay

/-- The 29 blank code points. -/
def CodePoint.isBlank (c : CodePoint) : Bool :=
  let n := c.val
  (0x09 ≤ n && n ≤ 0x0D) || (0x1C ≤ n && n ≤ 0x20) || n == 0x85 || n == 0xA0 || n == 0x1680
    || (0x2000 ≤ n && n ≤ 0x200A) || n == 0x2028 || n == 0x2029 || n == 0x202F || n == 0x205F
    || n == 0x3000

namespace Text

/-- The text without the blanks at its start. -/
def trimStart (t : Text) : Text :=
  t.dropWhile CodePoint.isBlank

/-- The text without the blanks at either end. -/
def trim (t : Text) : Text :=
  (t.trimStart.reverse.dropWhile CodePoint.isBlank).reverse

/-- The text without any blank. -/
def withoutBlanks (t : Text) : Text :=
  t.filter fun c => !c.isBlank

end Text

end StepReplay
