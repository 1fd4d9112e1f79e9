import StepReplay.Hex
import StepReplay.Text.Printable

set_option autoImplicit false

/-! # Quoted text

An error message shows the text at fault between quotes, on one line and in printable code points
only. Single quotes are used unless the text holds one and no double quote, so that most texts
need no escape at all. -/

namespace StepReplay.Quoted

/-- An escape is as short as the number of the code point allows. -/
def escapeNumber (c : CodePoint) : Text :=
  if c.val < 0x100 then "\\x" ++ Hex.ofNat 2 c.val
  else if c.val < 0x10000 then "\\u" ++ Hex.ofNat 4 c.val
  else "\\U" ++ Hex.ofNat 8 c.val

/-- The written form of one code point between the given quotes. -/
def escape (quote c : CodePoint) : Text :=
  if c = quote ∨ c = CodePoint.ofChar '\\' then [CodePoint.ofChar '\\', c]
  else if c = CodePoint.ofChar '\n' then "\\n"
  else if c = CodePoint.ofChar '\r' then "\\r"
  else if c = CodePoint.ofChar '\t' then "\\t"
  else if c.isPrintable then [c]
  else escapeNumber c

/-- The quote that a text is written between. -/
def quoteFor (t : Text) : CodePoint :=
  if t.contains (CodePoint.ofChar '\x27') && !t.contains (CodePoint.ofChar '"') then
    CodePoint.ofChar '"'
  else CodePoint.ofChar '\x27'

/-- The quoted form of a text. -/
def encode (t : Text) : Text :=
  let quote := quoteFor t
  quote :: t.flatMap (escape quote) ++ [quote]

end StepReplay.Quoted
