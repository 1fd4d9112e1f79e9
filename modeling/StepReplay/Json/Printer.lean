import StepReplay.Hex
import StepReplay.Json
import StepReplay.Text.Decimal

set_option autoImplicit false

/-! # Writing JSON

Reports are written for a reader: one item a line, fields in the order of their keys, and text as
it is. The compact form is written for a program: one line, fields in their own order, and ASCII
only. Both are one printer with a style. -/

namespace StepReplay.Json

/-- How a value is laid out. -/
structure Style where
  /-- The indent of a level; without one everything stands on one line. -/
  indent : Option Nat
  /-- Whether fields are ordered by their keys. -/
  sorted : Bool
  /-- Whether code points beyond ASCII are escaped. -/
  ascii : Bool

/-- One item a line, keys in order, text as it is. -/
def Style.report : Style := ⟨some 4, true, false⟩

/-- One line of ASCII. -/
def Style.compact : Style := ⟨none, false, true⟩

/-! ## Strings -/

/-- The escape of a code unit by its number. -/
def escapeUnit (n : Nat) : Text :=
  "\\u" ++ Hex.ofNat 4 n

/-- The escape of a code point by its number, in two halves beyond U+FFFF. -/
def escapePoint (c : CodePoint) : Text :=
  if c.val < 0x10000 then escapeUnit c.val
  else
    let n := c.val - 0x10000
    escapeUnit (0xD800 + n / 0x400) ++ escapeUnit (0xDC00 + n % 0x400)

/-- The written form of a code point inside quotes. -/
def escape (ascii : Bool) (c : CodePoint) : Text :=
  if c = CodePoint.ofChar '"' ∨ c = CodePoint.ofChar '\\' then [CodePoint.ofChar '\\', c]
  else if c.val = 0x08 then "\\b"
  else if c.val = 0x0C then "\\f"
  else if c.val = 0x0A then "\\n"
  else if c.val = 0x0D then "\\r"
  else if c.val = 0x09 then "\\t"
  else if c.val < 0x20 ∨ (ascii ∧ 0x7F ≤ c.val) then escapePoint c
  else [c]

/-- A text between quotes. -/
def writeString (ascii : Bool) (t : Text) : Text :=
  "\"" ++ t.flatMap (escape ascii) ++ "\""

/-! ## Values -/

/-- The start of a line at a depth, or nothing in a style of one line. -/
def Style.newline (style : Style) (depth : Nat) : Text :=
  match style.indent with
  | some width => "\n" ++ List.replicate (width * depth) (CodePoint.ofChar ' ')
  | none => []

/-- What stands between two items. -/
def Style.separator (style : Style) (depth : Nat) : Text :=
  if style.indent.isSome then "," ++ style.newline depth else ", "

/-- Fields in the order in which the style writes them. -/
def Style.arrange {α : Type} (style : Style) (fields : List (Text × α)) : List (Text × α) :=
  if style.sorted then fields.mergeSort fun a b => a.1.precedes b.1 else fields

/-- Items between brackets, each on a line of its own if the style says so. -/
def Style.bracket (style : Style) (depth : Nat) (opening closing : Text) (items : List Text) :
    Text :=
  if items.isEmpty then opening ++ closing
  else opening ++ style.newline (depth + 1) ++ Text.joined (style.separator (depth + 1)) items
    ++ style.newline depth ++ closing

mutual

/-- A value in a style, at a depth of nesting. -/
def write (style : Style) (depth : Nat) : Json → Text
  | .null => "null"
  | .bool true => "true"
  | .bool false => "false"
  | .int n => Decimal.ofInt n
  | .real x => x.text "NaN" "Infinity"
  | .string t => writeString style.ascii t
  | .array items => style.bracket depth "[" "]" (writeItems style (depth + 1) items)
  | .object fields =>
    style.bracket depth "\x7b" "\x7d"
      ((style.arrange (writeFields style (depth + 1) fields)).map fun (key, value) =>
        writeString style.ascii key ++ ": " ++ value)

/-- The items of an array in a style. -/
def writeItems (style : Style) (depth : Nat) : List Json → List Text
  | [] => []
  | item :: items => write style depth item :: writeItems style depth items

/-- The fields of an object in a style, each still beside its key. -/
def writeFields (style : Style) (depth : Nat) : List (Text × Json) → List (Text × Text)
  | [] => []
  | (key, value) :: fields => (key, write style depth value) :: writeFields style depth fields

end

/-- The text of a report. -/
def report (j : Json) : Text :=
  j.write .report 0

/-- The value on one line. -/
def compact (j : Json) : Text :=
  j.write .compact 0

end StepReplay.Json
