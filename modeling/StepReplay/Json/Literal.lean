import StepReplay.Json
import StepReplay.Text.Quoted

set_option autoImplicit false

/-! # Values inside messages

A message that rejects a value shows it the way the tool's users write literals: `None`, `True`
and `False` for the three words, quoted text, and brackets around items. -/

namespace StepReplay.Json

/-- The word for the kind of a value. -/
def kind : Json → Text
  | .null => "NoneType"
  | .bool _ => "bool"
  | .int _ => "int"
  | .real _ => "float"
  | .string _ => "str"
  | .array _ => "list"
  | .object _ => "dict"

mutual

/-- The literal of a value. -/
def literal : Json → Text
  | .null => "None"
  | .bool true => "True"
  | .bool false => "False"
  | .int n => Decimal.ofInt n
  | .real x => x.text "nan" "inf"
  | .string t => Quoted.encode t
  | .array items => "[" ++ Text.joined ", " (literalItems items) ++ "]"
  | .object fields => "\x7b" ++ Text.joined ", " (literalFields fields) ++ "\x7d"

/-- The literals of an array's items. -/
def literalItems : List Json → List Text
  | [] => []
  | item :: items => literal item :: literalItems items

/-- The literals of an object's fields. -/
def literalFields : List (Text × Json) → List Text
  | [] => []
  | (key, value) :: fields => (Quoted.encode key ++ ": " ++ literal value) :: literalFields fields

end

end StepReplay.Json
