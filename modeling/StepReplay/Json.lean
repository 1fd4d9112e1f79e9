import StepReplay.Binary64
import StepReplay.Table

set_option autoImplicit false

/-! # JSON values

The values of fixture files and reports. Integers have any size and are kept apart from numbers
written with a fraction or an exponent, since an offset must be an integer. An object is a list of
fields in order; each key occurs once. -/

namespace StepReplay

/-- A JSON value. -/
inductive Json where
  | null
  | bool (b : Bool)
  | int (n : Int)
  | real (x : Binary64)
  | string (t : Text)
  | array (items : List Json)
  | object (fields : List (Text × Json))
  deriving Repr, Inhabited

namespace Json

/-- The field of a key. -/
def field? (key : Text) : Json → Option Json
  | .object fields => Table.find? key fields
  | _ => none

/-- The field of a key, where a null counts as absent. -/
def present? (key : Text) (j : Json) : Option Json :=
  match j.field? key with
  | some .null => none
  | found => found

end Json

end StepReplay
