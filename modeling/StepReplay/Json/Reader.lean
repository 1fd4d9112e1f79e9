import StepReplay.Hex
import StepReplay.Json
import StepReplay.Text.Decimal

set_option autoImplicit false

/-! # Reading JSON

The grammar of RFC 8259 with three more words, `NaN`, `Infinity` and `-Infinity`, with at most 4300
digits in an integer, and with a bound on how deep values may lie inside others. A key that repeats
keeps its first place and its last value. Each function takes the text in front of it and returns
what it read with the text that is left. -/

namespace StepReplay.Json

/-- Why a text is not read. -/
inductive ReadError where
  /-- The text is no JSON document. -/
  | malformed
  /-- An integer has more digits than the reader takes. -/
  | tooManyDigits (count : Nat)
  /-- Arrays and objects lie too deep inside others. -/
  | tooDeep
  deriving DecidableEq, Repr

/-- The most digits an integer may have. -/
def digitLimit : Nat := 4300

/-- The most arrays and objects that may lie one inside another. -/
def depthLimit : Nat := 989

/-- The message of an integer that is too long; other faults have none of their own. -/
def ReadError.message? : ReadError → Option Text
  | malformed | tooDeep => none
  | tooManyDigits count => some <|
    "Exceeds the limit (" ++ Decimal.ofNat digitLimit
      ++ " digits) for integer string conversion: value has " ++ Decimal.ofNat count
      ++ " digits; use sys.set_int_max_str_digits() to increase the limit"

/-- The four blanks allowed between tokens. -/
def isGap (c : CodePoint) : Bool :=
  c.val == 0x20 || c.val == 0x09 || c.val == 0x0A || c.val == 0x0D

/-- The text from the next token on. -/
def skipGap (t : Text) : Text :=
  t.dropWhile isGap

/-! ## Strings -/

/-- The code point that a letter after a backslash stands for. -/
def escapeOf? (c : CodePoint) : Option CodePoint :=
  if c = CodePoint.ofChar '"' ∨ c = CodePoint.ofChar '\\' ∨ c = CodePoint.ofChar '/' then some c
  else if c = CodePoint.ofChar 'b' then some (CodePoint.ofChar '\x08')
  else if c = CodePoint.ofChar 'f' then some (CodePoint.ofChar '\x0C')
  else if c = CodePoint.ofChar 'n' then some (CodePoint.ofChar '\n')
  else if c = CodePoint.ofChar 'r' then some (CodePoint.ofChar '\r')
  else if c = CodePoint.ofChar 't' then some (CodePoint.ofChar '\t')
  else none

/-- The number of four hex digits. -/
def unit? (a b c d : CodePoint) : Option Nat := do
  return (((← Hex.digit? a) * 16 + (← Hex.digit? b)) * 16 + (← Hex.digit? c)) * 16
    + (← Hex.digit? d)

/-- A first half of a surrogate pair. -/
def isHighSurrogate (n : Nat) : Bool :=
  0xD800 ≤ n && n ≤ 0xDBFF

/-- A second half of a surrogate pair. -/
def isLowSurrogate (n : Nat) : Bool :=
  0xDC00 ≤ n && n ≤ 0xDFFF

/-- The code point that two halves stand for. -/
def joinedHalves (high low : Nat) : CodePoint :=
  CodePoint.ofNat (0x10000 + (high - 0xD800) * 0x400 + (low - 0xDC00))

/-- What a string holds so far, newest first. An escaped first half is kept apart until it is known
what comes next. -/
structure Held where
  points : Text := []
  high : Option Nat := none

namespace Held

/-- The code points held, a first half among them if it is still alone. -/
def all (h : Held) : Text :=
  match h.high with
  | some n => CodePoint.ofNat n :: h.points
  | none => h.points

/-- One more code point. -/
def push (h : Held) (c : CodePoint) : Held :=
  ⟨c :: h.all, none⟩

/-- One more escaped code unit. A pair of halves is one code point, and a lone half stays as it
is. -/
def pushUnit (h : Held) (n : Nat) : Held :=
  match h.high with
  | some high =>
    if isLowSurrogate n then ⟨joinedHalves high n :: h.points, none⟩
    else if isHighSurrogate n then ⟨h.all, some n⟩
    else h.push (CodePoint.ofNat n)
  | none => if isHighSurrogate n then ⟨h.points, some n⟩ else h.push (CodePoint.ofNat n)

end Held

/-- The text of a string, read onto what it holds so far, up to its closing quote. -/
def stringOnto (held : Held) : Text → Except ReadError (Text × Text)
  | [] => .error .malformed
  | c :: rest =>
    if c = CodePoint.ofChar '"' then .ok (held.all.reverse, rest)
    else if c = CodePoint.ofChar '\\' then match rest with
      | [] => .error .malformed
      | e :: rest =>
        if e = CodePoint.ofChar 'u' then match rest with
          | x :: y :: z :: w :: rest => match unit? x y z w with
            | none => .error .malformed
            | some n => stringOnto (held.pushUnit n) rest
          | _ => .error .malformed
        else match escapeOf? e with
          | some c => stringOnto (held.push c) rest
          | none => .error .malformed
    else if c.val < 0x20 then .error .malformed
    else stringOnto (held.push c) rest

/-- The text of a string whose opening quote has been taken. -/
def readString (t : Text) : Except ReadError (Text × Text) :=
  stringOnto {} t

/-! ## Numbers -/

/-- Whether a code point is a digit. -/
def isDigit (c : CodePoint) : Bool :=
  c.digit?.isSome

/-- The digits at the start of a text, and the rest. -/
def digits (t : Text) : Text × Text :=
  t.span isDigit

/-- The digits after a point, if a point and a digit come next. -/
def fraction (t : Text) : Option (Text × Text) :=
  match t with
  | c :: rest =>
    if c = CodePoint.ofChar '.' then
      let (row, rest) := digits rest
      if row.isEmpty then none else some (row, rest)
    else none
  | [] => none

/-- A sign, if one comes next: whether it is a minus, and the rest. -/
def sign (t : Text) : Bool × Text :=
  match t with
  | c :: rest =>
    if c = CodePoint.ofChar '-' then (true, rest)
    else if c = CodePoint.ofChar '+' then (false, rest)
    else (false, t)
  | [] => (false, [])

/-- The power of ten after an exponent mark, if a mark and a number come next. -/
def power (t : Text) : Option (Int × Text) :=
  match t with
  | c :: rest =>
    if c = CodePoint.ofChar 'e' ∨ c = CodePoint.ofChar 'E' then
      let (negative, rest) := sign rest
      let (row, rest) := digits rest
      match Decimal.read? row with
      | some n => some (if negative then -n else n, rest)
      | none => none
    else none
  | [] => none

/-- A number after its sign. A whole part has no needless zero; a fraction or an exponent that is
not complete is left in the text. -/
def readNumber (negative : Bool) (t : Text) : Except ReadError (Json × Text) :=
  let (row, rest) := digits t
  let (whole, rest) := if row.head? = some (CodePoint.ofChar '0') then
    (row.take 1, row.drop 1 ++ rest) else (row, rest)
  if whole.isEmpty then .error .malformed
  else
    let fractional := fraction rest
    let (places, afterFraction) := fractional.getD ([], rest)
    let powered := power afterFraction
    let (exponent, afterPower) := powered.getD (0, afterFraction)
    if fractional.isSome ∨ powered.isSome then
      let value := (Decimal.read? (whole ++ places)).getD 0
      .ok (.real (Binary64.ofDecimal negative value (exponent - places.length)), afterPower)
    else if digitLimit < whole.length then .error (.tooManyDigits whole.length)
    else
      let value := (Decimal.read? whole).getD 0
      .ok (.int (if negative then -value else value), rest)

/-! ## Values -/

/-- The rest of a text after a word, if it starts with the word. -/
def afterWord? (word : Text) (t : Text) : Option Text :=
  if word.isPrefixOf t then some (t.drop word.length) else none

/-- The words that stand for a value. -/
def words : List (Text × Json) :=
  [("null", .null), ("true", .bool true), ("false", .bool false), ("NaN", .real .nan),
    ("Infinity", .real (.infinite false)), ("-Infinity", .real (.infinite true))]

/-- The value of the word at the start of a text. -/
def readWord? (t : Text) : Option (Json × Text) :=
  words.findSome? fun (word, value) => (afterWord? word t).map (value, ·)

/-- A value that is no string, array or object. -/
def readScalar (t : Text) : Except ReadError (Json × Text) :=
  match readWord? t with
  | some found => .ok found
  | none => match t with
    | c :: rest => if c = CodePoint.ofChar '-' then readNumber true rest else readNumber false t
    | [] => .error .malformed

mutual

/-- A value at the start of a text. `depth` bounds the values it may hold one inside another, and
`fuel` the values and separators it may hold at all. -/
def readValue (depth : Nat) : Nat → Text → Except ReadError (Json × Text)
  | 0, _ => .error .malformed
  | _, [] => .error .malformed
  | fuel + 1, c :: rest =>
    if c = CodePoint.ofChar '"' then
      match readString rest with
      | .ok (t, rest) => .ok (.string t, rest)
      | .error e => .error e
    else if c = CodePoint.ofChar '[' then
      let rest := skipGap rest
      if depth = 0 then .error .tooDeep
      else if rest.head? = some (CodePoint.ofChar ']') then .ok (.array [], rest.drop 1)
      else itemsOnto (depth - 1) [] fuel rest
    else if c = CodePoint.ofChar '\x7b' then
      let rest := skipGap rest
      if depth = 0 then .error .tooDeep
      else if rest.head? = some (CodePoint.ofChar '\x7d') then .ok (.object [], rest.drop 1)
      else fieldsOnto (depth - 1) [] fuel rest
    else readScalar (c :: rest)

/-- The items of an array read onto `acc`, newest first, up to the closing bracket. -/
def itemsOnto (depth : Nat) (acc : List Json) : Nat → Text → Except ReadError (Json × Text)
  | 0, _ => .error .malformed
  | fuel + 1, t => match readValue depth fuel t with
    | .error e => .error e
    | .ok (item, rest) => match skipGap rest with
      | c :: rest =>
        if c = CodePoint.ofChar ',' then itemsOnto depth (item :: acc) fuel (skipGap rest)
        else if c = CodePoint.ofChar ']' then .ok (.array (item :: acc).reverse, rest)
        else .error .malformed
      | [] => .error .malformed

/-- The fields of an object read onto `acc`, oldest first, up to the closing brace. -/
def fieldsOnto (depth : Nat) (acc : List (Text × Json)) :
    Nat → Text → Except ReadError (Json × Text)
  | 0, _ => .error .malformed
  | _, [] => .error .malformed
  | fuel + 1, c :: rest =>
    if c = CodePoint.ofChar '"' then match readString rest with
      | .error e => .error e
      | .ok (key, rest) => match skipGap rest with
        | [] => .error .malformed
        | c :: rest =>
          if c = CodePoint.ofChar ':' then match readValue depth fuel (skipGap rest) with
            | .error e => .error e
            | .ok (value, rest) =>
              let acc := Table.put key value acc
              match skipGap rest with
              | c :: rest =>
                if c = CodePoint.ofChar ',' then fieldsOnto depth acc fuel (skipGap rest)
                else if c = CodePoint.ofChar '\x7d' then .ok (.object acc, rest)
                else .error .malformed
              | [] => .error .malformed
          else .error .malformed
    else .error .malformed

end

/-- The value that a whole document holds, with nothing but blanks around it. -/
def read (t : Text) : Except ReadError Json :=
  match readValue depthLimit (t.length + 1) (skipGap t) with
  | .error e => .error e
  | .ok (value, rest) => if (skipGap rest).isEmpty then .ok value else .error .malformed

end StepReplay.Json
