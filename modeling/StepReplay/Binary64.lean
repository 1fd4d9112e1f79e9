import StepReplay.Text.Decimal

set_option autoImplicit false

/-! # Double precision numbers

A fixture may hold a fraction where an integer belongs, and the message that rejects it shows the
number. Both directions are exact arithmetic on naturals: reading rounds a decimal to the nearest
double, a tie going to the even mantissa, and writing looks for the fewest digits that read back,
and among those for the nearest. -/

namespace StepReplay

/-- A double: `finite negative m e` has the magnitude `m · 2 ^ e`, where `m` is below `2 ^ 53` and
`e` is as small as that allows, but at least -1074. -/
inductive Binary64 where
  | nan
  | infinite (negative : Bool)
  | finite (negative : Bool) (mantissa : Nat) (exponent : Int)
  deriving DecidableEq, Repr, Inhabited

namespace Binary64

/-! ## Reading -/

/-- The least exponent a double has. -/
def leastExponent : Int := -1074

/-- The quotient rounded to the nearest natural, a tie to the even one. -/
def roundedQuotient (num den : Nat) : Nat :=
  let q := num / den
  let r := num % den
  if den < 2 * r ∨ (2 * r = den ∧ q % 2 = 1) then q + 1 else q

/-- A power of ten. -/
def powerOfTen (k : Nat) : Nat :=
  Nat.pow 10 k

/-- `num / den` in units of `2 ^ e`, as a fraction. -/
def inUnits (num den : Nat) (e : Int) : Nat × Nat :=
  (num <<< (-e).toNat, den <<< e.toNat)

/-- The double nearest to a positive fraction. -/
def ofFraction (negative : Bool) (num den : Nat) : Binary64 :=
  let scale : Int := Nat.log2 num - Nat.log2 den
  let low := max (scale - 53) leastExponent
  let (n, d) := inUnits num den low
  let e := if n / d < 1 <<< 53 then low else low + 1
  let (n, d) := inUnits num den e
  let m := roundedQuotient n d
  let (m, e) := if m < 1 <<< 53 then (m, e) else (m / 2, e + 1)
  if e > 971 then .infinite negative else .finite negative m e

/-- The double nearest to `digits · 10 ^ exponent`. Exponents that are out of reach whatever the
digits are settled before any power is computed. -/
def ofDecimal (negative : Bool) (digits : Nat) (exponent : Int) : Binary64 :=
  if digits = 0 then .finite negative 0 leastExponent
  else if exponent > 310 then .infinite negative
  else if (Nat.log2 digits : Int) + 1 + 3 * exponent < -1080 then .finite negative 0 leastExponent
  else ofFraction negative (digits * powerOfTen exponent.toNat)
      (powerOfTen (-exponent).toNat)

/-! ## Writing -/

/-- The order of `a · 10 ^ p` and `b · 2 ^ e`. -/
def compareScaled (a : Nat) (p : Int) (b : Nat) (e : Int) : Ordering :=
  compare ((a * powerOfTen p.toNat) <<< (-e).toNat) ((b <<< e.toNat) * powerOfTen (-p).toNat)

/-- The greatest `k` with `10 ^ k ≤ m · 2 ^ e`, where the magnitude is positive. -/
def decimalScale (m : Nat) (e : Int) : Int :=
  let low : Int := ((Nat.log2 m : Int) + e) * 30103 / 100000 - 1
  if compareScaled 1 (low + 2) m e != .gt then low + 2
  else if compareScaled 1 (low + 1) m e != .gt then low + 1
  else low

/-- Whether `a · 10 ^ p` rounds to `m · 2 ^ e`. Distances are taken in quarter units, because the
neighbour below a power of two is only half as far away. -/
def roundsTo (a : Nat) (p : Int) (m : Nat) (e : Int) : Bool :=
  let below := if m = 1 <<< 52 ∧ e > leastExponent then 4 * m - 1 else 4 * m - 2
  let lower := compareScaled a p below (e - 2)
  let upper := compareScaled a p (4 * m + 2) (e - 2)
  if m % 2 = 0 then lower != .lt && upper != .gt else lower == .gt && upper == .lt

/-- The better of the two neighbours of `m · 2 ^ e` on the grid of multiples of `10 ^ p`, if one
of them rounds back. -/
def onGrid? (p : Int) (m : Nat) (e : Int) : Option Nat :=
  let num := (m <<< e.toNat) * powerOfTen (-p).toNat
  let den := powerOfTen p.toNat <<< (-e).toNat
  let down := num / den
  let nearest := roundedQuotient num den
  let other := if nearest = down then down + 1 else down
  if roundsTo nearest p m e then some nearest
  else if roundsTo other p m e then some other
  else none

/-- Digits and exponent of the shortest decimal that rounds to `m · 2 ^ e`, looked for with one
digit more at a time; seventeen digits are always enough. The upper neighbour may be the next
power of ten, and then it has a zero to spare. -/
def shortest (m : Nat) (e : Int) : Nat × Int :=
  let scale := decimalScale m e
  let rec search : Nat → Nat → Nat × Int
    | 0, _ => (0, 0)
    | tries + 1, count =>
      let p := scale - count + 1
      match onGrid? p m e with
      | some d => if d % 10 = 0 then (d / 10, p + 1) else (d, p)
      | none => search tries (count + 1)
  search 17 1

/-- Numbers from `10 ^ 16` on and below `10 ^ -4` have an exponent of two digits or more, and all
others are positional with at least one digit after the point. -/
def textOfDigits (digits : Nat) (p : Int) : Text :=
  let row := Decimal.ofNat digits
  let point : Int := row.length + p
  if -4 < point ∧ point ≤ 16 then
    if point ≤ 0 then "0." ++ List.replicate (-point).toNat (CodePoint.ofDigit 0) ++ row
    else if row.length ≤ point.toNat then
      row ++ List.replicate (point.toNat - row.length) (CodePoint.ofDigit 0) ++ ".0"
    else row.take point.toNat ++ "." ++ row.drop point.toNat
  else
    let tail : Text := if row.length ≤ 1 then [] else "." ++ row.drop 1
    let sign : Text := if point - 1 < 0 then "-" else "+"
    row.take 1 ++ tail ++ "e" ++ sign ++ Decimal.padded 2 (point - 1).natAbs

/-- The text of a double, with the given names for what is no number. -/
def text (nanName infinityName : Text) : Binary64 → Text
  | .nan => nanName
  | .infinite negative => (if negative then "-" else "") ++ infinityName
  | .finite negative m e =>
    let magnitude := if m = 0 then ("0.0" : Text) else
      let (d, p) := shortest m e
      textOfDigits d p
    (if negative then "-" else "") ++ magnitude

end Binary64

end StepReplay
