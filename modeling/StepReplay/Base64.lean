import StepReplay.Bytes

set_option autoImplicit false

/-! # Base64

The payload of a compressed buffer is base64 text with padding. Reading is strict about what
stands in the text and lenient about the unused bits of its last character: only the alphabet and
`=` may occur, and after the padding that completes a group nothing may follow. A `=` that comes
where a group has just begun is skipped, and only forbids further characters. -/

namespace StepReplay.Base64

/-- Why a payload is not base64. -/
inductive Fault where
  | foreignCharacter
  | leadingPadding
  | paddingInside
  | excessData
  | missingPadding
  /-- The last group has a single character; `count` counts the characters up to it. -/
  | loneCharacter (count : Nat)
  deriving DecidableEq, Repr

/-! ## The alphabet -/

/-- The padding character. -/
def pad : UInt8 := 0x3D

/-- The value of a character. -/
def value? (c : UInt8) : Option Nat :=
  let n := c.toNat
  if 0x41 ≤ n ∧ n ≤ 0x5A then some (n - 0x41)
  else if 0x61 ≤ n ∧ n ≤ 0x7A then some (n - 0x61 + 26)
  else if 0x30 ≤ n ∧ n ≤ 0x39 then some (n - 0x30 + 52)
  else if n = 0x2B then some 62
  else if n = 0x2F then some 63
  else none

/-- The character with a value below 64. -/
def ofValue (v : Nat) : UInt8 :=
  if v < 26 then UInt8.ofNat (0x41 + v)
  else if v < 52 then UInt8.ofNat (0x61 + (v - 26))
  else if v < 62 then UInt8.ofNat (0x30 + (v - 52))
  else if v = 62 then 0x2B
  else 0x2F

/-! ## Writing -/

/-- The padded base64 text of a byte string. -/
def encode : Bytes → Bytes
  | [] => []
  | [a] => [ofValue (a.toNat / 4), ofValue (a.toNat % 4 * 16), pad, pad]
  | [a, b] =>
    [ofValue (a.toNat / 4), ofValue (a.toNat % 4 * 16 + b.toNat / 16),
      ofValue (b.toNat % 16 * 4), pad]
  | a :: b :: c :: rest =>
    ofValue (a.toNat / 4) :: ofValue (a.toNat % 4 * 16 + b.toNat / 16)
      :: ofValue (b.toNat % 16 * 4 + c.toNat / 64) :: ofValue (c.toNat % 64) :: encode rest

/-! ## Reading -/

/-- Where a reader stands. -/
structure Progress where
  /-- How many characters of the current group have been read. -/
  group : Nat
  /-- How many pads have been counted since the last character. -/
  pads : Nat
  /-- Whether a pad has been seen at all. -/
  padded : Bool
  /-- The bits that no byte has taken yet. -/
  left : Nat
  /-- The bytes read, newest first. -/
  read : Bytes

/-- The start of a payload. -/
def Progress.start : Progress := ⟨0, 0, false, 0, []⟩

/-- The six bits of a character added to those left over. -/
def Progress.push (p : Progress) (v : Nat) : Progress :=
  match p.group with
  | 0 => { p with group := 1, pads := 0, left := v }
  | 1 => { p with group := 2, pads := 0, left := v % 16,
                  read := UInt8.ofNat (p.left * 4 + v / 16) :: p.read }
  | 2 => { p with group := 3, pads := 0, left := v % 4,
                  read := UInt8.ofNat (p.left * 16 + v / 4) :: p.read }
  | _ => { p with group := 0, pads := 0, left := 0,
                  read := UInt8.ofNat (p.left * 64 + v) :: p.read }

/-- The answer at the end of a payload: a group must not be left open. -/
def Progress.finish (p : Progress) : Except Fault Bytes :=
  if p.group = 1 then .error (.loneCharacter (p.read.length / 3 * 4 + 1))
  else if p.group = 0 then .ok p.read.reverse
  else .error .missingPadding

/-- The bytes of a payload, read on from where the reader stands. -/
def Progress.run (p : Progress) : Bytes → Except Fault Bytes
  | [] => p.finish
  | c :: rest =>
    if c = pad then
      let p := { p with padded := true }
      if p.group < 2 then p.run rest
      else
        let p := { p with pads := p.pads + 1 }
        if p.group + p.pads < 4 then p.run rest
        else if rest.isEmpty then .ok p.read.reverse
        else .error .excessData
    else match value? c with
      | none => .error .foreignCharacter
      | some v => if p.padded then .error .paddingInside else (p.push v).run rest

/-- The bytes that a payload stands for. -/
def decode (payload : Bytes) : Except Fault Bytes :=
  if payload.head? = some pad then .error .leadingPadding else Progress.start.run payload

end StepReplay.Base64
