import StepReplay.Block
import StepReplay.DecodeError
import StepReplay.Text.Blank
import StepReplay.Zlib

set_option autoImplicit false

/-! # Written forms of byte buffers

A buffer is written in hex, behind `0x`, or compressed, as base64 text inside a zlib stream so
that the payload of the stream stays text. Either form may ask for one size. A buffer of another
size is refused both ways; nothing is ever cut or padded. No buffer has a size below zero, but one
may be asked for. -/

namespace StepReplay

/-- A buffer that has the size asked for, if one is. -/
def checkSize (size : Option Int) (b : Bytes) : Except DecodeError Bytes :=
  match size with
  | none => .ok b
  | some n => if b.length = n then .ok b else .error (.wrongSize n b.length)

/-- A block of `n` bytes. -/
def Block.ofBytes (n : Nat) (b : Bytes) : Except DecodeError (Block n) :=
  if h : b.length = n then .ok ⟨b, h⟩ else .error (.wrongSize n b.length)

/-- The text between the brackets of a form's description. -/
def sizeText : Option Int → Text
  | none => "size=None"
  | some n => "size=" ++ Decimal.ofInt n

/-! ## Hex -/

/-- The hex form, of buffers of one size or of any. -/
structure HexForm where
  size : Option Int := none

namespace HexForm

/-- The text without one `0x` or `0X` at its start. -/
def withoutMark (t : Text) : Text :=
  if t.take 2 = "0x" ∨ t.take 2 = "0X" then t.drop 2 else t

/-- The digits of a hex text: blanks around it and its mark do not count. -/
def digits (t : Text) : Text :=
  withoutMark t.trim

/-- The hex text of a buffer. -/
def encode (form : HexForm) (b : Bytes) : Except DecodeError Text :=
  (checkSize form.size b).map fun b => "0x" ++ Hex.encode b

/-- The buffer of a hex text. -/
def decode (form : HexForm) (t : Text) : Except DecodeError Bytes :=
  match Hex.decode? (digits t) with
  | some b => checkSize form.size b
  | none => .error (.notHex t)

/-- The buffer of a value, which must be hex text. -/
def read (form : HexForm) : Json → Except DecodeError Bytes
  | .string t => form.decode t
  | other => .error (.notText other.kind)

/-- How the form describes itself. -/
def description (form : HexForm) : Text :=
  "HexCodec(" ++ sizeText form.size ++ ")"

end HexForm

/-- The block whose hex text a value is. -/
def Block.read (n : Nat) (j : Json) : Except DecodeError (Block n) := do
  Block.ofBytes n (← HexForm.read ⟨some n⟩ j)

/-- The hex text of a buffer of any size. -/
def hexText (b : Bytes) : Text :=
  "0x" ++ Hex.encode b

/-! ## Compressed -/

/-- The compressed form, of buffers of one size or of any. -/
structure CompressedForm where
  size : Option Int := none

namespace CompressedForm

/-- The text inside the stream of a buffer. -/
def payload (form : CompressedForm) (b : Bytes) : Except DecodeError Bytes :=
  (checkSize form.size b).map Base64.encode

/-- The stream of a buffer. -/
def encode (form : CompressedForm) (b : Bytes) : Except DecodeError Bytes :=
  (form.payload b).map Zlib.compress

/-- The content of a stream. -/
def inflate (blob : Bytes) : Except DecodeError Bytes :=
  (Zlib.decompress blob).mapError .badStream

/-- The buffer of a stream. -/
def decode (form : CompressedForm) (blob : Bytes) : Except DecodeError Bytes := do
  let payload ← inflate blob
  let b ← (Base64.decode payload).mapError .notBase64
  checkSize form.size b

/-- How the form describes itself. -/
def description (form : CompressedForm) : Text :=
  "CompressedCodec(" ++ sizeText form.size ++ ")"

end CompressedForm

/-- The stream of a block. -/
def Block.compressed {n : Nat} (b : Block n) : Except DecodeError Bytes :=
  CompressedForm.encode ⟨some n⟩ b.bytes

/-- The block of a stream. -/
def Block.ofCompressed (n : Nat) (blob : Bytes) : Except DecodeError (Block n) := do
  Block.ofBytes n (← CompressedForm.decode ⟨some n⟩ blob)

end StepReplay
