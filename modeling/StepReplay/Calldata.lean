import StepReplay.Keccak
import StepReplay.Text.Decimal
import StepReplay.Text.Quoted

set_option autoImplicit false

/-! # Function signatures and calldata

The modules are called through two kinds of function: those that take byte strings of any length
and those that take words. A call starts with the first four bytes of the hash of its signature,
and the arguments follow as one word each, where a byte string's word says where in the call its
length and content stand. -/

namespace StepReplay

/-- An argument of a call. -/
inductive Argument where
  | int (n : Int)
  | bytes (b : Bytes)
  deriving DecidableEq

/-- Why a call cannot be encoded. -/
inductive CallError where
  | malformedSignature (signature : Text)
  /-- A signature that is hashed must be ASCII. -/
  | notAscii
  | argumentCount (expected actual : Nat)
  | unsupportedType (type : Text)
  | intOutOfRange (value : Int)
  | wordTooLong (length : Nat)
  /-- A byte string was given for a number, or a number for a byte string. -/
  | wrongArgument
  deriving DecidableEq

/-- The message of an error. -/
def CallError.message : CallError → Text
  | malformedSignature signature => "malformed function signature: " ++ Quoted.encode signature
  | notAscii => "signature is not ASCII"
  | argumentCount expected actual =>
    "expected " ++ Decimal.ofNat expected ++ " arguments, got " ++ Decimal.ofNat actual
  | unsupportedType type => "unsupported ABI type: " ++ type
  | intOutOfRange value => "value out of uint256 range: " ++ Decimal.ofInt value
  | wordTooLong length => "bytes32 value too long: " ++ Decimal.ofNat length ++ " bytes"
  | wrongArgument => "argument of the wrong kind"

/-! ## Signatures -/

/-- A function's name and the types of its parameters. -/
structure Signature where
  name : Text
  types : List Text
  deriving DecidableEq

namespace Signature

/-- The signature that a text stands for: a name, and the types between its first parenthesis and
the parenthesis at its end. -/
def parse (t : Text) : Except CallError Signature :=
  let name := t.takeWhile (· ≠ CodePoint.ofChar '(')
  let rest := t.drop (name.length + 1)
  if name.isEmpty ∨ rest.getLast? ≠ some (CodePoint.ofChar ')') then
    .error (.malformedSignature t)
  else
    let types := rest.dropLast
    .ok ⟨name, if types.isEmpty then [] else Text.cutAt (CodePoint.ofChar ',') types⟩

/-- The text of a signature. -/
def text (s : Signature) : Text :=
  s.name ++ "(" ++ Text.joined "," s.types ++ ")"

end Signature

/-- The bytes of a text in ASCII. -/
def asciiBytes? (t : Text) : Option Bytes :=
  t.mapM fun c => if c.val < 0x80 then some (UInt8.ofNat c.val) else none

/-- The four bytes that a call of a function starts with. -/
def selector (signature : Text) : Except CallError Bytes :=
  match asciiBytes? signature with
  | some b => .ok ((Keccak.hash b).bytes.take 4)
  | none => .error .notAscii

/-! ## Encoding -/

namespace Calldata

/-- The bytes of a word. -/
def wordSize : Nat := 32

/-- The word of an integer. -/
def uintWord (value : Int) : Except CallError Bytes :=
  if 0 ≤ value ∧ value < Bytes.capacity wordSize then .ok (Bytes.ofNat wordSize value.toNat)
  else .error (.intOutOfRange value)

/-- The word of a short byte string, which stands at its start. -/
def bytesWord (value : Bytes) : Except CallError Bytes :=
  if wordSize < value.length then .error (.wordTooLong value.length)
  else .ok (value.padRight wordSize)

/-- The zero bytes after a byte string that fill its last word. -/
def filler (length : Nat) : Bytes :=
  Bytes.zeros ((wordSize - length % wordSize) % wordSize)

/-- A byte string of any length: its length, its content and zeros up to whole words. -/
def dynamic (value : Bytes) : Except CallError Bytes :=
  (uintWord value.length).map fun length => length ++ value ++ filler value.length

/-- The two parts of encoded arguments, where the second part starts at `offset`. -/
def encodeFrom (offset : Nat) : List (Text × Argument) → Except CallError (Bytes × Bytes)
  | [] => .ok ([], [])
  | (type, argument) :: rest =>
    if type = "uint256" then match argument with
      | .int value => do
        let word ← uintWord value
        let (head, tail) ← encodeFrom offset rest
        return (word ++ head, tail)
      | .bytes _ => .error .wrongArgument
    else if type = "bytes32" then match argument with
      | .bytes value => do
        let word ← bytesWord value
        let (head, tail) ← encodeFrom offset rest
        return (word ++ head, tail)
      | .int _ => .error .wrongArgument
    else if type = "bytes" then match argument with
      | .bytes value => do
        let content ← dynamic value
        let word ← uintWord offset
        let (head, tail) ← encodeFrom (offset + content.length) rest
        return (word ++ head, content ++ tail)
      | .int _ => .error .wrongArgument
    else .error (.unsupportedType type)

/-- Encoded arguments of the given types. -/
def encodeArguments (types : List Text) (arguments : List Argument) : Except CallError Bytes :=
  if types.length ≠ arguments.length then
    .error (.argumentCount types.length arguments.length)
  else (encodeFrom (wordSize * types.length) (types.zip arguments)).map fun (head, tail) =>
    head ++ tail

/-- An encoded call. -/
def encodeCall (signature : Text) (arguments : List Argument) : Except CallError Bytes := do
  let parsed ← Signature.parse signature
  let front ← selector signature
  let rest ← encodeArguments parsed.types arguments
  return front ++ rest

/-! ## Reading -/

/-- The number in an argument's word, as far as the calldata goes. -/
def word (calldata : Bytes) (index : Nat) : Nat :=
  (calldata.slice (4 + wordSize * index) wordSize).toNat

/-- The byte string that an argument's word points to. -/
def dynamicArgument (calldata : Bytes) (index : Nat) : Bytes :=
  let start := 4 + word calldata index
  let length := (calldata.slice start wordSize).toNat
  calldata.slice (start + wordSize) length

end Calldata

end StepReplay
