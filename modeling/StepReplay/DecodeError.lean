import StepReplay.Base64
import StepReplay.Deflate.Bits
import StepReplay.Json.Literal

set_option autoImplicit false

/-! # Errors in witness data

Each cause is a constructor with the values its message shows. The causes fall into a few kinds,
and a failure report names the kind beside the message. -/

namespace StepReplay

/-- Why witness data is not accepted. -/
inductive DecodeError where
  /-- Hex text was expected and a value of another kind found. -/
  | notText (kind : Text)
  | notHex (text : Text)
  | notBase64 (fault : Base64.Fault)
  | wrongSize (expected : Int) (actual : Nat)
  | badStream (fault : Deflate.Fault)
  /-- A step witness is no object, or it has no state. -/
  | noState
  | offsetNotInteger (value : Json)
  | offsetOutOfRange (offset : Int)
  | noPreimage
  | localPreimageTooLong (length : Nat)
  | unknownKeyType (type : Nat)
  | noWitness (fixture : Text)
  | noFixtures (path : Text)

/-- The wording of a fault in base64 text. -/
def Base64.Fault.message : Base64.Fault → Text
  | .foreignCharacter => "Only base64 data is allowed"
  | .leadingPadding => "Leading padding not allowed"
  | .paddingInside => "Discontinuous padding not allowed"
  | .excessData => "Excess data after padding"
  | .missingPadding => "Incorrect padding"
  | .loneCharacter count =>
    "Invalid base64-encoded string: number of data characters (" ++ Decimal.ofNat count
      ++ ") cannot be 1 more than a multiple of 4"

/-- The wording of a fault in the data of a stream; truncation and dictionaries have none. -/
def Deflate.Fault.dataMessage? : Deflate.Fault → Option Text
  | .headerCheck => some "incorrect header check"
  | .unknownMethod => some "unknown compression method"
  | .windowSize => some "invalid window size"
  | .blockType => some "invalid block type"
  | .storedLength => some "invalid stored block lengths"
  | .tooManySymbols => some "too many length or distance symbols"
  | .lengthCode => some "invalid code lengths set"
  | .repeatedLength => some "invalid bit length repeat"
  | .noEndOfBlock => some "invalid code -- missing end-of-block"
  | .literalCode => some "invalid literal/lengths set"
  | .distanceCode => some "invalid distances set"
  | .literalSymbol => some "invalid literal/length code"
  | .distanceSymbol => some "invalid distance code"
  | .distanceTooFar => some "invalid distance too far back"
  | .checksum => some "incorrect data check"
  | .dictionaryNeeded => none
  | .truncated => none

/-- The wording of a fault in a compressed stream. -/
def Deflate.Fault.message (fault : Deflate.Fault) : Text :=
  match fault.dataMessage? with
  | some text => "Error -3 while decompressing data: " ++ text
  | none =>
    if fault = .truncated then
      "Error -5 while decompressing data: incomplete or truncated stream"
    else "Error 2 while decompressing data"

namespace DecodeError

/-- The name of the kind that a cause belongs to. -/
def kind : DecodeError → Text
  | notText _ | notHex _ | notBase64 _ | noState | offsetNotInteger _ | offsetOutOfRange _ =>
    "FormatError"
  | wrongSize _ _ => "SizeError"
  | badStream _ => "CompressionError"
  | noPreimage | localPreimageTooLong _ | unknownKeyType _ => "PreimageError"
  | noWitness _ | noFixtures _ => "CodecError"

/-- How much of a text at fault a message shows. -/
def shownLength : Nat := 80

/-- The message of a cause. -/
def message : DecodeError → Text
  | notText kind => "expected hex text, got " ++ kind
  | notHex text => "invalid hex string: " ++ Quoted.encode (text.take shownLength)
  | notBase64 fault => "invalid base64 payload: " ++ fault.message
  | wrongSize expected actual =>
    "expected " ++ Decimal.ofInt expected ++ " bytes, got " ++ Decimal.ofNat actual
  | badStream fault => "corrupt compressed stream: " ++ fault.message
  | noState => "step witness must be an object with a state field"
  | offsetNotInteger value => "preimage offset must be an integer: " ++ value.literal
  | offsetOutOfRange offset => "preimage offset out of range: " ++ Decimal.ofInt offset
  | noPreimage => "preimage value missing or shorter than its length prefix"
  | localPreimageTooLong length => "local preimage exceeds 32 bytes: " ++ Decimal.ofNat length
  | unknownKeyType type => "unsupported preimage key type: " ++ Decimal.ofNat type
  | noWitness fixture => "fixture " ++ fixture ++ " has no witness"
  | noFixtures path => path ++ " does not hold step fixtures"

end DecodeError

end StepReplay
