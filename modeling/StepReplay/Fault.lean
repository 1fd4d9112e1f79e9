import StepReplay.Calldata
import StepReplay.Disk
import StepReplay.Json.Reader
import StepReplay.State

set_option autoImplicit false

/-! # Failures and faults

A failure belongs to the case at hand: a run records it, reports it and goes on. A fault is
anything that ends an action early. Failures are faults; all other faults end the whole run. -/

namespace StepReplay

/-- What can go wrong with a case. -/
inductive Failure where
  | decode (e : DecodeError)
  /-- There is no engine, or it is not attached. -/
  | noEngine
  /-- The engine has been closed. -/
  | noDatabase
  | unreadableCode (path : Text) (e : FileError)
  | malformedCode (path : Text) (e : DecodeError)
  | emptyCode (path : Text)
  | creationFailed (reason : Option Text)
  | creationEmpty
  | disclosureFailed (reason : Option Text)
  | stepFailed (reason : Option Text)
  | outputSize (actual : Nat)
  | logCount (actual : Nat)
  /-- The returned fingerprint is not that of the state in the log. -/
  | logMismatch (returned logged : Hash)
  /-- The fingerprint of the native machine is not that of the modules. -/
  | nativeMismatch (native computed : Hash)

namespace Failure

/-- The name of the kind that a failure belongs to. -/
def kind : Failure → Text
  | decode e => e.kind
  | noEngine | noDatabase => "EnvironmentUnavailable"
  | unreadableCode _ _ | malformedCode _ _ | emptyCode _ | creationFailed _ | creationEmpty =>
    "DeploymentFailure"
  | disclosureFailed _ | stepFailed _ => "ExecutionFailure"
  | outputSize _ | logCount _ => "ProtocolViolation"
  | logMismatch _ _ | nativeMismatch _ _ => "FingerprintMismatch"

/-- The two fingerprints of a failure that compares some, the expected one first. -/
def mismatch? : Failure → Option (Hash × Hash)
  | logMismatch returned logged => some (returned, logged)
  | nativeMismatch native computed => some (native, computed)
  | _ => none

/-- A message with the reason behind it, if there is one. -/
def withReason (message : Text) : Option Text → Text
  | some reason => message ++ ": " ++ reason
  | none => message

/-- Two fingerprints that ought to be one. -/
def unequal (message : Text) (expected actual : Hash) : Text :=
  message ++ ": " ++ hexText expected.bytes ++ " != " ++ hexText actual.bytes

/-- The message of a failure. -/
def message : Failure → Text
  | decode e => e.message
  | noEngine => "Missing execution environment backend"
  | noDatabase => "Missing database"
  | unreadableCode path e => "cannot read bytecode " ++ path ++ ": " ++ e.message path
  | malformedCode path e => "malformed bytecode in " ++ path ++ ": " ++ e.message
  | emptyCode path => "empty bytecode in " ++ path
  | creationFailed reason => withReason "Failed to deploy MIPS contract" reason
  | creationEmpty => "Failed to deploy MIPS contract: empty runtime code"
  | disclosureFailed reason =>
    withReason "Failed to commit preimage to PreimageOracle contract" reason
  | stepFailed reason => withReason "Failed to step MIPS contract" reason
  | outputSize actual =>
    "Expected a 32 byte state hash, got " ++ Decimal.ofNat actual ++ " bytes"
  | logCount actual => "Expected 1 log, got " ++ Decimal.ofNat actual
  | logMismatch returned logged =>
    unequal "Post-state hash does not match state hash in log" returned logged
  | nativeMismatch native computed =>
    unequal "Native post-state hash does not match EVM post-state hash" native computed

end Failure

/-- What ends an action early. -/
inductive Fault where
  | failure (f : Failure)
  | field (e : State.FieldError)
  | call (e : CallError)
  | file (e : FileError)
  /-- A file is not UTF-8. -/
  | undecodable
  /-- A text holds a surrogate where bytes are needed. -/
  | unencodable
  | document (e : Json.ReadError)
  /-- An account address of the configuration has the wrong size. -/
  | configAddress (name : Text) (actual : Nat)
  /-- An address given to the engine has the wrong size. -/
  | engineAddress (actual : Nat)
  /-- A number does not fit the engine's type for it. -/
  | overflow
  /-- A transfer exceeds the sender's balance. -/
  | balanceTooLow
  /-- A disclosure of no key, or a transaction of no data. -/
  | missing
  /-- An operation on no engine at all. -/
  | absent

namespace Fault

/-- A fault in witness data. -/
def decode (e : DecodeError) : Fault := failure (.decode e)

/-- A fault in the fields of a state, where a wrong size is a fault in witness data. -/
def ofFields : State.FieldError → Fault
  | .wrongSize expected actual => decode (.wrongSize expected actual)
  | e => field e

/-- The message of a fault that has one. -/
def message? : Fault → Option Text
  | failure f => some f.message
  | field e => some e.message
  | call .notAscii | call .wrongArgument => none
  | call e => some e.message
  | document e => e.message?
  | configAddress name actual =>
    some (name ++ " must be 20 bytes, got " ++ Decimal.ofNat actual)
  | engineAddress actual => some ("expected 20 bytes but got " ++ Decimal.ofNat actual)
  | file .nulInName => some "embedded null byte"
  | file _ | undecodable | unencodable | overflow | balanceTooLow | missing | absent => none

/-- What a fault says to a reader. -/
def wording (e : Fault) : Text :=
  e.message?.getD <| match e with
    | file .notFound => "no such file or directory"
    | file .notDirectory => "not a directory"
    | file .isDirectory => "is a directory"
    | file .occupied => "file exists"
    | file .tooDeep => "too many directories one inside another"
    | document .tooDeep => "a document is nested too deep"
    | file .nameTooLong => "file name too long"
    | undecodable => "a file is not UTF-8"
    | unencodable => "a text cannot be written in UTF-8"
    | overflow => "a number does not fit"
    | balanceTooLow => "a transfer exceeds the balance of the sender"
    | missing => "a key or data is missing"
    | absent => "there is no engine"
    | _ => "a document or a call is malformed"

end Fault

end StepReplay
