import StepReplay.State

set_option autoImplicit false

/-! # Fingerprints of states

The fingerprint of a state is its Keccak-256 digest with the first byte given up to the status of
the machine. So two states with one fingerprint agree on whether and how the program exited. -/

namespace StepReplay

/-- How far a program has come. -/
inductive Status where
  | valid
  | invalid
  | panic
  | unfinished
  deriving DecidableEq, Repr

namespace Status

/-- The status of a program with the given exit code, or of one that still runs. -/
def ofExit (exited : Bool) (exitCode : Int) : Status :=
  if !exited then unfinished
  else if exitCode = 0 then valid
  else if exitCode = 1 then invalid
  else panic

/-- The byte that stands for a status. -/
def byte : Status → UInt8
  | valid => 0
  | invalid => 1
  | panic => 2
  | unfinished => 3

/-- The name of a status. -/
def name : Status → Text
  | valid => "VALID"
  | invalid => "INVALID"
  | panic => "PANIC"
  | unfinished => "UNFINISHED"

end Status

namespace State

/-- Where the exit code stands in an encoded state; the exited flag follows it. -/
def exitCodeOffset : Nat := 32 * 2 + 4 * 6

/-- The status, read from the two bytes that hold it. -/
def status (s : State) : Status :=
  Status.ofExit (s.bytes.getD (exitCodeOffset + 1) 0 == 1) (s.bytes.getD exitCodeOffset 0).toNat

/-- The fingerprint of a state. -/
def hash (s : State) : Hash :=
  let digest := Keccak.hash s.bytes
  ⟨s.status.byte :: digest.bytes.drop 1, by simp [digest.length_bytes]⟩

/-- How a state describes itself. -/
def description (s : State) : Text :=
  "StateWitness(step=" ++ Decimal.ofNat s.step ++ ", pc=0x" ++ Hex.ofNat 8 s.pc ++ ", status="
    ++ s.status.name ++ ")"

end State

/-- The fingerprint of bytes that must encode a state. -/
def stateHash (b : Bytes) : Except DecodeError Hash :=
  (Block.ofBytes 226 b).map State.hash

end StepReplay
