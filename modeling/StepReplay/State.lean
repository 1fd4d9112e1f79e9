import StepReplay.Form
import StepReplay.Keccak

set_option autoImplicit false

/-! # Machine states

A state of the MIPS machine is encoded in 226 bytes: eleven fields and 32 registers, big-endian
and without gaps. The encoding is the state, and its fields are read off it. Encoding takes fields
as integers of any size, so that a value that does not fit is an error and not another value. -/

namespace StepReplay

/-- An encoded machine state. -/
abbrev State := Block 226

namespace State

/-! ## The layout -/

/-- The widths of the fields: memory root, preimage key, preimage offset, the two program
counters, the two multiplier registers, the heap, exit code, exited, step, and the registers. -/
def widths : List Nat :=
  [32, 32, 4, 4, 4, 4, 4, 4, 1, 1, 8] ++ List.replicate 32 4

/-- The fields of a state as they are stored. -/
def cells (s : State) : List Bytes :=
  s.bytes.cut widths

/-- The bytes of the field at a place in the layout. -/
def cell (s : State) (place : Nat) : Bytes :=
  (s.cells[place]?).getD []

/-- The root of the Merkle tree over memory. -/
def memRoot (s : State) : Bytes := s.cell 0

/-- The key of the preimage that is being read. -/
def preimageKey (s : State) : Bytes := s.cell 1

/-- The offset in that preimage. -/
def preimageOffset (s : State) : Nat := (s.cell 2).toNat

/-- The program counter. -/
def pc (s : State) : Nat := (s.cell 3).toNat

/-- The program counter of the instruction after the next. -/
def nextPc (s : State) : Nat := (s.cell 4).toNat

/-- The low register of multiplication. -/
def lo (s : State) : Nat := (s.cell 5).toNat

/-- The high register of multiplication. -/
def hi (s : State) : Nat := (s.cell 6).toNat

/-- The heap pointer. -/
def heap (s : State) : Nat := (s.cell 7).toNat

/-- The exit code, which means something once the program has exited. -/
def exitCode (s : State) : Nat := (s.cell 8).toNat

/-- Whether the program has exited; any other byte than one says it has not. -/
def exited (s : State) : Bool := (s.cell 9).toNat == 1

/-- The number of steps taken so far. -/
def step (s : State) : Nat := (s.cell 10).toNat

/-- The general purpose registers. -/
def registers (s : State) : List Nat := (s.cells.drop 11).map Bytes.toNat

/-! ## Fields -/

/-- The content of a state before it is encoded. -/
structure Fields where
  memRoot : Bytes := Bytes.zeros 32
  preimageKey : Bytes := Bytes.zeros 32
  preimageOffset : Int := 0
  pc : Int := 0
  nextPc : Int := 4
  lo : Int := 0
  hi : Int := 0
  heap : Int := 0
  exitCode : Int := 0
  exited : Bool := false
  step : Int := 0
  registers : List Int := List.replicate 32 0
  deriving DecidableEq

/-- The fields of a state. -/
def fields (s : State) : Fields where
  memRoot := s.memRoot
  preimageKey := s.preimageKey
  preimageOffset := s.preimageOffset
  pc := s.pc
  nextPc := s.nextPc
  lo := s.lo
  hi := s.hi
  heap := s.heap
  exitCode := s.exitCode
  exited := s.exited
  step := s.step
  registers := s.registers.map Int.ofNat

/-- Why fields make no state. -/
inductive FieldError where
  | wrongSize (expected actual : Nat)
  | registerCount (actual : Nat)
  | outOfRange (field : Text) (bits : Nat) (value : Int)
  deriving DecidableEq

/-- The message of a fault in a number; a fault in a size has the message of a wrong size. -/
def FieldError.message : FieldError → Text
  | .wrongSize expected actual => (DecodeError.wrongSize expected actual).message
  | .registerCount actual => "expected 32 registers, got " ++ Decimal.ofNat actual
  | .outOfRange field bits value =>
    field ++ " out of range for " ++ Decimal.ofNat bits ++ " bits: " ++ Decimal.ofInt value

namespace Fields

/-- The named numbers of a state with their widths in bytes, in the order in which they are
checked. -/
def numbers (f : Fields) : List (Text × Nat × Int) :=
  let named : List (Text × Nat × Int) :=
    [("preimage_offset", 4, f.preimageOffset), ("pc", 4, f.pc), ("next_pc", 4, f.nextPc),
      ("lo", 4, f.lo), ("hi", 4, f.hi), ("heap", 4, f.heap), ("exit_code", 1, f.exitCode),
      ("step", 8, f.step)]
  named ++ f.registers.zipIdx.map fun (value, i) => ("register " ++ Decimal.ofNat i, 4, value)

/-- Whether a number fits into so many bytes. -/
def fits (width : Nat) (value : Int) : Bool :=
  0 ≤ value && value < Bytes.capacity width

/-- The first fault of the fields: sizes, then the count of registers, then numbers in order. -/
def fault? (f : Fields) : Option FieldError :=
  if f.memRoot.length ≠ 32 then some (.wrongSize 32 f.memRoot.length)
  else if f.preimageKey.length ≠ 32 then some (.wrongSize 32 f.preimageKey.length)
  else if f.registers.length ≠ 32 then some (.registerCount f.registers.length)
  else f.numbers.findSome? fun (name, width, value) =>
    if fits width value then none else some (.outOfRange name (8 * width) value)

/-- The encoding of fields that have no fault. -/
def encoded (f : Fields) : Bytes :=
  let word := fun value : Int => Bytes.ofNat 4 value.toNat
  f.memRoot ++ f.preimageKey ++ word f.preimageOffset ++ word f.pc ++ word f.nextPc ++ word f.lo
    ++ word f.hi ++ word f.heap ++ Bytes.ofNat 1 f.exitCode.toNat
    ++ [if f.exited then 1 else 0] ++ Bytes.ofNat 8 f.step.toNat ++ f.registers.flatMap word

end Fields

/-- Without a fault the encoding has the size of a state. -/
theorem Fields.length_encoded {f : Fields} (h : f.fault? = none) :
    f.encoded.length = 226 := by
  simp only [fault?] at h
  split at h <;> try contradiction
  split at h <;> try contradiction
  split at h <;> try contradiction
  rename_i root key count
  have registers : (f.registers.flatMap fun value : Int => Bytes.ofNat 4 value.toNat).length
      = 4 * f.registers.length := by
    simp [List.length_flatMap, Bytes.length_ofNat, List.map_const', Nat.mul_comm]
  simp only [ne_eq, Decidable.not_not] at root key count
  simp only [encoded, List.length_append, Bytes.length_ofNat, registers, root, key, count,
    List.length_cons, List.length_nil]

/-- The state with the given fields. -/
def ofFields (f : Fields) : Except FieldError State :=
  match h : f.fault? with
  | some fault => .error fault
  | none => .ok ⟨f.encoded, Fields.length_encoded h⟩

/-- The hex form of a state. -/
def hex (s : State) : Text := hexText s.bytes

end State

end StepReplay
