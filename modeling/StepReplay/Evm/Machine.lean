import StepReplay.Environment
import StepReplay.Evm.Op

set_option autoImplicit false

/-! # The machine

What a run reads and changes: the code and the input it was started with, which stay, and the
stack, the memory and the storage of its account, which change. Gas is no part of the machine. No
instruction sees it, so the effect of an instruction is a function of the machine alone. -/

namespace StepReplay.Evm

/-- A word of the machine. -/
abbrev Word := BitVec 256

/-- Storage slots by key; a missing one holds zero. -/
abbrev Slots := Table Word Word

/-- The value of a slot. -/
def Slots.value (s : Slots) (key : Word) : Word :=
  (Table.find? key s).getD 0

/-- What a run is started with. -/
structure Frame where
  code : Array UInt8
  /-- For each position in the code whether a jump may lead there. -/
  targets : Array Bool
  data : Bytes
  address : Bytes
  caller : Bytes
  value : Nat
  /-- The storage of the account before the transaction. -/
  initial : Slots

/-- What a run changes. -/
structure Machine where
  pc : Nat := 0
  /-- The stack, top first. -/
  stack : List Word := []
  memory : Array UInt8 := #[]
  slots : Slots := []
  /-- The keys of the slots that have been used. -/
  warm : List Word := []
  /-- The records emitted so far, oldest first. -/
  logs : List LogRecord := []

/-- Why a run fails. -/
inductive Exception where
  | stackUnderflow
  | stackOverflow
  | outOfGas
  | invalidOpcode
  | invalidJump
  /-- Created code starts with a byte that is kept for other formats. -/
  | invalidPrefix
  deriving DecidableEq, Repr

/-- How a run ends. -/
inductive Ending where
  | returned (output : Bytes)
  | reverted (output : Bytes)
  | failed (e : Exception)

/-! ## Words and memory -/

/-- The most words on a stack. -/
def stackLimit : Nat := 1024

/-- The least multiple of 32 that is no less than a number. -/
def ceil32 (n : Nat) : Nat :=
  (n + 31) / 32 * 32

/-- The words that so many bytes take. -/
def wordCount (n : Nat) : Nat :=
  (n + 31) / 32

/-- The word of a byte string, which is read as a number. -/
def wordOfBytes (b : Bytes) : Word :=
  BitVec.ofNat 256 b.toNat

/-- The 32 bytes of a word. -/
def bytesOfWord (w : Word) : Bytes :=
  Bytes.ofNat 32 w.toNat

namespace Machine

/-- The size of memory once so many bytes from a start are in use. -/
def sizeFor (m : Machine) (start count : Nat) : Nat :=
  if count = 0 then m.memory.size else max m.memory.size (ceil32 (start + count))

/-- The machine with zeros up to a size of memory. -/
def grow (m : Machine) (size : Nat) : Machine :=
  if size ≤ m.memory.size then m
  else { m with memory := m.memory ++ Array.replicate (size - m.memory.size) 0 }

/-- A memory with bytes written from a position on. -/
def writeAt (memory : Array UInt8) : Nat → Bytes → Array UInt8
  | _, [] => memory
  | start, b :: rest => writeAt (memory.setIfInBounds start b) (start + 1) rest

/-- The machine with bytes written into memory. -/
def write (m : Machine) (start : Nat) (b : Bytes) : Machine :=
  let m := m.grow (m.sizeFor start b.length)
  { m with memory := writeAt m.memory start b }

/-- The bytes of a stretch of memory that is in use. -/
def read (m : Machine) (start count : Nat) : Bytes :=
  (m.memory.extract start (start + count)).toList

/-- The machine at the next instruction. -/
def next (m : Machine) : Machine :=
  { m with pc := m.pc + 1 }

/-- The machine at the next instruction with a word pushed onto a stack. -/
def pushed (m : Machine) (w : Word) (stack : List Word) : Machine × Option Ending :=
  if stack.length < stackLimit then ({ m with pc := m.pc + 1, stack := w :: stack }, none)
  else (m, some (.failed .stackOverflow))

/-- The machine with a key among those used. -/
def touch (m : Machine) (key : Word) : Machine :=
  if m.warm.contains key then m else { m with warm := key :: m.warm }

end Machine

/-- The frame of a run. A jump may lead to a target instruction that is not part of a constant. -/
def Frame.start (code data address caller : Bytes) (value : Nat) (initial : Slots) : Frame :=
  let mark := fun (state : Nat × Array Bool) (b : UInt8) =>
    let (skip, targets) := state
    if 0 < skip then (skip - 1, targets.push false)
    else match Op.ofByte? b with
      | some .jumpTarget => (0, targets.push true)
      | some (.push width) => (width, targets.push false)
      | _ => (0, targets.push false)
  { code := code.toArray, targets := (code.foldl mark (0, #[])).2, data, address, caller, value,
    initial }

end StepReplay.Evm
