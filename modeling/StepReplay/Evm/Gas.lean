import StepReplay.Evm.Machine

set_option autoImplicit false

/-! # Gas

What each instruction costs under the Shanghai rules. A charge is worked out from the machine
before the instruction acts, and whether it can be paid is asked in one place, in the loop of a
run. Missing operands are noticed here, since an instruction takes them before it pays. -/

namespace StepReplay.Evm

/-- A price, and what the gas must exceed whatever the price. -/
structure Charge where
  gas : Nat
  floor : Option Nat := none

namespace Gas

/-! ## Prices -/

def base : Nat := 2
def veryLow : Nat := 3
def low : Nat := 5
def mid : Nat := 8
def high : Nat := 10
def jumpTarget : Nat := 1
def keccak : Nat := 30
def keccakWord : Nat := 6
def copyWord : Nat := 3
def warmAccess : Nat := 100
def coldSlot : Nat := 2100
def setSlot : Nat := 20000
def changeSlot : Nat := 5000
def log : Nat := 375
def logByte : Nat := 8
def logTopic : Nat := 375
def memoryWord : Nat := 3
def identity : Nat := 15
def identityWord : Nat := 3
def codeByte : Nat := 200

/-- A slot is written only with more gas left than a call may be given for nothing. -/
def stipend : Nat := 2300

/-- The price of so many bytes of memory. -/
def memory (size : Nat) : Nat :=
  let words := wordCount size
  memoryWord * words + words * words / 512

/-- The price of the memory that a stretch needs beyond what is in use. -/
def growth (m : Machine) (start count : Nat) : Nat :=
  memory (m.sizeFor start count) - memory m.memory.size

/-- The price of a use of a slot before anything is done with it. -/
def access (m : Machine) (key : Word) : Nat :=
  if m.warm.contains key then 0 else coldSlot

/-- The price of a write: a first change of a slot costs more than a later one. -/
def write (initial current new : Word) : Nat :=
  if initial = current ∧ current ≠ new then
    if initial = 0 then setSlot else changeSlot - coldSlot
  else warmAccess

end Gas

/-- What an instruction costs; an error if it lacks operands. -/
def charge (f : Frame) (m : Machine) (op : Op) : Except Exception Charge :=
  match op, m.stack with
  | .stop, _ => .ok ⟨0, none⟩
  | .binary .mul, _ :: _ :: _ => .ok ⟨Gas.low, none⟩
  | .binary _, _ :: _ :: _ => .ok ⟨Gas.veryLow, none⟩
  | .unary _, _ :: _ => .ok ⟨Gas.veryLow, none⟩
  | .query _, _ => .ok ⟨Gas.base, none⟩
  | .keccak, start :: count :: _ =>
    .ok ⟨Gas.keccak + Gas.keccakWord * wordCount count.toNat
      + Gas.growth m start.toNat count.toNat, none⟩
  | .callDataLoad, _ :: _ => .ok ⟨Gas.veryLow, none⟩
  | .copy _, start :: _ :: count :: _ =>
    .ok ⟨Gas.veryLow + Gas.copyWord * wordCount count.toNat
      + Gas.growth m start.toNat count.toNat, none⟩
  | .pop, _ :: _ => .ok ⟨Gas.base, none⟩
  | .mload, start :: _ => .ok ⟨Gas.veryLow + Gas.growth m start.toNat 32, none⟩
  | .mstore, start :: _ :: _ => .ok ⟨Gas.veryLow + Gas.growth m start.toNat 32, none⟩
  | .mstore8, start :: _ :: _ => .ok ⟨Gas.veryLow + Gas.growth m start.toNat 1, none⟩
  | .sload, key :: _ =>
    .ok ⟨if m.warm.contains key then Gas.warmAccess else Gas.coldSlot, none⟩
  | .sstore, key :: new :: _ =>
    .ok ⟨Gas.access m key + Gas.write (f.initial.value key) (m.slots.value key) new,
      some Gas.stipend⟩
  | .jump, _ :: _ => .ok ⟨Gas.mid, none⟩
  | .jumpIf, _ :: _ :: _ => .ok ⟨Gas.high, none⟩
  | .jumpTarget, _ => .ok ⟨Gas.jumpTarget, none⟩
  | .push 0, _ => .ok ⟨Gas.base, none⟩
  | .push _, _ => .ok ⟨Gas.veryLow, none⟩
  | .dup _, _ => .ok ⟨Gas.veryLow, none⟩
  | .swap _, _ => .ok ⟨Gas.veryLow, none⟩
  | .log topics, start :: count :: rest =>
    if rest.length < topics then .error .stackUnderflow
    else .ok ⟨Gas.log + Gas.logByte * count.toNat + Gas.logTopic * topics
      + Gas.growth m start.toNat count.toNat, none⟩
  | .ret, start :: count :: _ => .ok ⟨Gas.growth m start.toNat count.toNat, none⟩
  | .revert, start :: count :: _ => .ok ⟨Gas.growth m start.toNat count.toNat, none⟩
  | _, _ => .error .stackUnderflow

/-- Whether a charge can be paid from so much gas. -/
def Charge.payable (c : Charge) (gas : Nat) : Bool :=
  c.gas ≤ gas && match c.floor with
    | some floor => floor < gas
    | none => true

end StepReplay.Evm
