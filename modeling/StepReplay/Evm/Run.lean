import StepReplay.Evm.Gas
import StepReplay.Keccak

set_option autoImplicit false

/-! # Runs

A run takes one instruction after another: it looks the charge up, pays it, and lets the
instruction act. It ends at the end of the code, at an instruction that ends it, or with an
exception. Every instruction that does not end a run costs gas, so the gas bounds the run. -/

namespace StepReplay.Evm

/-! ## Effects -/

/-- The word that an operation makes of two, the top one first. -/
def Binary.eval (op : Binary) (a b : Word) : Word :=
  match op with
  | .add => a + b
  | .mul => a * b
  | .sub => a - b
  | .lt => if a.toNat < b.toNat then 1 else 0
  | .shl => if a.toNat < 256 then b <<< a.toNat else 0
  | .shr => if a.toNat < 256 then b >>> a.toNat else 0

/-- The word that an operation makes of one. -/
def Unary.eval (op : Unary) (a : Word) : Word :=
  match op with
  | .isZero => if a = 0 then 1 else 0
  | .not => ~~~ a

/-- The number of the block that every transaction runs in. -/
def blockNumber : Nat := 1

/-- The number of the chain. -/
def chainNumber : Nat := 1

/-- The answer to a question about the run. -/
def Query.eval (op : Query) (f : Frame) (m : Machine) : Word :=
  match op with
  | .address => wordOfBytes f.address
  | .caller => wordOfBytes f.caller
  | .callValue => BitVec.ofNat 256 f.value
  | .callDataSize => BitVec.ofNat 256 f.data.length
  | .codeSize => BitVec.ofNat 256 f.code.size
  | .number => BitVec.ofNat 256 blockNumber
  | .chainId => BitVec.ofNat 256 chainNumber
  | .memorySize => BitVec.ofNat 256 m.memory.size

/-- The bytes that a copy takes its stretch from. -/
def Source.bytes (source : Source) (f : Frame) : Bytes :=
  match source with
  | .callData => f.data
  | .code => f.code.toList

/-- The machine at a jump's target, if a jump may lead there. -/
def jumpTo (f : Frame) (m : Machine) (target : Word) (stack : List Word) :
    Machine × Option Ending :=
  if f.targets.getD target.toNat false then ({ m with pc := target.toNat, stack }, none)
  else (m, some (.failed .invalidJump))

/-- The machine after an instruction that has been paid for, and the ending if it ends the run. -/
def act (f : Frame) (m : Machine) (op : Op) : Machine × Option Ending :=
  match op, m.stack with
  | .stop, _ => (m, some (.returned []))
  | .binary op, a :: b :: rest => m.pushed (op.eval a b) rest
  | .unary op, a :: rest => m.pushed (op.eval a) rest
  | .query op, stack => m.pushed (op.eval f m) stack
  | .keccak, start :: count :: rest =>
    let m := m.grow (m.sizeFor start.toNat count.toNat)
    m.pushed (wordOfBytes (Keccak.hashBytes (m.read start.toNat count.toNat))) rest
  | .callDataLoad, start :: rest => m.pushed (wordOfBytes (f.data.window start.toNat 32)) rest
  | .copy source, start :: first :: count :: rest =>
    let content := (source.bytes f).window first.toNat count.toNat
    (({ m with stack := rest }.write start.toNat content).next, none)
  | .pop, _ :: rest => ({ m with stack := rest }.next, none)
  | .mload, start :: rest =>
    let m := m.grow (m.sizeFor start.toNat 32)
    m.pushed (wordOfBytes (m.read start.toNat 32)) rest
  | .mstore, start :: value :: rest =>
    (({ m with stack := rest }.write start.toNat (bytesOfWord value)).next, none)
  | .mstore8, start :: value :: rest =>
    (({ m with stack := rest }.write start.toNat [UInt8.ofNat (value.toNat % 256)]).next, none)
  | .sload, key :: rest => (m.touch key).pushed (m.slots.value key) rest
  | .sstore, key :: value :: rest =>
    ({ m.touch key with stack := rest, slots := m.slots.put key value }.next, none)
  | .jump, target :: rest => jumpTo f m target rest
  | .jumpIf, target :: condition :: rest =>
    if condition = 0 then ({ m with stack := rest }.next, none) else jumpTo f m target rest
  | .jumpTarget, _ => (m.next, none)
  | .push width, stack =>
    let constant := Bytes.window (f.code.extract (m.pc + 1) (m.pc + 1 + width)).toList 0 width
    { m with pc := m.pc + width }.pushed (wordOfBytes constant) stack
  | .dup depth, stack => match stack[depth]? with
    | some w => m.pushed w stack
    | none => (m, some (.failed .stackUnderflow))
  | .swap depth, stack => match stack, stack[depth]? with
    | top :: rest, some w => ({ m with stack := w :: rest.set (depth - 1) top }.next, none)
    | _, _ => (m, some (.failed .stackUnderflow))
  | .log topics, start :: count :: rest =>
    let m := m.grow (m.sizeFor start.toNat count.toNat)
    let record : LogRecord := {
      address := f.address
      topics := (rest.take topics).map bytesOfWord
      data := m.read start.toNat count.toNat }
    ({ m with stack := rest.drop topics, logs := m.logs ++ [record] }.next, none)
  | .ret, start :: count :: _ =>
    let m := m.grow (m.sizeFor start.toNat count.toNat)
    (m, some (.returned (m.read start.toNat count.toNat)))
  | .revert, start :: count :: _ =>
    let m := m.grow (m.sizeFor start.toNat count.toNat)
    (m, some (.reverted (m.read start.toNat count.toNat)))
  | _, _ => (m, some (.failed .stackUnderflow))

/-! ## The loop -/

/-- The end of a run: how it ended, the gas that is left, and the machine. -/
structure Halt where
  ending : Ending
  gas : Nat
  machine : Machine

/-- A run from a machine on; `fuel` bounds the instructions. -/
def runFrom (f : Frame) : Nat → Nat → Machine → Halt
  | 0, gas, m => ⟨.failed .outOfGas, gas, m⟩
  | fuel + 1, gas, m => match f.code[m.pc]? with
    | none => ⟨.returned [], gas, m⟩
    | some byte => match Op.ofByte? byte with
      | none => ⟨.failed .invalidOpcode, gas, m⟩
      | some op => match charge f m op with
        | .error e => ⟨.failed e, gas, m⟩
        | .ok c =>
          if c.payable gas then
            match act f m op with
            | (m, some ending) => ⟨ending, gas - c.gas, m⟩
            | (m, none) => runFrom f fuel (gas - c.gas) m
          else ⟨.failed .outOfGas, gas, m⟩

/-- A run with so much gas. -/
def run (f : Frame) (gas : Nat) (slots : Slots) : Halt :=
  runFrom f (gas + 1) gas { slots }

end StepReplay.Evm
