set_option autoImplicit false

/-! # Instructions

The instructions that step modules are made of, without those that call or create other accounts.
Instructions with one shape and one price are one constructor, so each rule about them is stated
once. A byte that is no instruction ends a run. -/

namespace StepReplay.Evm

/-- Operations that replace two words by one. -/
inductive Binary where
  | add
  | mul
  | sub
  | lt
  | shl
  | shr
  deriving DecidableEq, Repr

/-- Operations that replace a word. -/
inductive Unary where
  | isZero
  | not
  deriving DecidableEq, Repr

/-- Operations that push a word about the run. -/
inductive Query where
  | address
  | caller
  | callValue
  | callDataSize
  | codeSize
  | number
  | chainId
  | memorySize
  deriving DecidableEq, Repr

/-- What a copy into memory takes its bytes from. -/
inductive Source where
  | callData
  | code
  deriving DecidableEq, Repr

/-- An instruction. -/
inductive Op where
  | stop
  | binary (op : Binary)
  | unary (op : Unary)
  | query (op : Query)
  | keccak
  | callDataLoad
  | copy (source : Source)
  | pop
  | mload
  | mstore
  | mstore8
  | sload
  | sstore
  | jump
  | jumpIf
  | jumpTarget
  | push (width : Nat)
  | dup (depth : Nat)
  | swap (depth : Nat)
  | log (topics : Nat)
  | ret
  | revert
  deriving DecidableEq, Repr

/-- The instruction of a byte. -/
def Op.ofByte? (b : UInt8) : Option Op :=
  match b.toNat with
  | 0x00 => some .stop
  | 0x01 => some (.binary .add)
  | 0x02 => some (.binary .mul)
  | 0x03 => some (.binary .sub)
  | 0x10 => some (.binary .lt)
  | 0x15 => some (.unary .isZero)
  | 0x19 => some (.unary .not)
  | 0x1B => some (.binary .shl)
  | 0x1C => some (.binary .shr)
  | 0x20 => some .keccak
  | 0x30 => some (.query .address)
  | 0x33 => some (.query .caller)
  | 0x34 => some (.query .callValue)
  | 0x35 => some .callDataLoad
  | 0x36 => some (.query .callDataSize)
  | 0x37 => some (.copy .callData)
  | 0x38 => some (.query .codeSize)
  | 0x39 => some (.copy .code)
  | 0x43 => some (.query .number)
  | 0x46 => some (.query .chainId)
  | 0x50 => some .pop
  | 0x51 => some .mload
  | 0x52 => some .mstore
  | 0x53 => some .mstore8
  | 0x54 => some .sload
  | 0x55 => some .sstore
  | 0x56 => some .jump
  | 0x57 => some .jumpIf
  | 0x59 => some (.query .memorySize)
  | 0x5B => some .jumpTarget
  | 0xF3 => some .ret
  | 0xFD => some .revert
  | n =>
    if 0x5F ≤ n ∧ n ≤ 0x7F then some (.push (n - 0x5F))
    else if 0x80 ≤ n ∧ n ≤ 0x8F then some (.dup (n - 0x80))
    else if 0x90 ≤ n ∧ n ≤ 0x9F then some (.swap (n - 0x8F))
    else if 0xA0 ≤ n ∧ n ≤ 0xA4 then some (.log (n - 0xA0))
    else none

end StepReplay.Evm
