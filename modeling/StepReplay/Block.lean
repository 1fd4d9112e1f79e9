import StepReplay.Bytes

set_option autoImplicit false

/-! # Byte strings of one length

States, pages, hashes, keys and addresses are each a byte string of one fixed length. The length
is part of the type, so it is checked once, where the bytes come in. -/

namespace StepReplay

/-- A byte string of length `n`. -/
structure Block (n : Nat) where
  bytes : Bytes
  length_bytes : bytes.length = n

namespace Block

variable {n : Nat}

instance : DecidableEq (Block n) := fun a b =>
  if h : a.bytes = b.bytes then
    isTrue (by cases a; cases b; simp at h; simp [h])
  else isFalse fun e => h (by rw [e])

/-- The block of zeros. -/
def zero (n : Nat) : Block n :=
  ⟨Bytes.zeros n, by simp [Bytes.zeros]⟩

instance : Inhabited (Block n) := ⟨zero n⟩

/-- The block that denotes a number, higher digits dropped. -/
def ofNat (n value : Nat) : Block n :=
  ⟨Bytes.ofNat n value, Bytes.length_ofNat n value⟩

end Block

/-- A 32-byte digest. -/
abbrev Hash := Block 32

/-- The address of an account. -/
abbrev Address := Block 20

end StepReplay
