import StepReplay.Evm.Machine
import StepReplay.Keccak

set_option autoImplicit false

/-! # Accounts and storage

What the engine keeps between transactions: a balance, a nonce and code for each account, and the
storage of each. Reading never fails, since a missing account is an empty one.

A transaction whose transfer cannot be made breaks off and is never closed. All transactions after
it run inside it: what a store costs is measured against the storage from before it, and accounts
created since then are still new. -/

namespace StepReplay.Evm

/-- An account as the engine keeps it. -/
structure Holding where
  balance : Nat := 0
  nonce : Nat := 0
  code : Bytes := []
  deriving DecidableEq, Repr

/-- What is remembered of the first transaction that broke off. -/
structure Unfinished where
  /-- All storage as it was before. -/
  storage : Table Bytes Slots
  /-- The accounts whose creation was begun by it or after it. -/
  created : List Bytes := []

/-- All accounts and all storage. -/
structure Ledger where
  accounts : Table Bytes Holding := []
  storage : Table Bytes Slots := []
  unfinished : Option Unfinished := none

namespace Ledger

/-- The account at an address. -/
def holding (l : Ledger) (address : Bytes) : Holding :=
  (l.accounts.find? address).getD {}

/-- The storage of an account. -/
def slots (l : Ledger) (address : Bytes) : Slots :=
  (l.storage.find? address).getD []

/-- The ledger with an account replaced. Its storage stays. -/
def setHolding (l : Ledger) (address : Bytes) (h : Holding) : Ledger :=
  { l with accounts := l.accounts.put address h }

/-- The ledger with the storage of an account replaced. -/
def setSlots (l : Ledger) (address : Bytes) (s : Slots) : Ledger :=
  { l with storage := l.storage.put address s }

@[simp] theorem holding_setHolding_self (l : Ledger) (address : Bytes) (h : Holding) :
    (l.setHolding address h).holding address = h := by
  simp [setHolding, holding]

theorem holding_setHolding_of_ne (l : Ledger) {address other : Bytes} (different : other ≠ address)
    (h : Holding) : (l.setHolding address h).holding other = l.holding other := by
  simp [setHolding, holding, Table.find?_put_of_ne different]

@[simp] theorem slots_setHolding (l : Ledger) (address other : Bytes) (h : Holding) :
    (l.setHolding address h).slots other = l.slots other := rfl

@[simp] theorem holding_setSlots (l : Ledger) (address other : Bytes) (s : Slots) :
    (l.setSlots address s).holding other = l.holding other := rfl

/-- The ledger with the nonce of an account raised. -/
def raiseNonce (l : Ledger) (address : Bytes) : Ledger :=
  let h := l.holding address
  l.setHolding address { h with nonce := h.nonce + 1 }

theorem nonce_raiseNonce (l : Ledger) (address other : Bytes) :
    ((l.raiseNonce address).holding other).nonce =
      if other = address then (l.holding other).nonce + 1 else (l.holding other).nonce := by
  unfold raiseNonce
  split
  · rename_i same
    rw [same, holding_setHolding_self]
  · rename_i different
    rw [holding_setHolding_of_ne l different]

@[simp] theorem balance_raiseNonce (l : Ledger) (address other : Bytes) :
    ((l.raiseNonce address).holding other).balance = (l.holding other).balance := by
  unfold raiseNonce
  by_cases same : other = address
  · rw [same, holding_setHolding_self]
  · rw [holding_setHolding_of_ne l same]

/-! ## Transfers -/

/-- What no balance reaches. -/
def balanceBound : Nat := Bytes.capacity 32

/-- The ledger with the balance of an account lowered. An account that is left with nothing at all
is gone, and so is its storage. -/
def withdraw (l : Ledger) (address : Bytes) (value : Nat) : Ledger :=
  let h := l.holding address
  let left := { h with balance := h.balance - value }
  let l := l.setHolding address left
  if left = {} then l.setSlots address [] else l

/-- The ledger after a transfer. -/
def transfer (l : Ledger) (sender receiver : Bytes) (value : Nat) : Except Fault Ledger :=
  if value = 0 then .ok l
  else
    if (l.holding sender).balance < value then .error .balanceTooLow
    else
      let l := l.withdraw sender value
      let h := l.holding receiver
      if balanceBound ≤ h.balance + value then .error .overflow
      else .ok (l.setHolding receiver { h with balance := h.balance + value })

/-- The ledger after the creation of an account was begun: the creator's nonce is raised, and the
new account starts with a nonce and without storage. -/
def beginCreation (l : Ledger) (creator created : Bytes) : Ledger :=
  ((l.raiseNonce creator).setSlots created []).raiseNonce created

theorem balance_beginCreation (l : Ledger) (creator created other : Bytes) :
    ((l.beginCreation creator created).holding other).balance = (l.holding other).balance := by
  simp [beginCreation]

theorem nonce_beginCreation (l : Ledger) (creator created : Bytes) :
    (l.holding creator).nonce < ((l.beginCreation creator created).holding creator).nonce := by
  rw [beginCreation, nonce_raiseNonce, holding_setSlots, nonce_raiseNonce, if_pos rfl]
  split <;> omega

/-! ## Transactions that break off -/

/-- The storage of an account that stores are measured against when a transaction begins. -/
def measure (l : Ledger) (address : Bytes) : Slots :=
  match l.unfinished with
  | none => l.slots address
  | some u => if u.created.contains address then [] else (u.storage.find? address).getD []

/-- The ledger after a transaction that began on the storage of another ledger has broken off. -/
def breakOff (l before : Ledger) : Ledger :=
  { l with unfinished := some (before.unfinished.getD { storage := before.storage }) }

/-- The ledger after an account's creation was begun, which is only remembered as long as some
transaction is unfinished. -/
def noteCreation (l : Ledger) (address : Bytes) : Ledger :=
  { l with unfinished := l.unfinished.map fun u => { u with created := address :: u.created } }

/-! ## Creation addresses -/

/-- The bytes of a number without leading zeros. -/
def minimalBytes (n : Nat) : Bytes :=
  (Bytes.ofNat 32 n).dropWhile (· = 0)

/-- The encoding of a short byte string inside a list: a small byte stands for itself. -/
def encodeItem (b : Bytes) : Bytes :=
  match b with
  | [x] => if x.toNat < 0x80 then [x] else [0x81, x]
  | _ => UInt8.ofNat (0x80 + b.length) :: b

/-- The address of an account created by a sender with a nonce: the end of the hash of the two as
an encoded list. -/
def creationAddress (sender : Bytes) (nonce : Nat) : Bytes :=
  let items := encodeItem sender ++ encodeItem (minimalBytes nonce)
  (Keccak.hash (UInt8.ofNat (0xC0 + items.length) :: items)).bytes.drop 12

end Ledger

end StepReplay.Evm
