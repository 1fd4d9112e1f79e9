import StepReplay.Proofs.Deployment

set_option autoImplicit false

/-! # What a committed transaction changes

A transaction that goes well and is kept moves its value and nothing else between accounts, so no
balance pays for gas. A call changes no more than the storage of its target, and a creation no more
than the nonces of the two accounts and the code and storage of the new one. In one case a call
takes something away besides: an account without nonce and code that sends all that it has is left
with nothing at all, and loses its storage. -/

namespace StepReplay.Evm

/-! ## Creation addresses -/

section Lists

/-- What stands in front of so many bytes of an encoding: the length, in a byte of its own if it is
small and with its digits behind that byte otherwise. -/
def lengthMark (base length : Nat) : Bytes :=
  if length < 56 then [UInt8.ofNat (base + length)]
  else
    let digits := Ledger.minimalBytes length
    UInt8.ofNat (base + 55 + digits.length) :: digits

/-- The encoding of a byte string of any length; a single small byte stands for itself. -/
def encodeString (b : Bytes) : Bytes :=
  match b with
  | [x] => if x.toNat < 0x80 then [x] else lengthMark 0x80 1 ++ [x]
  | _ => lengthMark 0x80 b.length ++ b

/-- The encoding of a list of byte strings. -/
def encodeList (items : List Bytes) : Bytes :=
  let content := items.flatMap encodeString
  lengthMark 0xC0 content.length ++ content

theorem encodeString_eq_encodeItem {b : Bytes} (short : b.length < 56) :
    encodeString b = Ledger.encodeItem b := by
  have mark : lengthMark 0x80 b.length = [UInt8.ofNat (0x80 + b.length)] := if_pos short
  match b with
  | [] | [_] => rfl
  | x :: y :: rest => exact congrArg (· ++ x :: y :: rest) mark

theorem length_encodeItem_le (b : Bytes) : (Ledger.encodeItem b).length ≤ b.length + 1 := by
  unfold Ledger.encodeItem
  split
  · split <;> simp
  · rfl

theorem length_minimalBytes_le (n : Nat) : (Ledger.minimalBytes n).length ≤ 32 := by
  have shorter := (List.dropWhile_sublist (· = 0) (l := Bytes.ofNat 32 n)).length_le
  rwa [Bytes.length_ofNat] at shorter

/-- The address of a new account is the end of the hash of its creator and the creator's nonce as an
encoded list. -/
theorem creationAddress_eq {caller : Bytes} (size : caller.length = 20) (nonce : Nat) :
    Ledger.creationAddress caller nonce =
      (Keccak.hash (encodeList [caller, Ledger.minimalBytes nonce])).bytes.drop 12 := by
  have digits := length_minimalBytes_le nonce
  have first := length_encodeItem_le caller
  have second := length_encodeItem_le (Ledger.minimalBytes nonce)
  rw [encodeList, List.flatMap_cons, List.flatMap_cons, List.flatMap_nil, List.append_nil,
    encodeString_eq_encodeItem (by omega), encodeString_eq_encodeItem (by omega), lengthMark,
    if_pos (by rw [List.length_append]; omega)]
  rfl

end Lists

namespace Ledger

variable {l l' : Ledger}

/-! ## Balances -/

/-- The sum of all balances. -/
def total (l : Ledger) : Nat :=
  ∑ a ∈ (l.accounts.map Prod.fst).toFinset, (l.holding a).balance

/-- Accounts that are missing add nothing. -/
theorem total_eq_sum {s : Finset Bytes} (covers : (l.accounts.map Prod.fst).toFinset ⊆ s) :
    l.total = ∑ a ∈ s, (l.holding a).balance := by
  refine Finset.sum_subset covers fun a _ missing => ?_
  have absent : l.accounts.find? a = none :=
    Table.find?_eq_none_iff.2 fun member => missing (List.mem_toFinset.2 member)
  rw [holding, absent]
  rfl

/-- `Moves l l' sender receiver value`: a value has been moved between two balances, or back to the
same one. -/
def Moves (l l' : Ledger) (sender receiver : Bytes) (value : Nat) : Prop :=
  ∀ a, (l'.holding a).balance + (if a = sender then value else 0) =
    (l.holding a).balance + (if a = receiver then value else 0)

/-- `Transferred l l' sender receiver value`: what a transfer does to balances. -/
structure Transferred (l l' : Ledger) (sender receiver : Bytes) (value : Nat) : Prop where
  total : l'.total = l.total
  others : ∀ a, a ≠ sender → a ≠ receiver → (l'.holding a).balance = (l.holding a).balance
  sent : sender ≠ receiver → (l'.holding sender).balance + value = (l.holding sender).balance
  received : sender ≠ receiver →
    (l'.holding receiver).balance = (l.holding receiver).balance + value
  kept : sender = receiver → (l'.holding sender).balance = (l.holding sender).balance

theorem Moves.total {sender receiver : Bytes} {value : Nat}
    (moves : Moves l l' sender receiver value) : l'.total = l.total := by
  -- both sums are taken over all accounts of either ledger and the two that take part
  let s := (l.accounts.map Prod.fst).toFinset ∪ (l'.accounts.map Prod.fst).toFinset ∪
    {sender, receiver}
  have before : l.total = ∑ a ∈ s, (l.holding a).balance :=
    total_eq_sum fun a member => by simp only [s, Finset.mem_union, member, true_or]
  have after : l'.total = ∑ a ∈ s, (l'.holding a).balance :=
    total_eq_sum fun a member => by simp only [s, Finset.mem_union, member, true_or, or_true]
  have share {b : Bytes} (present : b ∈ s) : ∑ a ∈ s, (if a = b then value else 0) = value := by
    rw [Finset.sum_ite_eq', if_pos present]
  have sums : ∑ a ∈ s, ((l'.holding a).balance + (if a = sender then value else 0)) =
      ∑ a ∈ s, ((l.holding a).balance + (if a = receiver then value else 0)) :=
    Finset.sum_congr rfl fun a _ => moves a
  rw [Finset.sum_add_distrib, Finset.sum_add_distrib, share (by simp [s]), share (by simp [s]),
    ← before, ← after] at sums
  exact Nat.add_right_cancel sums

theorem Moves.transferred {sender receiver : Bytes} {value : Nat}
    (moves : Moves l l' sender receiver value) : Transferred l l' sender receiver value where
  total := moves.total
  others a notSender notReceiver := by
    have each := moves a
    rwa [if_neg notSender, if_neg notReceiver] at each
  sent different := by
    have each := moves sender
    rwa [if_pos rfl, if_neg different] at each
  received different := by
    have each := moves receiver
    rwa [if_pos rfl, if_neg (Ne.symm different)] at each
  kept same := by
    have each := moves sender
    rw [if_pos rfl, if_pos same] at each
    exact Nat.add_right_cancel each

/-! ## Transfers -/

theorem slots_setSlots_of_ne (l : Ledger) {address other : Bytes} (different : other ≠ address)
    (s : Slots) : (l.setSlots address s).slots other = l.slots other := by
  rw [slots, setSlots, Table.find?_put_of_ne different]
  rfl

/-- `Emptied l a value`: an account without nonce and code sends all of a balance. -/
structure Emptied (l : Ledger) (a : Bytes) (value : Nat) : Prop where
  something : value ≠ 0
  everything : l.holding a = { balance := value }

/-- What is left of an account that sends a value. -/
def left (l : Ledger) (address : Bytes) (value : Nat) : Holding :=
  { l.holding address with balance := (l.holding address).balance - value }

theorem holding_withdraw (l : Ledger) (address other : Bytes) (value : Nat) :
    (l.withdraw address value).holding other =
      l.left other (if other = address then value else 0) := by
  have moved : (l.withdraw address value).holding other =
      (l.setHolding address (l.left address value)).holding other := by
    unfold withdraw
    dsimp only
    split <;> rfl
  rw [moved]
  by_cases same : other = address
  · rw [if_pos same, same, holding_setHolding_self]
  · rw [if_neg same, holding_setHolding_of_ne l same]
    rfl

theorem slots_withdraw (l : Ledger) (address other : Bytes) (value : Nat) :
    (l.withdraw address value).slots other =
      if other = address ∧ l.left address value = {} then [] else l.slots other := by
  unfold withdraw left
  dsimp only
  split
  · rename_i gone
    by_cases same : other = address
    · rw [if_pos ⟨same, gone⟩, same, slots, setSlots, Table.find?_put_self]
      rfl
    · rw [if_neg fun both => same both.1, slots_setSlots_of_ne _ same]
      rfl
  · rename_i some
    rw [if_neg fun both => some both.2]
    rfl

/-- Nothing is left of exactly those accounts that are emptied. -/
theorem left_eq_empty_iff {address : Bytes} {value : Nat} (something : value ≠ 0)
    (enough : value ≤ (l.holding address).balance) :
    l.left address value = {} ↔ l.Emptied address value := by
  unfold left
  constructor
  · intro gone
    refine ⟨something, ?_⟩
    generalize l.holding address = h at gone enough
    obtain ⟨balance, nonce, code⟩ := h
    simp only [Holding.mk.injEq] at gone ⊢
    exact ⟨Nat.le_antisymm (Nat.sub_eq_zero_iff_le.1 gone.1) enough, gone.2⟩
  · intro emptied
    rw [emptied.everything]
    simp

/-- The ledger after some value was moved. -/
def moved (l : Ledger) (sender receiver : Bytes) (value : Nat) : Ledger :=
  let l := l.withdraw sender value
  let h := l.holding receiver
  l.setHolding receiver { h with balance := h.balance + value }

/-- A transfer that is made moves nothing or what there is. -/
theorem transfer_cases {sender receiver : Bytes} {value : Nat}
    (h : l.transfer sender receiver value = .ok l') :
    (value = 0 ∧ l' = l) ∨
      (value ≠ 0 ∧ value ≤ (l.holding sender).balance ∧ l' = l.moved sender receiver value) := by
  unfold transfer at h
  split at h
  · rename_i nothing
    exact .inl ⟨nothing, (Except.ok.inj h).symm⟩
  rename_i something
  split at h
  · cases h
  rename_i enough
  dsimp only at h
  split at h
  · cases h
  exact .inr ⟨something, Nat.le_of_not_lt enough, (Except.ok.inj h).symm⟩

theorem holding_moved (l : Ledger) (sender receiver a : Bytes) (value : Nat) :
    (l.moved sender receiver value).holding a = { l.holding a with
      balance := (l.holding a).balance - (if a = sender then value else 0) +
        (if a = receiver then value else 0) } := by
  unfold moved
  dsimp only
  by_cases same : a = receiver
  · rw [same, holding_setHolding_self, holding_withdraw, if_pos rfl]
    rfl
  · rw [holding_setHolding_of_ne _ same, holding_withdraw, if_neg same]
    rfl

/-- `Pays l paid sender receiver value`: what can be seen of a transfer that was made. -/
structure Pays (l paid : Ledger) (sender receiver : Bytes) (value : Nat) : Prop where
  moves : Moves l paid sender receiver value
  nonce : ∀ a, (paid.holding a).nonce = (l.holding a).nonce
  code : ∀ a, (paid.holding a).code = (l.holding a).code
  slots : ∀ a, (a = sender → ¬ l.Emptied sender value) → paid.slots a = l.slots a
  emptied : l.Emptied sender value → paid.slots sender = []

theorem pays_nothing (l : Ledger) (sender receiver : Bytes) : Pays l l sender receiver 0 where
  moves a := by simp
  nonce a := rfl
  code a := rfl
  slots a _ := rfl
  emptied emptied := absurd rfl emptied.something

theorem pays_moved {sender receiver : Bytes} {value : Nat} (something : value ≠ 0)
    (enough : value ≤ (l.holding sender).balance) :
    Pays l (l.moved sender receiver value) sender receiver value where
  moves a := by
    rw [holding_moved]
    dsimp only
    by_cases same : a = sender
    · rw [if_pos same, same]
      omega
    · rw [if_neg same]
      omega
  nonce a := by rw [holding_moved]
  code a := by rw [holding_moved]
  slots a spared := by
    rw [moved, slots_setHolding, slots_withdraw, if_neg]
    rintro ⟨same, gone⟩
    exact spared same ((left_eq_empty_iff something enough).1 gone)
  emptied emptied := by
    rw [moved, slots_setHolding, slots_withdraw,
      if_pos ⟨rfl, (left_eq_empty_iff something enough).2 emptied⟩]

theorem pays_of_transfer {sender receiver : Bytes} {value : Nat}
    (h : l.transfer sender receiver value = .ok l') : Pays l l' sender receiver value := by
  rcases transfer_cases h with ⟨rfl, rfl⟩ | ⟨something, enough, rfl⟩
  · exact pays_nothing l' sender receiver
  · exact pays_moved something enough

end Ledger

variable {l : Ledger} {caller target : Bytes} {gas value : Nat} {receipt : Receipt}

/-! ## Calls -/

/-- `CallLeaves l l' caller target value`: what a call that goes well leaves of a ledger. -/
structure CallLeaves (l l' : Ledger) (caller target : Bytes) (value : Nat) : Prop where
  balances : Ledger.Transferred l l' caller target value
  nonce : ∀ a, (l'.holding a).nonce = (l.holding a).nonce
  code : ∀ a, (l'.holding a).code = (l.holding a).code
  slots : ∀ a, a ≠ target → (a = caller → ¬ l.Emptied caller value) → l'.slots a = l.slots a
  emptied : caller ≠ target → l.Emptied caller value → l'.slots caller = []

/-- After the transfer a call only writes to the storage of its target. -/
theorem Ledger.Pays.callLeaves {l' paid : Ledger} (pays : l.Pays paid caller target value)
    (holding : ∀ a, l'.holding a = paid.holding a)
    (slots : ∀ a, a ≠ target → l'.slots a = paid.slots a) :
    CallLeaves l l' caller target value where
  balances := Ledger.Moves.transferred fun a => by rw [holding, pays.moves]
  nonce a := by rw [holding, pays.nonce]
  code a := by rw [holding, pays.code]
  slots a other spared := by rw [slots a other, pays.slots a spared]
  emptied different emptied := by rw [slots caller different, pays.emptied emptied]

theorem callAccount_leaves {data : Bytes}
    (ran : (callAccount l caller target data gas value).result = .ok receipt)
    (success : receipt.success = true) :
    CallLeaves l (callAccount l caller target data gas value).kept caller target value := by
  unfold callAccount at ran ⊢
  cases moved : l.transfer caller target value with
  | error e =>
    rw [moved] at ran
    cases ran
  | ok paid =>
    have pays := Ledger.pays_of_transfer moved
    rw [moved] at ran
    dsimp only at ran ⊢
    split at ran
    · rename_i identity
      rw [if_pos identity]
      split at ran
      · rename_i payable
        rw [if_pos payable]
        exact pays.callLeaves (fun a => rfl) fun a _ => rfl
      · cases ran
        cases success
    · rename_i other
      rw [if_neg other]
      -- of a run that does not go well nothing is kept
      split at ran
      · exact pays.callLeaves (fun a => rfl) fun a different =>
          paid.slots_setSlots_of_ne different _
      · cases ran
        cases success
      · cases ran
        cases success

/-! ## Creations -/

/-- `CreationLeaves l l' caller value output`: what a creation that goes well leaves of a ledger. -/
structure CreationLeaves (l l' : Ledger) (caller : Bytes) (value : Nat) (output : Bytes) :
    Prop where
  balances : Ledger.Transferred l l' caller (l.nextCreation caller) value
  nonce : ∀ a, (l'.holding a).nonce = (l.holding a).nonce + (if a = caller then 1 else 0) +
    (if a = l.nextCreation caller then 1 else 0)
  installed : (l'.holding (l.nextCreation caller)).code = output
  size : output.length ≤ 24576
  first : output.head? ≠ some 0xEF
  code : ∀ a, a ≠ l.nextCreation caller → (l'.holding a).code = (l.holding a).code
  slots : ∀ a, a ≠ l.nextCreation caller → l'.slots a = l.slots a

theorem Ledger.code_raiseNonce (l : Ledger) (address other : Bytes) :
    ((l.raiseNonce address).holding other).code = (l.holding other).code := by
  unfold raiseNonce
  by_cases same : other = address
  · rw [same, holding_setHolding_self]
  · rw [holding_setHolding_of_ne l same]

/-- The storage of the new account is all that the beginning of a creation changes. -/
theorem Ledger.slots_beginCreation {creator created other : Bytes} (different : other ≠ created) :
    (l.beginCreation creator created).slots other = l.slots other :=
  (l.raiseNonce creator).slots_setSlots_of_ne different []

/-- After the transfer a creation only writes to the code and the storage of the new account. Its
caller has a nonce by then, so it is not emptied. -/
theorem Ledger.Pays.creationLeaves {l' paid : Ledger} {output : Bytes}
    (pays : (l.beginCreation caller (l.nextCreation caller)).Pays paid caller
      (l.nextCreation caller) value)
    (holding : ∀ a, l'.holding a =
      if a = l.nextCreation caller then { paid.holding a with code := output } else paid.holding a)
    (slots : ∀ a, a ≠ l.nextCreation caller → l'.slots a = paid.slots a)
    (size : output.length ≤ codeLimit) (first : output.head? ≠ some 0xEF) :
    CreationLeaves l l' caller value output where
  balances := by
    refine Ledger.Moves.transferred fun a => ?_
    have moved := pays.moves a
    rw [balance_beginCreation] at moved
    rw [← moved, holding]
    split <;> rfl
  nonce a := by
    have raised : (l'.holding a).nonce = (paid.holding a).nonce := by
      rw [holding]
      split <;> rfl
    rw [raised, pays.nonce, beginCreation, nonce_raiseNonce, holding_setSlots, nonce_raiseNonce]
    split <;> split <;> rfl
  installed := by rw [holding, if_pos rfl]
  size := size
  first := first
  code a different := by
    rw [holding, if_neg different, pays.code, beginCreation, code_raiseNonce, holding_setSlots,
      code_raiseNonce]
  slots a different := by
    rw [slots a different, pays.slots a, slots_beginCreation different]
    rintro - emptied
    have raised := l.nonce_beginCreation caller (l.nextCreation caller)
    rw [emptied.everything] at raised
    exact Nat.not_lt_zero _ raised

theorem installFault?_eq_none {code : Bytes} (fine : installFault? code gas = none) :
    code.length ≤ codeLimit ∧ code.head? ≠ some 0xEF := by
  unfold installFault? at fine
  split at fine
  · cases fine
  rename_i first
  split at fine
  · cases fine
  split at fine
  · cases fine
  rename_i size
  exact ⟨Nat.le_of_not_lt size, first⟩

theorem createAccount_leaves {code : Bytes}
    (ran : (createAccount l caller code gas value).result = .ok receipt)
    (success : receipt.success = true) :
    CreationLeaves l (createAccount l caller code gas value).kept caller value receipt.output := by
  unfold createAccount at ran ⊢
  dsimp only at ran ⊢
  rw [show Ledger.creationAddress caller (l.holding caller).nonce = l.nextCreation caller from rfl]
    at ran ⊢
  cases moved : (l.beginCreation caller (l.nextCreation caller)).transfer caller
      (l.nextCreation caller) value with
  | error e =>
    rw [moved] at ran
    cases ran
  | ok paid =>
    have pays := Ledger.pays_of_transfer moved
    rw [moved] at ran
    dsimp only at ran ⊢
    split at ran
    · rename_i output ending
      split at ran
      · cases ran
        cases success
      · rename_i fine
        cases ran
        obtain ⟨size, first⟩ := installFault?_eq_none fine
        refine pays.creationLeaves (fun a => ?_) (fun a different => ?_) size first
        · by_cases same : a = l.nextCreation caller
          · rw [if_pos same, same]
            exact Ledger.holding_setHolding_self ..
          · rw [if_neg same]
            exact Ledger.holding_setHolding_of_ne _ same _
        · exact paid.slots_setSlots_of_ne different _
    · cases ran
      cases success
    · cases ran
      cases success

/-! ## Transactions -/

theorem transact_leaves {t : Transaction} (ran : (transact l t).result = .ok receipt)
    (success : receipt.success = true) :
    t.caller.length = 20 ∧ 0 ≤ t.value ∧
      (∀ target, t.target = some target →
        CallLeaves l (transact l t).kept t.caller target t.value.toNat) ∧
      (t.target = none →
        CreationLeaves l (transact l t).kept t.caller t.value.toNat receipt.output) := by
  unfold transact at ran ⊢
  cases begun : course l t with
  | error e =>
    rw [begun] at ran
    cases ran
  | ok c =>
    rw [begun] at ran
    dsimp only at ran ⊢
    cases aim : t.target with
    | some target =>
      obtain ⟨size, -, -, -, ⟨value, -⟩, data, -, rfl⟩ := (course_of_call aim).1 begun
      refine ⟨size, value, ?_, nofun⟩
      rintro _ ⟨⟩
      exact callAccount_leaves ran success
    | none =>
      obtain ⟨size, -, -, ⟨value, -⟩, data, -, rfl⟩ := (course_of_creation aim).1 begun
      exact ⟨size, value, nofun, fun _ => createAccount_leaves ran success⟩

end StepReplay.Evm

namespace StepReplay.VirtualMachine

open Evm

variable {v v' : VirtualMachine} {t : Transaction} {receipt : Receipt}

/-- An execution that goes well and is kept goes from one ledger to another. -/
theorem execute_leaves (ran : v.execute t true = (.ok receipt, v'))
    (success : receipt.success = true) :
    ∃ l l', v.ledger = some l ∧ v'.ledger = some l' ∧ t.caller.length = 20 ∧ 0 ≤ t.value ∧
      (∀ target, t.target = some target → CallLeaves l l' t.caller target t.value.toNat) ∧
      (t.target = none → CreationLeaves l l' t.caller t.value.toNat receipt.output) := by
  obtain ⟨_ | l⟩ := v
  · cases ran
  · have result : (transact l t).result = .ok receipt := congrArg Prod.fst ran
    have after : (⟨some ((transact l t).ledger true)⟩ : VirtualMachine) = v' :=
      congrArg Prod.snd ran
    have kept : (transact l t).ledger true = (transact l t).kept := by
      rw [Course.ledger, result]
      exact if_pos (by rw [success]; rfl)
    rw [kept] at after
    exact ⟨l, (transact l t).kept, rfl, by rw [← after], transact_leaves result success⟩

/-! ## Preparations -/

theorem account_code {l : Ledger} (opened : v.ledger = some l) {address : Bytes}
    (size : address.length = 20) :
    (v.account address).map Account.code = .ok (l.holding address).code := by
  rw [account, open?, opened]
  simp only [checkAddress, size]
  rfl

theorem length_creationAddress (caller : Bytes) (nonce : Nat) :
    (Ledger.creationAddress caller nonce).length = 20 := by
  rw [Ledger.creationAddress, List.length_drop, (Keccak.hash _).length_bytes]

/-- An account that was installed has its code and its nonce, and one that was installed before has
them unless it was installed anew. -/
theorem installed {account : Account} {address : Bytes}
    (install : v.setAccount address account = .ok v') :
    ∃ l, v.ledger = some l ∧ address.length = 20 ∧ v'.ledger = some (l.setHolding address
      ⟨account.balance.toNat, account.nonce.toNat, account.code⟩) := by
  obtain ⟨l, opened, size, -, -, rfl⟩ := setAccount_eq_ok.1 install
  exact ⟨l, opened, size, rfl⟩

/-- The sender has not created anything when the stepper is created. -/
theorem nonce_of_foundation {funded placed : VirtualMachine} {sender oracle code : Bytes}
    {balance : Int} (fund : v.setAccount sender { balance } = .ok funded)
    (place : funded.setAccount oracle { code } = .ok placed) :
    ∃ l, placed.ledger = some l ∧ (l.holding sender).nonce = 0 := by
  obtain ⟨l, -, -, first⟩ := installed fund
  obtain ⟨l', opened, -, second⟩ := installed place
  cases first.symm.trans opened
  refine ⟨_, second, ?_⟩
  by_cases same : sender = oracle
  · rw [same, Ledger.holding_setHolding_self]
    rfl
  · rw [Ledger.holding_setHolding_of_ne _ same, Ledger.holding_setHolding_self]
    rfl

/-- The code that a preparation installs is what its creation, had it been kept, would have left at
the address of the new account. -/
theorem prepared_code {bindings : Bindings} {c : Config}
    (prepared : Deployment.Prepares bindings c v v') :
    ∃ funded placed after receipt,
      v.setAccount c.senderAddress.bytes { balance := c.senderBalance } = .ok funded ∧
      funded.setAccount c.oracleAddress.bytes { code := bindings.oracle } = .ok placed ∧
      placed.execute (Deployment.creation bindings c) true = (.ok receipt, after) ∧
      receipt.success = true ∧
      (v'.account c.mipsAddress.bytes).map Account.code = .ok receipt.output ∧
      (after.account (Ledger.creationAddress c.senderAddress.bytes 0)).map Account.code =
        .ok receipt.output := by
  obtain ⟨-, fund, place, create, success, -, install⟩ := prepared
  rename_i funded placed ran receipt
  obtain ⟨l, opened, fresh⟩ := nonce_of_foundation fund place
  -- whether it is to be kept plays no part in what a creation returns
  have kept : placed.execute (Deployment.creation bindings c) true =
      (.ok receipt, (placed.execute (Deployment.creation bindings c) true).2) := by
    have result := congrArg Prod.fst create
    obtain ⟨_⟩ := placed
    cases opened
    exact Prod.ext result rfl
  obtain ⟨l₁, l₂, opened', left, -, -, -, creation⟩ := execute_leaves kept success
  cases opened.symm.trans opened'
  have installedCode := (creation rfl).installed
  have address : l.nextCreation c.senderAddress.bytes =
      Ledger.creationAddress c.senderAddress.bytes 0 := by rw [Ledger.nextCreation, fresh]
  refine ⟨funded, placed, _, receipt, fund, place, kept, success, ?_, ?_⟩
  · obtain ⟨l₃, -, size, last⟩ := installed install
    rw [account_code last size, Ledger.holding_setHolding_self]
  · rw [account_code left (length_creationAddress _ _), ← address]
    exact congrArg Except.ok installedCode

/-- A transaction that goes well and is kept moves its value from the caller to the target or to the
new account, and the sum of all balances stays. Besides, a call changes only the storage of its
target, except that a caller that is emptied by it loses its own. A creation raises two nonces and
installs what it returns at the address made of its caller and the caller's nonce, and no other code
or storage changes. So the code that a preparation installs is the one that its creation would have
left there. -/
theorem commit_effect :
    (∀ (v v' : VirtualMachine) (t : Transaction) (receipt : Receipt),
      v.execute t true = (.ok receipt, v') → receipt.success = true →
      ∃ l l', v.ledger = some l ∧ v'.ledger = some l' ∧ 0 ≤ t.value ∧
        (∀ target, t.target = some target → CallLeaves l l' t.caller target t.value.toNat) ∧
        (t.target = none → CreationLeaves l l' t.caller t.value.toNat receipt.output ∧
          l.nextCreation t.caller = (Keccak.hash (encodeList
            [t.caller, Ledger.minimalBytes (l.holding t.caller).nonce])).bytes.drop 12)) ∧
    ∀ (bindings : Bindings) (c : Config) (v v' : VirtualMachine) (events later : List Event),
      (Deployment.prepare bindings c).start ⟨v, events⟩ = (.ok (), ⟨v', later⟩) →
      ∃ funded placed after receipt,
        v.setAccount c.senderAddress.bytes { balance := c.senderBalance } = .ok funded ∧
        funded.setAccount c.oracleAddress.bytes { code := bindings.oracle } = .ok placed ∧
        placed.execute (Deployment.creation bindings c) true = (.ok receipt, after) ∧
        receipt.success = true ∧
        (v'.account c.mipsAddress.bytes).map Account.code = .ok receipt.output ∧
        (after.account (Ledger.creationAddress c.senderAddress.bytes 0)).map Account.code =
          .ok receipt.output := by
  constructor
  · intro v v' t receipt ran success
    obtain ⟨l, l', opened, left, size, value, call, creation⟩ := execute_leaves ran success
    exact ⟨l, l', opened, left, value, call, fun aim => ⟨creation aim, creationAddress_eq size _⟩⟩
  · intro bindings c v v' events later ran
    exact prepared_code ((Deployment.prepare_iff events).1 ⟨later, ran⟩)

/-- What the creation of the terse code leaves of a new machine. -/
theorem commit_effect_terse : ∃ l',
    (execute {} (Deployment.creation Bindings.terse Config.crowded) true).2.ledger = some l' ∧
      CreationLeaves {} l' Config.crowded.senderAddress.bytes 0 [1] := by
  have evaluated : (execute {} (Deployment.creation Bindings.terse Config.crowded) true).1.toOption
      = some (successReceipt [1] []) := by decide +kernel
  rcases ran : execute {} (Deployment.creation Bindings.terse Config.crowded) true with
    ⟨_ | receipt, v'⟩
  · rw [ran] at evaluated
    cases evaluated
  · rw [ran] at evaluated
    obtain rfl : receipt = successReceipt [1] [] := Option.some.inj evaluated
    obtain ⟨_, l', ⟨⟩, left, -, -, creation⟩ := commit_effect.1 _ _ _ _ ran rfl
    exact ⟨l', left, (creation rfl).1⟩

/-! ## An account that is emptied -/

/-- The value of a slot of an account. -/
def slot (v : VirtualMachine) (address : Bytes) (key : Word) : Word :=
  match v.ledger with
  | some l => (l.slots address).value key
  | none => 0

/-- The address of an account that stores something. -/
def hoarder : Bytes := List.replicate 20 0x11

/-- The address of an account that is given something. -/
def heir : Bytes := List.replicate 20 0x22

/-- An engine with an account that has stored a number, and has been installed anew since, with a
balance of one and no code. -/
def hoarding : Except Fault VirtualMachine := do
  let v ← setAccount {} hoarder { code := [0x60, 0x01, 0x60, 0x00, 0x55, 0x00] }
  let (_, v) := v.execute
    { caller := heir, target := some hoarder, data := some [], gasLimit := 100000 } true
  v.setAccount hoarder { balance := 1 }

/-- A call of the other account that leaves nothing behind. -/
def bequest : Transaction where
  caller := hoarder
  target := some heir
  data := some []
  gasLimit := 0
  value := 1

/-- The call goes well, and although it is a call of another account, the number is gone. -/
theorem emptied_caller_loses_storage :
    (hoarding.map fun v => ((v.execute bequest true).1.toOption, v.slot hoarder 0,
      (v.execute bequest true).2.slot hoarder 0)).toOption =
        some (some (successReceipt [] []), 1, 0) ∧
      bequest.target ≠ some hoarder := by
  decide +kernel

end StepReplay.VirtualMachine
