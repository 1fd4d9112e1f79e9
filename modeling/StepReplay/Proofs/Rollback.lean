import StepReplay.Environment.Evm
import StepReplay.Environment.Simulated
import StepReplay.Proofs.Except

set_option autoImplicit false

/-! # What an execution leaves behind

Unless a transaction goes well and is to be kept, an engine looks afterwards as it did before. The
virtual machine breaks this in one case alone, which `Strands` describes: a creation that was begun
and whose value then cannot be transferred takes back the transfer, but not what was done to begin
it. The result of a transaction never depends on whether it is to be kept. -/

namespace StepReplay

/-- Whether the changes of a transaction are kept, which are those of one that went well. -/
def Keeps (commit : Bool) (result : Except Fault Receipt) : Prop :=
  commit = true ∧ ∃ receipt, result = .ok receipt ∧ receipt.success = true

namespace Evm

/-- The address that a creation by an account would have now. -/
def Ledger.nextCreation (l : Ledger) (creator : Bytes) : Bytes :=
  creationAddress creator (l.holding creator).nonce

/-- `Strands l t e`: the transaction is a creation that is as it must be, but the transfer of its
value to the new account fails. -/
structure Strands (l : Ledger) (t : Transaction) (e : Fault) : Prop where
  creation : t.target = none
  caller : t.caller.length = 20
  gas : 0 ≤ t.gasLimit
  nonce : (l.holding t.caller).nonce + 1 < Bytes.capacity 32
  value : 0 ≤ t.value ∧ t.value < Bytes.capacity 32
  data : t.data.isSome = true
  refused : l.transfer t.caller (l.nextCreation t.caller) t.value.toNat = .error e

/-- A creation that is as it must be strands if it sends more than its caller has. -/
theorem strands_of_balance_lt {l : Ledger} {t : Transaction} (creation : t.target = none)
    (caller : t.caller.length = 20) (gas : 0 ≤ t.gasLimit)
    (nonce : (l.holding t.caller).nonce + 1 < Bytes.capacity 32)
    (value : 0 ≤ t.value ∧ t.value < Bytes.capacity 32)
    (data : t.data.isSome = true) (poor : (l.holding t.caller).balance < t.value.toNat) :
    Strands l t .balanceTooLow := by
  refine ⟨creation, caller, gas, nonce, value, data, ?_⟩
  rw [Ledger.transfer, if_neg (by omega), if_pos poor]

/-! ## Courses -/

/-- A course that drops a ledger drops it whatever it ends with. -/
theorem Course.ledger_of_not_keeps {c : Course} {commit : Bool} (h : ¬ Keeps commit c.result) :
    c.ledger commit = c.dropped := by
  unfold Course.ledger
  split
  · rename_i receipt result
    split
    · rename_i kept
      rw [Bool.and_eq_true] at kept
      exact absurd ⟨kept.1, receipt, result, kept.2⟩ h
    · rfl
  · rfl

/-- A call that transfers nothing drops the ledger that it began with. -/
theorem callAccount_dropped (l : Ledger) (caller target data : Bytes) (gas : Nat) :
    (callAccount l caller target data gas 0).dropped = l := by
  have free : l.transfer caller target 0 = .ok l := if_pos rfl
  unfold callAccount
  rw [free]
  dsimp only
  split
  · split <;> rfl
  · split <;> rfl

theorem checkAddress_eq_ok {b address : Bytes} :
    checkAddress b = .ok address ↔ b.length = 20 ∧ b = address := by
  unfold checkAddress
  split
  · rename_i size
    simp [size]
  · rename_i other
    exact ⟨nofun, fun h => absurd h.1 other⟩

theorem checkNat_eq_ok {n : Int} {m : Nat} : checkNat n = .ok m ↔ 0 ≤ n ∧ n.toNat = m := by
  unfold checkNat
  split
  · rename_i inside
    simp [inside]
  · rename_i outside
    exact ⟨nofun, fun h => absurd h.1 outside⟩

theorem checkWord_eq_ok {n : Int} {m : Nat} :
    checkWord n = .ok m ↔ (0 ≤ n ∧ n < Bytes.capacity 32) ∧ n.toNat = m := by
  unfold checkWord
  split
  · rename_i inside
    simp only [inside, Except.ok.injEq, and_self, true_and]
  · rename_i outside
    exact ⟨nofun, fun h => absurd h.1 outside⟩

/-- The calls that are begun. -/
theorem course_of_call {l : Ledger} {t : Transaction} {target : Bytes} {c : Course}
    (call : t.target = some target) :
    course l t = .ok c ↔
      t.caller.length = 20 ∧ 0 ≤ t.gasLimit ∧ target.length = 20 ∧
        (l.holding t.caller).nonce < Bytes.capacity 32 ∧
        (0 ≤ t.value ∧ t.value < Bytes.capacity 32) ∧
        ∃ data, t.data = some data ∧
          c = callAccount l t.caller target data t.gasLimit.toNat t.value.toNat := by
  simp only [course, call, bind_eq_ok, checkAddress_eq_ok, checkNat_eq_ok, checkWord_eq_ok]
  constructor
  · rintro ⟨_, ⟨caller, rfl⟩, _, ⟨gas, rfl⟩, _, ⟨size, rfl⟩, _, ⟨⟨-, nonce⟩, -⟩, _, ⟨value, rfl⟩,
      h⟩
    cases given : t.data with
    | none =>
      rw [given] at h
      cases h
    | some data =>
      rw [given] at h
      cases h
      exact ⟨caller, gas, size, by omega, value, data, rfl, rfl⟩
  · rintro ⟨caller, gas, size, nonce, value, data, given, rfl⟩
    refine ⟨_, ⟨caller, rfl⟩, _, ⟨gas, rfl⟩, _, ⟨size, rfl⟩, _, ⟨⟨by omega, by omega⟩, rfl⟩, _,
      ⟨value, rfl⟩, ?_⟩
    rw [given]
    rfl

/-- The creations that are begun. -/
theorem course_of_creation {l : Ledger} {t : Transaction} {c : Course}
    (creation : t.target = none) :
    course l t = .ok c ↔
      t.caller.length = 20 ∧ 0 ≤ t.gasLimit ∧ (l.holding t.caller).nonce + 1 < Bytes.capacity 32 ∧
        (0 ≤ t.value ∧ t.value < Bytes.capacity 32) ∧
        ∃ data, t.data = some data ∧
          c = createAccount l t.caller data t.gasLimit.toNat t.value.toNat := by
  simp only [course, creation, bind_eq_ok, checkAddress_eq_ok, checkNat_eq_ok, checkWord_eq_ok]
  constructor
  · rintro ⟨_, ⟨caller, rfl⟩, _, ⟨gas, rfl⟩, _, ⟨⟨-, nonce⟩, -⟩, _, ⟨value, rfl⟩, h⟩
    cases given : t.data with
    | none =>
      rw [given] at h
      cases h
    | some data =>
      rw [given] at h
      cases h
      exact ⟨caller, gas, by omega, value, data, rfl, rfl⟩
  · rintro ⟨caller, gas, nonce, value, data, given, rfl⟩
    refine ⟨_, ⟨caller, rfl⟩, _, ⟨gas, rfl⟩, _, ⟨⟨by omega, by omega⟩, rfl⟩, _, ⟨value, rfl⟩, ?_⟩
    rw [given]
    rfl

theorem transact_dropped {l : Ledger} {t : Transaction} {target : Bytes}
    (call : t.target = some target) (nothing : t.value = 0) : (transact l t).dropped = l := by
  unfold transact
  cases begun : course l t with
  | error e => rfl
  | ok c =>
    obtain ⟨-, -, -, -, -, data, -, rfl⟩ := (course_of_call call).1 begun
    rw [nothing]
    exact callAccount_dropped ..

end Evm

/-! ## Engines -/

namespace VirtualMachine

/-- The engine after the creation of an account was begun. -/
def beginCreation (v : VirtualMachine) (creator : Bytes) : VirtualMachine :=
  ⟨v.ledger.map fun l => l.beginCreation creator (l.nextCreation creator)⟩

/-- Whether a transaction strands on the ledger of an engine. -/
def Strands (v : VirtualMachine) (t : Transaction) : Prop :=
  ∃ l e, v.ledger = some l ∧ Evm.Strands l t e

/-- A call that transfers nothing and is not kept leaves no trace whatever. -/
theorem execute_dropped {v : VirtualMachine} {t : Transaction} {target : Bytes} {commit : Bool}
    (call : t.target = some target) (nothing : t.value = 0)
    (dropped : ¬ Keeps commit (v.execute t commit).1) : (v.execute t commit).2 = v := by
  obtain ⟨_ | l⟩ := v
  · rfl
  · have left : (Evm.transact l t).ledger commit = l := by
      rw [Evm.Course.ledger_of_not_keeps dropped, Evm.transact_dropped call nothing]
    exact congrArg (fun l => VirtualMachine.mk (some l)) left

theorem execute_dry {t : Transaction} {target : Bytes} (call : t.target = some target)
    (nothing : t.value = 0) (v : VirtualMachine) : (v.execute t false).2 = v :=
  execute_dropped call nothing fun keeps => absurd keeps.1 (by decide)

end VirtualMachine

namespace Simulated

theorem oracle_result (s : Simulated) (past : List (Transaction × Bool)) (calldata : Bytes)
    (commit : Bool) :
    (({ s with transactions := past } : Simulated).oracle calldata commit).1 =
      (s.oracle calldata false).1 := by
  unfold oracle
  split <;> rfl

theorem oracle_dropped {s : Simulated} {calldata : Bytes} {commit : Bool}
    (dropped : ¬ Keeps commit (s.oracle calldata commit).1) :
    (s.oracle calldata commit).2 = s := by
  unfold oracle at dropped ⊢
  split
  · rfl
  · rfl
  · rename_i key entry disclosed
    rw [disclosed] at dropped
    cases commit with
    | false => rfl
    | true => exact absurd ⟨rfl, _, rfl, rfl⟩ dropped

/-- Neither what was asked for before nor whether a call is to be kept plays a part in it. -/
theorem call_result (s : Simulated) (past : List (Transaction × Bool)) (target : Bytes)
    (data : Option Bytes) (commit : Bool) :
    (({ s with transactions := past } : Simulated).call target data commit).1 =
      (s.call target data false).1 := by
  unfold call
  dsimp only [accountAt]
  split
  · cases data with
    | none => rfl
    | some calldata => exact s.oracle_result past calldata commit
  · split
    · cases data <;> rfl
    · rfl

theorem call_dropped {s : Simulated} {target : Bytes} {data : Option Bytes} {commit : Bool}
    (dropped : ¬ Keeps commit (s.call target data commit).1) :
    (s.call target data commit).2 = s := by
  unfold call at dropped ⊢
  dsimp only at dropped ⊢
  split
  · rename_i oracle
    rw [if_pos oracle] at dropped
    cases data with
    | none => rfl
    | some calldata => exact oracle_dropped dropped
  · split
    · cases data <;> rfl
    · rfl

/-- What was asked for before plays no part in a transaction. -/
theorem execute_past (s : Simulated) (past : List (Transaction × Bool)) (t : Transaction)
    (commit : Bool) :
    (({ s with transactions := past } : Simulated).execute t commit).1 =
      (s.execute t commit).1 := by
  unfold execute
  dsimp only
  split
  · rfl
  · cases t.target with
    | none => cases t.data <;> rfl
    | some target => exact (s.call_result ..).trans (s.call_result ..).symm

/-- What is not kept leaves nothing but its entry in the record. -/
theorem execute_dropped {s : Simulated} {t : Transaction} {commit : Bool}
    (dropped : ¬ Keeps commit (s.execute t commit).1) :
    (s.execute t commit).2 = { s with transactions := s.transactions ++ [(t, commit)] } := by
  unfold execute at dropped ⊢
  dsimp only at dropped ⊢
  split
  · rfl
  · rename_i working
    rw [if_neg working] at dropped
    cases target : t.target with
    | none => cases t.data <;> rfl
    | some target =>
      rw [target] at dropped
      exact call_dropped dropped

theorem execute_dry (s : Simulated) (t : Transaction) :
    (s.execute t false).2 = { s with transactions := s.transactions ++ [(t, false)] } :=
  execute_dropped fun keeps => absurd keeps.1 (by decide)

end Simulated

end StepReplay
