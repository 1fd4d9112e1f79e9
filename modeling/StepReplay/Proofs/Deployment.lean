import StepReplay.Proofs.Exchange
import StepReplay.Proofs.Rollback
import StepReplay.Proofs.Table

set_option autoImplicit false

/-! # What a preparation writes

Preparing an engine writes three accounts, one after another, and nothing else: the creation in
between is a dry run that transfers nothing. What it returns depends on the engine by the nonce of
its caller alone, and that was written just before. So a second preparation runs the same creation
with the same result, although it finds other accounts, and writes the same accounts again. -/

namespace StepReplay

/-! ## Engines as accounts and a rest -/

/-- The nonce of an account, as far as it is there. -/
def nonceAt (accounts : Table Bytes Account) (address : Bytes) : Int :=
  ((accounts.find? address).getD {}).nonce

/-- `Shows accounts rest`: an account that is installed is written among the accounts, and a dry
creation that transfers nothing changes none. Neither touches the rest, and what they come to
depends on the rest alone, but for the nonce of the account that creates. -/
structure Shows {σ κ : Type} [Environment σ] (accounts : σ → Table Bytes Account) (rest : σ → κ) :
    Prop where
  available : ∀ {env env'}, rest env = rest env' →
    Environment.available env = Environment.available env'
  installs : ∀ {env env' : σ} {address account},
    Environment.setAccount env address account = .ok env' →
      accounts env' = (accounts env).put address account ∧ rest env' = rest env
  installable : ∀ {env env' placed : σ} {address account}, rest env = rest env' →
    Environment.setAccount env address account = .ok placed →
      ∃ placed', Environment.setAccount env' address account = .ok placed'
  refuses : ∀ {env : σ} {address account f},
    Environment.setAccount env address account = .error (.failure f) →
      f.kind ≠ "DeploymentFailure"
  drops : ∀ {env env' : σ} {t result}, t.target = none → t.value = 0 →
    Environment.execute env t false = (result, env') →
      accounts env' = accounts env ∧ rest env' = rest env
  creates : ∀ {env env' : σ} {t}, t.target = none → t.value = 0 → rest env = rest env' →
    nonceAt (accounts env) t.caller = nonceAt (accounts env') t.caller →
      (Environment.execute env t false).1 = (Environment.execute env' t false).1

/-! ## Preparations -/

namespace Deployment

variable {σ κ : Type} [Environment σ] {accounts : σ → Table Bytes Account} {rest : σ → κ}
  {bindings : Bindings} {c : Config}

/-- The accounts that are written before the creation. -/
def foundation (bindings : Bindings) (c : Config) : List (Bytes × Account) :=
  [(c.senderAddress.bytes, { balance := c.senderBalance }),
    (c.oracleAddress.bytes, { code := bindings.oracle })]

/-- All accounts that are written, the last one with the code that the creation returns. -/
def writes (bindings : Bindings) (c : Config) (code : Bytes) : List (Bytes × Account) :=
  foundation bindings c ++ [(c.mipsAddress.bytes, { code := code })]

/-- The creation of the stepper. -/
def creation (bindings : Bindings) (c : Config) : Transaction :=
  c.transaction none (some (creationData bindings c))

/-- `Deploys accounts rest bindings c env`: what a preparation of `env` leaves behind. -/
structure Deploys (accounts : σ → Table Bytes Account) (rest : σ → κ) (bindings : Bindings)
    (c : Config) (env : σ) : Prop where
  /-- One that ends well has written three accounts, and the code of the last one is what the
  creation returns on the engine with the other two. Another one ends well again, and has the same
  accounts and the same rest. -/
  well : ∀ {events later env'},
    (prepare bindings c).start ⟨env, events⟩ = (.ok (), ⟨env', later⟩) →
    (∃ placed receipt,
      accounts placed = Table.putAll (foundation bindings c) (accounts env) ∧
      rest placed = rest env ∧
      (Environment.execute placed (creation bindings c) false).1 = .ok receipt ∧
      receipt.success = true ∧ receipt.output ≠ [] ∧
      accounts env' = Table.putAll (writes bindings c receipt.output) (accounts env) ∧
      rest env' = rest env) ∧
    ∀ events, ∃ later env'',
      (prepare bindings c).start ⟨env', events⟩ = (.ok (), ⟨env'', later⟩) ∧
      accounts env'' = accounts env' ∧ rest env'' = rest env'
  /-- One that fails has written no more than the accounts before the creation, and both of them if
  it is the creation that fails. -/
  fault : ∀ {events later env' e},
    (prepare bindings c).start ⟨env, events⟩ = (.error e, ⟨env', later⟩) →
    rest env' = rest env ∧
    ∃ k, accounts env' = Table.putAll ((foundation bindings c).take k) (accounts env) ∧
      ∀ f, e = .failure f → f.kind = "DeploymentFailure" → k = 2

/-- `Fails bindings c env env' e`: one of the calls that prepare `env` does not go through, and `e`
is what it ends with. The calls before it have led to `env'`; a creation that is refused has been
run all the same. -/
inductive Fails (bindings : Bindings) (c : Config) (env : σ) : σ → Fault → Prop
  | unready : Fails bindings c env env (.failure .noEngine)
  | sender {e : Fault}
      (refused : Environment.setAccount env c.senderAddress.bytes { balance := c.senderBalance }
        = .error e) :
      Fails bindings c env env e
  | oracle {funded : σ} {e : Fault}
      (fund : Environment.setAccount env c.senderAddress.bytes { balance := c.senderBalance }
        = .ok funded)
      (refused : Environment.setAccount funded c.oracleAddress.bytes { code := bindings.oracle }
        = .error e) :
      Fails bindings c env funded e
  | stepper {funded placed : σ} {e : Fault}
      (fund : Environment.setAccount env c.senderAddress.bytes { balance := c.senderBalance }
        = .ok funded)
      (place : Environment.setAccount funded c.oracleAddress.bytes { code := bindings.oracle }
        = .ok placed) :
      Fails bindings c env (Environment.execute placed (creation bindings c) false).2 e

theorem fails_of_prepare {env env' : σ} {events later : List Event} {e : Fault}
    (failed : (prepare bindings c).start ⟨env, events⟩ = (.error e, ⟨env', later⟩)) :
    Fails bindings c env env' e := by
  -- the actions are peeled off from the front, up to the one that fails
  rw [prepare, Attempt.start_bind_eq_error] at failed
  rcases failed with unready | ⟨_, _, ready, failed⟩
  · obtain ⟨-, rfl, same⟩ := Action.start_requireReady_eq_error.1 unready
    cases same
    exact .unready
  obtain ⟨-, rfl⟩ := Action.start_requireReady_eq_ok.1 ready
  rw [Attempt.start_bind_eq_error] at failed
  rcases failed with unfunded | ⟨_, _, funds, failed⟩
  · obtain ⟨refused, same⟩ := Action.start_install_eq_error.1 unfunded
    cases same
    exact .sender refused
  obtain ⟨funded, fund, rfl⟩ := Action.start_install_eq_ok.1 funds
  rw [Attempt.start_bind_eq_error] at failed
  rcases failed with unplaced | ⟨_, _, places, failed⟩
  · rw [deploy, Attempt.start_bind, Action.start_note] at unplaced
    obtain ⟨refused, same⟩ := Action.start_install_eq_error.1 unplaced
    cases same
    exact .oracle fund refused
  rw [deploy, Attempt.start_bind, Action.start_note] at places
  obtain ⟨placed, place, rfl⟩ := Action.start_install_eq_ok.1 places
  -- after the creation nothing is written any more, whatever fails
  have left : env' = (Environment.execute placed (creation bindings c) false).2 := by
    rcases Attempt.start_bind_eq_error.1 failed with refused | ⟨receipt, _, submitted, failed⟩
    · rw [Action.start_submit] at refused
      exact (congrArg (·.2.env) refused).symm
    obtain ⟨ran, create, rfl⟩ := Action.start_submit_eq_ok.1 submitted
    rw [show (Environment.execute placed (creation bindings c) false).2 = ran from
      congrArg Prod.snd create]
    rcases Attempt.start_bind_eq_error.1 failed with invalid | ⟨code, _, accepted, failed⟩
    · cases Action.start_check_eq_error invalid
      rfl
    obtain ⟨-, rfl⟩ := Action.start_check_eq_ok.1 accepted
    rw [deploy, Attempt.start_bind, Action.start_note] at failed
    obtain ⟨-, same⟩ := Action.start_install_eq_error.1 failed
    cases same
    rfl
  rw [left]
  exact .stepper fund place

theorem nonceAt_foundation (t : Table Bytes Account) :
    nonceAt (Table.putAll (foundation bindings c) t) c.senderAddress.bytes = 0 := by
  show ((Table.find? _ (Table.put _ _ (Table.put _ _ t))).getD {}).nonce = 0
  by_cases same : c.senderAddress.bytes = c.oracleAddress.bytes
  · rw [same, Table.find?_put_self]
    rfl
  · rw [Table.find?_put_of_ne same, Table.find?_put_self]
    rfl

end Deployment

namespace Shows

open Deployment

variable {σ κ : Type} [Environment σ] {accounts : σ → Table Bytes Account} {rest : σ → κ}
  {bindings : Bindings} {c : Config} {env funded placed ran env' : σ} {receipt : Receipt}

theorem foundation (shows : Shows accounts rest)
    (fund : Environment.setAccount env c.senderAddress.bytes { balance := c.senderBalance }
      = .ok funded)
    (place : Environment.setAccount funded c.oracleAddress.bytes { code := bindings.oracle }
      = .ok placed) :
    accounts placed = Table.putAll (foundation bindings c) (accounts env) ∧
      rest placed = rest env := by
  obtain ⟨first, keeps⟩ := shows.installs fund
  obtain ⟨second, keeps'⟩ := shows.installs place
  rw [second, first, keeps', keeps]
  exact ⟨rfl, rfl⟩

/-- The stepper is written after a creation that has left nothing behind. -/
theorem written (shows : Shows accounts rest)
    (fund : Environment.setAccount env c.senderAddress.bytes { balance := c.senderBalance }
      = .ok funded)
    (place : Environment.setAccount funded c.oracleAddress.bytes { code := bindings.oracle }
      = .ok placed)
    (create : Environment.execute placed (creation bindings c) false = (.ok receipt, ran))
    (install : Environment.setAccount ran c.mipsAddress.bytes { code := receipt.output }
      = .ok env') :
    accounts env' = Table.putAll (writes bindings c receipt.output) (accounts env) ∧
      rest env' = rest env := by
  obtain ⟨founded, keeps⟩ := shows.foundation fund place
  obtain ⟨same, dropped⟩ := shows.drops rfl rfl create
  obtain ⟨last, keeps'⟩ := shows.installs install
  rw [last, same, founded, keeps', dropped, keeps, writes, Table.putAll_concat]
  exact ⟨rfl, rfl⟩

theorem well (shows : Shows accounts rest) (prepared : Prepares bindings c env env') :
    ∃ placed receipt,
      accounts placed = Table.putAll (Deployment.foundation bindings c) (accounts env) ∧
      rest placed = rest env ∧
      (Environment.execute placed (creation bindings c) false).1 = .ok receipt ∧
      receipt.success = true ∧ receipt.output ≠ [] ∧
      accounts env' = Table.putAll (writes bindings c receipt.output) (accounts env) ∧
      rest env' = rest env := by
  obtain ⟨-, fund, place, create, success, code, install⟩ := prepared
  obtain ⟨founded, keeps⟩ := shows.foundation fund place
  exact ⟨_, _, founded, keeps, congrArg Prod.fst create, success, code,
    shows.written fund place create install⟩

/-- Engines with the same rest are prepared alike, whatever accounts they have: the creation finds
its caller with the same nonce, so it returns the same code. -/
theorem prepares_alike (shows : Shows accounts rest) (prepared : Prepares bindings c env env')
    {other : σ} (same : rest env = rest other) :
    ∃ other' code, Prepares bindings c other other' ∧
      accounts env' = Table.putAll (writes bindings c code) (accounts env) ∧
      accounts other' = Table.putAll (writes bindings c code) (accounts other) ∧
      rest other' = rest other := by
  obtain ⟨ready, fund, place, create, success, code, install⟩ := prepared
  rename_i funded placed ran receipt
  obtain ⟨funded', fund'⟩ := shows.installable same fund
  have restsFunded : rest funded = rest funded' := by
    rw [(shows.installs fund).2, (shows.installs fund').2, same]
  obtain ⟨placed', place'⟩ := shows.installable restsFunded place
  obtain ⟨founded, keeps⟩ := shows.foundation fund place
  obtain ⟨founded', keeps'⟩ := shows.foundation fund' place'
  have restsPlaced : rest placed = rest placed' := by rw [keeps, keeps', same]
  -- the caller has just been written on both engines, whatever it was before
  have nonces : nonceAt (accounts placed) c.senderAddress.bytes =
      nonceAt (accounts placed') c.senderAddress.bytes := by
    rw [founded, founded', nonceAt_foundation, nonceAt_foundation]
  have create' : Environment.execute placed' (creation bindings c) false =
      (.ok receipt, (Environment.execute placed' (creation bindings c) false).2) := by
    have returned : (Environment.execute placed (creation bindings c) false).1 = .ok receipt :=
      congrArg Prod.fst create
    exact Prod.ext ((shows.creates rfl rfl restsPlaced nonces).symm.trans returned) rfl
  have restsRan := (shows.drops rfl rfl create).2.trans
    (restsPlaced.trans (shows.drops rfl rfl create').2.symm)
  obtain ⟨other', install'⟩ := shows.installable restsRan install
  exact ⟨other', receipt.output,
    ⟨(shows.available same).symm.trans ready, fund', place', create', success, code, install'⟩,
    (shows.written fund place create install).1, shows.written fund' place' create' install'⟩

theorem again (shows : Shows accounts rest) (prepared : Prepares bindings c env env') :
    ∃ env'', Prepares bindings c env' env'' ∧ accounts env'' = accounts env' ∧
      rest env'' = rest env' := by
  obtain ⟨_, _, -, -, -, -, -, -, keeps⟩ := shows.well prepared
  obtain ⟨env'', code, prepared', first, second, keeps'⟩ :=
    shows.prepares_alike prepared keeps.symm
  refine ⟨env'', prepared', ?_, keeps'⟩
  rw [second, first, Table.putAll_putAll]

/-- Until the creation is run, at most two accounts have been written. -/
theorem fault (shows : Shows accounts rest) {e : Fault} (failed : Fails bindings c env env' e) :
    rest env' = rest env ∧
    ∃ k, accounts env' = Table.putAll ((Deployment.foundation bindings c).take k) (accounts env) ∧
      ∀ f, e = .failure f → f.kind = "DeploymentFailure" → k = 2 := by
  cases failed with
  | unready => exact ⟨rfl, 0, rfl, by rintro _ ⟨⟩ ⟨⟩⟩
  | sender refused =>
    refine ⟨rfl, 0, rfl, ?_⟩
    rintro f rfl kind
    exact absurd kind (shows.refuses refused)
  | oracle fund refused =>
    obtain ⟨first, keeps⟩ := shows.installs fund
    refine ⟨keeps, 1, first, ?_⟩
    rintro f rfl kind
    exact absurd kind (shows.refuses refused)
  | stepper fund place =>
    obtain ⟨founded, keeps⟩ := shows.foundation fund place
    rename_i funded placed
    have run : Environment.execute placed (creation bindings c) false = (_, _) := rfl
    obtain ⟨same, keeps'⟩ := shows.drops rfl rfl run
    exact ⟨keeps'.trans keeps, 2, same.trans founded, fun _ _ _ => rfl⟩

theorem deploys (shows : Shows accounts rest) (bindings : Bindings) (c : Config) (env : σ) :
    Deploys accounts rest bindings c env where
  well ran := by
    have prepared := (prepare_iff _).1 ⟨_, ran⟩
    refine ⟨shows.well prepared, fun events => ?_⟩
    obtain ⟨env'', prepared', same, keeps⟩ := shows.again prepared
    obtain ⟨later, ran'⟩ := (prepare_iff events).2 prepared'
    exact ⟨later, env'', ran', same, keeps⟩
  fault failed := shows.fault (fails_of_prepare failed)

end Shows

/-! ## The simulated modules -/

namespace Simulated

/-- An engine without its accounts and its record: what it is told to do, and what has been
disclosed to it. -/
def bare (s : Simulated) : Simulated :=
  { s with accounts := [], transactions := [] }

theorem attached_of_bare {s s' : Simulated} (same : s.bare = s'.bare) :
    s.attached = s'.attached := by
  show s.bare.attached = s'.bare.attached
  rw [same]

theorem fail_of_bare {s s' : Simulated} (same : s.bare = s'.bare) : s.fail = s'.fail := by
  show s.bare.fail = s'.bare.fail
  rw [same]

theorem shows : Shows accounts bare where
  available := attached_of_bare
  installs := by
    rintro s _ address account ⟨⟩
    exact ⟨rfl, rfl⟩
  installable := by
    rintro s s' _ address account - -
    exact ⟨_, rfl⟩
  refuses := by
    rintro s address account f ⟨⟩
  drops := by
    rintro s s' t result - - ran
    have after := execute_dry s t
    rw [show (s.execute t false).2 = s' from congrArg Prod.snd ran] at after
    rw [after]
    exact ⟨rfl, rfl⟩
  creates := by
    rintro s s' t create - same -
    show (s.execute t false).1 = (s'.execute t false).1
    unfold execute
    dsimp only
    rw [fail_of_bare same, create]
    split
    · rfl
    · cases t.data <;> rfl

end Simulated

/-! ## The virtual machine -/

namespace Evm

/-- An account as it is read. -/
def Holding.account (h : Holding) : Account :=
  { balance := h.balance, nonce := h.nonce, code := h.code }

/-- What a creation that transfers nothing comes to depends on the nonce of its caller alone. -/
theorem createAccount_result {l l' : Ledger} {caller : Bytes}
    (same : (l.holding caller).nonce = (l'.holding caller).nonce) (code : Bytes) (gas : Nat) :
    (createAccount l caller code gas 0).result = (createAccount l' caller code gas 0).result := by
  have free (l : Ledger) (receiver : Bytes) : l.transfer caller receiver 0 = .ok l := if_pos rfl
  simp only [createAccount, same, free]
  split
  · split <;> rfl
  · rfl
  · rfl

theorem createAccount_dropped (l : Ledger) (caller code : Bytes) (gas : Nat) :
    (createAccount l caller code gas 0).dropped = l.noteCreation (l.nextCreation caller) := by
  have free (l : Ledger) (receiver : Bytes) : l.transfer caller receiver 0 = .ok l := if_pos rfl
  simp only [createAccount, free]
  split
  · split <;> rfl
  · rfl
  · rfl

/-- Whether a creation is as it must be depends on the nonce of its caller alone. -/
theorem course_error_congr {l l' : Ledger} {t : Transaction} (create : t.target = none)
    (same : (l.holding t.caller).nonce = (l'.holding t.caller).nonce) {e : Fault}
    (refused : course l t = .error e) : course l' t = .error e := by
  simp only [course, create, bind_eq_error] at refused ⊢
  rcases refused with e | ⟨caller, address, refused⟩
  · exact .inl e
  obtain ⟨-, rfl⟩ := checkAddress_eq_ok.1 address
  rw [same] at refused
  refine .inr ⟨_, address, ?_⟩
  rcases refused with e | ⟨gas, limit, refused⟩
  · exact .inl e
  refine .inr ⟨gas, limit, ?_⟩
  rcases refused with e | ⟨nonce, next, refused⟩
  · exact .inl e
  refine .inr ⟨nonce, next, ?_⟩
  rcases refused with e | ⟨value, paid, refused⟩
  · exact .inl e
  refine .inr ⟨value, paid, ?_⟩
  cases given : t.data with
  | none =>
    rw [given] at refused
    exact refused
  | some code =>
    rw [given] at refused
    cases refused

theorem transact_result_congr {l l' : Ledger} {t : Transaction} (create : t.target = none)
    (nothing : t.value = 0) (same : (l.holding t.caller).nonce = (l'.holding t.caller).nonce) :
    (transact l t).result = (transact l' t).result := by
  unfold transact
  cases begun : course l t with
  | error e => rw [course_error_congr create same begun]; rfl
  | ok c =>
    obtain ⟨caller, gas, nonce, value, code, given, rfl⟩ := (course_of_creation create).1 begun
    rw [same] at nonce
    rw [(course_of_creation create).2 ⟨caller, gas, nonce, value, code, given, rfl⟩, nothing,
      Int.toNat_zero]
    exact createAccount_result same code _

theorem transact_dropped_of_creation {l : Ledger} {t : Transaction} (create : t.target = none)
    (nothing : t.value = 0) :
    (transact l t).dropped.accounts = l.accounts ∧ (transact l t).dropped.storage = l.storage := by
  unfold transact
  cases begun : course l t with
  | error e => exact ⟨rfl, rfl⟩
  | ok c =>
    obtain ⟨-, -, -, -, code, -, rfl⟩ := (course_of_creation create).1 begun
    rw [nothing, Int.toNat_zero]
    dsimp only
    rw [createAccount_dropped]
    exact ⟨rfl, rfl⟩

end Evm

namespace VirtualMachine

/-- The accounts of an engine. -/
def accounts (v : VirtualMachine) : Table Bytes Account :=
  match v.ledger with
  | some l => l.accounts.map fun entry => (entry.1, entry.2.account)
  | none => []

/-- The storage of an engine that has not been closed. -/
def storage (v : VirtualMachine) : Option (Table Bytes Evm.Slots) :=
  v.ledger.map (·.storage)

theorem nonceAt_accounts (l : Evm.Ledger) (address : Bytes) :
    nonceAt (accounts ⟨some l⟩) address = (l.holding address).nonce := by
  unfold nonceAt accounts Evm.Ledger.holding
  dsimp only
  rw [Table.find?_map]
  cases l.accounts.find? address <;> rfl

theorem setAccount_eq_ok {v v' : VirtualMachine} {address : Bytes} {account : Account} :
    v.setAccount address account = .ok v' ↔
      ∃ l, v.ledger = some l ∧ address.length = 20 ∧ 0 ≤ account.nonce ∧
        (0 ≤ account.balance ∧ account.balance < Bytes.capacity 32) ∧
        v' = ⟨some (l.setHolding address
          ⟨account.balance.toNat, account.nonce.toNat, account.code⟩)⟩ := by
  obtain ⟨_ | l⟩ := v
  · constructor
    · rintro ⟨⟩
    · rintro ⟨l, ⟨⟩, -⟩
  · simp only [setAccount, open?, bind_eq_ok, Evm.checkAddress_eq_ok, Evm.checkNat_eq_ok,
      Evm.checkWord_eq_ok]
    constructor
    · rintro ⟨_, ⟨⟩, _, ⟨size, rfl⟩, _, ⟨nonce, rfl⟩, _, ⟨balance, rfl⟩, ⟨⟩⟩
      exact ⟨l, rfl, size, nonce, balance, rfl⟩
    · rintro ⟨_, ⟨⟩, size, nonce, balance, rfl⟩
      exact ⟨l, rfl, _, ⟨size, rfl⟩, _, ⟨nonce, rfl⟩, _, ⟨balance, rfl⟩, rfl⟩

theorem shows : Shows accounts storage where
  available := by
    rintro ⟨_ | l⟩ ⟨_ | l'⟩ same
    · rfl
    · cases same
    · cases same
    · rfl
  installs := by
    intro v v' address account installed
    obtain ⟨l, opened, -, nonce, balance, rfl⟩ := setAccount_eq_ok.1 installed
    obtain ⟨_⟩ := v
    cases opened
    refine ⟨?_, rfl⟩
    have kept : Evm.Holding.account ⟨account.balance.toNat, account.nonce.toNat, account.code⟩ =
        account := by
      rw [Evm.Holding.account, Int.toNat_of_nonneg balance.1, Int.toNat_of_nonneg nonce]
    show List.map _ (Table.put _ _ _) = _
    rw [← Table.put_map, kept]
    rfl
  installable := by
    intro v v' placed address account same installed
    obtain ⟨l, opened, size, nonce, balance, -⟩ := setAccount_eq_ok.1 installed
    obtain ⟨_ | l'⟩ := v'
    · rw [storage, opened] at same
      cases same
    · exact ⟨_, setAccount_eq_ok.2 ⟨l', rfl, size, nonce, balance, rfl⟩⟩
  refuses := by
    rintro ⟨_ | l⟩ address account f refused
    · cases refused
      decide
    · simp only [Environment.setAccount, setAccount, open?, Evm.checkAddress, Evm.checkNat,
        Evm.checkWord] at refused
      split at refused
      · split at refused
        · split at refused <;> cases refused
        · cases refused
      · cases refused
  drops := by
    rintro ⟨_ | l⟩ v' t result create nothing ran
    · cases ran
      exact ⟨rfl, rfl⟩
    · obtain ⟨accounts, storage⟩ := Evm.transact_dropped_of_creation (l := l) create nothing
      have dropped : (Evm.transact l t).ledger false = (Evm.transact l t).dropped :=
        Evm.Course.ledger_of_not_keeps fun keeps => absurd keeps.1 (by decide)
      have left : v' = ⟨some ((Evm.transact l t).ledger false)⟩ := (congrArg Prod.snd ran).symm
      rw [left, dropped]
      exact ⟨congrArg (List.map _) accounts, congrArg some storage⟩
  creates := by
    rintro ⟨_ | l⟩ ⟨_ | l'⟩ t create nothing same nonces
    · rfl
    · cases same
    · cases same
    · rw [nonceAt_accounts, nonceAt_accounts, Int.ofNat_inj] at nonces
      exact Evm.transact_result_congr create nothing nonces

end VirtualMachine

/-- A preparation writes three accounts and nothing else, whatever engine it finds: those of the
sender and of the oracle, and of the stepper with the code that its creation returns. A second one
changes nothing. One that fails has not written the stepper, and if it is the creation that
fails, it has written the other two. -/
theorem Deployment.prepare_deploys (bindings : Bindings) (c : Config) :
    (∀ s, Deploys Simulated.accounts Simulated.bare bindings c s) ∧
      ∀ v, Deploys VirtualMachine.accounts VirtualMachine.storage bindings c v :=
  ⟨Simulated.shows.deploys bindings c, VirtualMachine.shows.deploys bindings c⟩

/-- Creation code that returns a single byte, and an oracle of one byte. -/
def Bindings.terse : Bindings :=
  { creation := [0x60, 0x01, 0x60, 0x00, 0x53, 0x60, 0x01, 0x60, 0x00, 0xF3], oracle := [0x00] }

/-- A configuration with one address for all three accounts. -/
def Config.crowded : Config :=
  { mipsAddress := Block.zero 20, oracleAddress := Block.zero 20, gasLimit := 1000 }

/-- On a new virtual machine the stepper overwrites the other two, and so it does the second
time. -/
theorem Deployment.prepare_deploys_crowded : ∃ env : VirtualMachine,
    (∃ later, (prepare Bindings.terse Config.crowded).start ⟨{}, []⟩ = (.ok (), ⟨env, later⟩)) ∧
    env.accounts = [(Bytes.zeros 20, { code := [1] })] ∧
    ∀ events, ∃ later env',
      (prepare Bindings.terse Config.crowded).start ⟨env, events⟩ = (.ok (), ⟨env', later⟩) ∧
      env'.accounts = env.accounts ∧ env'.storage = env.storage := by
  have evaluated :
      ((prepare Bindings.terse Config.crowded).start ⟨({} : VirtualMachine), []⟩).1.isOk = true ∧
        ((prepare Bindings.terse Config.crowded).start ⟨({} : VirtualMachine), []⟩).2.env.accounts =
          [(Bytes.zeros 20, { code := [1] })] := by decide +kernel
  rcases ran : (prepare Bindings.terse Config.crowded).start ⟨({} : VirtualMachine), []⟩ with
    ⟨_ | _, env, later⟩
  · rw [ran] at evaluated
    cases evaluated.1
  · rw [ran] at evaluated
    exact ⟨env, ⟨later, rfl⟩, evaluated.2,
      (((prepare_deploys Bindings.terse Config.crowded).2 {}).well ran).2⟩

end StepReplay
