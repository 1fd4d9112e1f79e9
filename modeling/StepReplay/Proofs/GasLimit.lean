import StepReplay.Proofs.Bytes
import StepReplay.Proofs.Keccak
import StepReplay.Proofs.Rollback
import StepReplay.Proofs.Verdict

set_option autoImplicit false

/-! # Gas to spare

No instruction sees the gas that is left. Gas only decides whether a charge can be paid, and what
can be paid from some gas can be paid from more (`Charge.payable_of_le`). So code that runs with gas
to spare takes the same instructions as with just enough, and ends in the same way with that much
more left (`runFrom_add_gas`). Only what ran out of gas can end otherwise. This is carried on to
calls and creations, from these to preparations and steps, and from there to the cases of a corpus,
which have to begin on the same engine (`Progress.Level`). -/

namespace StepReplay.Evm

variable {f : Frame} {m : Machine} {op : Op} {c : Charge}

/-! ## Charges -/

theorem Charge.payable_iff {gas : Nat} :
    c.payable gas = true ↔ c.gas ≤ gas ∧ ∀ floor, c.floor = some floor → floor < gas := by
  unfold Charge.payable
  cases c.floor <;> simp

/-- What can be paid from some gas can be paid from more, also where the gas must exceed a floor. -/
theorem Charge.payable_of_le {gas more : Nat} (payable : c.payable gas = true) (le : gas ≤ more) :
    c.payable more = true := by
  rw [payable_iff] at payable ⊢
  exact ⟨payable.1.trans le, fun floor least => (payable.2 floor least).trans_le le⟩

theorem Gas.write_pos (initial current new : Word) : 0 < Gas.write initial current new := by
  unfold Gas.write
  split
  · split <;> decide
  · decide

/-- Whether an instruction ends a run whatever it finds. -/
def Op.isLast : Op → Bool
  | .stop | .ret | .revert => true
  | _ => false

/-- An instruction that may go on costs something. -/
theorem charge_pos (priced : charge f m op = .ok c) (goes : op.isLast = false) : 0 < c.gas := by
  have write := Gas.write_pos
  unfold charge at priced
  grind [Op.isLast, Gas.low, Gas.veryLow, Gas.base, Gas.mid, Gas.high, Gas.jumpTarget, Gas.keccak,
    Gas.log, Gas.warmAccess, Gas.coldSlot]

theorem isSome_act_of_isLast (m : Machine) (last : op.isLast = true) :
    (act f m op).2.isSome = true := by
  unfold Op.isLast at last
  unfold act
  grind

/-- Every instruction that does not end a run costs gas. -/
theorem charge_pos_of_act {m' : Machine} (priced : charge f m op = .ok c)
    (goes : act f m op = (m', none)) : 0 < c.gas := by
  cases last : op.isLast with
  | false => exact charge_pos priced last
  | true =>
    have ends := isSome_act_of_isLast (f := f) m last
    simp [goes] at ends

/-! ## Runs -/

/-- `Turn f m`: what a run does in one turn, as far as gas plays no part in it. It ends for free, or
an instruction is charged for that ends it or leads on to another turn. One that leads on is never
free. -/
inductive Turn (f : Frame) (m : Machine) : Prop
  | free (ending : Ending) (turn : ∀ fuel gas, runFrom f (fuel + 1) gas m = ⟨ending, gas, m⟩)
  | last (c : Charge) (ending : Ending) (m' : Machine)
      (turn : ∀ fuel gas, runFrom f (fuel + 1) gas m =
        if c.payable gas then ⟨ending, gas - c.gas, m'⟩ else ⟨.failed .outOfGas, gas, m⟩)
  | next (c : Charge) (m' : Machine) (cost : 0 < c.gas)
      (turn : ∀ fuel gas, runFrom f (fuel + 1) gas m =
        if c.payable gas then runFrom f fuel (gas - c.gas) m' else ⟨.failed .outOfGas, gas, m⟩)

theorem turn_cases (f : Frame) (m : Machine) : Turn f m := by
  cases there : f.code[m.pc]? with
  | none => exact .free (.returned []) fun fuel gas => by rw [runFrom, there]
  | some byte =>
    cases known : Op.ofByte? byte with
    | none =>
      exact .free (.failed .invalidOpcode) fun fuel gas => by
        simp only [runFrom, there, known]
    | some op =>
      cases priced : charge f m op with
      | error e =>
        exact .free (.failed e) fun fuel gas => by
          simp only [runFrom, there, known, priced]
      | ok c =>
        rcases acted : act f m op with ⟨m', _ | ending⟩
        · exact .next c m' (charge_pos_of_act priced acted) fun fuel gas => by
            simp only [runFrom, there, known, priced, acted]
        · exact .last c ending m' fun fuel gas => by
            simp only [runFrom, there, known, priced, acted]

/-- The gas bounds a run, so turns beyond it do not count. -/
theorem runFrom_steady {fuel fuel' gas : Nat} (enough : gas < fuel) (enough' : gas < fuel')
    (m : Machine) : runFrom f fuel gas m = runFrom f fuel' gas m := by
  induction fuel generalizing fuel' gas m with
  | zero => omega
  | succ fuel ih =>
    obtain ⟨fuel', rfl⟩ : ∃ less, fuel' = less + 1 := ⟨fuel' - 1, by omega⟩
    cases turn_cases f m with
    | free ending turn => rw [turn, turn]
    | last c ending m' turn => rw [turn, turn]
    | next c m' cost turn =>
      rw [turn, turn]
      split
      · rename_i payable
        -- the turn that is used up has been paid for
        have afford := (Charge.payable_iff.1 payable).1
        exact ih (by omega) (by omega) m'
      · rfl

/-- The end of a run that had so much more gas. -/
def Halt.withSpare (h : Halt) (extra : Nat) : Halt :=
  { h with gas := h.gas + extra }

/-- With gas to spare the same turns are taken, unless there was not enough without it. -/
theorem runFrom_add_gas {fuel gas : Nat} (extra : Nat)
    (lasted : (runFrom f fuel gas m).ending ≠ .failed .outOfGas) :
    runFrom f fuel (gas + extra) m = (runFrom f fuel gas m).withSpare extra := by
  induction fuel generalizing gas m with
  | zero => exact absurd rfl lasted
  | succ fuel ih =>
    -- a charge that is not paid ends the run out of gas, so it has been paid with either gas
    have paid {c : Charge} {h : Halt}
        (lasted : (if c.payable gas then h else ⟨.failed .outOfGas, gas, m⟩).ending ≠
          .failed .outOfGas) : c.payable gas = true := by
      by_contra unpaid
      exact lasted (by rw [if_neg unpaid])
    cases turn_cases f m with
    | free ending turn =>
      rw [turn, turn]
      rfl
    | last c ending m' turn =>
      rw [turn] at lasted
      have payable := paid lasted
      have afford := (Charge.payable_iff.1 payable).1
      rw [turn, turn, if_pos payable,
        if_pos (Charge.payable_of_le payable (Nat.le_add_right gas extra)),
        Nat.sub_add_comm afford]
      rfl
    | next c m' cost turn =>
      rw [turn] at lasted
      have payable := paid lasted
      have afford := (Charge.payable_iff.1 payable).1
      rw [if_pos payable] at lasted
      rw [turn, turn, if_pos payable,
        if_pos (Charge.payable_of_le payable (Nat.le_add_right gas extra)),
        Nat.sub_add_comm afford]
      exact ih lasted

theorem run_of_le {gas more : Nat} {slots : Slots} (le : gas ≤ more)
    (lasted : (run f gas slots).ending ≠ .failed .outOfGas) :
    run f more slots = (run f gas slots).withSpare (more - gas) := by
  -- both are taken with the turns of the longer one
  have same : run f gas slots = runFrom f (more + 1) gas { slots } :=
    runFrom_steady (Nat.lt_succ_self gas) (Nat.lt_succ_of_le le) _
  have whole : more = gas + (more - gas) := by omega
  rw [same] at lasted ⊢
  have longer := runFrom_add_gas (more - gas) lasted
  rwa [← whole] at longer

/-! ## Single turns -/

/-- A turn of an instruction that asks for no floor. -/
theorem runFrom_turn {fuel gas cost : Nat} {m : Machine} {byte : UInt8} {op : Op}
    (there : f.code[m.pc]? = some byte) (known : Op.ofByte? byte = some op)
    (priced : charge f m op = .ok ⟨cost, none⟩) (afford : cost ≤ gas) :
    runFrom f (fuel + 1) gas m = match act f m op with
      | (m', some ending) => ⟨ending, gas - cost, m'⟩
      | (m', none) => runFrom f fuel (gas - cost) m' := by
  have payable : Charge.payable ⟨cost, none⟩ gas = true := by simpa [Charge.payable] using afford
  rcases acted : act f m op with ⟨m', _ | ending⟩ <;>
    simp only [runFrom, there, known, priced, acted, payable, if_true]

theorem runFrom_next {fuel gas cost : Nat} {m m' : Machine} {byte : UInt8} {op : Op}
    (there : f.code[m.pc]? = some byte) (known : Op.ofByte? byte = some op)
    (priced : charge f m op = .ok ⟨cost, none⟩) (acted : act f m op = (m', none))
    (afford : cost ≤ gas) : runFrom f (fuel + 1) gas m = runFrom f fuel (gas - cost) m' := by
  rw [runFrom_turn there known priced afford, acted]

theorem runFrom_last {fuel gas cost : Nat} {m m' : Machine} {byte : UInt8} {op : Op}
    {ending : Ending} (there : f.code[m.pc]? = some byte) (known : Op.ofByte? byte = some op)
    (priced : charge f m op = .ok ⟨cost, none⟩) (acted : act f m op = (m', some ending))
    (afford : cost ≤ gas) : runFrom f (fuel + 1) gas m = ⟨ending, gas - cost, m'⟩ := by
  rw [runFrom_turn there known priced afford, acted]

/-- A turn that pushes a constant of `width + 1` bytes. -/
theorem runFrom_push {fuel gas pc : Nat} {stack : List Word} {memory : Array UInt8}
    {slots : Slots} {warm : List Word} {logs : List LogRecord} {byte : UInt8} (width : Nat)
    (constant : Bytes) (there : f.code[pc]? = some byte)
    (known : Op.ofByte? byte = some (.push (width + 1)))
    (operand : Bytes.window (f.code.extract (pc + 1) (pc + 1 + (width + 1))).toList 0 (width + 1) =
      constant)
    (room : stack.length < stackLimit) (afford : Gas.veryLow ≤ gas) :
    runFrom f (fuel + 1) gas ⟨pc, stack, memory, slots, warm, logs⟩ =
      runFrom f fuel (gas - Gas.veryLow)
        ⟨pc + width + 2, wordOfBytes constant :: stack, memory, slots, warm, logs⟩ := by
  refine runFrom_next there known (by simp [charge]) ?_ afford
  simp only [act, operand, Machine.pushed, if_pos room]
  rfl

/-! ## Transactions -/

variable {l : Ledger} {t : Transaction} {receipt : Receipt}

/-- `Starved c`: a transaction has run out of gas. -/
def Course.Starved (c : Course) : Prop :=
  ∃ logs, c.result = .ok (failureReceipt .outOfGas logs)

theorem callAccount_of_le {caller target data : Bytes} {gas more value : Nat} (le : gas ≤ more)
    (lasted : ¬ (callAccount l caller target data gas value).Starved) :
    callAccount l caller target data more value = callAccount l caller target data gas value := by
  unfold callAccount at lasted ⊢
  cases moved : l.transfer caller target value with
  | error e => rfl
  | ok paid =>
    rw [moved] at lasted
    dsimp only at lasted ⊢
    by_cases identity : target = identityAddress
    · rw [if_pos identity] at lasted
      rw [if_pos identity, if_pos identity]
      by_cases afford : identityGas data ≤ gas
      · rw [if_pos afford, if_pos (afford.trans le)]
      · rw [if_neg afford] at lasted
        exact absurd ⟨[], rfl⟩ lasted
    · rw [if_neg identity] at lasted
      rw [if_neg identity, if_neg identity, run_of_le le]
      · rfl
      · intro out
        rw [out] at lasted
        exact lasted ⟨_, rfl⟩

theorem installFault?_of_le {code : Bytes} {gas more : Nat} (le : gas ≤ more)
    (lasted : installFault? code gas ≠ some .outOfGas) :
    installFault? code more = installFault? code gas := by
  unfold installFault? at lasted ⊢
  by_cases first : code.head? = some 0xEF
  · rw [if_pos first, if_pos first]
  · rw [if_neg first] at lasted
    have afford : ¬ gas < Gas.codeByte * code.length := by
      intro short
      exact lasted (if_pos short)
    rw [if_neg first, if_neg first, if_neg afford, if_neg (by omega)]

theorem createAccount_of_le {caller code : Bytes} {gas more value : Nat} (le : gas ≤ more)
    (lasted : ¬ (createAccount l caller code gas value).Starved) :
    createAccount l caller code more value = createAccount l caller code gas value := by
  unfold createAccount at lasted ⊢
  dsimp only at lasted ⊢
  split at lasted
  · rfl
  · rw [run_of_le le]
    · generalize run _ gas [] = halt at lasted ⊢
      obtain ⟨ending, gas', m⟩ := halt
      dsimp only [Halt.withSpare] at lasted ⊢
      cases ending with
      | returned output =>
        dsimp only at lasted ⊢
        -- the code that is returned is paid for out of what is left
        rw [installFault?_of_le (Nat.le_add_right gas' _)]
        intro out
        simp only [out] at lasted
        exact lasted ⟨_, rfl⟩
      | reverted output => rfl
      | failed e => rfl
    · intro out
      rw [out] at lasted
      exact lasted ⟨_, rfl⟩

/-- A transaction that was begun and did not run out of gas takes the same course with more. -/
theorem transact_of_le {more : Int} (le : t.gasLimit ≤ more)
    (ran : (transact l t).result = .ok receipt) (lasted : ¬ (transact l t).Starved) :
    transact l { t with gasLimit := more } = transact l t := by
  have less : t.gasLimit.toNat ≤ more.toNat := Int.toNat_le_toNat le
  unfold transact at ran lasted ⊢
  cases begun : course l t with
  | error e =>
    rw [begun] at ran
    cases ran
  | ok c =>
    rw [begun] at lasted
    dsimp only at lasted ⊢
    rcases aim : t.target with _ | target
    · obtain ⟨caller, gas, nonce, value, data, given, rfl⟩ := (course_of_creation aim).1 begun
      have begun' := (course_of_creation (t := { t with gasLimit := more }) aim).2
        ⟨caller, gas.trans le, nonce, value, data, given, rfl⟩
      simp only [aim] at begun'
      rw [begun']
      exact createAccount_of_le less lasted
    · obtain ⟨caller, gas, size, nonce, value, data, given, rfl⟩ := (course_of_call aim).1 begun
      have begun' := (course_of_call (t := { t with gasLimit := more }) aim).2
        ⟨caller, gas.trans le, size, nonce, value, data, given, rfl⟩
      simp only [aim] at begun'
      rw [begun']
      exact callAccount_of_le less lasted

end StepReplay.Evm

namespace StepReplay

open Evm

/-- The settings with another gas limit. -/
def Config.withGas (c : Config) (gas : Int) : Config :=
  { c with gasLimit := gas }

/-- The plan with another gas limit. -/
def Plan.withGas {σ : Type} (plan : Plan σ) (gas : Int) : Plan σ :=
  { plan with config := plan.config.withGas gas }

variable {v v' : VirtualMachine} {c : Config} {w : StepWitness} {gas : Int}

/-! ## Executions -/

/-- Unless it says that it has run out of gas, a receipt is the same with more, and so is the engine
afterwards. -/
theorem VirtualMachine.execute_of_le {t : Transaction} {commit : Bool} {receipt : Receipt}
    (le : t.gasLimit ≤ gas) (ran : v.execute t commit = (.ok receipt, v'))
    (lasted : ∀ logs, receipt ≠ failureReceipt .outOfGas logs) :
    v.execute { t with gasLimit := gas } commit = (.ok receipt, v') := by
  obtain ⟨_ | l⟩ := v
  · cases ran
  · have result : (transact l t).result = .ok receipt := congrArg Prod.fst ran
    have fed : ¬ (transact l t).Starved := by
      rintro ⟨logs, starved⟩
      rw [result] at starved
      exact lasted logs (Except.ok.inj starved)
    have same := transact_of_le le result fed
    rw [← ran]
    show (_, _) = (_, _)
    rw [same]

theorem VirtualMachine.success_of_le {t : Transaction} {commit : Bool} {receipt : Receipt}
    (le : t.gasLimit ≤ gas) (ran : v.execute t commit = (.ok receipt, v'))
    (success : receipt.success = true) :
    v.execute { t with gasLimit := gas } commit = (.ok receipt, v') := by
  refine execute_of_le le ran fun logs starved => ?_
  rw [starved] at success
  cases success

/-! ## Steps and preparations -/

theorem Step.Discloses.withGas (le : c.gasLimit ≤ gas) (preimage : Discloses c w v v') :
    Discloses (c.withGas gas) w v v' := by
  cases preimage with
  | needless without => exact .needless without
  | kept needed encoded executed success =>
    exact .kept needed encoded (VirtualMachine.success_of_le le executed success) success

/-- A step that is answered with a success has the same answer with more gas. -/
theorem Step.Answers.withGas {receipt : Receipt} (le : c.gasLimit ≤ gas)
    (answers : Answers c w v receipt v') (success : receipt.success = true) :
    Answers (c.withGas gas) w v receipt v' := by
  obtain ⟨ready, preimage, encoded, executed⟩ := answers
  exact ⟨ready, preimage.withGas le, encoded, VirtualMachine.success_of_le le executed success⟩

theorem Deployment.Prepares.withGas {bindings : Bindings} (le : c.gasLimit ≤ gas)
    (prepared : Prepares bindings c v v') : Prepares bindings (c.withGas gas) v v' := by
  obtain ⟨ready, fund, place, create, success, code, install⟩ := prepared
  exact ⟨ready, fund, place, VirtualMachine.success_of_le le create success, success, code, install⟩

theorem Step.execute_withGas {events later : List Event} {result : StepResult}
    (le : c.gasLimit ≤ gas) (ran : (execute c w).start ⟨v, events⟩ = (.ok result, ⟨v', later⟩))
    (events' : List Event) :
    ∃ later', (execute (c.withGas gas) w).start ⟨v, events'⟩ = (.ok result, ⟨v', later'⟩) := by
  obtain ⟨receipt, answers, carries⟩ := (execute_iff events).1 ⟨later, ran⟩
  exact (execute_iff events').2 ⟨receipt, answers.withGas le carries.success, carries⟩

/-! ## Cases -/

/-- `p.Level q`: the next case of two runs has the same engine, the shared one or a new one. -/
structure Progress.Level {σ : Type} (p q : Progress σ) : Prop where
  shared : q.shared = p.shared
  engines : q.engines.length = p.engines.length

namespace Plan

open Attempt

variable {plan : Plan VirtualMachine} {f : Fixture} {p q : Progress VirtualMachine}

theorem Begins.withGas {env : VirtualMachine} (le : plan.config.gasLimit ≤ gas) (level : p.Level q)
    (begins : plan.Begins p env) : (plan.withGas gas).Begins q env := by
  cases begins with
  | kept shared => exact .kept (level.shared.trans shared)
  | made unshared prepared =>
    refine .made (level.shared.trans unshared) ?_
    rw [level.engines]
    exact prepared.withGas le

/-- The step of a case that comes to a result comes to the same one with more gas, which the
preparation of its engine has too. -/
theorem stepCase_withGas {result : StepResult} (le : plan.config.gasLimit ≤ gas)
    (level : p.Level q) (passed : (plan.stepCase f p).1 = .ok result) :
    ((plan.withGas gas).stepCase f q).1 = .ok result := by
  obtain ⟨env, env', r, begins, answers, carries⟩ := stepCase_eq_ok.1 passed
  exact stepCase_eq_ok.2
    ⟨env, env', r, begins.withGas le level, answers.withGas le carries.success, carries⟩

/-- Without sharing a case adds an engine, whatever becomes of it. -/
theorem stepCase_engines_of_separate (plan : Plan VirtualMachine) (separate : plan.sharing = false)
    (f : Fixture) (p : Progress VirtualMachine) :
    (plan.stepCase f p).2.shared = p.shared ∧
      (plan.stepCase f p).2.engines.length = p.engines.length + 1 := by
  rcases plan.stepCase_cases f p with ⟨e, s, unshared, -, same⟩ | ⟨env, events, -, r, s, -, same⟩
  · rw [same]
    exact ⟨rfl, by simp [Progress.engines, unshared]⟩
  · rw [same, putBack, separate]
    refine ⟨rfl, ?_⟩
    simp only [Progress.engines, Bool.false_eq_true, if_false, List.length_append,
      List.length_singleton]
    omega

/-- A case that comes to a result leaves the same engine behind. -/
theorem level_stepCase_of_ok {result : StepResult} (le : plan.config.gasLimit ≤ gas)
    (level : p.Level q) (passed : (plan.stepCase f p).1 = .ok result) :
    (plan.stepCase f p).2.Level ((plan.withGas gas).stepCase f q).2 := by
  obtain ⟨env, -, -, begins, -⟩ := stepCase_eq_ok.1 passed
  obtain ⟨events, same⟩ := stepCase_of_begins begins f
  obtain ⟨events', same'⟩ := stepCase_of_begins (begins.withGas le level) f
  rcases ran : (Step.execute plan.config f.witness).start ⟨env, events⟩ with ⟨r, env', later⟩
  rw [ran] at same
  obtain rfl : r = .ok result := by rw [same] at passed; exact passed
  obtain ⟨later', ran'⟩ := Step.execute_withGas le ran events'
  have ran'' : (Step.execute (plan.withGas gas).config f.witness).start ⟨env, events'⟩ =
      (.ok result, ⟨env', later'⟩) := ran'
  rw [ran''] at same'
  have retired : q.retired.length = p.retired.length := by
    simpa [Progress.engines, level.shared] using level.engines
  rw [same, same']
  unfold putBack Plan.withGas
  dsimp only
  split
  · exact ⟨rfl, by simp [Progress.engines, retired]⟩
  · exact ⟨level.shared, by simp [Progress.engines, retired, level.shared]⟩

theorem level_performCase (le : plan.config.gasLimit ≤ gas) (level : p.Level q)
    (steady : plan.sharing = true → ∃ result, (plan.stepCase f p).1 = .ok result) :
    ((plan.performCase f).start p).2.Level (((plan.withGas gas).performCase f).start q).2 := by
  have stepped : (plan.stepCase f p).2.Level ((plan.withGas gas).stepCase f q).2 := by
    cases sharing : plan.sharing with
    | true =>
      obtain ⟨result, passed⟩ := steady sharing
      exact level_stepCase_of_ok le level passed
    | false =>
      obtain ⟨shared, engines⟩ := plan.stepCase_engines_of_separate sharing f p
      obtain ⟨shared', engines'⟩ := (plan.withGas gas).stepCase_engines_of_separate sharing f q
      exact ⟨by rw [shared, shared', level.shared], by rw [engines, engines', level.engines]⟩
  obtain ⟨retired, shared⟩ := plan.performCase_engines f p
  obtain ⟨retired', shared'⟩ := (plan.withGas gas).performCase_engines f q
  refine ⟨by rw [shared, shared', stepped.shared], ?_⟩
  simpa only [Progress.engines, retired, shared, retired', shared'] using stepped.engines

/-! ## Runs of a corpus -/

/-- `Records plan p fs os`: the cases of these fixtures came to these outcomes, as many as the run
got to, each where the case before it ended. -/
inductive Records (plan : Plan VirtualMachine) :
    Progress VirtualMachine → List Fixture → List Outcome → Prop
  | ended {p : Progress VirtualMachine} {fs : List Fixture} : Records plan p fs []
  | case {p : Progress VirtualMachine} {f : Fixture} {o : Outcome} {fs : List Fixture}
      {os : List Outcome} (judged : f.outcome (plan.stepCase f p).1 = .ok o)
      (rest : Records plan ((plan.performCase f).start p).2 fs os) :
      Records plan p (f :: fs) (o :: os)

theorem performAll_records (plan : Plan VirtualMachine) (fs : List Fixture)
    (p : Progress VirtualMachine) :
    ∃ os, ((plan.performAll fs).start p).2.outcomes = p.outcomes ++ os ∧
      plan.Records p fs os := by
  induction fs generalizing p with
  | nil => exact ⟨[], (List.append_nil _).symm, .ended⟩
  | cons f fs ih =>
    simp only [performAll, start_bind]
    cases judged : f.outcome (plan.stepCase f p).1 with
    | error e =>
      rw [performCase_of_error judged]
      exact ⟨[], by rw [(plan.stepCase_keeps f p).1, List.append_nil], .ended⟩
    | ok o =>
      have added := performCase_outcomes judged
      obtain ⟨os, grown, records⟩ := ih ((plan.performCase f).start p).2
      rcases ran : (plan.performCase f).start p with ⟨e | _, next⟩ <;> rw [ran] at added grown
      -- the outcome is noted before the report, so it is there even if the report fails
      · exact ⟨[o], added, .case judged .ended⟩
      · exact ⟨o :: os, by rw [grown, added, List.append_assoc]; rfl, .case judged records⟩

/-- With more gas the outcomes with a fingerprint stay as they are. Where one engine serves all
cases, they do as long as no case without one came before. -/
theorem Records.withGas {fs : List Fixture} {os os' : List Outcome} {k : Nat} {o o' : Outcome}
    (records : plan.Records p fs os) (records' : (plan.withGas gas).Records q fs os')
    (le : plan.config.gasLimit ≤ gas) (level : p.Level q)
    (before : plan.sharing = true → ∀ b ∈ os.take k, b.stateHash.isSome = true)
    (here : os[k]? = some o) (here' : os'[k]? = some o') (reached : o.stateHash.isSome = true) :
    o' = o := by
  induction records generalizing q os' k with
  | ended => cases here
  | @case p f b fs os judged rest ih =>
    cases records' with
    | ended => cases here'
    | @case _ _ b' _ os' judged' rest' =>
      -- a case with a fingerprint comes to the same result
      have passes (reached : b.stateHash.isSome = true) :
          ∃ result, (plan.stepCase f p).1 = .ok result := by
        obtain ⟨hash, there⟩ := Option.isSome_iff_exists.1 reached
        obtain ⟨post, passed⟩ := attests_iff.1 ((stateHash_of_outcome judged hash).1 there)
        exact ⟨_, passed⟩
      cases k with
      | zero =>
        cases here
        cases here'
        obtain ⟨result, passed⟩ := passes reached
        rw [stepCase_withGas le level passed] at judged'
        rw [passed] at judged
        exact Except.ok.inj (judged'.symm.trans judged)
      | succ k =>
        refine ih rest' (level_performCase le level fun sharing => ?_) (fun sharing b member => ?_)
          here here'
        · exact passes (before sharing b (List.mem_cons_self ..))
        · exact before sharing b (List.mem_cons_of_mem _ member)

/-- What `Records.withGas` says of the outcomes of whole runs. -/
theorem run_withGas {k : Nat} {o o' : Outcome} (le : plan.config.gasLimit ≤ gas)
    (p : Progress VirtualMachine)
    (before : plan.sharing = true →
      ∀ b ∈ (plan.run.start p).2.outcomes.take k, b.stateHash.isSome = true)
    (here : (plan.run.start p).2.outcomes[k]? = some o)
    (here' : ((plan.withGas gas).run.start p).2.outcomes[k]? = some o')
    (reached : o.stateHash.isSome = true) : o' = o := by
  have opening : (plan.withGas gas).opening = plan.opening := rfl
  rcases begun : plan.opening.start p with ⟨e | _, opened⟩
  · -- neither run gets to a case
    simp only [run, opening, start_bind, begun] at here here'
    exact Option.some.inj (here'.symm.trans here)
  · obtain ⟨disk, -, rfl⟩ := opening_eq_ok begun
    have begun' : (plan.withGas gas).opening.start p = _ := begun
    rw [run_outcomes begun] at before here
    rw [run_outcomes begun'] at here'
    obtain ⟨os, grown, records⟩ :=
      plan.performAll_records plan.corpus { p with outcomes := [], disk }
    obtain ⟨os', grown', records'⟩ :=
      (plan.withGas gas).performAll_records plan.corpus { p with outcomes := [], disk }
    have corpus : (plan.withGas gas).corpus = plan.corpus := rfl
    rw [grown] at before here
    rw [corpus, grown'] at here'
    exact records.withGas records' le ⟨rfl, rfl⟩ before here here' reached

end Plan

/-! ## More gas -/

/-- More gas never changes what succeeds, whatever the engine holds and whichever code it runs. A
transaction that succeeds has the same receipt and leaves the same engine behind, kept or not. A
step that comes to a result comes to the same one, and in a run a case that has a fingerprint has
the same outcome. Where one engine serves all cases, none without a fingerprint may have come
before: what it could not disclose for lack of gas would be there for a later case. -/
theorem VirtualMachine.succeeds_with_more_gas :
    (∀ (v v' : VirtualMachine) (t : Transaction) (commit : Bool) (receipt : Receipt) (gas : Int),
      t.gasLimit ≤ gas → v.execute t commit = (.ok receipt, v') → receipt.success = true →
      v.execute { t with gasLimit := gas } commit = (.ok receipt, v')) ∧
    (∀ (c : Config) (w : StepWitness) (v v' : VirtualMachine) (events later : List Event)
      (result : StepResult) (gas : Int), c.gasLimit ≤ gas →
      (Step.execute c w).start ⟨v, events⟩ = (.ok result, ⟨v', later⟩) →
      ∃ later', (Step.execute (c.withGas gas) w).start ⟨v, events⟩ =
        (.ok result, ⟨v', later'⟩)) ∧
    ∀ (plan : Plan VirtualMachine) (p : Progress VirtualMachine) (gas : Int) (k : Nat)
      (o o' : Outcome), plan.config.gasLimit ≤ gas →
      (plan.run.start p).2.outcomes[k]? = some o →
      ((plan.withGas gas).run.start p).2.outcomes[k]? = some o' →
      o.stateHash.isSome = true →
      (plan.sharing = true →
        ∀ b ∈ (plan.run.start p).2.outcomes.take k, b.stateHash.isSome = true) →
      o' = o := by
  refine ⟨?_, ?_, ?_⟩
  · intro v v' t commit receipt gas le ran success
    exact success_of_le le ran success
  · intro c w v v' events later result gas le ran
    exact Step.execute_withGas le ran events
  · intro plan p gas k o o' le here here' reached before
    exact Plan.run_withGas le p before here here' reached

/-! ## A step with little gas -/

/-- The fingerprint of the state of zeros. -/
def zeroHash : Hash :=
  ⟨[0x03, 0x49, 0x89, 0x2F, 0x2A, 0xAE, 0xF9, 0x66, 0xC2, 0x28, 0xA5, 0xD4, 0x48, 0x1F, 0x17, 0x00,
    0x12, 0x05, 0x5C, 0x39, 0xA5, 0xA2, 0x14, 0x54, 0x39, 0x6E, 0x4D, 0x73, 0x23, 0x8C, 0x5C, 0x86],
    rfl⟩

theorem hash_zero : State.hash (Block.zero 226) = zeroHash := by
  refine Block.ext ?_
  simp only [State.hash, Keccak.hash, Keccak.hashBytes_eq]
  decide +kernel

/-- Code that logs the state of zeros and returns its fingerprint. -/
def zeroing : Bytes :=
  [0x60, 0xE2, 0x60, 0x00, 0xA0, 0x7F] ++ zeroHash.bytes ++
    [0x60, 0x00, 0x52, 0x60, 0x20, 0x60, 0x00, 0xF3]

namespace Evm

variable {f : Frame}

/-- The code begins by logging memory that it has not written to. -/
theorem runFrom_zeroing_log (code : f.code = zeroing.toArray) (slots : Slots) :
    runFrom f 2229 2228 { slots } = runFrom f 2226 15 ⟨5, [], Array.replicate 256 0, slots, [],
      [{ address := f.address, topics := [], data := Bytes.zeros 226 }]⟩ := by
  have there (k : Nat) : f.code[k]? = zeroing[k]? := by rw [code, List.getElem?_toArray]
  have price : charge f ⟨4, [0, 0xE2], #[], slots, [], []⟩ (.log 0) = .ok ⟨2207, none⟩ := by
    simp [charge, Gas.growth, Gas.memory, Machine.sizeFor, ceil32, wordCount, Gas.log,
      Gas.logByte, Gas.memoryWord]
  have log : act f ⟨4, [0, 0xE2], #[], slots, [], []⟩ (.log 0) =
      (⟨5, [], Array.replicate 256 0, slots, [],
        [{ address := f.address, topics := [], data := Bytes.zeros 226 }]⟩, none) := by
    simp [act, Machine.grow, Machine.sizeFor, ceil32, Machine.read, Machine.next, Bytes.zeros]
  calc runFrom f 2229 2228 ⟨0, [], #[], slots, [], []⟩
    _ = runFrom f 2228 2225 ⟨2, [0xE2], #[], slots, [], []⟩ :=
      runFrom_push 0 [0xE2] (there 0) rfl (by rw [code]; rfl) (by decide) (by decide)
    _ = runFrom f 2227 2222 ⟨4, [0, 0xE2], #[], slots, [], []⟩ :=
      runFrom_push 0 [0] (there 2) rfl (by rw [code]; rfl) (by decide) (by decide)
    _ = _ := runFrom_next (there 4) rfl price log (by decide)

/-- Then it stores the fingerprint and returns it. -/
theorem runFrom_zeroing_return (code : f.code = zeroing.toArray) (slots : Slots)
    (logs : List LogRecord) :
    ∃ m, runFrom f 2226 15 ⟨5, [], Array.replicate 256 0, slots, [], logs⟩ =
      ⟨.returned zeroHash.bytes, 0, m⟩ ∧ m.logs = logs := by
  have there (k : Nat) : f.code[k]? = zeroing[k]? := by rw [code, List.getElem?_toArray]
  have constant : Bytes.window (zeroing.toArray.extract 6 38).toList 0 32 = zeroHash.bytes := by
    decide +kernel
  obtain ⟨written, stored, size, back⟩ : ∃ written,
      Machine.writeAt (Array.replicate 256 0) 0 (bytesOfWord (wordOfBytes zeroHash.bytes)) =
          written ∧ written.size = 256 ∧ written.toList.take 32 = zeroHash.bytes :=
    ⟨_, rfl, by decide +kernel, by decide +kernel⟩
  generalize word : wordOfBytes zeroHash.bytes = w at stored
  have storePrice : charge f ⟨40, [0, w], Array.replicate 256 0, slots, [], logs⟩ .mstore =
      .ok ⟨3, none⟩ := by
    simp [charge, Gas.growth, Gas.memory, Machine.sizeFor, ceil32, wordCount, Gas.veryLow]
  have store : act f ⟨40, [0, w], Array.replicate 256 0, slots, [], logs⟩ .mstore =
      (⟨41, [], written, slots, [], logs⟩, none) := by
    simp [act, ← stored, Machine.write, Machine.grow, Machine.sizeFor, ceil32, Machine.next,
      bytesOfWord, Bytes.length_ofNat]
  have returnPrice : charge f ⟨45, [0, 0x20], written, slots, [], logs⟩ .ret = .ok ⟨0, none⟩ := by
    simp [charge, size, Gas.growth, Gas.memory, Machine.sizeFor, ceil32, wordCount]
  have returned : act f ⟨45, [0, 0x20], written, slots, [], logs⟩ .ret =
      (⟨45, [0, 0x20], written, slots, [], logs⟩, some (.returned zeroHash.bytes)) := by
    simp [act, size, back, Machine.grow, Machine.sizeFor, ceil32, Machine.read]
  refine ⟨⟨45, [0, 0x20], written, slots, [], logs⟩, ?_, rfl⟩
  calc runFrom f 2226 15 ⟨5, [], Array.replicate 256 0, slots, [], logs⟩
    _ = runFrom f 2225 12 ⟨38, [w], Array.replicate 256 0, slots, [], logs⟩ := by
      rw [← word]
      exact runFrom_push 31 zeroHash.bytes (there 5) rfl (by rw [code]; exact constant)
        (by decide) (by decide)
    _ = runFrom f 2224 9 ⟨40, [0, w], Array.replicate 256 0, slots, [], logs⟩ :=
      runFrom_push 0 [0] (there 38) rfl (by rw [code]; rfl) (by simp [stackLimit])
        (by decide)
    _ = runFrom f 2223 6 ⟨41, [], written, slots, [], logs⟩ :=
      runFrom_next (there 40) rfl storePrice store (by decide)
    _ = runFrom f 2222 3 ⟨43, [0x20], written, slots, [], logs⟩ :=
      runFrom_push 0 [0x20] (there 41) rfl (by rw [code]; rfl) (by decide) (by decide)
    _ = runFrom f 2221 0 ⟨45, [0, 0x20], written, slots, [], logs⟩ :=
      runFrom_push 0 [0] (there 43) rfl (by rw [code]; rfl) (by decide) (by decide)
    _ = ⟨.returned zeroHash.bytes, 0, ⟨45, [0, 0x20], written, slots, [], logs⟩⟩ :=
      runFrom_last (there 45) rfl returnPrice returned (by decide)

/-- With enough gas the code ends well, whoever calls it with whatever calldata. -/
theorem run_zeroing {gas : Nat} (code : f.code = zeroing.toArray) (enough : 2228 ≤ gas)
    (slots : Slots) : (run f gas slots).ending = .returned zeroHash.bytes ∧
      (run f gas slots).machine.logs =
        [{ address := f.address, topics := [], data := Bytes.zeros 226 }] := by
  obtain ⟨m, returned, logged⟩ := runFrom_zeroing_return code slots
    [{ address := f.address, topics := [], data := Bytes.zeros 226 }]
  have least : run f 2228 slots = ⟨.returned zeroHash.bytes, 0, m⟩ :=
    (runFrom_zeroing_log code slots).trans returned
  have lasted : (run f 2228 slots).ending ≠ .failed .outOfGas := by
    rw [least]
    rintro ⟨⟩
  rw [run_of_le enough lasted, least]
  exact ⟨rfl, logged⟩

/-- A call of an account with this code that transfers nothing has the state of zeros as its one
record and returns the fingerprint. -/
theorem result_of_zeroing {l : Ledger} {t : Transaction} {target data : Bytes}
    (aim : t.target = some target) (given : t.data = some data) (free : t.value = 0)
    (enough : 2228 ≤ t.gasLimit) (sender : t.caller.length = 20) (size : target.length = 20)
    (nonce : (l.holding t.caller).nonce < Bytes.capacity 32) (other : target ≠ identityAddress)
    (code : (l.holding target).code = zeroing) :
    (transact l t).result = .ok (successReceipt zeroHash.bytes
      [{ address := target, topics := [], data := Bytes.zeros 226 }]) := by
  have begun := (course_of_call (l := l) aim).2 ⟨sender, by omega, size, nonce,
    ⟨by omega, by rw [free]; decide +kernel⟩, data, given, rfl⟩
  have moved : l.transfer t.caller target t.value.toNat = .ok l := by
    rw [free]
    rfl
  obtain ⟨ending, logs⟩ := run_zeroing
    (f := Frame.start zeroing data target t.caller t.value.toNat (l.measure target)) rfl
    (by omega : 2228 ≤ t.gasLimit.toNat) (l.slots target)
  simp only [transact, begun, callAccount, moved, if_neg other, code, ending, logs]
  rfl

end Evm

/-- The case of the state of zeros. -/
def zeros : Fixture where
  name := "zeros"
  witness := { state := Block.zero 226 }

/-- A plan of this one case. The creation of its stepper, which writes the code to memory word by
word, and the step get by with little gas. -/
def frugal : Plan VirtualMachine where
  corpus := [zeros]
  factory _ := {}
  bindings := {
    creation := [0x7F] ++ zeroing.take 32 ++ [0x60, 0x00, 0x52, 0x7F] ++ zeroing.drop 32 ++
      List.replicate 18 0x00 ++ [0x60, 0x20, 0x52, 0x60, 0x2E, 0x60, 0x00, 0xF3]
    oracle := [0x00] }
  config := { gasLimit := 9230 }
  workDirectory := "."

/-- The receipt of the step in this case. -/
def zerosReceipt : Receipt :=
  successReceipt zeroHash.bytes
    [{ address := frugal.config.mipsAddress.bytes, topics := [], data := (Block.zero 226).bytes }]

/-- The call of the stepper with some calldata. -/
def Config.stepCall (c : Config) (input : Bytes) : Transaction :=
  c.transaction (some c.mipsAddress.bytes) (some input)

/-- The engine of the plan is prepared with so little gas, and its step goes well. -/
theorem frugal_begins : ∃ v v' input, frugal.Begins {} v ∧
    zeros.witness.stepInput frugal.config.signatures.step = .ok input ∧
    v.execute (frugal.config.stepCall input) false = (.ok zerosReceipt, v') := by
  have encodable : (zeros.witness.stepInput frugal.config.signatures.step).isOk = true := by
    decide +kernel
  have evaluated :
      let made := (Deployment.prepare frugal.bindings frugal.config).start ⟨frugal.factory 0, []⟩
      made.1.isOk = true ∧ (made.2.env.ledger.any fun l =>
        (l.holding frugal.config.mipsAddress.bytes).code = zeroing ∧
          (l.holding frugal.config.senderAddress.bytes).nonce < Bytes.capacity 32) = true := by
    decide +kernel
  dsimp only at evaluated
  rcases made : (Deployment.prepare frugal.bindings frugal.config).start ⟨frugal.factory 0, []⟩
    with ⟨_ | _, ⟨_ | l⟩, events⟩ <;> rw [made] at evaluated
  · cases evaluated.1
  · cases evaluated.1
  · cases evaluated.2
  · cases encoded : zeros.witness.stepInput frugal.config.signatures.step with
    | error e =>
      rw [encoded] at encodable
      cases encodable
    | ok input =>
      obtain ⟨code, nonce⟩ := of_decide_eq_true evaluated.2
      have result : (transact l (frugal.config.stepCall input)).result = .ok zerosReceipt :=
        result_of_zeroing rfl rfl rfl (show (2228 : Int) ≤ 9230 by decide)
          frugal.config.senderAddress.length_bytes frugal.config.mipsAddress.length_bytes nonce
          (by decide) code
      have executed (t : Transaction) : VirtualMachine.execute ⟨some l⟩ t false =
          ((transact l t).result, ⟨some ((transact l t).ledger false)⟩) := rfl
      exact ⟨_, _, input, .made rfl ((Deployment.prepare_iff []).1 ⟨events, made⟩), rfl,
        by rw [executed, result]⟩

/-- Where there is one case and it has an outcome, this is the outcome of the run. -/
theorem Plan.run_outcomes_single (plan : Plan VirtualMachine) {f : Fixture} {o : Outcome}
    (only : plan.corpus = [f]) (present : ({} : Disk).holds plan.workDirectory = true)
    (judged : f.outcome (plan.stepCase f {}).1 = .ok o) : (plan.run.start {}).2.outcomes = [o] := by
  have opened : plan.opening.start {} = (.ok (), {}) := by
    simp only [opening, makeWorkDirectory, Attempt.start_bind, Attempt.start_get, present,
      Attempt.start_modify]
    rfl
  rw [run_outcomes opened, only]
  have added := performCase_outcomes judged
  simp only [performAll, Attempt.start_bind]
  rcases ran : (plan.performCase f).start {} with ⟨e | _, q⟩ <;> rw [ran] at added <;> exact added

/-- With the gas limit that is the default the case has the same fingerprint. -/
theorem VirtualMachine.succeeds_with_more_gas_frugal :
    ∃ v v' input later o, frugal.Begins {} v ∧
      v.execute ((frugal.config.withGas 30000000).stepCall input) false =
        (.ok zerosReceipt, v') ∧
      (Step.execute (frugal.config.withGas 30000000) zeros.witness).start ⟨v, []⟩ =
        (.ok ⟨zeroHash, Block.zero 226⟩, ⟨v', later⟩) ∧
      ((frugal.withGas 30000000).run.start {}).2.outcomes[0]? = some o ∧
      o.stateHash = some zeroHash := by
  have present : ({} : Disk).holds frugal.workDirectory = true := by decide +kernel
  have le : frugal.config.gasLimit ≤ 30000000 := by decide
  obtain ⟨v, v', input, begins, encoded, executed⟩ := frugal_begins
  have ready : Environment.available v = true := by
    obtain ⟨_ | l⟩ := v
    · cases executed
    · rfl
  have answers : Step.Answers frugal.config zeros.witness v zerosReceipt v' :=
    ⟨ready, .needless (by decide +kernel), encoded, executed⟩
  have carries : Step.Carries zerosReceipt ⟨zeroHash, Block.zero 226⟩ :=
    ⟨rfl, rfl, ⟨_, rfl, rfl⟩, hash_zero⟩
  obtain ⟨later, ran⟩ := (Step.execute_iff []).2 ⟨_, answers, carries⟩
  obtain ⟨later', ran'⟩ := succeeds_with_more_gas.2.1 _ _ _ _ _ _ _ _ le ran
  -- the run has an outcome with either gas limit, and the theorem says that they are the same
  have passed := Plan.stepCase_eq_ok.2 ⟨v, v', zerosReceipt, begins, answers, carries⟩
  have told := frugal.run_outcomes_single rfl present (congrArg zeros.outcome passed)
  obtain ⟨o, judged⟩ : ∃ o, zeros.outcome ((frugal.withGas 30000000).stepCase zeros {}).1 = .ok o :=
    ⟨_, congrArg zeros.outcome (Plan.stepCase_withGas le ⟨rfl, rfl⟩ passed)⟩
  have told' := (frugal.withGas 30000000).run_outcomes_single rfl present judged
  have same := succeeds_with_more_gas.2.2 frugal {} 30000000 0 _ o le (by rw [told]; rfl)
    (by rw [told']; rfl) rfl fun sharing => by cases sharing
  have kept := succeeds_with_more_gas.1 v v' (frugal.config.stepCall input) false zerosReceipt
    30000000 le executed rfl
  exact ⟨v, v', input, later', o, begins, kept, ran', by rw [told']; rfl, by rw [same]⟩

end StepReplay
