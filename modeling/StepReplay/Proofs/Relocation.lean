import StepReplay.Proofs.Bytes
import StepReplay.Proofs.Deployment
import StepReplay.Proofs.Lockstep
import StepReplay.Proofs.Visibility

set_option autoImplicit false

/-! # Modules at other addresses

Where the modules live and who calls them makes no difference to what a run on simulated modules
shows. Two engines that were prepared for different addresses are `Twins`: all else about them is
the same, and what stands at the address of a module plays that module in both. A call of twins has
the same receipt up to the addresses in its records, which no check looks at, and leaves twins
behind. Runs over the same cases go in lockstep from there. -/

namespace StepReplay

open Attempt

/-- The same settings with the modules and the sender elsewhere. -/
def Config.moved (c : Config) (mips oracle sender : Address) : Config :=
  { c with mipsAddress := mips, oracleAddress := oracle, senderAddress := sender }

/-- The same plan with the modules and the sender elsewhere. -/
def Plan.moved {σ : Type} (plan : Plan σ) (mips oracle sender : Address) : Plan σ :=
  { plan with config := plan.config.moved mips oracle sender }

/-! ## Receipts and their addresses -/

/-- A receipt without the addresses of its records. -/
def Receipt.unplaced (r : Receipt) : Receipt :=
  { r with logs := r.logs.map fun record => { record with address := [] } }

namespace Step

variable {r r' : Receipt}

theorem disclosed_congr (same : r.unplaced = r'.unplaced) : disclosed r = disclosed r' := by
  show disclosed r.unplaced = disclosed r'.unplaced
  rw [same]

theorem returnedHash_congr (same : r.unplaced = r'.unplaced) :
    returnedHash r = returnedHash r' := by
  show returnedHash r.unplaced = returnedHash r'.unplaced
  rw [same]

theorem loggedState_congr (same : r.unplaced = r'.unplaced) : loggedState r = loggedState r' := by
  have blind (r : Receipt) : loggedState r.unplaced = loggedState r := by
    obtain ⟨success, output, logs, reason⟩ := r
    match logs with
    | [] => rfl
    | [record] => rfl
    | _ :: _ :: _ =>
      simp [loggedState, Receipt.unplaced]
  rw [← blind r, same, blind r']

end Step

namespace Simulated

/-! ## Twins -/

/-- Codes that play the same part, if any. -/
structure SameRole (code code' : Bytes) : Prop where
  oracle : code = oracleCode ↔ code' = oracleCode
  stepper : stepperMark.isPrefixOf code = stepperMark.isPrefixOf code'

/-- `Twins c c' s s'`: engines that differ in nothing but where the modules live. -/
structure Twins (c c' : Config) (s s' : Simulated) : Prop where
  bare : s.bare = s'.bare
  oracle : SameRole (s.accountAt c.oracleAddress.bytes).code
    (s'.accountAt c'.oracleAddress.bytes).code
  stepper : SameRole (s.accountAt c.mipsAddress.bytes).code
    (s'.accountAt c'.mipsAddress.bytes).code

section Calls

variable {s s' : Simulated}

theorem execute_failing (fails : s.fail = true) (t : Transaction) (commit : Bool) :
    s.execute t commit = (.ok { success := false, reason := some "Revert" },
      { s with transactions := s.transactions ++ [(t, commit)] }) := by
  unfold execute
  exact if_pos fails

theorem execute_call (works : s.fail = false) {t : Transaction} {target : Bytes}
    (called : t.target = some target) (commit : Bool) :
    s.execute t commit =
      ({ s with transactions := s.transactions ++ [(t, commit)] } : Simulated).call target t.data
        commit := by
  unfold execute
  dsimp only
  rw [works, called]
  rfl

theorem execute_creation (works : s.fail = false) {t : Transaction} {data : Bytes}
    (creates : t.target = none) (given : t.data = some data) (commit : Bool) :
    (s.execute t commit).1 = .ok (creation data) := by
  unfold execute
  dsimp only
  rw [works, creates, given]
  rfl

theorem call_accounts (s : Simulated) (target : Bytes) (data : Option Bytes) (commit : Bool) :
    (s.call target data commit).2.accounts = s.accounts := by
  have oracle (calldata : Bytes) : (s.oracle calldata commit).2.accounts = s.accounts := by
    unfold Simulated.oracle
    split
    · rfl
    · rfl
    · cases commit <;> rfl
  unfold call
  dsimp only
  split
  · cases data with
    | none => rfl
    | some calldata => exact oracle calldata
  · split
    · cases data <;> rfl
    · rfl

theorem execute_accounts {t : Transaction} {target : Bytes} (called : t.target = some target)
    (commit : Bool) : (s.execute t commit).2.accounts = s.accounts := by
  cases failing : s.fail with
  | true => rw [execute_failing failing]
  | false =>
    rw [execute_call failing called]
    exact call_accounts ..

theorem exists_of_bare (same : s.bare = s'.bare) :
    ∃ accounts transactions, s' = { s with accounts, transactions } := by
  have restored := congrArg (fun b : Simulated =>
    ({ b with accounts := s'.accounts, transactions := s'.transactions } : Simulated)) same.symm
  exact ⟨s'.accounts, s'.transactions, restored⟩

theorem oracle_alike (same : s.bare = s'.bare) (calldata : Bytes) (commit : Bool) :
    (s.oracle calldata commit).1 = (s'.oracle calldata commit).1 ∧
      (s.oracle calldata commit).2.bare = (s'.oracle calldata commit).2.bare := by
  obtain ⟨accounts, transactions, rfl⟩ := exists_of_bare same
  unfold oracle
  split
  · exact ⟨rfl, rfl⟩
  · exact ⟨rfl, rfl⟩
  · cases commit <;> exact ⟨rfl, rfl⟩

/-- The stepper shows its address in its records alone. -/
theorem stepper_alike (same : s.bare = s'.bare) (address address' calldata : Bytes) :
    (s.stepper address calldata).map Receipt.unplaced =
      (s'.stepper address' calldata).map Receipt.unplaced := by
  obtain ⟨accounts, transactions, rfl⟩ := exists_of_bare same
  unfold stepper
  cases (Block.ofBytes 226 (Calldata.dynamicArgument calldata 0)).mapError Fault.decode with
  | error e => rfl
  | ok pre =>
    have fields : ({ s with accounts, transactions } : Simulated).advance pre = s.advance pre := rfl
    dsimp only [bind, Except.bind]
    rw [fields]
    cases (State.ofFields (s.advance pre)).mapError Fault.ofFields with
    | error e => rfl
    | ok post =>
      dsimp only [pure, Except.pure, Except.map, Receipt.unplaced]
      rw [List.map_replicate, List.map_replicate]

/-- A call of codes that play the same part has the same receipt up to addresses. -/
theorem call_alike (same : s.bare = s'.bare) {target target' : Bytes}
    (role : SameRole (s.accountAt target).code (s'.accountAt target').code) (data : Option Bytes)
    (commit : Bool) :
    (s.call target data commit).1.map Receipt.unplaced =
        (s'.call target' data commit).1.map Receipt.unplaced ∧
      (s.call target data commit).2.bare = (s'.call target' data commit).2.bare := by
  unfold call
  dsimp only
  by_cases oracle : (s.accountAt target).code = oracleCode
  · rw [if_pos oracle, if_pos (role.oracle.1 oracle)]
    cases data with
    | none => exact ⟨rfl, same⟩
    | some calldata =>
      obtain ⟨result, after⟩ := oracle_alike same calldata commit
      exact ⟨congrArg _ result, after⟩
  · rw [if_neg oracle, if_neg (mt role.oracle.2 oracle), role.stepper]
    split
    · cases data with
      | none => exact ⟨rfl, same⟩
      | some calldata => exact ⟨stepper_alike same _ _ _, same⟩
    · exact ⟨rfl, same⟩

theorem execute_alike (same : s.bare = s'.bare) {t t' : Transaction} {target target' : Bytes}
    (called : t.target = some target) (called' : t'.target = some target')
    (data : t.data = t'.data)
    (role : SameRole (s.accountAt target).code (s'.accountAt target').code) (commit : Bool) :
    (s.execute t commit).1.map Receipt.unplaced = (s'.execute t' commit).1.map Receipt.unplaced ∧
      (s.execute t commit).2.bare = (s'.execute t' commit).2.bare := by
  have fails := fail_of_bare same
  cases failing : s'.fail with
  | true =>
    rw [execute_failing (fails.trans failing), execute_failing failing]
    exact ⟨rfl, same⟩
  | false =>
    rw [execute_call (fails.trans failing) called, execute_call failing called', data]
    refine call_alike ?_ ?_ t'.data commit
    · exact same
    · exact role

end Calls

/-- Calls of twins at places that play the same part leave twins behind, and their receipts differ
in addresses alone. -/
theorem Twins.answers {c c' : Config} {s s' : Simulated} (twins : Twins c c' s s')
    {target target' : Bytes}
    (role : SameRole (s.accountAt target).code (s'.accountAt target').code) (data : Option Bytes)
    (commit : Bool) :
    let after := s.execute (c.transaction (some target) data) commit
    let after' := s'.execute (c'.transaction (some target') data) commit
    after.1.map Receipt.unplaced = after'.1.map Receipt.unplaced ∧ Twins c c' after.2 after'.2 := by
  intro after after'
  have called : (c.transaction (some target) data).target = some target := rfl
  have called' : (c'.transaction (some target') data).target = some target' := rfl
  have accounts : after.2.accounts = s.accounts := execute_accounts called commit
  have accounts' : after'.2.accounts = s'.accounts := execute_accounts called' commit
  obtain ⟨result, same⟩ : after.1.map Receipt.unplaced = after'.1.map Receipt.unplaced ∧
      after.2.bare = after'.2.bare := execute_alike twins.bare called called' rfl role commit
  refine ⟨result, same, ?_, ?_⟩
  · rw [accountAt, accountAt, accounts, accounts']
    exact twins.oracle
  · rw [accountAt, accountAt, accounts, accounts']
    exact twins.stepper

/-! ## Preparations -/

/-- What the code of a prepared engine is at the addresses of the modules. -/
theorem codes_of_prepares {bindings : Bindings} {c : Config} {s s' : Simulated}
    (apart : c.mipsAddress ≠ c.oracleAddress) (prepared : Deployment.Prepares bindings c s s') :
    s'.bare = s.bare ∧ (s'.accountAt c.oracleAddress.bytes).code = bindings.oracle ∧
      ∃ rest, (s'.accountAt c.mipsAddress.bytes).code = stepperMark ++ rest := by
  obtain ⟨placed, receipt, -, -, created, success, -, accounts, bare⟩ := shows.well prepared
  have elsewhere : c.oracleAddress.bytes ≠ c.mipsAddress.bytes :=
    fun same => apart (Block.ext same.symm)
  have code : ∃ rest, receipt.output = stepperMark ++ rest := by
    cases failing : placed.fail with
    | true =>
      rw [show (Environment.execute placed _ false) = _ from execute_failing failing _ _] at created
      cases created
      cases success
    | false =>
      rw [show (Environment.execute placed _ false).1 = _ from
        execute_creation failing rfl rfl false] at created
      cases created
      exact ⟨_, rfl⟩
  rw [Deployment.writes, Table.putAll_concat] at accounts
  refine ⟨bare, ?_, ?_⟩
  · rw [accountAt, accounts, Table.find?_put_of_ne elsewhere]
    show ((Table.find? _ (Table.put _ _ _)).getD ({} : Account)).code = _
    rw [Table.find?_put_self]
    rfl
  · rw [accountAt, accounts, Table.find?_put_self]
    exact code

/-- Whether a preparation goes well, and what is wrong otherwise, is a matter of what the engine is
told to do. -/
theorem prepare_result (bindings : Bindings) (c : Config) (s : Simulated) (events : List Event) :
    ((Deployment.prepare bindings c).start ⟨s, events⟩).1 =
      if s.attached then
        if s.fail then .error (.failure (.creationFailed (some "Revert"))) else .ok ()
      else .error (.failure .noEngine) := by
  obtain ⟨funded, fund, fails⟩ : ∃ funded, Environment.setAccount s c.senderAddress.bytes
      { balance := c.senderBalance } = .ok funded ∧ funded.fail = s.fail := ⟨_, rfl, rfl⟩
  obtain ⟨placed, place, fails'⟩ : ∃ placed, Environment.setAccount funded c.oracleAddress.bytes
      { code := bindings.oracle } = .ok placed ∧ placed.fail = s.fail := ⟨_, rfl, fails⟩
  cases ready : s.attached with
  | false =>
    have unready : Environment.available s = false := ready
    simp only [Deployment.prepare, start_bind, Action.start_requireReady, unready]
    rfl
  | true =>
    have available : Environment.available s = true := ready
    cases failing : s.fail with
    | false =>
      have works : placed.fail = false := fails'.trans failing
      have created := execute_creation works (t := Deployment.creation bindings c) rfl rfl false
      obtain ⟨later, ran⟩ := (Deployment.prepare_iff events).2
        ⟨available, fund, place, Prod.ext created rfl, rfl, List.cons_ne_nil _ _, rfl⟩
      rw [ran]
      rfl
    | true =>
      have failed : Environment.execute placed
          (c.transaction none (some (Deployment.creationData bindings c))) false = _ :=
        execute_failing (fails'.trans failing) _ _
      simp only [Deployment.prepare, Deployment.deploy, start_bind, Action.start_requireReady,
        Action.start_note, Action.start_install, Action.start_submit, Action.start_check,
        available, fund, place, failed, ↓reduceIte]
      rfl

/-- One engine prepared for different addresses becomes a pair of twins, or fails alike. -/
theorem prepare_alike {c c' : Config} (apart : c.mipsAddress ≠ c.oracleAddress)
    (apart' : c'.mipsAddress ≠ c'.oracleAddress) (bindings : Bindings) (s : Simulated)
    (events events' : List Event) :
    let here := (Deployment.prepare bindings c).start ⟨s, events⟩
    let there := (Deployment.prepare bindings c').start ⟨s, events'⟩
    here.1 = there.1 ∧ (here.1 = .ok () → Twins c c' here.2.env there.2.env) := by
  intro here there
  have same : here.1 = there.1 := (prepare_result ..).trans (prepare_result ..).symm
  refine ⟨same, fun well => ?_⟩
  have prepared : Deployment.Prepares bindings c s here.2.env :=
    (Deployment.prepare_iff events).1 ⟨here.2.events, Prod.ext well rfl⟩
  have prepared' : Deployment.Prepares bindings c' s there.2.env :=
    (Deployment.prepare_iff events').1 ⟨there.2.events, Prod.ext (same.symm.trans well) rfl⟩
  obtain ⟨bare, oracle, rest, stepper⟩ := codes_of_prepares apart prepared
  obtain ⟨bare', oracle', rest', stepper'⟩ := codes_of_prepares apart' prepared'
  refine ⟨bare.trans bare'.symm, ?_, ?_⟩
  · rw [oracle, oracle']
    exact ⟨Iff.rfl, rfl⟩
  · rw [stepper, stepper']
    -- no code that begins with the mark of the stepper is that of the oracle
    have other (rest : Bytes) : stepperMark ++ rest ≠ oracleCode := by rintro ⟨⟩
    exact ⟨iff_of_false (other rest) (other rest'), rfl⟩

/-! ## Steps -/

section Steps

open StepReplay.Action

variable {α : Type} {c c' : Config}

/-- What follows a call of twins goes on alike if it does not look at the addresses in records. -/
theorem Twins.submits {target target' : Bytes}
    (role : ∀ {s s'}, Twins c c' s s' →
      SameRole (s.accountAt target).code (s'.accountAt target').code)
    (data : Option Bytes) (commit : Bool) {next : Receipt → Action Simulated α}
    (blind : ∀ {r r' : Receipt}, r.unplaced = r'.unplaced → next r = next r')
    (later : ∀ r, Lockstep (Beside (Twins c c')) (Beside (Twins c c')) (next r) (next r)) :
    Lockstep (Beside (Twins c c')) (Beside (Twins c c'))
      (submit (c.transaction (some target) data) commit >>= next)
      (submit (c'.transaction (some target') data) commit >>= next) := by
  intro x y twins
  obtain ⟨receipts, after⟩ := Twins.answers twins (role twins) data commit
  rw [start_bind, start_bind, start_submit, start_submit]
  show _ ∧ Beside _ _ _
  simp only [Environment.execute]
  rcases ran : x.env.execute (c.transaction (some target) data) commit with ⟨e | r, s⟩ <;>
    rcases ran' : y.env.execute (c'.transaction (some target') data) commit with ⟨e' | r', s'⟩ <;>
    rw [ran, ran'] at receipts after
  · cases receipts
    exact ⟨rfl, after⟩
  · cases receipts
  · cases receipts
  · dsimp only
    rw [blind (Except.ok.inj receipts)]
    exact later r' _ _ after

theorem beside_disclose (same : c'.signatures = c.signatures) (w : StepWitness) :
    Lockstep (Beside (Twins c c')) (Beside (Twins c c'))
      (Step.disclose c w) (Step.disclose c' w) := by
  unfold Step.disclose
  refine (beside_requireReady fun twins => attached_of_bare twins.bare).bind fun _ => ?_
  cases w.preimageKey with
  | none => exact .throw _
  | some key =>
    refine (beside_note _).bind fun _ => ?_
    rw [same]
    refine (beside_ofExcept _).bind fun input => ?_
    refine Twins.submits Twins.oracle input true (fun receipts => ?_) fun r => beside_check _
    rw [Step.disclosed_congr receipts]

theorem beside_perform (same : c'.signatures = c.signatures) (w : StepWitness) :
    Lockstep (Beside (Twins c c')) (Beside (Twins c c'))
      (Step.perform c w) (Step.perform c' w) := by
  unfold Step.perform
  refine (beside_note _).bind fun _ => ?_
  rw [same]
  refine (beside_ofExcept _).bind fun input => ?_
  refine Twins.submits Twins.stepper (some input) false (fun receipts => ?_) fun r => ?_
  · rw [Step.returnedHash_congr receipts, Step.loggedState_congr receipts]
  · refine (beside_check _).bind fun hash => (beside_note _).bind fun _ => ?_
    exact (beside_check _).bind fun post => beside_check _

theorem beside_execute (same : c'.signatures = c.signatures) (w : StepWitness) :
    Lockstep (Beside (Twins c c')) (Beside (Twins c c'))
      (Step.execute c w) (Step.execute c' w) := by
  unfold Step.execute
  refine (beside_requireReady fun twins => attached_of_bare twins.bare).bind fun _ => ?_
  dsimp only
  split
  · exact (beside_disclose same w).bind fun _ => beside_perform same w
  · exact beside_perform same w

end Steps

end Simulated

namespace Plan

/-- Runs that made as many engines, and share twins if they share any. -/
structure Paired (c c' : Config) (p q : Progress Simulated) : Prop where
  retired : p.retired.length = q.retired.length
  shared : Option.Rel (Simulated.Twins c c') p.shared q.shared

section Paired

variable {c c' : Config} {p q : Progress Simulated}

theorem Paired.engines (paired : Paired c c' p q) : p.engines.length = q.engines.length := by
  have same : p.shared.toList.length = q.shared.toList.length := by
    have rel := paired.shared
    generalize p.shared = shared at rel ⊢
    generalize q.shared = shared' at rel ⊢
    cases rel <;> rfl
  rw [Progress.engines, Progress.engines, List.length_append, List.length_append, paired.retired,
    same]

theorem Paired.putBack (paired : Paired c c' p q) {plan plan' : Plan Simulated}
    (mode : plan'.sharing = plan.sharing) {s s' : Simulated}
    (twins : Simulated.Twins c c' s s') : Paired c c' (plan.putBack p s) (plan'.putBack q s') := by
  unfold Plan.putBack
  rw [mode]
  split
  · exact ⟨paired.retired, .some twins⟩
  · refine ⟨?_, paired.shared⟩
    rw [List.length_append, List.length_append, paired.retired]
    rfl

end Paired

section Moved

variable {plan : Plan Simulated} {mips oracle sender : Address} {p q : Progress Simulated}

/-- The next case of either run has a twin, or no engine for the same reason. -/
theorem preparedEngine_moved (apart : plan.config.mipsAddress ≠ plan.config.oracleAddress)
    (apart' : mips ≠ oracle)
    (paired : Paired plan.config (plan.config.moved mips oracle sender) p q) :
    Paired plan.config (plan.config.moved mips oracle sender) (plan.preparedEngine p).2
        ((plan.moved mips oracle sender).preparedEngine q).2 ∧
      ((∃ e, (plan.preparedEngine p).1 = .error e ∧
          ((plan.moved mips oracle sender).preparedEngine q).1 = .error e) ∨
        ∃ s s', (plan.preparedEngine p).1 = .ok s ∧
          ((plan.moved mips oracle sender).preparedEngine q).1 = .ok s' ∧
          Simulated.Twins plan.config (plan.config.moved mips oracle sender) s s') := by
  have rel := paired.shared
  unfold preparedEngine
  rw [← paired.engines]
  -- twins are shared, or each run prepares the same new engine
  cases left : p.shared <;> cases right : q.shared <;> rw [left, right] at rel
  · have apart'' : (plan.config.moved mips oracle sender).mipsAddress ≠
      (plan.config.moved mips oracle sender).oracleAddress := apart'
    obtain ⟨result, prepared⟩ := Simulated.prepare_alike apart apart'' plan.bindings
      (plan.factory p.engines.length) p.events q.events
    dsimp only [Plan.moved]
    rcases ran : start (Deployment.prepare plan.bindings plan.config)
        ⟨plan.factory p.engines.length, p.events⟩ with ⟨e | _, x⟩ <;>
      rcases ran' : start (Deployment.prepare plan.bindings (plan.config.moved mips oracle sender))
        ⟨plan.factory p.engines.length, q.events⟩ with ⟨e' | _, y⟩ <;>
      rw [ran, ran'] at result prepared
    · cases result
      refine ⟨⟨?_, ?_⟩, .inl ⟨e, rfl, rfl⟩⟩
      · simp only [List.length_append, paired.retired, List.length_singleton]
      · exact rel
    · cases result
    · cases result
    · exact ⟨⟨paired.retired, rel⟩, .inr ⟨_, _, rfl, rfl, prepared rfl⟩⟩
  · cases rel
  · cases rel
  · cases rel with
    | some twins => exact ⟨paired, .inr ⟨_, _, rfl, rfl, twins⟩⟩

/-- The step of a case comes to the same wherever the modules are. -/
theorem stepCase_moved (apart : plan.config.mipsAddress ≠ plan.config.oracleAddress)
    (apart' : mips ≠ oracle)
    (paired : Paired plan.config (plan.config.moved mips oracle sender) p q) (f : Fixture) :
    (plan.stepCase f p).1 = ((plan.moved mips oracle sender).stepCase f q).1 ∧
      Paired plan.config (plan.config.moved mips oracle sender) (plan.stepCase f p).2
        ((plan.moved mips oracle sender).stepCase f q).2 := by
  have same : (plan.config.moved mips oracle sender).signatures = plan.config.signatures := rfl
  obtain ⟨paired', ends⟩ := preparedEngine_moved apart apart' paired
  unfold stepCase
  rcases here : plan.preparedEngine p with ⟨result, p'⟩
  rcases there : (plan.moved mips oracle sender).preparedEngine q with ⟨result', q'⟩
  rw [here, there] at paired' ends
  rcases ends with ⟨e, rfl, rfl⟩ | ⟨s, s', rfl, rfl, twins⟩
  · exact ⟨rfl, paired'⟩
  · obtain ⟨result, after⟩ :=
      Simulated.beside_execute same f.witness ⟨s, p'.events⟩ ⟨s', q'.events⟩ twins
    refine ⟨result, ?_⟩
    apply Paired.putBack _ rfl after
    exact ⟨paired'.retired, paired'.shared⟩

end Moved

/-- The addresses of the modules and of the sender make no difference to what a run on simulated
modules shows, as long as the modules have two addresses. -/
theorem run_moved (plan : Plan Simulated) (mips oracle sender : Address)
    (apart : plan.config.mipsAddress ≠ plan.config.oracleAddress) (apart' : mips ≠ oracle)
    (disk : Disk) :
    let here := plan.run.start { disk }
    let there := (plan.moved mips oracle sender).run.start { disk }
    here.1 = there.1 ∧ here.2.outcomes = there.2.outcomes ∧ here.2.printed = there.2.printed ∧
      here.2.disk = there.2.disk := by
  have parallel : Parallel plan (plan.moved mips oracle sender) plan.corpus
      (Paired plan.config (plan.config.moved mips oracle sender)) := {
    place := rfl
    agree := fun f _ p q paired => (stepCase_moved apart apart' paired f).1
    keep := fun f _ p q paired => by
      obtain ⟨retired, shared⟩ := plan.performCase_engines f p
      obtain ⟨retired', shared'⟩ := (plan.moved mips oracle sender).performCase_engines f q
      obtain ⟨-, next⟩ := stepCase_moved apart apart' paired f
      refine ⟨?_, ?_⟩
      · rw [retired, retired']
        exact next.retired
      · rw [shared, shared']
        exact next.shared }
  have opened (p q : Progress Simulated)
      (paired : Paired plan.config (plan.config.moved mips oracle sender) p q) :
      Paired plan.config (plan.config.moved mips oracle sender) (plan.opening.start p).2
        ((plan.moved mips oracle sender).opening.start q).2 := by
    obtain ⟨outcomes, disk, changed⟩ := plan.opening_changes p
    obtain ⟨outcomes', disk', changed'⟩ := (plan.moved mips oracle sender).opening_changes q
    rw [changed, changed']
    exact ⟨paired.retired, paired.shared⟩
  obtain ⟨result, alike⟩ :=
    parallel.run rfl opened { disk } { disk } ⟨⟨rfl, .none⟩, rfl, rfl, rfl⟩
  exact ⟨result, alike.outcomes, alike.printed, alike.disk⟩

/-- A preimage that was disclosed to an oracle elsewhere is found by a stepper that has the address
of its caller. -/
theorem run_moved_disclosingPlan :
    disclosingPlan.config.mipsAddress ≠ disclosingPlan.config.oracleAddress ∧
    Block.ofNat 20 1 ≠ Block.ofNat 20 2 ∧
    let there := (disclosingPlan.moved (Block.ofNat 20 1) (Block.ofNat 20 2) (Block.ofNat 20 1)).run
    (disclosingPlan.run.start {}).1 = (there.start {}).1 ∧
      (disclosingPlan.run.start {}).2.outcomes = (there.start {}).2.outcomes := by
  have apart : disclosingPlan.config.mipsAddress ≠ disclosingPlan.config.oracleAddress := by decide
  have apart' : Block.ofNat 20 1 ≠ Block.ofNat 20 2 := by decide
  obtain ⟨result, outcomes, -⟩ :=
    run_moved disclosingPlan (Block.ofNat 20 1) (Block.ofNat 20 2) (Block.ofNat 20 1) apart
      apart' {}
  exact ⟨apart, apart', result, outcomes⟩

end Plan

end StepReplay
