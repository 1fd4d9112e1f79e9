import StepReplay.Environment.Engine
import StepReplay.Proofs.Fixture
import StepReplay.Proofs.Progress

set_option autoImplicit false

/-! # Failures that can be reported

A report is written in UTF-8 and shows the fingerprints that a failure compares. It tells of a
failure whose message has no halves of surrogate pairs and whose fingerprints differ. All failures
of a case are of this kind as long as the engine gives its reasons in such texts, and the simulated
engine and the virtual machine always do. -/

namespace StepReplay

open Attempt

/-! ## Failures -/

/-- The message of a failure can be written, and the fingerprints that it compares differ. -/
structure Failure.Reportable (f : Failure) : Prop where
  message : f.message.Whole
  differ : ∀ expected actual, f.mismatch? = some (expected, actual) → expected ≠ actual

/-- A fault that is a failure can be reported. -/
def Fault.Reportable (e : Fault) : Prop :=
  ∀ f, e = .failure f → f.Reportable

/-- The reason of a receipt, if there is one, can be written. -/
def Receipt.Candid (r : Receipt) : Prop :=
  ∀ reason, r.reason = some reason → reason.Whole

theorem Fault.reportable_failure {f : Failure} (reportable : f.Reportable) :
    Fault.Reportable (.failure f) := by
  rintro _ ⟨⟩
  exact reportable

theorem whole_hexText (b : Bytes) : (hexText b).Whole :=
  Text.whole_of_ascii fun _ => ascii_of_mem_hexText

namespace Failure

/-- A failure that compares no fingerprints has only its message to be written. -/
theorem Reportable.of_message {f : Failure} (message : f.message.Whole) (none : f.mismatch? = none) :
    f.Reportable :=
  ⟨message, fun _ _ compared => by rw [none] at compared; cases compared⟩

theorem whole_withReason {message : Text} {reason : Option Text} (known : message.Whole)
    (candid : ∀ t, reason = some t → t.Whole) : (withReason message reason).Whole := by
  cases reason with
  | none => exact known
  | some t => exact (known.append (Text.whole_of_all rfl)).append (candid t rfl)

theorem whole_unequal {message : Text} (known : message.Whole) (expected actual : Hash) :
    (unequal message expected actual).Whole :=
  (((known.append (Text.whole_of_all rfl)).append (whole_hexText _)).append
    (Text.whole_of_all rfl)).append (whole_hexText _)

theorem reportable_outputSize (actual : Nat) : (outputSize actual).Reportable :=
  .of_message (((Text.whole_of_all rfl).append (Decimal.whole_ofNat _)).append
    (Text.whole_of_all rfl)) rfl

theorem reportable_logCount (actual : Nat) : (logCount actual).Reportable :=
  .of_message ((Text.whole_of_all rfl).append (Decimal.whole_ofNat _)) rfl

/-- A failure that compares fingerprints says so with some wording of its own. -/
theorem Reportable.of_mismatch {f : Failure} {known : Text} {expected actual : Hash}
    (compared : f.mismatch? = some (expected, actual)) (other : expected ≠ actual)
    (message : f.message = unequal known expected actual) (whole : known.Whole) :
    f.Reportable := by
  refine ⟨message ▸ whole_unequal whole _ _, fun _ _ same => ?_⟩
  rw [compared] at same
  cases same
  exact other

theorem reportable_wrongSize (expected : Int) (actual : Nat) :
    (decode (.wrongSize expected actual)).Reportable :=
  .of_message ((((Text.whole_of_all rfl).append (Json.whole_ofInt _)).append
    (Text.whole_of_all rfl)).append (Decimal.whole_ofNat _)) rfl

end Failure

/-! ## Computations -/

section

variable {ε α β : Type}

/-- A computation ends with a value of some kind or an error of some kind. -/
inductive Meets (fine : ε → Prop) (post : α → Prop) : Except ε α → Prop
  | ok {a : α} (h : post a) : Meets fine post (.ok a)
  | error {e : ε} (h : fine e) : Meets fine post (.error e)

namespace Meets

variable {fine : ε → Prop} {post : α → Prop} {post' : β → Prop} {x : Except ε α}

theorem bind {f : α → Except ε β} (first : Meets fine post x)
    (rest : ∀ a, post a → Meets fine post' (f a)) : Meets fine post' (x >>= f) := by
  cases first with
  | ok h => exact rest _ h
  | error h => exact .error h

theorem map {f : α → β} (h : Meets fine post x) (fits : ∀ a, post a → post' (f a)) :
    Meets fine post' (x.map f) := by
  cases h with
  | ok h => exact .ok (fits _ h)
  | error h => exact .error h

theorem mapError {δ : Type} {fine' : δ → Prop} {f : ε → δ} (h : Meets fine post x)
    (fits : ∀ e, fine e → fine' (f e)) : Meets fine' post (x.mapError f) := by
  cases h with
  | ok h => exact .ok h
  | error h => exact .error (fits _ h)

theorem ite {c : Prop} [Decidable c] {y : Except ε α} (h : Meets fine post x)
    (h' : Meets fine post y) : Meets fine post (if c then x else y) := by
  split
  · exact h
  · exact h'

end Meets

end

/-- A record of the wrong size is a failure that can be reported. -/
theorem meets_ofBytes (n : Nat) (b : Bytes) :
    Meets (fun e => (Failure.decode e).Reportable) (fun _ => True) (Block.ofBytes n b) := by
  unfold Block.ofBytes
  split
  · exact .ok trivial
  · exact .error (Failure.reportable_wrongSize _ _)

/-! ## Engines -/

/-- What it takes of an engine that all failures can be reported: a property that it keeps whatever
is asked of it, and with which its reasons can be written and its own failures be reported. -/
class Candid (σ : Type) [Environment σ] where
  candid : σ → Prop
  setAccount {env : σ} (start : candid env) (address : Bytes) (account : Account) :
    Meets Fault.Reportable candid (Environment.setAccount env address account)
  execute {env : σ} (start : candid env) (t : Transaction) (commit : Bool) :
    candid (Environment.execute env t commit).2 ∧
      Meets Fault.Reportable Receipt.Candid (Environment.execute env t commit).1

open Candid (candid)

/-! ## Actions -/

namespace Action

variable {σ α β : Type} [Environment σ] [Candid σ]

/-- An action leaves an engine candid and ends with a value of some kind or with a fault that can be
reported. -/
def Keeps (a : Action σ α) (post : α → Prop) : Prop :=
  ∀ s : Session σ, candid s.env → candid (start a s).2.env ∧ Meets Fault.Reportable post (start a s).1

theorem Keeps.bind {a : Action σ α} {f : α → Action σ β} {post : α → Prop} {post' : β → Prop}
    (first : Keeps a post) (rest : ∀ x, post x → Keeps (f x) post') : Keeps (a >>= f) post' := by
  intro s begun
  obtain ⟨between, ended⟩ := first s begun
  rw [start_bind]
  generalize start a s = x at between ended ⊢
  obtain ⟨r, t⟩ := x
  cases ended with
  | ok h => exact rest _ h t between
  | error h => exact ⟨between, .error h⟩

theorem keeps_note (e : Event) : Keeps (note e : Action σ Unit) fun _ => True :=
  fun _ begun => ⟨begun, .ok trivial⟩

theorem keeps_ofExcept {x : Except Fault α} {post : α → Prop} (h : Meets Fault.Reportable post x) :
    Keeps (ofExcept x : Action σ α) post := by
  intro s begun
  rw [start_ofExcept]
  exact ⟨begun, h⟩

theorem keeps_check {x : Except Failure α} {post : α → Prop} (h : Meets Failure.Reportable post x) :
    Keeps (check x : Action σ α) post := by
  intro s begun
  rw [start_check]
  exact ⟨begun, h.mapError fun _ => Fault.reportable_failure⟩

theorem keeps_requireReady : Keeps (requireReady : Action σ Unit) fun _ => True := by
  intro s begun
  rw [start_requireReady]
  refine ⟨begun, ?_⟩
  split
  · exact .ok trivial
  · exact .error (Fault.reportable_failure (.of_message (Text.whole_of_all rfl) rfl))

theorem keeps_install (address : Bytes) (account : Account) :
    Keeps (install address account : Action σ Unit) fun _ => True := by
  intro s begun
  have ended := Candid.setAccount begun address account
  rw [start_install]
  cases installed : Environment.setAccount s.env address account with
  | ok env =>
    rw [installed] at ended
    cases ended with
    | ok h => exact ⟨h, .ok trivial⟩
  | error e =>
    rw [installed] at ended
    cases ended with
    | error h => exact ⟨begun, .error h⟩

theorem keeps_submit (t : Transaction) (commit : Bool) :
    Keeps (submit t commit : Action σ Receipt) Receipt.Candid := by
  intro s begun
  rw [start_submit]
  exact Candid.execute begun t commit

end Action

/-! ## Preparing an engine and replaying a step -/

variable {σ : Type} [Environment σ] [Candid σ]

namespace Deployment

theorem meets_runtimeCode {r : Receipt} (told : r.Candid) :
    Meets Failure.Reportable (fun _ => True) (runtimeCode r) := by
  unfold runtimeCode
  split
  · exact .error (.of_message (Failure.whole_withReason (Text.whole_of_all rfl) told) rfl)
  · split
    · exact .error (.of_message (Text.whole_of_all rfl) rfl)
    · exact .ok trivial

theorem keeps_deploy (address code : Bytes) :
    Action.Keeps (deploy address code : Action σ Unit) fun _ => True :=
  (Action.keeps_note _).bind fun _ _ => Action.keeps_install _ _

theorem keeps_prepare (bindings : Bindings) (c : Config) :
    Action.Keeps (prepare bindings c : Action σ Unit) fun _ => True := by
  unfold prepare
  refine Action.keeps_requireReady.bind fun _ _ => ?_
  refine (Action.keeps_install _ _).bind fun _ _ => ?_
  refine (keeps_deploy _ _).bind fun _ _ => ?_
  refine (Action.keeps_submit _ _).bind fun _ told => ?_
  refine (Action.keeps_check (meets_runtimeCode told)).bind fun _ _ => ?_
  exact keeps_deploy _ _

end Deployment

namespace Step

theorem meets_disclosed {r : Receipt} (told : r.Candid) :
    Meets Failure.Reportable (fun _ => True) (disclosed r) := by
  unfold disclosed
  split
  · exact .ok trivial
  · exact .error (.of_message (Failure.whole_withReason (Text.whole_of_all rfl) told) rfl)

theorem meets_returnedHash {r : Receipt} (told : r.Candid) :
    Meets Failure.Reportable (fun _ => True) (returnedHash r) := by
  unfold returnedHash
  split
  · exact .error (.of_message (Failure.whole_withReason (Text.whole_of_all rfl) told) rfl)
  · split
    · exact .ok trivial
    · exact .error (Failure.reportable_outputSize _)

theorem meets_loggedState (r : Receipt) :
    Meets Failure.Reportable (fun _ => True) (loggedState r) := by
  unfold loggedState
  split
  · exact (meets_ofBytes _ _).mapError fun _ => id
  · exact .error (Failure.reportable_logCount _)

/-- Fingerprints are compared in a report only where they differ. -/
theorem meets_agreed (hash : Hash) (post : State) :
    Meets Failure.Reportable (fun _ => True) (agreed hash post) := by
  unfold agreed
  split
  · exact .ok trivial
  · rename_i other
    exact .error (.of_mismatch rfl (Ne.symm other) rfl (Text.whole_of_all rfl))

/-- What cannot be encoded as a call is no failure of the case. -/
theorem meets_call {α : Type} (x : Except CallError α) :
    Meets Fault.Reportable (fun _ => True) (x.mapError .call) := by
  cases x with
  | ok a => exact .ok trivial
  | error e => exact .error nofun

theorem meets_preimageData (w : StepWitness) :
    Meets Fault.Reportable (fun _ => True) (w.preimageData.mapError .decode) := by
  have none : Fault.Reportable (.decode .noPreimage) :=
    Fault.reportable_failure (.of_message (Text.whole_of_all rfl) rfl)
  unfold StepWitness.preimageData
  split
  · split
    · exact .error none
    · exact .ok trivial
  · exact .error none

theorem meets_disclosure (key : Block 32) (data : Bytes) (offset : Nat) (signatures : Signatures) :
    Meets Fault.Reportable (fun _ => True) (StepWitness.disclosure key data offset signatures) := by
  unfold StepWitness.disclosure
  dsimp only
  split
  · split
    · exact .error (Fault.reportable_failure
        (.of_message ((Text.whole_of_all rfl).append (Decimal.whole_ofNat _)) rfl))
    · exact meets_call _
  · exact meets_call _
  · exact .error (Fault.reportable_failure
      (.of_message ((Text.whole_of_all rfl).append (Decimal.whole_ofNat _)) rfl))

theorem meets_oracleInput (w : StepWitness) (signatures : Signatures) :
    Meets Fault.Reportable (fun _ => True) (w.oracleInput signatures) := by
  unfold StepWitness.oracleInput
  split
  · refine (meets_preimageData w).bind fun data _ => ?_
    exact (meets_disclosure _ data w.offset signatures).bind fun _ _ => .ok trivial
  · exact .ok trivial

theorem keeps_disclose (c : Config) (w : StepWitness) :
    Action.Keeps (disclose c w : Action σ Unit) fun _ => True := by
  unfold disclose
  refine Action.keeps_requireReady.bind fun _ _ => ?_
  cases w.preimageKey with
  | none => exact fun _ begun => ⟨begun, .error nofun⟩
  | some key =>
    refine (Action.keeps_note _).bind fun _ _ => ?_
    refine (Action.keeps_ofExcept (meets_oracleInput w c.signatures)).bind fun _ _ => ?_
    refine (Action.keeps_submit _ _).bind fun _ told => ?_
    exact Action.keeps_check (meets_disclosed told)

theorem keeps_perform (c : Config) (w : StepWitness) :
    Action.Keeps (perform c w : Action σ StepResult) fun _ => True := by
  unfold perform
  refine (Action.keeps_note _).bind fun _ _ => ?_
  refine (Action.keeps_ofExcept (meets_call _)).bind fun _ _ => ?_
  refine (Action.keeps_submit _ _).bind fun _ told => ?_
  refine (Action.keeps_check (meets_returnedHash told)).bind fun hash _ => ?_
  refine (Action.keeps_note _).bind fun _ _ => ?_
  refine (Action.keeps_check (meets_loggedState _)).bind fun post _ => ?_
  exact Action.keeps_check (meets_agreed hash post)

theorem keeps_execute (c : Config) (w : StepWitness) :
    Action.Keeps (execute c w : Action σ StepResult) fun _ => True := by
  unfold execute
  refine Action.keeps_requireReady.bind fun _ _ => ?_
  split
  · exact (keeps_disclose c w).bind fun _ _ => keeps_perform c w
  · exact keeps_perform c w

end Step

/-! ## Cases -/

namespace Plan

/-- All engines of a plan are candid, and so is the one that its cases share. -/
structure CandidEngines (plan : Plan σ) (p : Progress σ) : Prop where
  made : ∀ n, candid (plan.factory n)
  shared : ∀ env, p.shared = some env → candid env

namespace CandidEngines

variable {plan : Plan σ} {p : Progress σ}

theorem begins (h : plan.CandidEngines p) {env : σ} (begins : plan.Begins p env) : candid env := by
  rcases begins with shared | ⟨-, prepared⟩
  · exact h.shared env shared
  · obtain ⟨later, passed⟩ := (Deployment.prepare_iff []).2 prepared
    have kept := (Deployment.keeps_prepare plan.bindings plan.config ⟨_, []⟩
      (h.made p.engines.length)).1
    rwa [passed] at kept

theorem putBack (h : plan.CandidEngines p) {env : σ} (kept : candid env) :
    plan.CandidEngines (plan.putBack p env) := by
  refine ⟨h.made, ?_⟩
  unfold Plan.putBack
  split
  · rintro _ ⟨⟩
    exact kept
  · exact h.shared

/-- The step of a case ends with a result or a fault that can be reported, and what the next case
needs is so again. -/
theorem stepCase (h : plan.CandidEngines p) (f : Fixture) :
    plan.CandidEngines (plan.stepCase f p).2 ∧
      Meets Fault.Reportable (fun _ => True) (plan.stepCase f p).1 := by
  rcases plan.stepCase_cases f p with
    ⟨e, s, -, failed, same⟩ | ⟨env, events, begins, r, s, ran, same⟩
  · have ended := (Deployment.keeps_prepare plan.bindings plan.config ⟨_, p.events⟩
      (h.made p.engines.length)).2
    rw [failed] at ended
    rw [same]
    cases ended with
    | error reportable => exact ⟨⟨h.made, h.shared⟩, .error reportable⟩
  · obtain ⟨kept, ended⟩ := Step.keeps_execute plan.config f.witness ⟨env, events⟩ (h.begins begins)
    rw [ran] at kept ended
    rw [same]
    have before : plan.CandidEngines { p with events := s.events } := ⟨h.made, h.shared⟩
    exact ⟨before.putBack kept, ended⟩

/-- The failure of a case can be reported, and what the next case needs is so again. -/
theorem runCase {q : Progress σ} (h : plan.CandidEngines p) {f : Fixture} {o : Outcome}
    (ran : (plan.runCase f).start p = (.ok o, q)) :
    plan.CandidEngines q ∧ ∀ e, o.error = some e → e.Reportable := by
  obtain ⟨kept, ended⟩ := h.stepCase f
  rw [start_runCase, Prod.mk.injEq] at ran
  obtain ⟨judged, rfl⟩ := ran
  refine ⟨kept, fun e failed => ?_⟩
  generalize (plan.stepCase f p).1 = result at judged ended
  cases ended with
  | @error fault reportable =>
    cases fault <;> cases judged
    cases failed
    exact reportable _ rfl
  | ok =>
    cases judged
    dsimp only [Fixture.divergence?] at failed
    split at failed
    · split at failed
      · cases failed
      · rename_i other
        cases failed
        exact .of_mismatch rfl other rfl (Text.whole_of_all rfl)
    · cases failed

/-- Engines change in the step of a case alone, so the whole of a case keeps this. -/
theorem performCase (h : plan.CandidEngines p) (f : Fixture) :
    plan.CandidEngines ((plan.performCase f).start p).2 := by
  refine ⟨h.made, ?_⟩
  rw [(plan.performCase_engines f p).2]
  exact (h.stepCase f).1.shared

/-- What is asked of the engines at the first case of a run is so at every later one. -/
theorem performAll (h : plan.CandidEngines p) (fs : List Fixture) :
    plan.CandidEngines ((plan.performAll fs).start p).2 := by
  induction fs generalizing p with
  | nil => exact h
  | cons f fs ih =>
    have after := h.performCase f
    rw [Plan.performAll, start_bind]
    rcases ran : (plan.performCase f).start p with ⟨e | _, q⟩ <;> rw [ran] at after
    · exact after
    · exact ih after

end CandidEngines

end Plan

/-! ## The engines -/

theorem candid_of_no_reason {r : Receipt} (none : r.reason = none) : r.Candid := by
  rintro reason told
  rw [none] at told
  cases told

theorem candid_of_reason {r : Receipt} {known : Text} (told : r.reason = some known)
    (whole : known.Whole) : r.Candid := by
  rintro reason same
  rw [told] at same
  cases same
  exact whole

/-! ### Scripted engines -/

instance : Candid Scripted where
  candid s := ∀ r ∈ s.script, r.Candid
  setAccount start _ _ := .ok start
  execute := by
    intro s start t commit
    refine ⟨fun r member => start r (List.mem_of_mem_drop member), .ok ?_⟩
    unfold Scripted.next
    cases rest : s.script with
    | nil => exact candid_of_no_reason rfl
    | cons r script => exact start r (rest ▸ List.mem_cons_self ..)

/-! ### Simulated modules -/

namespace Simulated

theorem meets_disclosed (calldata : Bytes) :
    Meets Fault.Reportable (fun _ => True) (disclosed calldata) := by
  unfold disclosed
  dsimp only
  split
  · split
    · exact .ok trivial
    · exact .error nofun
  · split <;> exact .ok trivial

theorem meets_oracle (s : Simulated) (calldata : Bytes) (commit : Bool) :
    Meets Fault.Reportable Receipt.Candid (s.oracle calldata commit).1 := by
  have ended := meets_disclosed calldata
  unfold oracle
  generalize disclosed calldata = x at ended ⊢
  cases ended with
  | error reportable => exact .error reportable
  | @ok disclosed =>
    cases disclosed with
    | none => exact .ok (candid_of_reason rfl (Text.whole_of_all rfl))
    | some entry => exact .ok (candid_of_no_reason rfl)

theorem meets_stepper (s : Simulated) (address calldata : Bytes) :
    Meets Fault.Reportable Receipt.Candid (s.stepper address calldata) := by
  have written (f : State.Fields) : Meets Fault.Reportable (fun _ => True)
      ((State.ofFields f).mapError .ofFields) := by
    cases State.ofFields f with
    | ok post => exact .ok trivial
    | error e =>
      cases e with
      | wrongSize expected actual =>
        exact .error (Fault.reportable_failure (Failure.reportable_wrongSize _ _))
      | registerCount => exact .error nofun
      | outOfRange => exact .error nofun
  have read := (meets_ofBytes 226 (Calldata.dynamicArgument calldata 0)).mapError
    (f := Fault.decode) fun _ => Fault.reportable_failure
  exact read.bind fun pre _ => (written _).bind fun post _ => .ok (candid_of_no_reason rfl)

theorem meets_execute (s : Simulated) (t : Transaction) (commit : Bool) :
    Meets Fault.Reportable Receipt.Candid (s.execute t commit).1 := by
  have missing : Meets Fault.Reportable Receipt.Candid (.error .missing) := .error nofun
  unfold execute call
  dsimp only
  split
  · exact .ok (candid_of_reason rfl (Text.whole_of_all rfl))
  · split
    · split
      · split
        · exact meets_oracle _ _ commit
        · exact missing
      · split
        · split
          · exact meets_stepper _ _ _
          · exact missing
        · exact .ok (candid_of_no_reason rfl)
    · split
      · exact .ok (candid_of_no_reason rfl)
      · exact missing

end Simulated

instance : Candid Simulated where
  candid _ := True
  setAccount _ _ _ := .ok trivial
  execute _ t commit := ⟨trivial, Simulated.meets_execute _ t commit⟩

/-! ### The virtual machine -/

namespace Evm

theorem meets_checkAddress (b : Bytes) : Meets Fault.Reportable (fun _ => True) (checkAddress b) :=
  .ite (.ok trivial) (.error nofun)

theorem meets_checkNat (n : Int) : Meets Fault.Reportable (fun _ => True) (checkNat n) :=
  .ite (.ok trivial) (.error nofun)

theorem meets_checkWord (n : Int) : Meets Fault.Reportable (fun _ => True) (checkWord n) :=
  .ite (.ok trivial) (.error nofun)

theorem meets_transfer (l : Ledger) (sender receiver : Bytes) (value : Nat) :
    Meets Fault.Reportable (fun _ => True) (l.transfer sender receiver value) := by
  unfold Ledger.transfer
  dsimp only
  split
  · exact .ok trivial
  · split
    · exact .error nofun
    · split
      · exact .error nofun
      · exact .ok trivial

theorem candid_revertReceipt (output : Bytes) (logs : List LogRecord) :
    (revertReceipt output logs).Candid := by
  refine candid_of_reason rfl ?_
  split
  · exact Text.whole_of_all rfl
  · exact (Text.whole_of_all rfl).append (whole_hexText _)

theorem candid_failureReceipt (e : Exception) (logs : List LogRecord) :
    (failureReceipt e logs).Candid := by
  refine candid_of_reason rfl ?_
  cases e <;> exact Text.whole_of_all rfl

theorem meets_callAccount (l : Ledger) (caller target data : Bytes) (gas value : Nat) :
    Meets Fault.Reportable Receipt.Candid (callAccount l caller target data gas value).result := by
  have paid := meets_transfer l caller target value
  unfold callAccount
  generalize l.transfer caller target value = x at paid ⊢
  cases paid with
  | error reportable => exact .error reportable
  | ok =>
    dsimp only
    split
    · split
      · exact .ok (candid_of_no_reason rfl)
      · exact .ok (candid_failureReceipt _ _)
    · split
      · exact .ok (candid_of_no_reason rfl)
      · exact .ok (candid_revertReceipt _ _)
      · exact .ok (candid_failureReceipt _ _)

theorem meets_createAccount (l : Ledger) (caller code : Bytes) (gas value : Nat) :
    Meets Fault.Reportable Receipt.Candid (createAccount l caller code gas value).result := by
  have paid := meets_transfer
    (l.beginCreation caller (Ledger.creationAddress caller (l.holding caller).nonce)) caller
    (Ledger.creationAddress caller (l.holding caller).nonce) value
  unfold createAccount
  dsimp only
  generalize Ledger.transfer _ _ _ _ = x at paid ⊢
  cases paid with
  | error reportable => exact .error reportable
  | ok =>
    dsimp only
    split
    · split
      · exact .ok (candid_failureReceipt _ _)
      · exact .ok (candid_of_no_reason rfl)
    · exact .ok (candid_revertReceipt _ _)
    · exact .ok (candid_failureReceipt _ _)

theorem meets_course (l : Ledger) (t : Transaction) :
    Meets Fault.Reportable (fun c => Meets Fault.Reportable Receipt.Candid c.result)
      (course l t) := by
  unfold course
  refine (meets_checkAddress _).bind fun caller _ => (meets_checkNat _).bind fun gas _ => ?_
  cases t.target with
  | some target =>
    refine (meets_checkAddress _).bind fun target _ => (meets_checkWord _).bind fun _ _ => ?_
    refine (meets_checkWord _).bind fun value _ => ?_
    cases t.data with
    | some data => exact .ok (meets_callAccount ..)
    | none => exact .error nofun
  | none =>
    refine (meets_checkWord _).bind fun _ _ => (meets_checkWord _).bind fun value _ => ?_
    cases t.data with
    | some data => exact .ok (meets_createAccount ..)
    | none => exact .error nofun

theorem meets_transact (l : Ledger) (t : Transaction) :
    Meets Fault.Reportable Receipt.Candid (transact l t).result := by
  have ended := meets_course l t
  unfold transact
  generalize course l t = x at ended ⊢
  cases ended with
  | ok h => exact h
  | error reportable => exact .error reportable

end Evm

namespace VirtualMachine

theorem meets_open? (v : VirtualMachine) : Meets Fault.Reportable (fun _ => True) v.open? := by
  unfold open?
  split
  · exact .ok trivial
  · exact .error (Fault.reportable_failure (.of_message (Text.whole_of_all rfl) rfl))

theorem meets_setAccount (v : VirtualMachine) (address : Bytes) (account : Account) :
    Meets Fault.Reportable (fun _ => True) (v.setAccount address account) :=
  (meets_open? v).bind fun _ _ => (Evm.meets_checkAddress _).bind fun _ _ =>
    (Evm.meets_checkNat _).bind fun _ _ => (Evm.meets_checkWord _).bind fun _ _ => .ok trivial

theorem meets_execute (v : VirtualMachine) (t : Transaction) (commit : Bool) :
    Meets Fault.Reportable Receipt.Candid (v.execute t commit).1 := by
  have ready := meets_open? v
  unfold execute
  generalize v.open? = x at ready ⊢
  cases ready with
  | error reportable => exact .error reportable
  | ok => exact Evm.meets_transact _ t

end VirtualMachine

instance : Candid VirtualMachine where
  candid _ := True
  setAccount _ address account := VirtualMachine.meets_setAccount _ address account
  execute _ t commit := ⟨trivial, VirtualMachine.meets_execute _ t commit⟩

/-! ### Any of them, or none -/

instance {σ : Type} [Environment σ] [Candid σ] : Candid (Option σ) where
  candid env := ∀ e, env = some e → candid e
  setAccount {env} start address account := by
    cases env with
    | none => exact .error nofun
    | some env =>
      refine (Candid.setAccount (start env rfl) address account).map fun env kept => ?_
      rintro _ ⟨⟩
      exact kept
  execute {env} start t commit := by
    cases env with
    | none => exact ⟨start, .error nofun⟩
    | some env =>
      obtain ⟨kept, ended⟩ := Candid.execute (start env rfl) t commit
      refine ⟨?_, ended⟩
      rintro _ ⟨⟩
      exact kept

instance : Candid Engine where
  candid
    | .scripted s => candid s
    | .simulated s => candid s
    | .machine m => candid m
  setAccount {env} start address account := by
    cases env with
    | scripted s => exact (Candid.setAccount (σ := Scripted) start address account).map fun _ => id
    | simulated s => exact (Candid.setAccount (σ := Simulated) start address account).map fun _ => id
    | machine m =>
      exact (Candid.setAccount (σ := VirtualMachine) start address account).map fun _ => id
  execute {env} start t commit := by
    cases env with
    | scripted s => exact Candid.execute (σ := Scripted) start t commit
    | simulated s => exact Candid.execute (σ := Simulated) start t commit
    | machine m => exact Candid.execute (σ := VirtualMachine) start t commit

end StepReplay
