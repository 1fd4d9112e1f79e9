import StepReplay.Environment.Scripted
import StepReplay.Proofs.Disclosure
import StepReplay.Proofs.Exchange

set_option autoImplicit false

/-! # Which fault a step reports

Much can be wrong with a step at once: a receipt may tell of a failure, carry an output of the wrong
size and come with any number of records. `defect?` says what each check finds by itself, whatever
the others find. A step reports what the first check finds that finds anything, and only a step
without any defect has a result. -/

namespace StepReplay.Step

/-! ## Checks and what they find -/

/-- The checks that a step goes through. -/
inductive Check where
  | engine
  | disclosureInput
  | disclosure
  | stepInput
  | step
  | outputSize
  | logCount
  | logSize
  | fingerprint

/-- The checks in the order in which they are made. -/
def Check.order : List Check :=
  [.engine, .disclosureInput, .disclosure, .stepInput, .step, .outputSize, .logCount, .logSize,
    .fingerprint]

/-- What a computation fails with. -/
def faultOf {α : Type} : Except Fault α → Option Fault
  | .error e => some e
  | .ok _ => none

/-- What a check finds in the receipt of a step. The size of a record is looked at in the first one,
whether or not there are others, and fingerprints are compared where there are two. -/
def receiptDefect? (r : Receipt) : Check → Option Fault
  | .step => if r.success then none else some (.failure (.stepFailed r.reason))
  | .outputSize =>
    if r.output.length = 32 then none else some (.failure (.outputSize r.output.length))
  | .logCount => if r.logs.length = 1 then none else some (.failure (.logCount r.logs.length))
  | .logSize => r.logs.head?.bind fun record =>
    if record.data.length = 226 then none else some (.decode (.wrongSize 226 record.data.length))
  | .fingerprint => r.logs.head?.bind fun record =>
    match Block.ofBytes 32 r.output, StepReplay.stateHash record.data with
    | .ok returned, .ok logged =>
      if logged = returned then none else some (.failure (.logMismatch returned logged))
    | _, _ => none
  | _ => none

/-- What a check finds in the step of a witness. The engine is ready or not, and it answers the
disclosure by `r₁` and the step by `r₂`; an engine that breaks a call off answers by a fault. -/
def defect? (c : Config) (w : StepWitness) (ready : Bool) (r₁ r₂ : Except Fault Receipt) :
    Check → Option Fault
  | .engine => if ready then none else some (.failure .noEngine)
  | .disclosureInput => if w.hasPreimage then faultOf (w.oracleInput c.signatures) else none
  | .disclosure =>
    if w.hasPreimage then match r₁ with
      | .error e => some e
      | .ok r => if r.success then none else some (.failure (.disclosureFailed r.reason))
    else none
  | .stepInput => faultOf (w.stepInput c.signatures.step)
  | check => match r₂, check with
    | .ok r, check => receiptDefect? r check
    | .error e, .step => some e
    | .error _, _ => none

theorem defect?_disclosure (c : Config) (w : StepWitness) (ready : Bool)
    (r₁ r₂ : Except Fault Receipt) :
    defect? c w ready r₁ r₂ .disclosure =
      if w.hasPreimage then faultOf (r₁.bind fun r => (disclosed r).mapError .failure)
      else none := by
  cases r₁ with
  | error e => rfl
  | ok r =>
    dsimp only [defect?, disclosed, Except.bind]
    cases r.success <;> rfl

/-- Of the answer to the disclosure nothing but its success and its reason is looked at. -/
theorem defect?_of_disclosure (c : Config) (w : StepWitness) (ready : Bool)
    (r₁ r₂ : Except Fault Receipt) (output : Bytes) (logs : List LogRecord) :
    defect? c w ready (r₁.map fun r => { r with output, logs }) r₂ = defect? c w ready r₁ r₂ := by
  funext check
  cases check <;> cases r₁ <;> rfl

/-! ## The first defect counts -/

/-- `Passes finds checks done x`: a computation ends with the first thing that these checks find,
or, where they find nothing, with what has been `done`. -/
structure Passes {α : Type} (finds : Check → Option Fault) (checks : List Check) (done : α → Prop)
    (x : Except Fault α) : Prop where
  error : ∀ e, x = .error e ↔ checks.findSome? finds = some e
  ok : ∀ a, x = .ok a ↔ checks.findSome? finds = none ∧ done a

section Passes

variable {α : Type} {finds : Check → Option Fault} {check : Check} {later : List Check}
  {done : α → Prop}

theorem Passes.found {e : Fault} (found : finds check = some e) :
    Passes finds (check :: later) done (.error e) where
  error d := by rw [List.findSome?_cons, found, Except.error.injEq, Option.some.injEq]
  ok a := by
    rw [List.findSome?_cons, found]
    constructor
    · rintro ⟨⟩
    · rintro ⟨⟨⟩, -⟩

theorem Passes.clear {x : Except Fault α} (clear : finds check = none)
    (rest : Passes finds later done x) : Passes finds (check :: later) done x where
  error e := by rw [List.findSome?_cons, clear, rest.error]
  ok a := by rw [List.findSome?_cons, clear, rest.ok]

/-- Where all checks are done, there is the one thing that has been. -/
theorem Passes.through {a : α} (only : ∀ b, done b ↔ b = a) :
    Passes finds [] done (.ok a) where
  error e := by
    constructor <;> rintro ⟨⟩
  ok b := by
    rw [Except.ok.injEq, only, eq_comm]
    exact (and_iff_right rfl).symm

end Passes

/-! ## The checks of a receipt -/

theorem carries_iff {r : Receipt} {result : StepResult} :
    Carries r result ↔ returnedHash r = .ok result.stateHash ∧
      loggedState r = .ok result.postState ∧
        agreed result.stateHash result.postState = .ok result := by
  rw [returnedHash_eq_ok, loggedState_eq_ok, agreed_eq_ok]
  constructor
  · rintro ⟨success, output, logged, agree⟩
    exact ⟨⟨success, output⟩, logged, agree, rfl⟩
  · rintro ⟨⟨success, output⟩, logged, agree, -⟩
    exact ⟨success, output, logged, agree⟩

/-- The two fingerprints are the last thing that is looked at. -/
theorem passes_agreed {r : Receipt} {hash : Hash} {post : State}
    (returned : returnedHash r = .ok hash) (logged : loggedState r = .ok post) :
    Passes (receiptDefect? r) [.fingerprint] (Carries r)
      ((agreed hash post).mapError .failure) := by
  obtain ⟨-, output⟩ := returnedHash_eq_ok.1 returned
  obtain ⟨record, one, data⟩ := loggedState_eq_ok.1 logged
  have compared : receiptDefect? r .fingerprint =
      if post.hash = hash then none else some (.failure (.logMismatch hash post.hash)) := by
    have read : StepReplay.stateHash post.bytes = .ok post.hash :=
      stateHash_eq_ok.2 ⟨post, rfl, rfl⟩
    rw [receiptDefect?, one, List.head?_cons, Option.bind_some, output, data,
      Block.ofBytes_bytes, read]
  by_cases same : post.hash = hash
  · rw [agreed, if_pos same]
    refine .clear (by rw [compared, if_pos same]) (.through fun result => ?_)
    rw [carries_iff, returned, logged]
    constructor
    · rintro ⟨hashed, posted, -⟩
      cases hashed
      cases posted
      rfl
    · rintro rfl
      exact ⟨rfl, rfl, if_pos same⟩
  · rw [agreed, if_neg same]
    exact .found (by rw [compared, if_neg same])

/-- Once a fingerprint has been returned, the records are looked at. -/
theorem passes_logged {r : Receipt} {hash : Hash} (returned : returnedHash r = .ok hash) :
    Passes (receiptDefect? r) [.logCount, .logSize, .fingerprint] (Carries r)
      (((loggedState r).bind fun post => agreed hash post).mapError .failure) := by
  by_cases one : r.logs.length = 1
  · obtain ⟨record, one⟩ := List.length_eq_one_iff.1 one
    refine .clear (by rw [receiptDefect?, one]; rfl) ?_
    by_cases whole : record.data.length = 226
    · have logged : loggedState r = .ok ⟨record.data, whole⟩ :=
        loggedState_eq_ok.2 ⟨record, one, rfl⟩
      rw [logged]
      refine .clear ?_ (passes_agreed returned logged)
      rw [receiptDefect?, one, List.head?_cons, Option.bind_some, if_pos whole]
    · have refused : loggedState r = .error (.decode (.wrongSize 226 record.data.length)) := by
        rw [loggedState, one]
        dsimp only
        rw [Block.ofBytes, dif_neg whole]
        rfl
      rw [refused]
      refine .found ?_
      rw [receiptDefect?, one, List.head?_cons, Option.bind_some, if_neg whole]
      rfl
  · have refused : loggedState r = .error (.logCount r.logs.length) := by
      unfold loggedState
      split
      · rename_i record single
        exact absurd (congrArg List.length single) one
      · rfl
    rw [refused]
    exact .found (if_neg one)

theorem passes_receipt (r : Receipt) :
    Passes (receiptDefect? r) [.step, .outputSize, .logCount, .logSize, .fingerprint] (Carries r)
      (((returnedHash r).bind fun hash => (loggedState r).bind fun post =>
        agreed hash post).mapError .failure) := by
  cases success : r.success with
  | false =>
    have refused : returnedHash r = .error (.stepFailed r.reason) := by
      rw [returnedHash, success]
      rfl
    rw [refused]
    exact .found (by rw [receiptDefect?, success]; rfl)
  | true =>
    refine .clear (by rw [receiptDefect?, success]; rfl) ?_
    by_cases size : r.output.length = 32
    · have returned : returnedHash r = .ok ⟨r.output, size⟩ :=
        returnedHash_eq_ok.2 ⟨success, rfl⟩
      rw [returned]
      exact .clear (if_pos size) (passes_logged returned)
    · have refused : returnedHash r = .error (.outputSize r.output.length) := by
        rw [returnedHash, success]
        exact dif_neg size
      rw [refused]
      exact .found (if_neg size)

/-! ## The checks of a step -/

variable {σ : Type} [Environment σ] {c : Config} {w : StepWitness} {env env₁ env₂ : σ}
  {r₁ r₂ : Except Fault Receipt}

/-- The dry run of the step goes through the checks from its calldata on. -/
theorem passes_perform {ready : Bool}
    (stepping : ∀ input, w.stepInput c.signatures.step = .ok input →
      Environment.execute env (c.transaction (some c.mipsAddress.bytes) (some input)) false =
        (r₂, env₂)) (events : List Event) :
    Passes (defect? c w ready r₁ r₂)
      [.stepInput, .step, .outputSize, .logCount, .logSize, .fingerprint]
      (fun result => ∃ r, r₂ = .ok r ∧ Carries r result)
      ((perform c w).start ⟨env, events⟩).1 := by
  rw [perform_result]
  cases encoded : w.stepInput c.signatures.step with
  | error e => exact .found (by rw [defect?, encoded]; rfl)
  | ok input =>
    refine .clear (by rw [defect?, encoded]; rfl) ?_
    dsimp only [Except.bind]
    rw [stepping input encoded]
    cases r₂ with
    | error e => exact .found rfl
    | ok r =>
      obtain ⟨error, ok⟩ := passes_receipt r
      refine ⟨error, fun result => (ok result).trans (and_congr_right fun _ => ?_)⟩
      constructor
      · exact fun carries => ⟨r, rfl, carries⟩
      · rintro ⟨_, ⟨⟩, carries⟩
        exact carries

/-- The result of a step is what its checks find first, if they find anything. -/
theorem passes_execute
    (disclosing : w.hasPreimage = true → ∀ input, w.oracleInput c.signatures = .ok input →
      Environment.execute env (c.transaction (some c.oracleAddress.bytes) input) true =
        (r₁, env₁))
    (stepping : ∀ input, w.stepInput c.signatures.step = .ok input →
      Environment.execute (if w.hasPreimage then env₁ else env)
        (c.transaction (some c.mipsAddress.bytes) (some input)) false = (r₂, env₂))
    (events : List Event) :
    Passes (defect? c w (Environment.available env) r₁ r₂) Check.order
      (fun result => ∃ r, r₂ = .ok r ∧ Carries r result)
      ((execute c w).start ⟨env, events⟩).1 := by
  unfold Check.order
  cases ready : Environment.available env with
  | false =>
    rw [start_execute_of_unready ready]
    exact .found rfl
  | true =>
    refine .clear rfl ?_
    cases needed : w.hasPreimage with
    | false =>
      rw [start_execute_of_needless ready needed]
      rw [needed] at stepping
      refine .clear (by rw [defect?, needed]; rfl) (.clear ?_ (passes_perform stepping events))
      rw [defect?_disclosure, needed]
      rfl
    | true =>
      rw [needed] at stepping
      cases encoded : w.oracleInput c.signatures with
      | error e =>
        obtain ⟨later, ran⟩ := start_execute_of_unencodable ready needed encoded events
        rw [ran]
        exact .found (by rw [defect?, needed, encoded]; rfl)
      | ok input =>
        refine .clear (by rw [defect?, needed, encoded]; rfl) ?_
        have executed := disclosing needed input encoded
        have found := defect?_disclosure c w true r₁ r₂
        rw [needed] at found
        cases granted : r₁.bind fun r => (disclosed r).mapError Fault.failure with
        | error e =>
          obtain ⟨later, ran⟩ :=
            start_execute_of_refused ready needed encoded executed granted events
          rw [ran]
          exact .found (by rw [found, granted]; rfl)
        | ok u =>
          obtain ⟨receipt, rfl, success⟩ := bind_eq_ok.1 granted
          have kept : Discloses c w env env₁ :=
            .kept needed encoded executed (disclosed_eq_ok.1 (mapError_eq_ok.1 success))
          obtain ⟨later, ran⟩ := start_execute_of_discloses ready kept events
          rw [ran]
          exact .clear (by rw [found, granted]; rfl) (passes_perform stepping later)

/-- A step reports what the first of its checks finds that finds anything. It has a result just when
none does, and this is the output of the receipt with the content of its one record. The receipt of
the disclosure counts by its success and its reason alone, and where there is no engine, that is
what a step reports. -/
theorem execute_reports_first
    (disclosing : w.hasPreimage = true → ∀ input, w.oracleInput c.signatures = .ok input →
      Environment.execute env (c.transaction (some c.oracleAddress.bytes) input) true =
        (r₁, env₁))
    (stepping : ∀ input, w.stepInput c.signatures.step = .ok input →
      Environment.execute (if w.hasPreimage then env₁ else env)
        (c.transaction (some c.mipsAddress.bytes) (some input)) false = (r₂, env₂))
    (events : List Event) :
    (∀ e, ((execute c w).start ⟨env, events⟩).1 = .error e ↔
      Check.order.findSome? (defect? c w (Environment.available env) r₁ r₂) = some e) ∧
    ((∃ result, ((execute c w).start ⟨env, events⟩).1 = .ok result) ↔
      Check.order.findSome? (defect? c w (Environment.available env) r₁ r₂) = none) ∧
    (∀ result, ((execute c w).start ⟨env, events⟩).1 = .ok result →
      ∃ r record, r₂ = .ok r ∧ r.output = result.stateHash.bytes ∧ r.logs = [record] ∧
        record.data = result.postState.bytes) ∧
    (∀ output logs, defect? c w (Environment.available env)
      (r₁.map fun r => { r with output, logs }) r₂ =
        defect? c w (Environment.available env) r₁ r₂) ∧
    ((execute c w).start ⟨(none : Option σ), events⟩).1 = .error (.failure .noEngine) := by
  have passes := passes_execute disclosing stepping events
  refine ⟨passes.error, ⟨?_, fun clear => ?_⟩, fun result came => ?_, fun output logs => ?_, ?_⟩
  · rintro ⟨result, came⟩
    exact ((passes.ok result).1 came).1
  · cases came : ((execute c w).start ⟨env, events⟩).1 with
    | error e =>
      rw [(passes.error e).1 came] at clear
      cases clear
    | ok result => exact ⟨result, rfl⟩
  · obtain ⟨-, r, answered, carries⟩ := (passes.ok result).1 came
    obtain ⟨record, one, data⟩ := carries.logged
    exact ⟨r, record, answered, carries.output, one, data⟩
  · exact defect?_of_disclosure ..
  · rw [start_execute_of_unready rfl]

/-- A witness that has a byte disclosed under a local key. -/
def localWitness : StepWitness where
  state := Block.zero 226
  preimageKey := some ⟨1 :: List.replicate 31 2, rfl⟩
  preimageValue := some (Bytes.zeros 8 ++ [7])

/-- A failure that also has a short output and two short records. -/
def crowdedReceipt : Receipt where
  success := false
  output := Bytes.zeros 31
  logs :=
    [{ address := [], topics := [], data := [1] }, { address := [], topics := [], data := [] }]
  reason := some "Revert"

/-- An engine that gives that receipt for the step, and one like it for the disclosure. -/
def crowdedEngine : Scripted where
  script := [{ crowdedReceipt with success := true }, crowdedReceipt]

/-- The failure is reported, although the output, the count of records and the first of them are
wrong as well, and although the disclosure came with records. -/
theorem execute_reports_first_crowded :
    (∃ input, localWitness.oracleInput {} = .ok (some input)) ∧
    (∃ input, localWitness.stepInput ({} : Signatures).step = .ok input) ∧
    (∀ check ∈ [Check.outputSize, .logCount, .logSize],
      (receiptDefect? crowdedReceipt check).isSome = true) ∧
    ((execute {} localWitness).start ⟨crowdedEngine, []⟩).1 =
      .error (.failure (.stepFailed (some "Revert"))) := by
  obtain ⟨sent, disclosed⟩ : ∃ input, localWitness.oracleInput {} = .ok (some input) :=
    StepWitness.exists_oracleInput_local (by decide) rfl rfl (by decide)
      (show ([7] : Bytes).length ≤ Calldata.wordSize by decide)
  have encodable : (localWitness.stepInput ({} : Signatures).step).isOk = true := by
    decide +kernel
  cases encoded : localWitness.stepInput ({} : Signatures).step with
  | error e =>
    rw [encoded] at encodable
    cases encodable
  | ok input =>
    let c : Config := {}
    let disclosedTo := (Environment.execute crowdedEngine
      (c.transaction (some c.oracleAddress.bytes) (some sent)) true).2
    have disclosing : localWitness.hasPreimage = true →
        ∀ input, localWitness.oracleInput c.signatures = .ok input →
          Environment.execute crowdedEngine
            (c.transaction (some c.oracleAddress.bytes) input) true =
              (.ok { crowdedReceipt with success := true }, disclosedTo) := by
      intro _ input same
      cases disclosed.symm.trans same
      rfl
    have stepping : ∀ called, localWitness.stepInput c.signatures.step = .ok called →
        Environment.execute (if localWitness.hasPreimage then disclosedTo else crowdedEngine)
          (c.transaction (some c.mipsAddress.bytes) (some called)) false =
            (.ok crowdedReceipt, (Environment.execute disclosedTo
              (c.transaction (some c.mipsAddress.bytes) (some input)) false).2) := by
      intro called same
      cases encoded.symm.trans same
      rfl
    have disclosable : faultOf (localWitness.oracleInput c.signatures) = none :=
      congrArg faultOf disclosed
    have callable : faultOf (localWitness.stepInput c.signatures.step) = none :=
      congrArg faultOf encoded
    refine ⟨⟨sent, disclosed⟩, ⟨input, rfl⟩, by decide, ?_⟩
    refine ((execute_reports_first disclosing stepping []).1 _).2 ?_
    simp only [Check.order, List.findSome?_cons, defect?, disclosable, callable, ite_self]
    rfl

end StepReplay.Step
