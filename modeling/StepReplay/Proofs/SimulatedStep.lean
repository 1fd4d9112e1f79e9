import StepReplay.Environment.Simulated
import StepReplay.Proofs.Calldata
import StepReplay.Proofs.Exchange
import StepReplay.Proofs.Layout

set_option autoImplicit false

/-! # A step on the simulated modules

From the calldata that the stepper is called with to the checks of the harness, a step on the
simulated modules comes to the state that `Succeeds` describes field by field, or to the one fault
that there can be: a counter of that state has no room in the layout. Nothing that the harness
records as a failure of the modules can come of it. -/

namespace StepReplay.Simulated

/-! ## Engines that play the modules -/

/-- An engine that is ready and has not been told to misbehave. -/
structure Sound (s : Simulated) : Prop where
  attached : s.attached = true
  fail : s.fail = false
  corruptOutput : s.corruptOutput = false
  logCount : s.logCount = 1

/-- A sound engine with both modules at their addresses. -/
structure Plays (c : Config) (s : Simulated) : Prop where
  sound : s.Sound
  oracle : (s.accountAt c.oracleAddress.bytes).code = oracleCode
  stepper : stepperMark.isPrefixOf (s.accountAt c.mipsAddress.bytes).code = true

/-- An engine plays the modules whatever has been disclosed to it and asked of it. -/
theorem Plays.frame {c : Config} {s : Simulated} (h : s.Plays c)
    (preimages : Table Bytes (Nat × Bytes)) (transactions : List (Transaction × Bool)) :
    ({ s with preimages, transactions } : Simulated).Plays c :=
  ⟨⟨h.sound.attached, h.sound.fail, h.sound.corruptOutput, h.sound.logCount⟩, h.oracle, h.stepper⟩

/-- A sound engine can be prepared, and then it plays the modules. What has been disclosed to it
stays. -/
theorem Sound.prepares {c : Config} {bindings : Bindings} {s : Simulated} (h : s.Sound)
    (apart : c.mipsAddress ≠ c.oracleAddress) (oracle : bindings.oracle = oracleCode) :
    ∃ s', Deployment.Prepares bindings c s s' ∧ s'.Plays c ∧ s'.preimages = s.preimages := by
  let placed : Simulated :=
    { s with
      accounts := (s.accounts.put c.senderAddress.bytes { balance := c.senderBalance }).put
        c.oracleAddress.bytes { code := bindings.oracle } }
  let creating := c.transaction none (some (Deployment.creationData bindings c))
  let code := stepperMark ++
    (Deployment.creationData bindings c).drop ((Deployment.creationData bindings c).length - 32)
  have created : Environment.execute placed creating false =
      (.ok { success := true, output := code },
        { placed with transactions := s.transactions ++ [(creating, false)] }) := by
    have works : placed.fail = false := h.fail
    simp only [Environment.execute, execute, works]
    rfl
  have elsewhere : c.oracleAddress.bytes ≠ c.mipsAddress.bytes :=
    fun same => apart (Block.ext same.symm)
  refine ⟨{ placed with
      accounts := placed.accounts.put c.mipsAddress.bytes { code }
      transactions := s.transactions ++ [(creating, false)] },
    ⟨h.attached, rfl, rfl, created, rfl, List.cons_ne_nil _ _, rfl⟩, ⟨⟨h.attached, h.fail,
      h.corruptOutput, h.logCount⟩, ?_, ?_⟩, rfl⟩
  · rw [accountAt, Table.find?_put_of_ne elsewhere, Table.find?_put_self]
    exact oracle
  · rw [accountAt, Table.find?_put_self]
    rfl

/-! ## The state after a step -/

/-- What has been disclosed is of a size that a register holds. -/
def Holdable (stored : Table Bytes (Nat × Bytes)) : Prop :=
  ∀ key entry, stored.find? key = some entry → entry.2.length < Bytes.capacity 4

/-- The registers after a step: a disclosed preimage that the state reads puts its size into
register 2. -/
def registersAfter (stored : Table Bytes (Nat × Bytes)) (pre : State) : List Nat :=
  match stored.find? pre.preimageKey with
  | some (_, data) => pre.registers.set 2 data.length
  | none => pre.registers

/-- `Succeeds stored pre post`: one state comes after another where these preimages are known. -/
structure Succeeds (stored : Table Bytes (Nat × Bytes)) (pre post : State) : Prop where
  memRoot : post.memRoot = pre.memRoot
  preimageKey : post.preimageKey = pre.preimageKey
  preimageOffset : post.preimageOffset = pre.preimageOffset
  pc : post.pc = pre.nextPc
  nextPc : post.nextPc = pre.nextPc + 4
  lo : post.lo = pre.lo
  hi : post.hi = pre.hi
  heap : post.heap = pre.heap
  exitCode : post.exitCode = pre.exitCode
  exited : post.exited = pre.exited
  step : post.step = pre.step + 1
  registers : post.registers = registersAfter stored pre

theorem registers_advance (s : Simulated) (pre : State) :
    (s.advance pre).registers = (registersAfter s.preimages pre).map Int.ofNat := by
  unfold advance registersAfter
  cases s.preimages.find? pre.preimageKey with
  | none => rfl
  | some entry => exact List.map_set.symm

theorem registersAfter_lt {stored : Table Bytes (Nat × Bytes)} (h : Holdable stored) (pre : State)
    {value : Nat} (member : value ∈ registersAfter stored pre) : value < Bytes.capacity 4 := by
  unfold registersAfter at member
  split at member
  · rename_i offset data found
    rcases List.mem_or_eq_of_mem_set member with kept | rfl
    · exact State.register_lt kept
    · exact h _ _ found
  · exact State.register_lt member

theorem length_registersAfter (stored : Table Bytes (Nat × Bytes)) (pre : State) :
    (registersAfter stored pre).length = 32 := by
  unfold registersAfter
  split
  · rw [List.length_set]
    exact pre.length_registers
  · exact pre.length_registers

/-- Apart from its two counters a state after a step always fits. -/
theorem fault?_advance {s : Simulated} (h : Holdable s.preimages) (pre : State) :
    (s.advance pre).fault? =
      if pre.nextPc + 4 < Bytes.capacity 4 then
        if pre.step + 1 < Bytes.capacity 8 then none
        else some (.outOfRange "step" 64 (pre.step + 1 : Nat))
      else some (.outOfRange "next_pc" 32 (pre.nextPc + 4 : Nat)) := by
  have others : ({ s.advance pre with nextPc := 0, step := 0 } : State.Fields).Fits :=
    { pre.fits_fields with
      pc := pre.fits_fields.nextPc
      nextPc := State.Fields.fits_zero 4
      step := State.Fields.fits_zero 8
      count := by
        rw [registers_advance, List.length_map, length_registersAfter]
      registers := by
        intro value member
        rw [registers_advance] at member
        obtain ⟨n, there, rfl⟩ := List.mem_map.1 member
        exact State.Fields.fits_natCast.2 (registersAfter_lt h pre there) }
  have nextPc : (s.advance pre).nextPc = (pre.nextPc + 4 : Nat) := rfl
  have step : (s.advance pre).step = (pre.step + 1 : Nat) := rfl
  rw [State.Fields.fault?_of_counters others, nextPc, step]
  simp only [State.Fields.fits_natCast]

/-- The state that a step has is the one that comes after. -/
theorem succeeds_of_advance {s : Simulated} {pre post : State}
    (h : State.ofFields (s.advance pre) = .ok post) : Succeeds s.preimages pre post := by
  have fields := State.fields_of_ofFields h
  have number {f : State.Fields → Int} {read : State → Nat} {n : Nat}
      (stands : f post.fields = read post) (becomes : f (s.advance pre) = n) : read post = n := by
    rw [fields, becomes] at stands
    exact Int.ofNat_inj.1 stands.symm
  exact {
    memRoot := congrArg State.Fields.memRoot fields
    preimageKey := congrArg State.Fields.preimageKey fields
    preimageOffset := number (f := State.Fields.preimageOffset) rfl rfl
    pc := number (f := State.Fields.pc) rfl rfl
    nextPc := number (f := State.Fields.nextPc) rfl rfl
    lo := number (f := State.Fields.lo) rfl rfl
    hi := number (f := State.Fields.hi) rfl rfl
    heap := number (f := State.Fields.heap) rfl rfl
    exitCode := number (f := State.Fields.exitCode) rfl rfl
    exited := congrArg State.Fields.exited fields
    step := number (f := State.Fields.step) rfl rfl
    registers := by
      have same :
          post.registers.map Int.ofNat = (registersAfter s.preimages pre).map Int.ofNat := by
        rw [← registers_advance, ← fields]
        rfl
      exact List.map_injective_iff.2 (fun _ _ => Int.ofNat_inj.1) same }

/-! ## The dry run of a step -/

/-- The receipt of a step to a state. -/
def receiptOf (address : Bytes) (post : State) : Receipt where
  success := true
  output := post.hash.bytes
  logs := [{ address, topics := [], data := post.bytes }]

theorem stepper_of_read {s : Simulated} (h : s.Sound) {address calldata : Bytes} {pre : State}
    (read : Calldata.dynamicArgument calldata 0 = pre.bytes) :
    s.stepper address calldata =
      ((State.ofFields (s.advance pre)).mapError .ofFields).map (receiptOf address) := by
  rw [stepper, read, Block.ofBytes_bytes, h.corruptOutput, h.logCount]
  change ((State.ofFields (s.advance pre)).mapError Fault.ofFields).bind _ = _
  cases State.ofFields (s.advance pre) <;> rfl

/-- An engine that plays the modules answers a call of the stepper by its rule. -/
theorem Plays.executes_step {c : Config} {s : Simulated} (h : s.Plays c) {w : StepWitness}
    {input : Bytes} (encoded : w.stepInput ({} : Signatures).step = .ok input) :
    (Environment.execute s (c.transaction (some c.mipsAddress.bytes) (some input)) false).1 =
      ((State.ofFields (s.advance w.state)).mapError .ofFields).map
        (receiptOf c.mipsAddress.bytes) := by
  have other : (s.accountAt c.mipsAddress.bytes).code ≠ oracleCode := by
    intro same
    have marked := h.stepper
    rw [same] at marked
    exact absurd marked (by decide)
  have called : (s.execute (c.transaction (some c.mipsAddress.bytes) (some input)) false).1 =
      s.stepper c.mipsAddress.bytes input := by
    have works := h.sound.fail
    have marked := h.stepper
    unfold accountAt at other marked
    simp only [execute, works, Config.transaction, call, accountAt, other, marked, ↓reduceIte,
      Bool.false_eq_true]
    rfl
  exact called.trans (stepper_of_read h.sound (StepWitness.read_stepInput encoded).1)

theorem checks_receiptOf (address : Bytes) (post : State) :
    ((Step.returnedHash (receiptOf address post)).bind fun hash =>
      (Step.loggedState (receiptOf address post)).bind fun logged => Step.agreed hash logged) =
        .ok ⟨post.hash, post⟩ := by
  have hash : Step.returnedHash (receiptOf address post) = .ok post.hash :=
    Step.returnedHash_eq_ok.2 ⟨rfl, rfl⟩
  have logged : Step.loggedState (receiptOf address post) = .ok post :=
    Step.loggedState_eq_ok.2 ⟨_, rfl, rfl⟩
  have agreed : Step.agreed post.hash post = .ok ⟨post.hash, post⟩ :=
    Step.agreed_eq_ok.2 ⟨rfl, rfl⟩
  simp only [hash, logged, agreed, Except.bind]

/-- The dry run of a step on an engine that plays the modules: either its calldata cannot be
encoded, or its result is that of encoding the state that comes after. -/
theorem Plays.perform_result {c : Config} {s : Simulated} (h : s.Plays c)
    (signatures : c.signatures = {}) (w : StepWitness) (events : List Event) :
    ((Step.perform c w).start ⟨s, events⟩).1 =
      (w.stepInput ({} : Signatures).step).bind fun _ =>
        ((State.ofFields (s.advance w.state)).mapError .ofFields).map fun post =>
          ⟨post.hash, post⟩ := by
  rw [Step.perform_result, signatures]
  cases encoded : w.stepInput ({} : Signatures).step with
  | error e => rfl
  | ok input =>
    dsimp only [Except.bind]
    rw [h.executes_step encoded]
    cases State.ofFields (s.advance w.state) with
    | error e => rfl
    | ok post => exact congrArg (Except.mapError Fault.failure) (checks_receiptOf _ post)

/-- `Ends stored w result`: what a step comes to where these preimages are known. -/
inductive Ends (stored : Table Bytes (Nat × Bytes)) (w : StepWitness) :
    Except Fault StepResult → Prop
  | state {post : State} (encodable : w.proof.length < Bytes.capacity 32)
      (nextPc : w.state.nextPc + 4 < Bytes.capacity 4)
      (step : w.state.step + 1 < Bytes.capacity 8) (succeeds : Succeeds stored w.state post) :
      Ends stored w (.ok ⟨post.hash, post⟩)
  | nextPc (encodable : w.proof.length < Bytes.capacity 32)
      (overflow : Bytes.capacity 4 ≤ w.state.nextPc + 4) :
      Ends stored w (.error (.field (.outOfRange "next_pc" 32 (w.state.nextPc + 4 : Nat))))
  | step (encodable : w.proof.length < Bytes.capacity 32)
      (nextPc : w.state.nextPc + 4 < Bytes.capacity 4)
      (overflow : Bytes.capacity 8 ≤ w.state.step + 1) :
      Ends stored w (.error (.field (.outOfRange "step" 64 (w.state.step + 1 : Nat))))
  /-- A proof whose length fits no word has no calldata. -/
  | proof (e : CallError) (endless : Bytes.capacity 32 ≤ w.proof.length) :
      Ends stored w (.error (.call e))

theorem Ends.succeeds {stored : Table Bytes (Nat × Bytes)} {w : StepWitness} {result : StepResult}
    (h : Ends stored w (.ok result)) : Succeeds stored w.state result.postState := by
  cases h with
  | state encodable nextPc step succeeds => exact succeeds

/-- Without an overflow there is a state. -/
theorem Ends.exists_result {stored : Table Bytes (Nat × Bytes)} {w : StepWitness}
    {reached : Except Fault StepResult} (h : Ends stored w reached)
    (encodable : w.proof.length < Bytes.capacity 32)
    (nextPc : w.state.nextPc + 4 < Bytes.capacity 4)
    (step : w.state.step + 1 < Bytes.capacity 8) : ∃ result, reached = .ok result := by
  cases h with
  | state => exact ⟨_, rfl⟩
  | nextPc _ overflow => exact absurd nextPc (Nat.not_lt.2 overflow)
  | step _ _ overflow => exact absurd step (Nat.not_lt.2 overflow)
  | proof _ endless => exact absurd encodable (Nat.not_lt.2 endless)

theorem Plays.ends {c : Config} {s : Simulated} (h : s.Plays c) (holdable : Holdable s.preimages)
    (signatures : c.signatures = {}) (w : StepWitness) (events : List Event) :
    Ends s.preimages w ((Step.perform c w).start ⟨s, events⟩).1 := by
  rw [h.perform_result signatures w events]
  -- the calldata comes first, then the two counters in the order of the layout's checks
  by_cases encodable : w.proof.length < Bytes.capacity 32
  · obtain ⟨input, encoded⟩ := w.stepInput_isOk_iff.2 encodable
    rw [encoded]
    have fault := fault?_advance holdable w.state
    split at fault
    · rename_i nextPc
      split at fault
      · rename_i step
        obtain ⟨post, made⟩ := State.exists_of_fits (State.Fields.fault?_eq_none.1 fault)
        rw [made]
        exact .state encodable nextPc step (succeeds_of_advance made)
      · rename_i overflow
        rw [State.ofFields_eq_error.2 fault]
        exact .step encodable nextPc (Nat.le_of_not_lt overflow)
    · rename_i overflow
      rw [State.ofFields_eq_error.2 fault]
      exact .nextPc encodable (Nat.le_of_not_lt overflow)
  · cases encoded : w.stepInput ({} : Signatures).step with
    | ok input => exact absurd (w.stepInput_isOk_iff.1 ⟨input, encoded⟩) encodable
    | error e =>
      obtain ⟨e, -, rfl⟩ := mapError_eq_error.1 encoded
      exact .proof e (Nat.le_of_not_lt encodable)

/-- On a prepared engine, whatever preimages of a proper size are stored in it, a step without a
disclosure comes to the state after the one before it, with the fingerprint of that state, unless
one of the two counters overflows, and then the program counter is named before the step. No failure
of the modules is ever seen. -/
theorem step_succeeds {c : Config} {bindings : Bindings} {fresh : Simulated}
    {stored : Table Bytes (Nat × Bytes)} {w : StepWitness} (signatures : c.signatures = {})
    (apart : c.mipsAddress ≠ c.oracleAddress) (oracle : bindings.oracle = oracleCode)
    (sound : fresh.Sound) (holdable : Holdable stored) (without : w.hasPreimage = false) :
    ∃ prepared later,
      (Deployment.prepare bindings c).start ⟨fresh, []⟩ = (.ok (), ⟨prepared, later⟩) ∧
      ∀ events,
        let result := ((Step.execute c w).start ⟨{ prepared with preimages := stored }, events⟩).1
        (∀ f, result ≠ .error (.failure f)) ∧
        (w.proof.length < Bytes.capacity 32 →
          (w.state.nextPc + 4 < Bytes.capacity 4 → w.state.step + 1 < Bytes.capacity 8 →
            ∃ post, result = .ok ⟨post.hash, post⟩ ∧ Succeeds stored w.state post) ∧
          (Bytes.capacity 4 ≤ w.state.nextPc + 4 →
            result = .error (.field (.outOfRange "next_pc" 32 (w.state.nextPc + 4 : Nat)))) ∧
          (w.state.nextPc + 4 < Bytes.capacity 4 → Bytes.capacity 8 ≤ w.state.step + 1 →
            result = .error (.field (.outOfRange "step" 64 (w.state.step + 1 : Nat))))) ∧
        (Bytes.capacity 32 ≤ w.proof.length → ∃ e, result = .error (.call e)) := by
  obtain ⟨prepared, prepares, plays, -⟩ := sound.prepares apart oracle
  obtain ⟨later, ran⟩ := (Deployment.prepare_iff []).2 prepares
  refine ⟨prepared, later, ran, fun events => ?_⟩
  have plays' := plays.frame stored prepared.transactions
  have ends := plays'.ends holdable signatures w events
  rw [← Step.start_execute_of_needless plays'.sound.attached without] at ends
  intro result
  change Ends stored w result at ends
  generalize result = reached at ends
  cases ends with
  | state encodable nextPc step succeeds =>
    refine ⟨by rintro f ⟨⟩, fun _ => ⟨fun _ _ => ⟨_, rfl, succeeds⟩, ?_, ?_⟩, ?_⟩ <;> omega
  | nextPc encodable overflow =>
    refine ⟨by rintro f ⟨⟩, fun _ => ⟨?_, fun _ => rfl, ?_⟩, ?_⟩ <;> omega
  | step encodable nextPc overflow =>
    refine ⟨by rintro f ⟨⟩, fun _ => ⟨?_, ?_, fun _ _ => rfl⟩, ?_⟩ <;> omega
  | proof e endless =>
    exact ⟨by rintro f ⟨⟩, fun _ => by omega, fun _ => ⟨e, rfl⟩⟩

/-- The modules as they come. -/
def bindings : Bindings where
  creation := [0x60, 0x80, 0x60, 0x40, 0x52]
  oracle := oracleCode

/-- A state of zeros reads the preimage under the key of zeros, which here has three bytes. -/
theorem step_succeeds_reading : ∃ (prepared : Simulated) (later : List Event),
    (Deployment.prepare bindings {}).start ⟨{}, []⟩ = (.ok (), ⟨prepared, later⟩) ∧
    ∃ post, ((Step.execute {} { state := Block.zero 226 }).start
        ⟨{ prepared with preimages := [(Bytes.zeros 32, 5, [7, 8, 9])] }, []⟩).1 =
          .ok ⟨post.hash, post⟩ ∧
      Succeeds [(Bytes.zeros 32, 5, [7, 8, 9])] (Block.zero 226) post ∧
      post.registers[2]? = some 3 := by
  have holdable : Holdable [(Bytes.zeros 32, 5, [7, 8, 9])] := by
    intro key entry found
    simp only [Table.find?] at found
    split at found
    · cases found
      decide
    · cases found
  have sound : ({} : Simulated).Sound := ⟨rfl, rfl, rfl, rfl⟩
  have needless : StepWitness.hasPreimage { state := Block.zero 226 } = false := rfl
  have installs : bindings.oracle = oracleCode := rfl
  obtain ⟨prepared, later, ran, ends⟩ :=
    step_succeeds (c := {}) rfl (by decide) installs sound holdable needless
  obtain ⟨post, reached, succeeds⟩ := ((ends []).2.1 (by decide)).1 (by decide) (by decide)
  refine ⟨prepared, later, ran, post, reached, succeeds, ?_⟩
  rw [succeeds.registers]
  decide

end StepReplay.Simulated
