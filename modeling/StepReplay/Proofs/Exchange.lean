import Mathlib
import StepReplay.Step

set_option autoImplicit false

/-! # What an engine has to answer

Preparing an engine and replaying a step are each a row of calls with checks in between. Here the
calls and the checks that let one of the two end well are written down as relations between the
engine before and the engine afterwards, without the monad in which they run. `prepare_iff` and
`execute_iff` say that nothing else lets them end well and that nothing more is needed. -/

namespace StepReplay

variable {σ : Type} [Environment σ]

/-! ## Preparing an engine -/

namespace Deployment

/-- `Prepares bindings c env env'`: every call that prepares `env` goes through, the creation with
some code, and leads to `env'`. -/
inductive Prepares (bindings : Bindings) (c : Config) (env : σ) : σ → Prop
  | intro {funded placed ran env' : σ} {receipt : Receipt}
      (ready : Environment.available env = true)
      (fund : Environment.setAccount env c.senderAddress.bytes { balance := c.senderBalance }
        = .ok funded)
      (place : Environment.setAccount funded c.oracleAddress.bytes { code := bindings.oracle }
        = .ok placed)
      (create : Environment.execute placed
        (c.transaction none (some (creationData bindings c))) false = (.ok receipt, ran))
      (success : receipt.success = true)
      (code : receipt.output ≠ [])
      (install : Environment.setAccount ran c.mipsAddress.bytes { code := receipt.output }
        = .ok env') :
      Prepares bindings c env env'

theorem runtimeCode_eq_ok {r : Receipt} {code : Bytes} :
    runtimeCode r = .ok code ↔ r.success = true ∧ r.output ≠ [] ∧ r.output = code := by
  unfold runtimeCode
  cases r.success
  · simp
  · cases r.output <;> simp

theorem prepare_iff {bindings : Bindings} {c : Config} {env env' : σ} (events : List Event) :
    (∃ later, (prepare bindings c).start ⟨env, events⟩ = (.ok (), ⟨env', later⟩)) ↔
      Prepares bindings c env env' := by
  -- the actions are peeled off from the front, each leaving one field of the relation behind
  constructor
  · rintro ⟨later, h⟩
    simp only [prepare, deploy, Attempt.start_bind_eq_ok, Action.start_requireReady_eq_ok,
      Action.start_note_eq_ok, Action.start_install_eq_ok, Action.start_submit_eq_ok,
      Action.start_check_eq_ok, runtimeCode_eq_ok] at h
    obtain ⟨_, _, ⟨ready, rfl⟩, h⟩ := h
    obtain ⟨_, _, ⟨_, fund, rfl⟩, h⟩ := h
    obtain ⟨_, _, ⟨_, _, rfl, _, place, rfl⟩, h⟩ := h
    obtain ⟨receipt, _, ⟨_, create, rfl⟩, h⟩ := h
    obtain ⟨_, _, ⟨⟨success, code, rfl⟩, rfl⟩, h⟩ := h
    obtain ⟨_, _, rfl, _, install, same⟩ := h
    cases same
    exact ⟨ready, fund, place, create, success, code, install⟩
  · rintro ⟨ready, fund, place, create, success, code, install⟩
    rename_i receipt
    have accepted : runtimeCode receipt = .ok receipt.output :=
      runtimeCode_eq_ok.2 ⟨success, code, rfl⟩
    simp [prepare, deploy, Attempt.start_bind, Action.start_requireReady, Action.start_note,
      Action.start_install, Action.start_submit, Action.start_check, ready, fund, place, create,
      accepted, install, Except.mapError]

/-- The engine after a preparation is determined by the one before. -/
theorem Prepares.unique {bindings : Bindings} {c : Config} {env env₁ env₂ : σ}
    (h₁ : Prepares bindings c env env₁) (h₂ : Prepares bindings c env env₂) : env₁ = env₂ := by
  obtain ⟨later₁, h₁⟩ := (prepare_iff []).2 h₁
  obtain ⟨later₂, h₂⟩ := (prepare_iff []).2 h₂
  rw [h₁] at h₂
  cases h₂
  rfl

end Deployment

/-! ## Replaying a step -/

namespace Step

/-- `Discloses c w env env'`: a witness without a preimage leaves the engine as it is; otherwise
the disclosure can be encoded, is executed to be kept and succeeds. -/
inductive Discloses (c : Config) (w : StepWitness) (env : σ) : σ → Prop
  | needless (without : w.hasPreimage = false) : Discloses c w env env
  | kept {input : Option Bytes} {receipt : Receipt} {env' : σ}
      (needed : w.hasPreimage = true)
      (encoded : w.oracleInput c.signatures = .ok input)
      (executed : Environment.execute env (c.transaction (some c.oracleAddress.bytes) input) true
        = (.ok receipt, env'))
      (success : receipt.success = true) :
      Discloses c w env env'

/-- `Answers c w env receipt env'`: the engine is ready, what has to be disclosed is, and the dry
run of the step comes back with a receipt. -/
inductive Answers (c : Config) (w : StepWitness) (env : σ) : Receipt → σ → Prop
  | intro {disclosed env' : σ} {input : Bytes} {receipt : Receipt}
      (ready : Environment.available env = true)
      (preimage : Discloses c w env disclosed)
      (encoded : w.stepInput c.signatures.step = .ok input)
      (executed : Environment.execute disclosed
        (c.transaction (some c.mipsAddress.bytes) (some input)) false = (.ok receipt, env')) :
      Answers c w env receipt env'

/-- A receipt that carries a result: its output is a fingerprint, its one record holds a state, and
the fingerprint is that of the state. -/
structure Carries (r : Receipt) (result : StepResult) : Prop where
  success : r.success = true
  output : r.output = result.stateHash.bytes
  logged : ∃ record, r.logs = [record] ∧ record.data = result.postState.bytes
  agree : result.postState.hash = result.stateHash

/-- A receipt that comes with a fingerprint which its one record bears out: the record holds as many
bytes as a state has, and they have that fingerprint. -/
structure Agrees (r : Receipt) (hash : Hash) : Prop where
  success : r.success = true
  output : r.output = hash.bytes
  logged : ∃ record, r.logs = [record] ∧ record.data.length = 226 ∧
    StepReplay.stateHash record.data = .ok hash

theorem stateHash_eq_ok {b : Bytes} {hash : Hash} :
    stateHash b = .ok hash ↔ ∃ post : State, b = post.bytes ∧ post.hash = hash := by
  unfold stateHash Block.ofBytes
  split
  · rename_i size
    simp only [Except.map, Except.ok.injEq]
    constructor
    · exact fun same => ⟨_, rfl, same⟩
    · rintro ⟨post, rfl, same⟩
      exact same
  · rename_i other
    simp only [Except.map, reduceCtorEq, false_iff]
    rintro ⟨post, rfl, -⟩
    exact other post.length_bytes

theorem agrees_iff {r : Receipt} {hash : Hash} :
    Agrees r hash ↔ ∃ post, Carries r ⟨hash, post⟩ := by
  constructor
  · rintro ⟨success, output, record, one, -, hashed⟩
    obtain ⟨post, data, agree⟩ := stateHash_eq_ok.1 hashed
    exact ⟨post, success, output, ⟨record, one, data⟩, agree⟩
  · rintro ⟨post, success, output, ⟨record, one, data⟩, agree⟩
    exact ⟨success, output, record, one, by rw [data]; exact post.length_bytes,
      stateHash_eq_ok.2 ⟨post, data, agree⟩⟩

/-! ### Checks -/

theorem disclosed_eq_ok {r : Receipt} {u : Unit} : disclosed r = .ok u ↔ r.success = true := by
  unfold disclosed
  cases r.success <;> simp

theorem returnedHash_eq_ok {r : Receipt} {hash : Hash} :
    returnedHash r = .ok hash ↔ r.success = true ∧ r.output = hash.bytes := by
  obtain ⟨bytes, size⟩ := hash
  unfold returnedHash
  cases r.success with
  | false => simp
  | true =>
    simp only [Bool.not_true, Bool.false_eq_true, ↓reduceIte, true_and]
    split
    · simp
    · rename_i other
      simp only [reduceCtorEq, false_iff]
      rintro rfl
      exact other size

theorem loggedState_eq_ok {r : Receipt} {post : State} :
    loggedState r = .ok post ↔ ∃ record, r.logs = [record] ∧ record.data = post.bytes := by
  obtain ⟨bytes, size⟩ := post
  unfold loggedState
  split
  · rename_i record one
    simp only [one, List.cons.injEq, and_true, exists_eq_left', Block.ofBytes]
    split
    · simp [Except.mapError]
    · rename_i other
      simp only [Except.mapError, reduceCtorEq, false_iff]
      rintro rfl
      exact other size
  · rename_i other
    simp only [reduceCtorEq, false_iff]
    rintro ⟨record, one, -⟩
    exact other record one

theorem agreed_eq_ok {hash : Hash} {post : State} {result : StepResult} :
    agreed hash post = .ok result ↔ post.hash = hash ∧ result = ⟨hash, post⟩ := by
  unfold agreed
  split
  · rename_i same
    simp [same, eq_comm]
  · rename_i other
    simp [other]

/-! ### The calls -/

theorem key_of_hasPreimage {w : StepWitness} (needed : w.hasPreimage = true) :
    ∃ key, w.preimageKey = some key := by
  unfold StepWitness.hasPreimage at needed
  split at needed
  · rename_i key present
    exact ⟨key, present⟩
  · cases needed

theorem disclose_iff {c : Config} {w : StepWitness} {env env' : σ} (events : List Event)
    (ready : Environment.available env = true) (needed : w.hasPreimage = true) :
    (∃ later, (disclose c w).start ⟨env, events⟩ = (.ok (), ⟨env', later⟩)) ↔
      Discloses c w env env' := by
  obtain ⟨key, present⟩ := key_of_hasPreimage needed
  constructor
  · rintro ⟨later, h⟩
    simp only [disclose, present, Attempt.start_bind_eq_ok, Action.start_requireReady_eq_ok,
      Action.start_note_eq_ok, Action.start_ofExcept_eq_ok, Action.start_submit_eq_ok,
      Action.start_check_eq_ok, disclosed_eq_ok] at h
    obtain ⟨_, _, ⟨-, rfl⟩, _, _, rfl, h⟩ := h
    obtain ⟨_, _, ⟨encoded, rfl⟩, h⟩ := h
    obtain ⟨_, _, ⟨_, executed, rfl⟩, success, same⟩ := h
    cases same
    exact .kept needed encoded executed success
  · rintro (without | ⟨-, encoded, executed, success⟩)
    · simp [needed] at without
    · rename_i receipt
      have accepted : disclosed receipt = .ok () := disclosed_eq_ok.2 success
      simp [disclose, present, Attempt.start_bind, Action.start_requireReady, Action.start_note,
        Action.start_ofExcept, Action.start_submit, Action.start_check, ready, encoded, executed,
        accepted, Except.mapError]

theorem perform_iff {c : Config} {w : StepWitness} {env env' : σ} {result : StepResult}
    (events : List Event) :
    (∃ later, (perform c w).start ⟨env, events⟩ = (.ok result, ⟨env', later⟩)) ↔
      ∃ input receipt, w.stepInput c.signatures.step = .ok input ∧
        Environment.execute env (c.transaction (some c.mipsAddress.bytes) (some input)) false
          = (.ok receipt, env') ∧ Carries receipt result := by
  constructor
  · rintro ⟨later, h⟩
    simp only [perform, Attempt.start_bind_eq_ok, Action.start_note_eq_ok,
      Action.start_ofExcept_eq_ok, Action.start_submit_eq_ok, Action.start_check_eq_ok,
      returnedHash_eq_ok, loggedState_eq_ok, agreed_eq_ok] at h
    obtain ⟨_, _, rfl, input, _, ⟨encoded, rfl⟩, h⟩ := h
    obtain ⟨receipt, _, ⟨_, executed, rfl⟩, h⟩ := h
    obtain ⟨hash, _, ⟨⟨success, output⟩, rfl⟩, _, _, rfl, h⟩ := h
    obtain ⟨post, _, ⟨logged, rfl⟩, ⟨agree, rfl⟩, same⟩ := h
    cases same
    exact ⟨input, receipt, encoded, executed, success, output, logged, agree⟩
  · rintro ⟨input, receipt, encoded, executed, success, output, logged, agree⟩
    have hash : returnedHash receipt = .ok result.stateHash :=
      returnedHash_eq_ok.2 ⟨success, output⟩
    have post : loggedState receipt = .ok result.postState := loggedState_eq_ok.2 logged
    have same : agreed result.stateHash result.postState = .ok result :=
      agreed_eq_ok.2 ⟨agree, rfl⟩
    simp [perform, Attempt.start_bind, Action.start_note, Action.start_ofExcept,
      Action.start_submit, Action.start_check, encoded, executed, hash, post, same,
      Except.mapError]

/-- The result of a step is the first error of encoding, of executing or of the checks, or what
passes all of them. No check touches the engine, which is as the dry run has left it. -/
theorem start_perform_eq (c : Config) (w : StepWitness) (env : σ) (events : List Event) :
    ∃ later, (perform c w).start ⟨env, events⟩ =
      ((w.stepInput c.signatures.step).bind fun input =>
        (Environment.execute env
          (c.transaction (some c.mipsAddress.bytes) (some input)) false).1.bind fun receipt =>
            ((returnedHash receipt).bind fun hash =>
              (loggedState receipt).bind fun post => agreed hash post).mapError .failure,
        ⟨match w.stepInput c.signatures.step with
          | .ok input => (Environment.execute env
              (c.transaction (some c.mipsAddress.bytes) (some input)) false).2
          | .error _ => env, later⟩) := by
  simp only [perform, Attempt.start_bind, Action.start_note, Action.start_ofExcept,
    Action.start_submit, Action.start_check]
  cases w.stepInput c.signatures.step with
  | error e => exact ⟨_, rfl⟩
  | ok input =>
    dsimp only [Except.bind]
    cases (Environment.execute env
      (c.transaction (some c.mipsAddress.bytes) (some input)) false).1 with
    | error e => exact ⟨_, rfl⟩
    | ok receipt =>
      dsimp only
      cases returnedHash receipt with
      | error e => exact ⟨_, rfl⟩
      | ok hash =>
        cases loggedState receipt with
        | error e => exact ⟨_, rfl⟩
        | ok post => exact ⟨_, rfl⟩

theorem perform_engine (c : Config) (w : StepWitness) (env : σ) (events : List Event) :
    ((perform c w).start ⟨env, events⟩).2.env = match w.stepInput c.signatures.step with
      | .ok input => (Environment.execute env
          (c.transaction (some c.mipsAddress.bytes) (some input)) false).2
      | .error _ => env := by
  obtain ⟨later, ran⟩ := start_perform_eq c w env events
  rw [ran]

theorem perform_result (c : Config) (w : StepWitness) (env : σ) (events : List Event) :
    ((perform c w).start ⟨env, events⟩).1 =
      (w.stepInput c.signatures.step).bind fun input =>
        (Environment.execute env
          (c.transaction (some c.mipsAddress.bytes) (some input)) false).1.bind fun receipt =>
            ((returnedHash receipt).bind fun hash =>
              (loggedState receipt).bind fun post => agreed hash post).mapError .failure := by
  obtain ⟨later, ran⟩ := start_perform_eq c w env events
  rw [ran]

theorem start_execute_of_unready {env : σ} (unready : Environment.available env = false)
    (c : Config) (w : StepWitness) (events : List Event) :
    (execute c w).start ⟨env, events⟩ = (.error (.failure .noEngine), ⟨env, events⟩) := by
  simp only [execute, Attempt.start_bind, Action.start_requireReady, unready, Bool.false_eq_true,
    ↓reduceIte]

/-- A step that needs no preimage is the dry run alone. -/
theorem start_execute_of_needless {c : Config} {w : StepWitness} {env : σ}
    (ready : Environment.available env = true) (without : w.hasPreimage = false)
    (events : List Event) :
    (execute c w).start ⟨env, events⟩ = (perform c w).start ⟨env, events⟩ := by
  simp only [execute, Attempt.start_bind, Action.start_requireReady, ready, ↓reduceIte, without]
  rfl

theorem Discloses.unique {c : Config} {w : StepWitness} {env env₁ env₂ : σ}
    (h₁ : Discloses c w env env₁) (h₂ : Discloses c w env env₂) : env₁ = env₂ := by
  obtain without | ⟨needed, encoded, executed, -⟩ := h₁ <;>
    obtain without' | ⟨needed', encoded', executed', -⟩ := h₂
  · rfl
  · simp [without] at needed'
  · simp [without'] at needed
  · cases encoded.symm.trans encoded'
    rw [executed] at executed'
    exact congrArg Prod.snd executed'

/-- Once what has to be disclosed is, the dry run of the step is all that is left. -/
theorem start_execute_of_discloses {c : Config} {w : StepWitness} {env env' : σ}
    (ready : Environment.available env = true) (preimage : Discloses c w env env')
    (events : List Event) :
    ∃ later, (execute c w).start ⟨env, events⟩ = (perform c w).start ⟨env', later⟩ := by
  cases needed : w.hasPreimage with
  | false =>
    obtain - | ⟨needed', -⟩ := preimage
    · exact ⟨events, start_execute_of_needless ready needed events⟩
    · simp [needed] at needed'
  | true =>
    obtain ⟨between, h⟩ := (disclose_iff events ready needed).2 preimage
    refine ⟨between, ?_⟩
    simp only [execute, Attempt.start_bind, Action.start_requireReady, ready, ↓reduceIte, needed, h]

/-- A disclosure that cannot be encoded ends the case before anything is asked of the engine. -/
theorem start_execute_of_unencodable {c : Config} {w : StepWitness} {env : σ} {e : Fault}
    (ready : Environment.available env = true) (needed : w.hasPreimage = true)
    (unencodable : w.oracleInput c.signatures = .error e) (events : List Event) :
    ∃ later, (execute c w).start ⟨env, events⟩ = (.error e, ⟨env, later⟩) := by
  obtain ⟨key, present⟩ := key_of_hasPreimage needed
  refine ⟨events ++ [.reading key w.offset], ?_⟩
  simp only [execute, disclose, present, Attempt.start_bind, Action.start_requireReady, ready,
    ↓reduceIte, needed, Action.start_note, Action.start_ofExcept, unencodable]

/-- A disclosure that the engine breaks off or does not grant ends the case, with the engine as that
call has left it. -/
theorem start_execute_of_refused {c : Config} {w : StepWitness} {env env' : σ}
    {input : Option Bytes} {answer : Except Fault Receipt} {e : Fault}
    (ready : Environment.available env = true) (needed : w.hasPreimage = true)
    (encoded : w.oracleInput c.signatures = .ok input)
    (executed : Environment.execute env (c.transaction (some c.oracleAddress.bytes) input) true
      = (answer, env'))
    (refused : (answer.bind fun receipt => (disclosed receipt).mapError .failure) = .error e)
    (events : List Event) :
    ∃ later, (execute c w).start ⟨env, events⟩ = (.error e, ⟨env', later⟩) := by
  obtain ⟨key, present⟩ := key_of_hasPreimage needed
  refine ⟨events ++ [.reading key w.offset], ?_⟩
  simp only [execute, disclose, present, Attempt.start_bind, Action.start_requireReady, ready,
    ↓reduceIte, needed, Action.start_note, Action.start_ofExcept, encoded, Action.start_submit,
    executed]
  cases answer with
  | error d =>
    cases refused
    rfl
  | ok receipt =>
    simp only [Except.bind] at refused
    simp only [Action.start_check, refused]

theorem execute_iff {c : Config} {w : StepWitness} {env env' : σ} {result : StepResult}
    (events : List Event) :
    (∃ later, (execute c w).start ⟨env, events⟩ = (.ok result, ⟨env', later⟩)) ↔
      ∃ receipt, Answers c w env receipt env' ∧ Carries receipt result := by
  constructor
  · rintro ⟨later, h⟩
    rw [execute, Attempt.start_bind_eq_ok] at h
    obtain ⟨_, _, h₁, h⟩ := h
    obtain ⟨ready, rfl⟩ := Action.start_requireReady_eq_ok.1 h₁
    cases needed : w.hasPreimage with
    | false =>
      rw [needed] at h
      obtain ⟨input, receipt, encoded, executed, carries⟩ := (perform_iff _).1 ⟨later, h⟩
      exact ⟨receipt, ⟨ready, .needless needed, encoded, executed⟩, carries⟩
    | true =>
      simp only [needed, ↓reduceIte, Attempt.start_bind_eq_ok] at h
      obtain ⟨_, ⟨disclosed, between⟩, h₂, h⟩ := h
      have preimage := (disclose_iff _ ready needed).1 ⟨between, h₂⟩
      obtain ⟨input, receipt, encoded, executed, carries⟩ := (perform_iff _).1 ⟨later, h⟩
      exact ⟨receipt, ⟨ready, preimage, encoded, executed⟩, carries⟩
  · rintro ⟨receipt, ⟨ready, preimage, encoded, executed⟩, carries⟩
    rename_i disclosed input
    simp only [execute, Attempt.start_bind, Action.start_requireReady, ready, ↓reduceIte]
    cases needed : w.hasPreimage with
    | false =>
      obtain - | ⟨needed', -⟩ := preimage
      · exact (perform_iff _).2 ⟨input, receipt, encoded, executed, carries⟩
      · simp [needed] at needed'
    | true =>
      obtain ⟨between, h⟩ := (disclose_iff events ready needed).2 preimage
      simp only [↓reduceIte, Attempt.start_bind, h]
      exact (perform_iff _).2 ⟨input, receipt, encoded, executed, carries⟩

end Step

end StepReplay
