import StepReplay.Environment.Scripted
import StepReplay.Proofs.Progress

set_option autoImplicit false

/-! # The calls of a run

A scripted engine records what it is asked for. Which calls a run makes is fixed by the engine's
script and the cases that run on it: `engineCalls` writes them down, and `run_calls` shows that each
engine of a run has recorded these calls and no others, whether the run comes to its end or not.

Every execution uses up one receipt of the script, so where in its script a case finds an engine is
the number of executions before it. -/

namespace StepReplay

namespace CallTrace

open Attempt

/-! ## The protocol -/

/-- The dry run of a step, unless it cannot be encoded. -/
def stepCalls (c : Config) (w : StepWitness) : List Call :=
  match w.stepInput c.signatures.step with
  | .ok input => [.execute (c.transaction (some c.mipsAddress.bytes) (some input)) false]
  | .error _ => []

/-- The calls of a case. Where a preimage has to be disclosed, that is asked for once, and for the
step only if the disclosure could be encoded and succeeded. -/
def caseCalls (c : Config) (w : StepWitness) (script : List Receipt) : List Call :=
  if w.hasPreimage then
    match w.oracleInput c.signatures with
    | .ok input =>
      .execute (c.transaction (some c.oracleAddress.bytes) input) true ::
        if (Scripted.next { script }).success then stepCalls c w else []
    | .error _ => []
  else stepCalls c w

/-- The calls of cases that run on one engine. -/
def casesCalls (c : Config) (script : List Receipt) : List Fixture → List Call
  | [] => []
  | f :: rest =>
    let calls := caseCalls c f.witness script
    calls ++ casesCalls c (script.drop calls.length) rest

/-- The calls up to the creation of the stepper. -/
def preparation (bindings : Bindings) (c : Config) : List Call :=
  [.setAccount c.senderAddress.bytes { balance := c.senderBalance },
    .setAccount c.oracleAddress.bytes { code := bindings.oracle },
    .execute (c.transaction none
      (some (bindings.creation ++ Bytes.zeros 12 ++ c.oracleAddress.bytes))) false]

/-- Whether the creation of the stepper leaves code. -/
def creates (s : Scripted) : Bool :=
  s.next.success && !s.next.output.isEmpty

/-- All calls that an engine gets. -/
def engineCalls (bindings : Bindings) (c : Config) (s : Scripted) (cases : List Fixture) :
    List Call :=
  if s.attached then
    preparation bindings c ++
      if creates s then
        .setAccount c.mipsAddress.bytes { code := s.next.output } ::
          casesCalls c (s.script.drop 1) cases
      else []
  else []

theorem casesCalls_append (c : Config) (script : List Receipt) (cases : List Fixture)
    (f : Fixture) :
    casesCalls c script (cases ++ [f]) = casesCalls c script cases ++
      caseCalls c f.witness (script.drop (casesCalls c script cases).length) := by
  induction cases generalizing script with
  | nil => exact List.append_nil _
  | cons g rest ih =>
    simp only [List.cons_append, casesCalls, ih, List.append_assoc, List.drop_drop,
      List.length_append]

/-- Only disclosures are executed to be kept. -/
theorem committed_of_mem_caseCalls {c : Config} {w : StepWitness} {script : List Receipt}
    {t : Transaction} (h : Call.execute t true ∈ caseCalls c w script) :
    w.hasPreimage = true ∧ ∃ input, w.oracleInput c.signatures = .ok input ∧
      t = c.transaction (some c.oracleAddress.bytes) input := by
  have dry : Call.execute t true ∉ stepCalls c w := by
    unfold stepCalls
    split <;> simp
  unfold caseCalls at h
  split at h
  · rename_i needed
    split at h
    · rename_i input encoded
      rcases List.mem_cons.1 h with same | member
      · cases same
        exact ⟨needed, input, encoded, rfl⟩
      · split at member
        · exact absurd member dry
        · cases member
    · cases h
  · exact absurd h dry

theorem committed_of_mem_casesCalls {c : Config} {script : List Receipt} {cases : List Fixture}
    {t : Transaction} (h : Call.execute t true ∈ casesCalls c script cases) :
    ∃ f ∈ cases, f.witness.hasPreimage = true ∧
      ∃ input, f.witness.oracleInput c.signatures = .ok input ∧
        t = c.transaction (some c.oracleAddress.bytes) input := by
  induction cases generalizing script with
  | nil => cases h
  | cons f rest ih =>
    rcases List.mem_append.1 h with here | later
    · exact ⟨f, List.mem_cons_self .., committed_of_mem_caseCalls here⟩
    · obtain ⟨g, member, disclosed⟩ := ih later
      exact ⟨g, List.mem_cons_of_mem _ member, disclosed⟩

theorem committed_of_mem_engineCalls {bindings : Bindings} {c : Config} {s : Scripted}
    {cases : List Fixture} {t : Transaction}
    (h : Call.execute t true ∈ engineCalls bindings c s cases) :
    ∃ f ∈ cases, f.witness.hasPreimage = true ∧
      ∃ input, f.witness.oracleInput c.signatures = .ok input ∧
        t = c.transaction (some c.oracleAddress.bytes) input := by
  unfold engineCalls at h
  split at h
  · rcases List.mem_append.1 h with early | late
    · simp [preparation] at early
    · split at late
      · exact committed_of_mem_casesCalls ((List.mem_cons.1 late).resolve_left nofun)
      · cases late
  · cases h

/-! ## One engine -/

/-- `Serves bindings c s cases env`: an engine that was `s` before it was prepared is `env` after
some cases and can serve another. -/
structure Serves (bindings : Bindings) (c : Config) (s : Scripted) (cases : List Fixture)
    (env : Scripted) : Prop where
  ready : s.attached = true ∧ creates s = true
  attached : env.attached = true
  calls : env.calls = s.calls ++ engineCalls bindings c s cases
  script : env.script =
    (s.script.drop 1).drop (casesCalls c (s.script.drop 1) cases).length

theorem creationData_eq (bindings : Bindings) (c : Config) :
    Deployment.creationData bindings c =
      bindings.creation ++ Bytes.zeros 12 ++ c.oracleAddress.bytes := by
  unfold Deployment.creationData Bytes.padLeft
  rw [c.oracleAddress.length_bytes, List.append_assoc]

theorem serves_of_prepares {bindings : Bindings} {c : Config} {s env : Scripted}
    (h : Deployment.Prepares bindings c s env) : Serves bindings c s [] env := by
  obtain ⟨ready, fund, place, create, success, code, install⟩ := h
  cases fund
  cases place
  cases create
  cases install
  have attached : s.attached = true := ready
  have created : creates s = true := by
    have left : s.next.output ≠ [] := code
    rw [creates, show s.next.success = true from success]
    simpa using left
  refine ⟨⟨attached, created⟩, attached, ?_, rfl⟩
  simp only [engineCalls, attached, created, ↓reduceIte, preparation, casesCalls, creationData_eq,
    List.append_assoc, List.cons_append, List.nil_append]
  rfl

/-- A preparation asks for what the protocol says. The engine serves cases afterwards just when it
was ready and the creation left code. -/
theorem start_prepare (bindings : Bindings) (c : Config) (s : Scripted) (events : List Event) :
    (∃ env later, (Deployment.prepare bindings c).start ⟨s, events⟩ = (.ok (), ⟨env, later⟩) ∧
      Serves bindings c s [] env) ∨
    ∃ e env later, (Deployment.prepare bindings c).start ⟨s, events⟩ = (.error e, ⟨env, later⟩) ∧
      ¬ (s.attached = true ∧ creates s = true) ∧
      ∀ cases, env.calls = s.calls ++ engineCalls bindings c s cases := by
  cases attached : s.attached with
  | false =>
    have unready : (Deployment.prepare bindings c).start ⟨s, events⟩ =
        (.error (.failure .noEngine), ⟨s, events⟩) := by
      simp only [Deployment.prepare, start_bind, Action.start_requireReady, Environment.available,
        attached]
      rfl
    exact .inr ⟨_, s, events, unready, by simp, fun cases => by simp [engineCalls, attached]⟩
  | true =>
    -- the first three calls are made in any case; the creation's receipt decides on the fourth
    cases created : creates s with
    | false =>
      obtain ⟨e, refused⟩ : ∃ e, Deployment.runtimeCode s.next = .error e := by
        cases code : Deployment.runtimeCode s.next with
        | error e => exact ⟨e, rfl⟩
        | ok code =>
          obtain ⟨success, some, -⟩ := Deployment.runtimeCode_eq_ok.1 code
          simp [creates, success, some] at created
      refine .inr ⟨.failure e, _, _, by
        simp only [Deployment.prepare, Deployment.deploy, start_bind, Action.start_requireReady,
          Action.start_note, Action.start_install, Action.start_submit, Action.start_check,
          Environment.available, Environment.setAccount, Environment.execute, attached,
          creationData_eq, Scripted.next, ↓reduceIte] at refused ⊢
        rw [refused]
        rfl, by simp, fun cases => ?_⟩
      simp [engineCalls, preparation, attached, created]
    | true =>
      obtain ⟨success, code⟩ : s.next.success = true ∧ s.next.output ≠ [] := by
        simpa [creates] using created
      have prepares : Deployment.Prepares bindings c s _ :=
        ⟨attached, rfl, rfl, rfl, success, code, by exact rfl⟩
      obtain ⟨later, ran⟩ := (Deployment.prepare_iff events).2 prepares
      exact .inl ⟨_, later, ran, serves_of_prepares prepares⟩

theorem start_perform (c : Config) (w : StepWitness) (env : Scripted) (events : List Event)
    (attached : env.attached = true) :
    let later := ((Step.perform c w).start ⟨env, events⟩).2.env
    later.attached = true ∧ later.calls = env.calls ++ stepCalls c w ∧
      later.script = env.script.drop (stepCalls c w).length := by
  simp only [Step.perform_engine, stepCalls]
  cases w.stepInput c.signatures.step with
  | error e => exact ⟨attached, (List.append_nil _).symm, rfl⟩
  | ok input => exact ⟨attached, rfl, rfl⟩

/-- A case asks for what the protocol says and uses up as much of the script. -/
theorem start_execute (c : Config) (w : StepWitness) (env : Scripted) (events : List Event)
    (attached : env.attached = true) :
    let later := ((Step.execute c w).start ⟨env, events⟩).2.env
    later.attached = true ∧ later.calls = env.calls ++ caseCalls c w env.script ∧
      later.script = env.script.drop (caseCalls c w env.script).length := by
  simp only [Step.execute, start_bind, Action.start_requireReady, Environment.available, attached,
    ↓reduceIte, caseCalls]
  cases needed : w.hasPreimage with
  | false => exact start_perform c w env events attached
  | true =>
    obtain ⟨key, present⟩ := Step.key_of_hasPreimage needed
    simp only [Step.disclose, present, start_bind, Action.start_requireReady, Action.start_note,
      Action.start_ofExcept, Action.start_submit, Action.start_check, Environment.available,
      attached, ↓reduceIte]
    cases encoded : w.oracleInput c.signatures with
    | error e => exact ⟨attached, (List.append_nil _).symm, rfl⟩
    | ok input =>
      have same : Scripted.next { script := env.script } = env.next := rfl
      simp only [Environment.execute, Step.disclosed, same]
      cases success : env.next.success with
      | false => exact ⟨attached, rfl, rfl⟩
      | true =>
        obtain ⟨attached', calls, script⟩ := start_perform c w (Environment.execute env
          (c.transaction (some c.oracleAddress.bytes) input) true).2
          (events ++ [Event.reading key w.offset]) attached
        refine ⟨attached', calls.trans (List.append_assoc ..), script.trans ?_⟩
        rw [if_pos rfl, List.length_cons, Nat.add_comm]
        exact List.drop_drop

theorem Serves.next {bindings : Bindings} {c : Config} {s env : Scripted} {cases : List Fixture}
    (h : Serves bindings c s cases env) (f : Fixture) (events : List Event) :
    Serves bindings c s (cases ++ [f])
      ((Step.execute c f.witness).start ⟨env, events⟩).2.env := by
  obtain ⟨attached, calls, script⟩ := start_execute c f.witness env events h.attached
  refine ⟨h.ready, attached, ?_, ?_⟩
  · rw [calls, h.calls, h.script]
    simp only [engineCalls, h.ready.1, h.ready.2, ↓reduceIte, casesCalls_append,
      List.append_assoc, List.cons_append]
  · rw [script, h.script, casesCalls_append]
    simp only [List.drop_drop, List.length_append, Nat.add_assoc]

/-! ## All engines of a run -/

variable {plan : Plan Scripted}

/-- `Retired plan envs assigned`: each of the engines that are done with was made for one case. In a
shared run they are those that could not be prepared. -/
inductive Retired (plan : Plan Scripted) : List Scripted → List (List Fixture) → Prop
  | none : Retired plan [] []
  | next {envs : List Scripted} {assigned : List (List Fixture)} {env : Scripted}
      (before : Retired plan envs assigned) (f : Fixture)
      (calls : env.calls = (plan.factory envs.length).calls ++
        engineCalls plan.bindings plan.config (plan.factory envs.length) [f])
      (useless : plan.sharing = true →
        ¬ ((plan.factory envs.length).attached = true ∧ creates (plan.factory envs.length) = true)) :
      Retired plan (envs ++ [env]) (assigned ++ [[f]])

/-- `Traced plan p assigned`: the engines of some progress have recorded the protocol for the cases
that are assigned to each, where the last one may be shared and then serves further cases. -/
inductive Traced (plan : Plan Scripted) (p : Progress Scripted) : List (List Fixture) → Prop
  | unshared {assigned : List (List Fixture)} (unshared : p.shared = none)
      (retired : Retired plan p.retired assigned) : Traced plan p assigned
  | shared {assigned : List (List Fixture)} {cases : List Fixture} {env : Scripted}
      (sharing : plan.sharing = true) (shared : p.shared = some env)
      (retired : Retired plan p.retired assigned) (some : cases ≠ [])
      (serves : Serves plan.bindings plan.config (plan.factory p.retired.length) cases env) :
      Traced plan p (assigned ++ [cases])

theorem engines_of_unshared {p : Progress Scripted} (h : p.shared = none) :
    p.engines.length = p.retired.length := by
  simp [Progress.engines, h]

/-- A case goes to the shared engine or to a new one. -/
theorem Traced.stepCase {p : Progress Scripted} {assigned : List (List Fixture)}
    (h : Traced plan p assigned) (f : Fixture) :
    ∃ assigned', Traced plan (plan.stepCase f p).2 assigned' ∧
      assigned'.flatten = assigned.flatten ++ [f] := by
  rcases plan.stepCase_cases f p with
    ⟨e, s, unshared, failed, same⟩ | ⟨env, events, begins, r, s, ran, same⟩
  · -- the preparation failed, so there is no shared engine and the new one is done with
    rw [same]
    obtain ⟨-, retired⟩ | ⟨-, shared, -⟩ := h
    · refine ⟨assigned ++ [[f]], .unshared unshared ?_, by simp⟩
      rw [engines_of_unshared unshared] at failed
      obtain ⟨_, _, passed, -⟩ | ⟨_, _, _, failed', useless, calls⟩ :=
        start_prepare plan.bindings plan.config (plan.factory p.retired.length) p.events
      · simp [passed] at failed
      · rw [failed'] at failed
        cases failed
        exact .next retired f (calls [f]) fun _ => useless
    · simp [unshared] at shared
  · rw [same]
    have after {s' : Scripted} {cases : List Fixture}
        (serves : Serves plan.bindings plan.config s' cases env) :
        Serves plan.bindings plan.config s' (cases ++ [f]) s.env := by
      have next := serves.next f events
      rwa [ran] at next
    obtain ⟨unshared, retired⟩ | ⟨sharing, shared, retired, some, serves⟩ := h
    · -- a new engine, which is kept for the next case only in a shared run
      obtain shared | ⟨-, prepared⟩ := begins
      · simp [unshared] at shared
      · rw [engines_of_unshared unshared] at prepared
        have serves := after (serves_of_prepares prepared)
        refine ⟨assigned ++ [[f]], ?_, by simp⟩
        unfold Plan.putBack
        split
        · rename_i sharing
          exact .shared sharing rfl retired (List.cons_ne_nil _ _) serves
        · rename_i separate
          exact .unshared unshared
            (.next retired f serves.calls fun sharing => absurd sharing separate)
    · -- the shared engine, which serves one case more
      obtain shared' | ⟨unshared, -⟩ := begins
      · obtain rfl := Option.some.inj (shared.symm.trans shared')
        rename_i assigned cases _
        refine ⟨assigned ++ [cases ++ [f]], ?_, by simp⟩
        rw [Plan.putBack, if_pos sharing]
        exact .shared sharing rfl retired (by simp) (after serves)
      · simp [unshared] at shared

theorem Traced.congr {p q : Progress Scripted} {assigned : List (List Fixture)}
    (h : Traced plan p assigned) (retired : q.retired = p.retired) (shared : q.shared = p.shared) :
    Traced plan q assigned := by
  obtain ⟨unshared, before⟩ | ⟨sharing, same, before, some, serves⟩ := h
  · exact .unshared (shared.trans unshared) (retired ▸ before)
  · exact .shared sharing (shared.trans same) (retired ▸ before) some (retired ▸ serves)

theorem Traced.performAll {p : Progress Scripted} {assigned : List (List Fixture)}
    (h : Traced plan p assigned) (fs : List Fixture) :
    ∃ assigned' done, Traced plan ((plan.performAll fs).start p).2 assigned' ∧
      assigned'.flatten = assigned.flatten ++ done ∧ done <+: fs ∧
      (((plan.performAll fs).start p).1 = .ok () → done = fs) := by
  -- a fault in a case ends the run, but its calls have been made: the case counts as done
  induction fs generalizing p assigned with
  | nil => exact ⟨assigned, [], h, (List.append_nil _).symm, List.prefix_rfl, fun _ => rfl⟩
  | cons f fs ih =>
    obtain ⟨next, traced, grown⟩ := h.stepCase f
    have engines := plan.performCase_engines f p
    simp only [Plan.performAll, start_bind]
    rcases ran : (plan.performCase f).start p with ⟨_ | _, q⟩ <;> rw [ran] at engines
    · refine ⟨next, [f], traced.congr engines.1 engines.2, grown, ⟨fs, rfl⟩, by rintro ⟨⟩⟩
    · obtain ⟨last, done, traced, flat, front, whole⟩ := ih (traced.congr engines.1 engines.2)
      refine ⟨last, f :: done, traced, ?_, List.cons_prefix_cons.2 ⟨rfl, front⟩, fun ok => ?_⟩
      · rw [flat, grown, List.append_assoc, List.singleton_append]
      · rw [whole ok]

/-- What the engine that was made after `k` others has recorded in a run with so many engines. -/
structure Records (plan : Plan Scripted) (count k : Nat) (cases : List Fixture) (env : Scripted) :
    Prop where
  calls : env.calls =
    (plan.factory k).calls ++ engineCalls plan.bindings plan.config (plan.factory k) cases
  /-- Nothing is executed to be kept but the disclosure of a preimage to the oracle. -/
  committed : ∀ t, Call.execute t true ∈
      engineCalls plan.bindings plan.config (plan.factory k) cases →
    ∃ f ∈ cases, f.witness.hasPreimage = true ∧
      ∃ input, f.witness.oracleInput plan.config.signatures = .ok input ∧
        t = plan.config.transaction (some plan.config.oracleAddress.bytes) input
  some : cases ≠ []
  /-- Only a shared engine whose preparation went through is used for more than one case, and then
  it is used for all further ones. -/
  alone : ¬ (plan.sharing = true ∧ (plan.factory k).attached = true ∧
    creates (plan.factory k) = true) → cases.length = 1
  last : plan.sharing = true → (plan.factory k).attached = true →
    creates (plan.factory k) = true → k + 1 = count

/-- What stands in a list with one item more stood in the list or is the item. -/
theorem getElem?_concat_eq_some {α : Type} {xs : List α} {x y : α} {k : Nat} :
    (xs ++ [x])[k]? = some y ↔ (k < xs.length ∧ xs[k]? = some y) ∨ (k = xs.length ∧ x = y) := by
  by_cases inside : k < xs.length
  · rw [List.getElem?_append_left inside]
    constructor
    · exact fun here => .inl ⟨inside, here⟩
    · rintro (⟨-, here⟩ | ⟨rfl, -⟩)
      · exact here
      · omega
  · rw [List.getElem?_append_right (by omega)]
    constructor
    · intro here
      obtain ⟨bound, same⟩ := List.getElem?_eq_some_iff.1 here
      rw [List.length_singleton] at bound
      have last : k - xs.length = 0 := by omega
      simp only [last, List.getElem_cons_zero] at same
      exact .inr ⟨by omega, same⟩
    · rintro (⟨bound, -⟩ | ⟨rfl, rfl⟩)
      · omega
      · rw [Nat.sub_self]
        rfl

theorem Retired.length {envs : List Scripted} {assigned : List (List Fixture)}
    (h : Retired plan envs assigned) : assigned.length = envs.length := by
  induction h with
  | none => rfl
  | next before f calls useless ih => rw [List.length_append, List.length_append, ih]; rfl

theorem Retired.records {envs : List Scripted} {assigned : List (List Fixture)}
    (h : Retired plan envs assigned) {k : Nat} {env : Scripted} (here : envs[k]? = some env)
    (count : Nat) : ∃ cases, assigned[k]? = some cases ∧ Records plan count k cases env := by
  induction h with
  | none => simp at here
  | next before f calls useless ih =>
    rename_i envs assigned last
    rcases getElem?_concat_eq_some.1 here with ⟨inside, here⟩ | ⟨rfl, rfl⟩
    · obtain ⟨cases, there, records⟩ := ih here
      exact ⟨cases, by rw [List.getElem?_append_left (before.length ▸ inside), there], records⟩
    · refine ⟨[f], by rw [← before.length, List.getElem?_concat_length], calls,
        fun t => committed_of_mem_engineCalls, List.cons_ne_nil _ _, fun _ => rfl, ?_⟩
      intro sharing attached created
      exact absurd ⟨attached, created⟩ (useless sharing)

theorem Traced.records {p : Progress Scripted} {assigned : List (List Fixture)}
    (h : Traced plan p assigned) :
    assigned.length = p.engines.length ∧ ∀ k env, p.engines[k]? = some env →
      ∃ cases, assigned[k]? = some cases ∧ Records plan p.engines.length k cases env := by
  obtain ⟨unshared, retired⟩ | ⟨sharing, shared, retired, some, serves⟩ := h
  · have engines : p.engines = p.retired := by simp [Progress.engines, unshared]
    rw [engines]
    exact ⟨retired.length, fun k env here => retired.records here _⟩
  · rename_i assigned cases last
    have engines : p.engines = p.retired ++ [last] := by simp [Progress.engines, shared]
    rw [engines]
    refine ⟨by rw [List.length_append, List.length_append, retired.length]; rfl, ?_⟩
    intro k env here
    rcases getElem?_concat_eq_some.1 here with ⟨inside, here⟩ | ⟨rfl, rfl⟩
    · obtain ⟨earlier, there, records⟩ := retired.records here (p.retired ++ [last]).length
      exact ⟨earlier, by rw [List.getElem?_append_left (retired.length ▸ inside), there], records⟩
    · refine ⟨cases, by rw [← retired.length, List.getElem?_concat_length], serves.calls,
        fun t => committed_of_mem_engineCalls, some, fun other => ?_, fun _ _ _ => ?_⟩
      · exact absurd ⟨sharing, serves.ready⟩ other
      · rw [List.length_append]
        rfl

/-- Every engine of a run has recorded the protocol for some cases and nothing else. Together these
are the cases of the corpus in order, all of them unless a fault ended the run. -/
theorem run_calls (plan : Plan Scripted) (disk : Disk) :
    let p := (plan.run.start { disk }).2
    ∃ assigned : List (List Fixture),
      assigned.flatten <+: plan.corpus ∧
      (∀ clean, (plan.run.start { disk }).1 = .ok clean → assigned.flatten = plan.corpus) ∧
      assigned.length = p.engines.length ∧
      ∀ k env, p.engines[k]? = some env →
        ∃ cases, assigned[k]? = some cases ∧ Records plan p.engines.length k cases env := by
  intro p
  suffices traced : ∃ assigned, Traced plan p assigned ∧ assigned.flatten <+: plan.corpus ∧
      ∀ clean, (plan.run.start { disk }).1 = .ok clean → assigned.flatten = plan.corpus by
    obtain ⟨assigned, traced, front, whole⟩ := traced
    exact ⟨assigned, front, whole, traced.records⟩
  obtain ⟨outcomes, made, opened⟩ := plan.opening_changes { disk }
  have none : Traced plan (plan.opening.start { disk }).2 [] := by
    rw [opened]
    exact .unshared rfl .none
  simp only [p, Plan.run, start_bind]
  rcases ran : plan.opening.start { disk } with ⟨_ | _, begun⟩ <;> rw [ran] at none
  · refine ⟨[], none, List.nil_prefix, fun clean ended => ?_⟩
    cases ended
  · obtain ⟨assigned, done, traced, flat, front, whole⟩ := none.performAll plan.corpus
    rw [List.flatten_nil, List.nil_append] at flat
    dsimp only
    rcases performed : (plan.performAll plan.corpus).start begun with ⟨_ | _, last⟩ <;>
      rw [performed] at traced whole
    · refine ⟨assigned, traced, flat ▸ front, fun clean ended => ?_⟩
      cases ended
    · obtain ⟨printed, closed⟩ := Plan.closing_start last
      simp only [closed]
      exact ⟨assigned, traced.congr rfl rfl, flat ▸ front, fun _ _ => flat.trans (whole rfl)⟩

end CallTrace

end StepReplay
