import StepReplay.Environment.Scripted
import StepReplay.Proofs.Progress

set_option autoImplicit false

/-! # What a clean case vouches for

The verdict on a case is sound and complete: a case is clean just when its engine was prepared, its
disclosure succeeded where it needs one, the step came back with the fingerprint of the one state
that it logged, and the native machine, where it was asked, had reached the same fingerprint. This
is proved for the single case and carried over a run by induction on the corpus. -/

namespace StepReplay.Plan

open Attempt

variable {σ : Type} [Environment σ]

/-! ## The engine of a case -/

/-- An engine of the factory whose preparation went through, after any number of steps. -/
inductive Initialised (plan : Plan σ) : σ → Prop
  | prepared {n : Nat} {env : σ}
      (h : Deployment.Prepares plan.bindings plan.config (plan.factory n) env) :
      Initialised plan env
  | stepped {env : σ} (h : Initialised plan env) (w : StepWitness) (events : List Event) :
      Initialised plan ((Step.execute plan.config w).start ⟨env, events⟩).2.env

theorem Begins.initialised {plan : Plan σ} {p : Progress σ} {env : σ} (h : plan.Begins p env)
    (known : ∀ env, p.shared = some env → plan.Initialised env) : plan.Initialised env := by
  rcases h with shared | ⟨-, prepared⟩
  · exact known env shared
  · exact .prepared prepared

/-- What is shared stays initialised, since an engine is only kept after a case began with it. -/
theorem performCase_initialised {plan : Plan σ} {p : Progress σ} (f : Fixture)
    (known : ∀ env, p.shared = some env → plan.Initialised env) :
    ∀ env, ((plan.performCase f).start p).2.shared = some env → plan.Initialised env := by
  intro env shared
  rw [(plan.performCase_engines f p).2] at shared
  rcases plan.stepCase_cases f p with ⟨e, s, -, -, same⟩ | ⟨begun, events, begins, r, s, ran, same⟩
  · rw [same] at shared
    exact known env shared
  · rw [same] at shared
    unfold putBack at shared
    split at shared
    · cases shared
      have stepped := (begins.initialised known).stepped f.witness events
      rwa [ran] at stepped
    · exact known env shared

/-! ## The verdict on a case -/

/-- The step of a case comes to a result just when an engine can be had for it that answers with a
receipt carrying the result. -/
theorem stepCase_eq_ok {plan : Plan σ} {f : Fixture} {p : Progress σ} {result : StepResult} :
    (plan.stepCase f p).1 = .ok result ↔
      ∃ env env' r, plan.Begins p env ∧ Step.Answers plan.config f.witness env r env' ∧
        Step.Carries r result := by
  rcases plan.stepCase_cases f p with
    ⟨e, s, unshared, failed, same⟩ | ⟨begun, events, begins, r, ⟨env₁, later⟩, ran, same⟩
  · rw [same]
    constructor
    · rintro ⟨⟩
    · rintro ⟨env, -, -, shared | ⟨-, prepared⟩, -⟩
      · simp [unshared] at shared
      · obtain ⟨later, passed⟩ := (Deployment.prepare_iff p.events).2 prepared
        simp [failed] at passed
  · rw [same]
    constructor
    · rintro rfl
      obtain ⟨receipt, answers, carries⟩ := (Step.execute_iff events).1 ⟨later, ran⟩
      exact ⟨begun, env₁, receipt, begins, answers, carries⟩
    · rintro ⟨env, env', receipt, begins', answers, carries⟩
      obtain rfl := begins.unique begins'
      obtain ⟨_, passed⟩ := (Step.execute_iff events).2 ⟨receipt, answers, carries⟩
      rw [ran] at passed
      exact congrArg Prod.fst passed

/-- `Attests plan p f hash`: in the case of a fixture after some progress, everything that the
modules have to do was done, and it led to a fingerprint. -/
def Attests (plan : Plan σ) (p : Progress σ) (f : Fixture) (hash : Hash) : Prop :=
  ∃ env env' r, plan.Begins p env ∧ Step.Answers plan.config f.witness env r env' ∧
    Step.Agrees r hash

theorem attests_iff {plan : Plan σ} {p : Progress σ} {f : Fixture} {hash : Hash} :
    plan.Attests p f hash ↔ ∃ post, (plan.stepCase f p).1 = .ok ⟨hash, post⟩ := by
  simp only [Attests, stepCase_eq_ok, Step.agrees_iff]
  constructor
  · rintro ⟨env, env', r, begins, answers, post, carries⟩
    exact ⟨post, env, env', r, begins, answers, carries⟩
  · rintro ⟨post, env, env', r, begins, answers, carries⟩
    exact ⟨env, env', r, begins, answers, post, carries⟩

theorem divergence?_eq_none {f : Fixture} {hash : Hash} :
    f.divergence? hash = none ↔ ∀ native, f.postStateHash = some native → native = hash := by
  unfold Fixture.divergence?
  cases f.postStateHash with
  | none => simp
  | some native => simp

/-- What the outcome of a case says is so. -/
structure Verdict (plan : Plan σ) (p : Progress σ) (f : Fixture) (o : Outcome) : Prop where
  name : o.name = f.name
  /-- The engine that the step begins with has been prepared. -/
  initialised : ∀ env, plan.Begins p env → plan.Initialised env
  /-- A case is clean just when all was done and the native machine, if asked, agrees. -/
  clean : o.error = none ↔
    ∃ hash, plan.Attests p f hash ∧ ∀ native, f.postStateHash = some native → native = hash
  /-- The fingerprint is there also where only the native machine disagrees. -/
  stateHash : ∀ hash, o.stateHash = some hash ↔ plan.Attests p f hash
  /-- There is a fingerprint just when the step returned. -/
  returned : o.stateHash.isSome = true ↔ ∃ env events result s, plan.Begins p env ∧
    (Step.execute plan.config f.witness).start ⟨env, events⟩ = (.ok result, s)
  /-- No engine makes a case clean without the native machine's fingerprint, both as the output of
  the step and as the fingerprint of the state that it logs. -/
  native : ∀ hash, f.postStateHash = some hash → o.error = none →
    ∃ env env' r record, plan.Begins p env ∧ Step.Answers plan.config f.witness env r env' ∧
      r.output = hash.bytes ∧ r.logs = [record] ∧
      StepReplay.stateHash record.data = .ok hash

theorem stateHash_of_outcome {plan : Plan σ} {p : Progress σ} {f : Fixture} {o : Outcome}
    (h : f.outcome (plan.stepCase f p).1 = .ok o) (hash : Hash) :
    o.stateHash = some hash ↔ plan.Attests p f hash := by
  rw [attests_iff]
  rcases stepped : (plan.stepCase f p).1 with (e | ⟨computed, post⟩)
  · rw [stepped] at h
    cases e <;> cases h
    simp
  · rw [stepped] at h
    cases h
    simp

theorem error_of_outcome {plan : Plan σ} {p : Progress σ} {f : Fixture} {o : Outcome}
    (h : f.outcome (plan.stepCase f p).1 = .ok o) :
    o.error = none ↔
      ∃ hash, plan.Attests p f hash ∧ ∀ native, f.postStateHash = some native → native = hash := by
  simp only [attests_iff]
  rcases stepped : (plan.stepCase f p).1 with (e | ⟨computed, post⟩)
  · rw [stepped] at h
    cases e <;> cases h
    simp
  · rw [stepped] at h
    cases h
    simp [divergence?_eq_none]

theorem verdict_of_outcome {plan : Plan σ} {p : Progress σ} {f : Fixture} {o : Outcome}
    (known : ∀ env, p.shared = some env → plan.Initialised env)
    (h : f.outcome (plan.stepCase f p).1 = .ok o) : plan.Verdict p f o where
  name := by
    unfold Fixture.outcome at h
    split at h <;> cases h <;> rfl
  initialised env begins := begins.initialised known
  clean := error_of_outcome h
  stateHash := stateHash_of_outcome h
  returned := by
    simp only [Option.isSome_iff_exists, stateHash_of_outcome h]
    constructor
    · rintro ⟨hash, env, env', r, begins, answers, agrees⟩
      obtain ⟨post, carries⟩ := Step.agrees_iff.1 agrees
      obtain ⟨later, ran⟩ := (Step.execute_iff []).2 ⟨r, answers, carries⟩
      exact ⟨env, [], ⟨hash, post⟩, ⟨env', later⟩, begins, ran⟩
    · rintro ⟨env, events, ⟨hash, post⟩, ⟨env', later⟩, begins, ran⟩
      obtain ⟨r, answers, carries⟩ := (Step.execute_iff events).1 ⟨later, ran⟩
      exact ⟨hash, env, env', r, begins, answers, Step.agrees_iff.2 ⟨post, carries⟩⟩
  native hash asked clean := by
    obtain ⟨reached, ⟨env, env', r, begins, answers, agrees⟩, same⟩ := (error_of_outcome h).1 clean
    obtain rfl := same hash asked
    obtain ⟨record, one, -, hashed⟩ := agrees.logged
    exact ⟨env, env', r, record, begins, answers, agrees.output, one, hashed⟩

/-! ## The verdict on a run -/

/-- `Verdicts plan p fs os`: one outcome for each fixture, in their order, each true of its case,
which begins where the case before it ended. -/
inductive Verdicts (plan : Plan σ) : Progress σ → List Fixture → List Outcome → Prop
  | done {p : Progress σ} : Verdicts plan p [] []
  | case {p : Progress σ} {f : Fixture} {o : Outcome} {fs : List Fixture} {os : List Outcome}
      (this : plan.Verdict p f o)
      (rest : Verdicts plan ((plan.performCase f).start p).2 fs os) :
      Verdicts plan p (f :: fs) (o :: os)

theorem Verdicts.names {plan : Plan σ} {p : Progress σ} {fs : List Fixture} {os : List Outcome}
    (h : plan.Verdicts p fs os) : os.map Outcome.name = fs.map Fixture.name := by
  induction h with
  | done => rfl
  | case this _ ih => rw [List.map_cons, List.map_cons, this.name, ih]

/-- All cases of a run that it survives get their verdict, one case after the other. -/
theorem performAll_verdicts {plan : Plan σ} {fs : List Fixture} {p q : Progress σ} {u : Unit}
    (known : ∀ env, p.shared = some env → plan.Initialised env)
    (h : (plan.performAll fs).start p = (.ok u, q)) :
    ∃ os, q.outcomes = p.outcomes ++ os ∧ plan.Verdicts p fs os := by
  -- the invariant is that a shared engine has been initialised; the cases add outcomes at the end
  induction fs generalizing p with
  | nil =>
    cases h
    exact ⟨[], (List.append_nil _).symm, .done⟩
  | cons f fs ih =>
    obtain ⟨_, between, performed, h⟩ := start_bind_eq_ok.1 h
    obtain ⟨o, judged, noted, -⟩ := performCase_eq_ok performed
    have still := performCase_initialised f known
    have reached : between = ((plan.performCase f).start p).2 := by rw [performed]
    obtain ⟨os, all, rest⟩ := ih (reached ▸ still) h
    refine ⟨o :: os, ?_, .case (verdict_of_outcome known judged) (reached ▸ rest)⟩
    rw [all, noted, List.append_assoc, List.singleton_append]

/-- A run that comes to its end has passed a verdict on every case of its corpus, and its result is
whether all of them are clean. What is asked of the engine shared so far is true at first, when there
is none, and every case keeps it (`performCase_initialised`). -/
theorem run_verdicts {plan : Plan σ} {p q : Progress σ} {clean : Bool}
    (known : ∀ env, p.shared = some env → plan.Initialised env)
    (h : plan.run.start p = (.ok clean, q)) :
    q.outcomes.map Outcome.name = plan.corpus.map Fixture.name ∧
      plan.Verdicts (plan.opening.start p).2 plan.corpus q.outcomes ∧
      (clean = true ↔ ∀ o ∈ q.outcomes, o.error = none) := by
  obtain ⟨disk, last, printed, -, opened, performed, rfl, rfl⟩ := run_eq_ok h
  obtain ⟨os, all, verdicts⟩ := performAll_verdicts (by exact known) performed
  have outcomes : last.outcomes = os := all
  subst outcomes
  refine ⟨verdicts.names, by rwa [opened], ?_⟩
  simp [Outcome.clean]

/-- The receipt of a step to a state of zeros, with its fingerprint. -/
def zeroReceipt : Receipt where
  success := true
  output := (State.hash (Block.zero 226)).bytes
  logs := [{ address := [], topics := [], data := (Block.zero 226).bytes }]

/-- A plan of one case, on an engine that answers with a state and its fingerprint. -/
def agreeingPlan : Plan Scripted where
  corpus := [{ name := "agreeing", witness := { state := Block.zero 226 } }]
  factory _ := { script := [{ success := true, output := [0x00] }, zeroReceipt] }
  bindings := { creation := [0x00], oracle := [0x00] }
  workDirectory := "."

/-- The one case of the plan comes to the state of zeros. -/
theorem agreeingPlan_stepCase {f : Fixture} (only : agreeingPlan.corpus = [f]) :
    (agreeingPlan.stepCase f {}).1 = .ok ⟨State.hash (Block.zero 226), Block.zero 226⟩ := by
  cases only
  obtain ⟨env, prepared, ready, script⟩ : ∃ env : Scripted,
      Deployment.Prepares agreeingPlan.bindings agreeingPlan.config (agreeingPlan.factory 0) env ∧
        env.attached = true ∧ env.script = [zeroReceipt] :=
    ⟨_, ⟨rfl, rfl, rfl, rfl, rfl, List.cons_ne_nil _ _, rfl⟩, rfl, rfl⟩
  have encodable : (StepWitness.stepInput { state := Block.zero 226 }
      agreeingPlan.config.signatures.step).isOk = true := by decide +kernel
  cases encoded : StepWitness.stepInput { state := Block.zero 226 }
      agreeingPlan.config.signatures.step with
  | error e =>
    rw [encoded] at encodable
    cases encodable
  | ok input =>
    have executed (t : Transaction) : Environment.execute env t false =
        (.ok zeroReceipt, (Environment.execute env t false).2) := by
      simp only [Environment.execute, Scripted.next, script]
      rfl
    exact stepCase_eq_ok.2 ⟨env, _, zeroReceipt, .made rfl prepared,
      ⟨ready, .needless (by decide +kernel), encoded, executed _⟩, rfl, rfl, ⟨_, rfl, rfl⟩, rfl⟩

theorem run_verdicts_agreeingPlan : ∃ q, agreeingPlan.run.start {} = (.ok true, q) ∧
    q.outcomes.map Outcome.name = agreeingPlan.corpus.map Fixture.name ∧
      agreeingPlan.Verdicts (agreeingPlan.opening.start {}).2 agreeingPlan.corpus q.outcomes ∧
      (true = true ↔ ∀ o ∈ q.outcomes, o.error = none) := by
  have opened : agreeingPlan.opening.start {} = (.ok (), {}) := by
    have present : ({} : Disk).holds agreeingPlan.workDirectory = true := by decide +kernel
    simp only [opening, makeWorkDirectory, start_bind, start_get, present, start_modify]
    rfl
  obtain ⟨f, only⟩ : ∃ f, agreeingPlan.corpus = [f] := ⟨_, rfl⟩
  have judged : f.outcome (agreeingPlan.stepCase f {}).1 =
      .ok ⟨f.name, some (State.hash (Block.zero 226)), none⟩ := by
    rw [agreeingPlan_stepCase only]
    cases only
    rfl
  obtain ⟨last, outcomes, performed⟩ : ∃ last : Progress Scripted,
      last.outcomes = [⟨f.name, some (State.hash (Block.zero 226)), none⟩] ∧
        (agreeingPlan.performAll agreeingPlan.corpus).start {} = (.ok (), last) := by
    refine ⟨_, ?_, by simp only [only, performAll, start_bind, performCase_of_clean judged rfl]; rfl⟩
    dsimp only
    rw [(agreeingPlan.stepCase_keeps f {}).1]
    rfl
  obtain ⟨printed, ran⟩ := run_of_performed opened performed
  rw [outcomes] at ran
  exact ⟨_, ran, run_verdicts (by rintro env ⟨⟩) ran⟩

end StepReplay.Plan
