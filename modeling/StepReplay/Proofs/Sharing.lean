import StepReplay.Proofs.Lockstep
import StepReplay.Proofs.Rollback
import StepReplay.Proofs.SimulatedStep

set_option autoImplicit false

/-! # Sharing an engine

Where no case discloses a preimage, it makes no difference whether the cases share an engine or have
one each, nor what cases there are before: a step is a dry run, and what it leaves behind can not be
told from what it found. `Overlooks` says what an engine needs for this. The simulated modules have
it up to their record of transactions, and the virtual machine is not changed by a dry run at all.

What the step of a fixture comes to on a new engine, `stepAlone`, is then what it comes to in every
run, and the outcomes of a run are made of nothing else (`Tells`). -/

namespace StepReplay

/-! ## Events are noted, never read -/

namespace Action

open Attempt

variable {σ α β : Type}

/-- `Deaf a`: the events so far play no part in what comes of an action and of its engine. -/
def Deaf (a : Action σ α) : Prop :=
  Lockstep (fun s t : Session σ => s.env = t.env) (fun s t => s.env = t.env) a a

theorem deaf_note (e : Event) : Deaf (note e : Action σ Unit) := beside_note e

theorem deaf_check (x : Except Failure α) : Deaf (check x : Action σ α) := beside_check x

variable [Environment σ]

theorem deaf_requireReady : Deaf (requireReady : Action σ Unit) :=
  beside_requireReady (congrArg _)

theorem deaf_install (address : Bytes) (account : Account) :
    Deaf (install address account : Action σ Unit) := by
  intro s t same
  rw [start_install, start_install, same]
  cases Environment.setAccount t.env address account with
  | error e => exact ⟨rfl, same⟩
  | ok env => exact ⟨rfl, rfl⟩

theorem deaf_submit (t : Transaction) (commit : Bool) :
    Deaf (submit t commit : Action σ Receipt) := by
  intro s u same
  rw [start_submit, start_submit, same]
  exact ⟨rfl, rfl⟩

theorem deaf_prepare (bindings : Bindings) (c : Config) :
    Deaf (Deployment.prepare bindings c : Action σ Unit) := by
  have deploy (address code : Bytes) : Deaf (Deployment.deploy address code : Action σ Unit) :=
    (deaf_note _).bind fun _ => deaf_install _ _
  refine deaf_requireReady.bind fun _ => (deaf_install _ _).bind fun _ => ?_
  refine (deploy _ _).bind fun _ => (deaf_submit _ _).bind fun _ => ?_
  exact (deaf_check _).bind fun _ => deploy _ _

end Action

/-! ## Engines that a dry run leaves as they were -/

/-- `Overlooks c R`: engines that are related answer a dry run of a call alike, and such a run
leads to a related engine. -/
structure Overlooks {σ : Type} [Environment σ] (c : Config) (R : σ → σ → Prop) : Prop where
  refl : ∀ env, R env env
  available : ∀ {env env'}, R env env' → Environment.available env = Environment.available env'
  result : ∀ {env env'}, R env env' → ∀ target input,
    (Environment.execute env (c.transaction (some target) (some input)) false).1 =
      (Environment.execute env' (c.transaction (some target) (some input)) false).1
  after : ∀ {env env'}, R env env' → ∀ target input,
    R env (Environment.execute env' (c.transaction (some target) (some input)) false).2

/-- The record of transactions is all that a dry run leaves in an engine that plays the modules. -/
theorem Simulated.overlooks (c : Config) :
    Overlooks c fun s s' : Simulated => ∃ past, s' = { s with transactions := past } where
  refl s := ⟨s.transactions, rfl⟩
  available := by
    rintro s _ ⟨past, rfl⟩
    rfl
  result := by
    rintro s _ ⟨past, rfl⟩ target input
    exact (s.execute_past past _ false).symm
  after := by
    rintro s _ ⟨past, rfl⟩ target input
    exact ⟨_, execute_dry _ _⟩

/-- A dry run that transfers nothing leaves the virtual machine exactly as it was. -/
theorem VirtualMachine.overlooks (c : Config) : Overlooks c (Eq (α := VirtualMachine)) where
  refl _ := rfl
  available same := by rw [same]
  result same target input := by rw [same]
  after := by
    rintro v _ rfl target input
    exact (execute_dry rfl rfl v).symm

/-- A step that needs no preimage has the same result on related engines and leaves them related. -/
theorem Overlooks.execute {σ : Type} [Environment σ] {c : Config} {R : σ → σ → Prop}
    (h : Overlooks c R) {env env' : σ} (related : R env env') {w : StepWitness}
    (without : w.hasPreimage = false) (events events' : List Event) :
    ((Step.execute c w).start ⟨env, events⟩).1 = ((Step.execute c w).start ⟨env', events'⟩).1 ∧
      R env ((Step.execute c w).start ⟨env', events'⟩).2.env := by
  have both := h.available related
  cases ready : Environment.available env' with
  | false =>
    rw [ready] at both
    rw [Step.start_execute_of_unready both, Step.start_execute_of_unready ready]
    exact ⟨rfl, related⟩
  | true =>
    rw [ready] at both
    rw [Step.start_execute_of_needless both without, Step.start_execute_of_needless ready without,
      Step.perform_result, Step.perform_result, Step.perform_engine]
    cases w.stepInput c.signatures.step with
    | error e => exact ⟨rfl, related⟩
    | ok input =>
      dsimp only [Except.bind]
      rw [h.result related]
      exact ⟨rfl, h.after related _ _⟩

/-! ## Cases that know nothing of each other -/

namespace Plan

open Attempt

variable {σ : Type} [Environment σ]

/-- What the step of a fixture comes to on a new engine of its own. -/
def stepAlone (plan : Plan σ) (f : Fixture) : Except Fault StepResult :=
  match (Deployment.prepare plan.bindings plan.config).start ⟨plan.factory 0, []⟩ with
  | (.ok (), s) => ((Step.execute plan.config f.witness).start s).1
  | (.error e, _) => .error e

/-- `Uniform R plan`: all engines of a plan begin alike, and a dry run does not show on them. -/
structure Uniform (R : σ → σ → Prop) (plan : Plan σ) : Prop where
  overlooks : Overlooks plan.config R
  constant : ∀ n, plan.factory n = plan.factory 0

/-- `Steady R plan p`: an engine that is shared can not be told from a new one. -/
def Steady (R : σ → σ → Prop) (plan : Plan σ) (p : Progress σ) : Prop :=
  ∀ env, p.shared = some env →
    ∃ base, Deployment.Prepares plan.bindings plan.config (plan.factory 0) base ∧ R base env

theorem stepAlone_of_prepares {plan : Plan σ} {base : σ}
    (prepared : Deployment.Prepares plan.bindings plan.config (plan.factory 0) base)
    (f : Fixture) :
    ∃ events, plan.stepAlone f =
      ((Step.execute plan.config f.witness).start ⟨base, events⟩).1 := by
  obtain ⟨events, ran⟩ := (Deployment.prepare_iff []).2 prepared
  exact ⟨events, by rw [stepAlone, ran]⟩

theorem stepAlone_of_error {plan : Plan σ} {events : List Event} {e : Fault}
    (failed : ((Deployment.prepare plan.bindings plan.config).start ⟨plan.factory 0, events⟩).1 =
      .error e) (f : Fixture) : plan.stepAlone f = .error e := by
  obtain ⟨result, -⟩ := Action.deaf_prepare plan.bindings plan.config ⟨plan.factory 0, events⟩
    ⟨plan.factory 0, []⟩ rfl
  rw [result] at failed
  unfold stepAlone
  rcases ran : (Deployment.prepare plan.bindings plan.config).start ⟨plan.factory 0, []⟩ with
    ⟨_ | _, s⟩ <;> rw [ran] at failed <;> cases failed
  rfl

section Steps

variable {plan : Plan σ} {R : σ → σ → Prop} {p : Progress σ} {f : Fixture}

/-- The step of a case that needs no preimage comes to what it would come to on its own, and the
engine that is shared afterwards can still not be told from a new one. -/
theorem Uniform.stepCase (uniform : plan.Uniform R) (without : f.witness.hasPreimage = false)
    (steady : plan.Steady R p) :
    (plan.stepCase f p).1 = plan.stepAlone f ∧ plan.Steady R (plan.stepCase f p).2 := by
  rcases plan.stepCase_cases f p with
    ⟨e, s, unshared, failed, same⟩ | ⟨env, events, begins, r, s, ran, same⟩
  -- a preparation that fails is begun anew by the next case, and all engines begin alike
  · rw [uniform.constant] at failed
    rw [same]
    exact ⟨(stepAlone_of_error (congrArg Prod.fst failed) f).symm, steady⟩
  -- whether the engine is kept or new, it is related to one that has just been prepared
  · obtain ⟨base, prepared, related⟩ : ∃ base,
        Deployment.Prepares plan.bindings plan.config (plan.factory 0) base ∧ R base env := by
      rcases begins with shared | ⟨-, prepared⟩
      · exact steady env shared
      · rw [uniform.constant] at prepared
        exact ⟨env, prepared, uniform.overlooks.refl env⟩
    obtain ⟨events', alone⟩ := stepAlone_of_prepares prepared f
    obtain ⟨result, after⟩ := uniform.overlooks.execute related without events' events
    rw [ran] at result after
    rw [same, alone, result]
    refine ⟨rfl, ?_⟩
    unfold putBack
    split
    · rintro _ ⟨⟩
      exact ⟨base, prepared, after⟩
    · exact steady

theorem Steady.congr {q : Progress σ} (steady : plan.Steady R p) (same : q.shared = p.shared) :
    plan.Steady R q :=
  fun env shared => steady env (same ▸ shared)

theorem Uniform.performCase (uniform : plan.Uniform R)
    (without : f.witness.hasPreimage = false) (steady : plan.Steady R p) :
    plan.Steady R ((plan.performCase f).start p).2 :=
  (uniform.stepCase without steady).2.congr (plan.performCase_engines f p).2

end Steps

/-! ## What a run of such cases tells -/

/-- `Tells plan fs r os`: the outcomes of cases, each what its step comes to on its own. They are
one for each case where the run went on to its end, and else stop with the case that ended it, which
has an outcome if it was its report that could not be made. -/
inductive Tells (plan : Plan σ) : List Fixture → Except Fault Unit → List Outcome → Prop
  | done : Tells plan [] (.ok ()) []
  | fault {f : Fixture} {fs : List Fixture} {e : Fault}
      (judged : f.outcome (plan.stepAlone f) = .error e) : Tells plan (f :: fs) (.error e) []
  | unreported {f : Fixture} {fs : List Fixture} {o : Outcome} {e : Fault}
      (judged : f.outcome (plan.stepAlone f) = .ok o) : Tells plan (f :: fs) (.error e) [o]
  | case {f : Fixture} {fs : List Fixture} {o : Outcome} {r : Except Fault Unit}
      {os : List Outcome} (judged : f.outcome (plan.stepAlone f) = .ok o)
      (rest : Tells plan fs r os) : Tells plan (f :: fs) r (o :: os)

namespace Tells

variable {plan : Plan σ} {fs : List Fixture} {r : Except Fault Unit} {os : List Outcome}

theorem judged (h : plan.Tells fs r os) {k : Nat} {o : Outcome} (told : os[k]? = some o) :
    ∃ f, fs[k]? = some f ∧ f.outcome (plan.stepAlone f) = .ok o := by
  induction h generalizing k with
  | done => cases told
  | fault => cases told
  | @unreported f _ _ _ judged =>
    cases k with
    | zero =>
      cases told
      exact ⟨f, rfl, judged⟩
    | succ k => cases told
  | @case f _ _ _ _ judged _ ih =>
    cases k with
    | zero =>
      cases told
      exact ⟨f, rfl, judged⟩
    | succ k => exact ih told

theorem length (h : plan.Tells fs r os) (through : r = .ok ()) : os.length = fs.length := by
  induction h with
  | done => rfl
  | fault => cases through
  | unreported => cases through
  | case _ _ ih => exact congrArg (· + 1) (ih through)

/-- A case whose step has an outcome adds it, whatever comes after. -/
theorem head {f : Fixture} {o : Outcome} (h : plan.Tells (f :: fs) r os)
    (judged : f.outcome (plan.stepAlone f) = .ok o) : ∃ later, os = o :: later := by
  cases h with
  | fault failed => simp [judged] at failed
  | unreported judged' =>
    obtain rfl := Except.ok.inj (judged.symm.trans judged')
    exact ⟨[], rfl⟩
  | case judged' =>
    obtain rfl := Except.ok.inj (judged.symm.trans judged')
    exact ⟨_, rfl⟩

theorem single {f : Fixture} {o : Outcome} (h : plan.Tells [f] r os)
    (judged : f.outcome (plan.stepAlone f) = .ok o) : os = [o] := by
  obtain ⟨later, rfl⟩ := h.head judged
  cases h with
  | unreported => rfl
  | case _ rest =>
    cases rest
    rfl

end Tells

/-- Cases that need no preimage add what each comes to on its own, and an engine that is shared
after them can not be told from a new one. -/
theorem Uniform.performAll {plan : Plan σ} {R : σ → σ → Prop} {p : Progress σ}
    (uniform : plan.Uniform R) {fs : List Fixture}
    (needless : ∀ f ∈ fs, f.witness.hasPreimage = false) (steady : plan.Steady R p) :
    plan.Steady R ((plan.performAll fs).start p).2 ∧
      ∃ os, ((plan.performAll fs).start p).2.outcomes = p.outcomes ++ os ∧
        plan.Tells fs ((plan.performAll fs).start p).1 os := by
  induction fs generalizing p with
  | nil => exact ⟨steady, [], (List.append_nil _).symm, .done⟩
  | cons f fs ih =>
    have without := needless f (List.mem_cons_self ..)
    have stepped := (uniform.stepCase without steady).1
    have next := uniform.performCase without steady
    simp only [Plan.performAll, start_bind]
    cases judged : f.outcome (plan.stepAlone f) with
    | error e =>
      have ended := performCase_of_error (stepped.symm ▸ judged)
      rw [ended] at next
      rw [ended]
      refine ⟨next, [], ?_, .fault judged⟩
      rw [(plan.stepCase_keeps f p).1, List.append_nil]
    | ok o =>
      have added := performCase_outcomes (stepped.symm ▸ judged)
      rcases ran : (plan.performCase f).start p with ⟨e | _, q⟩ <;> rw [ran] at next added
      -- the outcome is noted before the report, so it is there even if the report fails
      · exact ⟨next, [o], added, .unreported judged⟩
      · obtain ⟨still, os, grown, tells⟩ :=
          ih (fun g member => needless g (List.mem_cons_of_mem _ member)) next
        refine ⟨still, o :: os, ?_, .case judged tells⟩
        rw [grown, added, List.append_assoc]
        rfl

/-! ## Other cases in another mode -/

/-- The plan for other cases, which share an engine or do not. -/
def withCases (plan : Plan σ) (fs : List Fixture) (sharing : Bool) : Plan σ :=
  { plan with corpus := fs, sharing }

theorem performAll_withCases (plan : Plan σ) (fs gs hs : List Fixture) (sharing : Bool) :
    (plan.withCases fs sharing).performAll hs = (plan.withCases gs sharing).performAll hs := by
  induction hs with
  | nil => rfl
  | cons f hs ih =>
    rw [Plan.performAll, Plan.performAll, ih]
    rfl

/-- Where a run has outcomes, it has opened. -/
theorem exists_opened {plan : Plan σ} {disk : Disk} {k : Nat} {o : Outcome}
    (told : (plan.run.start { disk }).2.outcomes[k]? = some o) :
    ∃ disk', plan.opening.start { disk } = (.ok (), { disk := disk' }) := by
  obtain ⟨disk', changed⟩ := plan.makeWorkDirectory_changes { disk }
  rcases made : plan.makeWorkDirectory.start { disk } with ⟨e | _, p⟩ <;> rw [made] at changed <;>
    obtain rfl : p = _ := changed
  · simp only [run, Plan.opening, start_bind, made] at told
    cases told
  · exact ⟨disk', by rw [Plan.opening, start_bind, made]; rfl⟩

/-- `Independent plan`: the outcome of a case is a matter of its fixture alone. -/
structure Independent (plan : Plan σ) : Prop where
  /-- Whether an engine is shared makes no difference to a run, neither to its result, or the fault
  that ends it, nor to its outcomes and to what it leaves behind. As this is so for each part of the
  corpus from its start on, a fault ends both runs in the same case. -/
  modes : ∀ disk n,
    let shared := (plan.withCases (plan.corpus.take n) true).run.start { disk }
    let apart := (plan.withCases (plan.corpus.take n) false).run.start { disk }
    shared.1 = apart.1 ∧ shared.2.outcomes = apart.2.outcomes ∧
      shared.2.printed = apart.2.printed ∧ shared.2.disk = apart.2.disk
  /-- A case has the outcome that it has on its own. -/
  alone : ∀ disk sharing sharing' (k : Nat) f o, plan.corpus[k]? = some f →
    ((plan.withCases plan.corpus sharing).run.start { disk }).2.outcomes[k]? = some o →
      ((plan.withCases [f] sharing').run.start { disk }).2.outcomes = [o]
  /-- It has the same outcome among any other cases, if those before it do not end the run. -/
  others : ∀ disk disk' sharing sharing' (fs : List Fixture) (k j : Nat) f o clean,
    (∀ g ∈ fs, g.witness.hasPreimage = false) → plan.corpus[k]? = some f → fs[j]? = some f →
    ((plan.withCases plan.corpus sharing).run.start { disk }).2.outcomes[k]? = some o →
    ((plan.withCases (fs.take j) sharing').run.start { disk := disk' }).1 = .ok clean →
      ((plan.withCases fs sharing').run.start { disk := disk' }).2.outcomes[j]? = some o

section Independence

variable {plan : Plan σ} {R : σ → σ → Prop}

/-- Before any case there is no engine that could be told from a new one. -/
theorem steady_of_unshared {p : Progress σ} (unshared : p.shared = none) : plan.Steady R p := by
  intro env shared
  rw [unshared] at shared
  cases shared

theorem Uniform.withCases (uniform : plan.Uniform R) (fs : List Fixture) (sharing : Bool) :
    (plan.withCases fs sharing).Uniform R :=
  ⟨uniform.overlooks, uniform.constant⟩

/-- An outcome of a run is what its case comes to on its own. -/
theorem Uniform.judged_of_told (uniform : plan.Uniform R)
    (needless : ∀ f ∈ plan.corpus, f.witness.hasPreimage = false) {disk : Disk} {k : Nat}
    {f : Fixture} {o : Outcome} (place : plan.corpus[k]? = some f)
    (told : (plan.run.start { disk }).2.outcomes[k]? = some o) :
    f.outcome (plan.stepAlone f) = .ok o := by
  obtain ⟨disk', opened⟩ := exists_opened told
  obtain ⟨-, os, grown, tells⟩ :=
    uniform.performAll needless (p := { disk := disk' }) (steady_of_unshared rfl)
  rw [run_outcomes opened, grown] at told
  obtain ⟨g, place', judged⟩ := tells.judged told
  obtain rfl := Option.some.inj (place.symm.trans place')
  exact judged

/-- A case whose step has an outcome adds it to those of the cases before, if these do not end the
run. -/
theorem Uniform.told_of_judged (uniform : plan.Uniform R)
    (needless : ∀ f ∈ plan.corpus, f.witness.hasPreimage = false) {disk disk' : Disk} {j : Nat}
    {f : Fixture} {o : Outcome} (place : plan.corpus[j]? = some f)
    (judged : f.outcome (plan.stepAlone f) = .ok o)
    (opened : plan.opening.start { disk } = (.ok (), { disk := disk' }))
    {before : Progress σ}
    (through : (plan.performAll (plan.corpus.take j)).start { disk := disk' } = (.ok (), before)) :
    (plan.run.start { disk }).2.outcomes[j]? = some o := by
  -- the run is cut in front of the case, and what comes behind it can only add outcomes
  have inside : j < plan.corpus.length := (List.getElem?_eq_some_iff.1 place).1
  have split : plan.corpus = plan.corpus.take j ++ f :: plan.corpus.drop (j + 1) := by
    obtain ⟨-, rfl⟩ := List.getElem?_eq_some_iff.1 place
    rw [List.getElem_cons_drop, List.take_append_drop]
  obtain ⟨steady, earlier, grown, tells⟩ :=
    uniform.performAll (fun g member => needless g (List.mem_of_mem_take member))
      (p := { disk := disk' }) (steady_of_unshared rfl)
  rw [through] at steady grown tells
  have count : earlier.length = j := by
    rw [tells.length rfl, List.length_take]
    omega
  have rest : ∀ g ∈ f :: plan.corpus.drop (j + 1), g.witness.hasPreimage = false := by
    intro g member
    refine needless g ?_
    rw [split]
    exact List.mem_append_right _ member
  obtain ⟨-, os, grown', tells'⟩ := uniform.performAll rest steady
  obtain ⟨later, rfl⟩ := tells'.head judged
  rw [run_outcomes opened, split, performAll_append, start_bind, through]
  dsimp only at grown grown' ⊢
  rw [grown', grown, List.nil_append, ← count, List.getElem?_append_right le_rfl, Nat.sub_self]
  rfl

/-- Runs in the two modes are parallel. -/
theorem Uniform.parallel (uniform : plan.Uniform R) {fs : List Fixture}
    (needless : ∀ f ∈ fs, f.witness.hasPreimage = false) :
    Parallel (plan.withCases fs true) (plan.withCases fs false) fs
      fun p q => plan.Steady R p ∧ plan.Steady R q where
  place := rfl
  agree := by
    rintro f member p q ⟨left, right⟩
    have shared := ((uniform.withCases fs true).stepCase (needless f member) left).1
    have apart := ((uniform.withCases fs false).stepCase (needless f member) right).1
    exact shared.trans apart.symm
  keep := by
    rintro f member p q ⟨left, right⟩
    exact ⟨(uniform.withCases fs true).performCase (needless f member) left,
      (uniform.withCases fs false).performCase (needless f member) right⟩

/-- The cases of a plan know nothing of each other if its engines overlook dry runs and none of the
cases needs a preimage. -/
theorem Uniform.independent (uniform : plan.Uniform R)
    (needless : ∀ f ∈ plan.corpus, f.witness.hasPreimage = false) : plan.Independent where
  modes := by
    intro disk n
    have without : ∀ f ∈ plan.corpus.take n, f.witness.hasPreimage = false :=
      fun f member => needless f (List.mem_of_mem_take member)
    have steady (sharing : Bool) {p : Progress σ} (unshared : p.shared = none) : plan.Steady R
        ((plan.withCases (plan.corpus.take n) sharing).opening.start p).2 := by
      obtain ⟨outcomes, disk', changed⟩ :=
        (plan.withCases (plan.corpus.take n) sharing).opening_changes p
      rw [changed]
      exact steady_of_unshared unshared
    have opened (p q : Progress σ) (unshared : p.shared = none ∧ q.shared = none) :=
      And.intro (steady true unshared.1) (steady false unshared.2)
    obtain ⟨result, alike⟩ :=
      (uniform.parallel without).run rfl opened { disk } { disk } ⟨⟨rfl, rfl⟩, rfl, rfl, rfl⟩
    exact ⟨result, alike.outcomes, alike.printed, alike.disk⟩
  alone := by
    intro disk sharing sharing' k f o place told
    have judged := (uniform.withCases plan.corpus sharing).judged_of_told needless place told
    obtain ⟨disk', begun⟩ := exists_opened told
    have opened : (plan.withCases [f] sharing').opening.start { disk } =
      (.ok (), { disk := disk' }) := begun
    have without : ∀ g ∈ [f], g.witness.hasPreimage = false := by
      intro g member
      obtain rfl := List.mem_singleton.1 member
      exact needless g (List.mem_of_getElem? place)
    obtain ⟨-, os, grown, tells⟩ := (uniform.withCases [f] sharing').performAll without
      (p := { disk := disk' }) (steady_of_unshared rfl)
    rw [run_outcomes opened]
    exact grown.trans (tells.single judged)
  others := by
    intro disk disk' sharing sharing' fs k j f o clean without place place' told through
    have judged := (uniform.withCases plan.corpus sharing).judged_of_told needless place told
    obtain ⟨disk'', before, printed, -, opened, performed, -, -⟩ :=
      run_eq_ok (p := { disk := disk' }) (Prod.ext through rfl)
    have before' : ((plan.withCases fs sharing').performAll (fs.take j)).start
        { disk := disk'' } = (.ok (), before) := by
      rw [plan.performAll_withCases fs (fs.take j)]
      exact performed
    exact (uniform.withCases fs sharing').told_of_judged without place' judged opened before'

end Independence

/-- Where no case needs a preimage, whether the cases share an engine and what other cases there are
makes no difference to any of them, however the modules are played and whatever code the virtual
machine runs. -/
theorem runs_independent :
    (∀ plan : Plan Simulated, (∀ n, plan.factory n = plan.factory 0) →
      (∀ f ∈ plan.corpus, f.witness.hasPreimage = false) → plan.Independent) ∧
    ∀ plan : Plan VirtualMachine, (∀ n, plan.factory n = plan.factory 0) →
      (∀ f ∈ plan.corpus, f.witness.hasPreimage = false) → plan.Independent := by
  constructor
  · intro plan constant needless
    have uniform : plan.Uniform _ := ⟨Simulated.overlooks plan.config, constant⟩
    exact uniform.independent needless
  · intro plan constant needless
    have uniform : plan.Uniform _ := ⟨VirtualMachine.overlooks plan.config, constant⟩
    exact uniform.independent needless

/-- A case that starts from nothing. -/
def blankCase : Fixture where
  name := "blank"
  witness := { state := Block.zero 226 }

/-- A case whose last register holds a number. -/
def numberCase : Fixture where
  name := "number"
  witness := { state := ⟨Bytes.zeros 225 ++ [1], rfl⟩ }

/-- The two cases on one engine that plays the modules. -/
def playedPair : Plan Simulated where
  corpus := [blankCase, numberCase]
  factory _ := {}
  bindings := Simulated.bindings
  workDirectory := "."
  sharing := true

/-- The two cases on virtual machines of their own. -/
def machinePair : Plan VirtualMachine where
  corpus := [blankCase, numberCase]
  factory _ := {}
  bindings := Simulated.bindings

theorem needless_of_pair {f : Fixture} (member : f ∈ [blankCase, numberCase]) :
    f.witness.hasPreimage = false := by
  rcases List.mem_cons.1 member with rfl | member
  · rfl
  · obtain rfl := List.mem_singleton.1 member
    rfl

theorem clean_of_playedPair {f : Fixture} (member : f ∈ [blankCase, numberCase]) :
    ∃ o, f.outcome (playedPair.stepAlone f) = .ok o ∧ o.error = none := by
  have needless := needless_of_pair member
  obtain ⟨native, encodable, nextPc, step⟩ :
      f.postStateHash = none ∧ f.witness.proof.length < Bytes.capacity 32 ∧
        f.witness.state.nextPc + 4 < Bytes.capacity 4 ∧
        f.witness.state.step + 1 < Bytes.capacity 8 := by
    rcases List.mem_cons.1 member with rfl | member
    · decide
    · obtain rfl := List.mem_singleton.1 member
      decide
  have sound : (playedPair.factory 0).Sound := ⟨rfl, rfl, rfl, rfl⟩
  have apart : playedPair.config.mipsAddress ≠ playedPair.config.oracleAddress := by decide
  obtain ⟨base, prepared, plays, fresh⟩ :=
    sound.prepares apart (show playedPair.bindings.oracle = Simulated.oracleCode from rfl)
  obtain ⟨events, alone⟩ := stepAlone_of_prepares prepared f
  have holdable : Simulated.Holdable base.preimages := by
    rw [fresh]
    rintro key entry ⟨⟩
  obtain ⟨result, came⟩ :=
    (plays.ends holdable rfl f.witness events).exists_result encodable nextPc step
  rw [← Step.start_execute_of_needless plays.sound.attached needless] at came
  refine ⟨{ name := f.name, stateHash := some result.stateHash }, ?_, rfl⟩
  rw [alone, came, Fixture.outcome, Fixture.divergence?, native]

/-- On one engine the second of the two cases comes to what it comes to on its own. -/
theorem runs_independent_pair :
    (∀ f ∈ [blankCase, numberCase], f.witness.hasPreimage = false) ∧
    playedPair.Independent ∧ machinePair.Independent ∧
    ∃ o, o.error = none ∧ (playedPair.run.start {}).2.outcomes[1]? = some o ∧
      ((playedPair.withCases [numberCase] false).run.start {}).2.outcomes = [o] := by
  have played := runs_independent.1 playedPair (fun _ => rfl) fun _ => needless_of_pair
  have machine := runs_independent.2 machinePair (fun _ => rfl) fun _ => needless_of_pair
  have uniform : playedPair.Uniform _ := ⟨Simulated.overlooks _, fun _ => rfl⟩
  have opened : playedPair.opening.start {} = (.ok (), {}) := by
    have present : ({} : Disk).holds playedPair.workDirectory = true := by decide +kernel
    simp only [Plan.opening, makeWorkDirectory, start_bind, start_get, present, start_modify]
    rfl
  obtain ⟨first, judged, clean⟩ := clean_of_playedPair (List.mem_cons_self ..)
  obtain ⟨second, judged', clean'⟩ :=
    clean_of_playedPair (List.mem_cons_of_mem blankCase (List.mem_singleton_self numberCase))
  have begun := (uniform.stepCase (p := {}) (needless_of_pair (List.mem_cons_self ..))
    (steady_of_unshared rfl)).1
  have through := performCase_of_clean (begun.symm ▸ judged) clean
  have told := uniform.told_of_judged (fun _ => needless_of_pair)
    (show playedPair.corpus[1]? = some numberCase from rfl) judged' opened
    (start_bind_eq_ok.2 ⟨(), _, through, start_pure ..⟩)
  refine ⟨fun _ => needless_of_pair, played, machine, second, clean', told, ?_⟩
  have same : playedPair = playedPair.withCases playedPair.corpus true := rfl
  rw [same] at told
  exact played.alone _ true false 1 numberCase second rfl told

end Plan

end StepReplay
