import StepReplay.Proofs.Exchange
import StepReplay.Run

set_option autoImplicit false

/-! # How a run makes progress

What each part of a run can change: printing changes what was printed, reporting changes the disk,
and only the step of a case touches engines. `stepCase_cases` says once what the step of a case can
do, `performCase_eq_ok` what a case has done that does not end the run, and `performCase_engines`
what becomes of the engines in every case, also where a fault ends the run. -/

namespace StepReplay.Plan

open Attempt

variable {σ : Type}

/-! ## Printing -/

theorem print_changes (t : Text) (p : Progress σ) :
    ∃ printed, ((print t).start p).2 = { p with printed } := by
  unfold print
  split
  · exact ⟨p.printed, rfl⟩
  · exact ⟨p.printed ++ t, rfl⟩

/-- Two attempts in a row change no more than what was printed if neither of them does. -/
theorem printed_bind {α : Type} {a : Running σ Unit} {b : Running σ α} {p : Progress σ}
    (first : ∃ printed, (a.start p).2 = { p with printed })
    (second : ∀ q : Progress σ, ∃ printed, (b.start q).2 = { q with printed }) :
    ∃ printed, ((a >>= fun _ => b).start p).2 = { p with printed } := by
  obtain ⟨printed, h⟩ := first
  rw [start_bind]
  rcases ran : a.start p with ⟨_ | _, q⟩
  · rw [ran] at h
    exact ⟨printed, h⟩
  · rw [ran] at h
    obtain ⟨later, h'⟩ := second q
    exact ⟨later, by rw [h', show q = _ from h]⟩

theorem printLine_changes (words : List Text) (p : Progress σ) :
    ∃ printed, ((printLine words).start p).2 = { p with printed } := by
  induction words generalizing p with
  | nil => exact print_changes _ p
  | cons word rest ih =>
    cases rest with
    | nil => exact printed_bind (print_changes word p) (print_changes _)
    | cons next rest =>
      exact printed_bind (print_changes word p)
        fun q => printed_bind (print_changes _ q) ih

/-- A line is printed if all of its words can be. -/
theorem printLine_of_encodable {words : List Text} (p : Progress σ)
    (h : ∀ word ∈ words, (Utf8.encode? word).isSome = true) :
    ∃ printed, (printLine words).start p = (.ok (), { p with printed }) := by
  have one : ∀ (t : Text) (q : Progress σ), (Utf8.encode? t).isSome = true →
      (print t).start q = (.ok (), { q with printed := q.printed ++ t }) := by
    intro t q encodable
    have : (Utf8.encode? t).isNone = false := by simpa using encodable
    rw [print, this]
    rfl
  have ending : (Utf8.encode? "\n").isSome = true := by decide +kernel
  have between : (Utf8.encode? " ").isSome = true := by decide +kernel
  induction words generalizing p with
  | nil => exact ⟨_, one _ p ending⟩
  | cons word rest ih =>
    have this := h word (List.mem_cons_self ..)
    cases rest with
    | nil =>
      simp only [printLine, start_bind, one word p this]
      exact ⟨_, one _ _ ending⟩
    | cons next rest =>
      obtain ⟨printed, said⟩ := ih { p with printed := p.printed ++ word ++ (" " : Text) }
        fun w member => h w (List.mem_cons_of_mem _ member)
      simp only [printLine, start_bind, one word p this, one _ _ between]
      exact ⟨printed, said⟩

/-! ## Reports -/

/-- `Reports plan f o before after`: the report of a case is written in full, which leads from one
disk to the other. -/
def Reports (plan : Plan σ) (f : Fixture) (o : Outcome) (before after : Disk) : Prop :=
  ∃ content, Utf8.encode? (o.report f).report = some content ∧
    before.writeFile (Path.entryText plan.workDirectory (Outcome.reportName f.name)) content
      = .ok after

/-- `Settles plan f o before after`: a clean case leaves the disk as it is, and any other is
reported. -/
def Settles (plan : Plan σ) (f : Fixture) (o : Outcome) (before after : Disk) : Prop :=
  match o.error with
  | none => after = before
  | some _ => plan.Reports f o before after

theorem writeReport_changes (plan : Plan σ) (f : Fixture) (o : Outcome) (p : Progress σ) :
    ∃ disk, ((plan.writeReport f o).start p).2 = { p with disk } ∧
      (((plan.writeReport f o).start p).1 = .ok () → plan.Reports f o p.disk disk) := by
  simp only [writeReport]
  split
  · rename_i content _ written
    simp only [changeDisk, start_bind, start_get]
    cases changed : p.disk.writeFile
        (Path.entryText plan.workDirectory (Outcome.reportName f.name)) content with
    | ok disk => exact ⟨disk, rfl, fun _ => ⟨content, written, changed⟩⟩
    | error e => exact ⟨p.disk, rfl, fun h => by cases h⟩
  · exact ⟨p.disk, rfl, fun h => by cases h⟩

theorem reportFailure_changes (plan : Plan σ) (f : Fixture) (o : Outcome) (p : Progress σ) :
    ∃ printed disk, ((plan.reportFailure f o).start p).2 = { p with printed, disk } ∧
      (((plan.reportFailure f o).start p).1 = .ok () → plan.Settles f o p.disk disk) := by
  unfold reportFailure Settles
  cases o.error with
  | none => exact ⟨p.printed, p.disk, rfl, fun _ => rfl⟩
  | some e =>
    obtain ⟨printed, said⟩ := printLine_changes (announcement f.name e) p
    simp only [start_bind]
    rcases ran : (printLine (announcement f.name e)).start p with ⟨_ | _, q⟩
    · rw [ran] at said
      exact ⟨printed, p.disk, said, fun h => by cases h⟩
    · rw [ran] at said
      obtain rfl : q = _ := said
      obtain ⟨disk, written, complete⟩ := plan.writeReport_changes f o _
      exact ⟨printed, disk, written, complete⟩

/-! ## The step of a case -/

variable [Environment σ]

/-- `Begins plan p env`: the case after some progress has `env` for its step, which is the engine
that is shared so far or a new one whose preparation went through. -/
inductive Begins (plan : Plan σ) (p : Progress σ) (env : σ) : Prop
  | kept (shared : p.shared = some env)
  | made (unshared : p.shared = none)
      (prepared : Deployment.Prepares plan.bindings plan.config
        (plan.factory p.engines.length) env)

/-- The step of a case either ends with the preparation of its engine, which is done with then, or
begins on a prepared engine and puts it back. -/
theorem stepCase_cases (plan : Plan σ) (f : Fixture) (p : Progress σ) :
    (∃ e s, p.shared = none ∧
      (Deployment.prepare plan.bindings plan.config).start
        ⟨plan.factory p.engines.length, p.events⟩ = (.error e, s) ∧
      plan.stepCase f p =
        (.error e, { p with retired := p.retired ++ [s.env], events := s.events })) ∨
    ∃ env events, plan.Begins p env ∧ ∃ r s,
      (Step.execute plan.config f.witness).start ⟨env, events⟩ = (r, s) ∧
      plan.stepCase f p = (r, plan.putBack { p with events := s.events } s.env) := by
  unfold stepCase
  rcases prepared : plan.preparedEngine p with ⟨_ | env, q⟩ <;> unfold preparedEngine at prepared
  · split at prepared
    · cases prepared
    · rename_i e unshared
      dsimp only at prepared
      split at prepared
      · cases prepared
      · rename_i s failed
        cases prepared
        exact .inl ⟨_, s, unshared, failed, rfl⟩
  · split at prepared
    · rename_i shared
      cases prepared
      exact .inr ⟨env, p.events, .kept shared, _, _, rfl, rfl⟩
    · rename_i unshared
      dsimp only at prepared
      split at prepared
      · rename_i s passed
        cases prepared
        have made := (Deployment.prepare_iff p.events).1 ⟨s.events, passed⟩
        exact .inr ⟨s.env, s.events, .made unshared made, _, _, rfl, rfl⟩
      · cases prepared

/-- There is only one engine that a case can begin with. -/
theorem Begins.unique {plan : Plan σ} {p : Progress σ} {env env' : σ} (h : plan.Begins p env)
    (h' : plan.Begins p env') : env = env' := by
  rcases h with shared | ⟨unshared, prepared⟩ <;> rcases h' with shared' | ⟨unshared', prepared'⟩
  · exact Option.some.inj (shared.symm.trans shared')
  · simp [shared] at unshared'
  · simp [unshared] at shared'
  · exact prepared.unique prepared'

/-- Where a case has an engine to begin with, its step is executed on it. -/
theorem stepCase_of_begins {plan : Plan σ} {p : Progress σ} {env : σ} (begins : plan.Begins p env)
    (f : Fixture) :
    ∃ events, plan.stepCase f p =
      (((Step.execute plan.config f.witness).start ⟨env, events⟩).1,
        plan.putBack
          { p with events := ((Step.execute plan.config f.witness).start ⟨env, events⟩).2.events }
          ((Step.execute plan.config f.witness).start ⟨env, events⟩).2.env) := by
  rcases plan.stepCase_cases f p with
    ⟨e, s, unshared, failed, -⟩ | ⟨begun, events, begins', r, s, ran, same⟩
  · rcases begins with shared | ⟨-, prepared⟩
    · simp [unshared] at shared
    · obtain ⟨later, passed⟩ := (Deployment.prepare_iff p.events).2 prepared
      simp [failed] at passed
  · obtain rfl := begins.unique begins'
    exact ⟨events, by rw [same, ran]⟩

theorem stepCase_keeps (plan : Plan σ) (f : Fixture) (p : Progress σ) :
    let q := (plan.stepCase f p).2
    q.outcomes = p.outcomes ∧ q.printed = p.printed ∧ q.disk = p.disk := by
  rcases plan.stepCase_cases f p with ⟨e, s, -, -, same⟩ | ⟨env, events, -, r, s, -, same⟩
  · rw [same]
    exact ⟨rfl, rfl, rfl⟩
  · rw [same]
    unfold putBack
    split <;> exact ⟨rfl, rfl, rfl⟩

theorem start_runCase (plan : Plan σ) (f : Fixture) (p : Progress σ) :
    (plan.runCase f).start p = (f.outcome (plan.stepCase f p).1, (plan.stepCase f p).2) := by
  simp only [runCase, start_bind, start_get, start_set]
  cases f.outcome (plan.stepCase f p).1 <;> rfl

/-! ## A case -/

/-- All that a case has done that does not end the run. -/
theorem performCase_eq_ok {plan : Plan σ} {f : Fixture} {p q : Progress σ} {u : Unit}
    (h : (plan.performCase f).start p = (.ok u, q)) :
    ∃ o, f.outcome (plan.stepCase f p).1 = .ok o ∧ q.outcomes = p.outcomes ++ [o] ∧
      plan.Settles f o p.disk q.disk := by
  obtain ⟨outcomes, -, disk⟩ := plan.stepCase_keeps f p
  simp only [performCase, start_bind_eq_ok, start_runCase, start_modify, Prod.mk.injEq] at h
  obtain ⟨o, _, ⟨judged, rfl⟩, _, _, ⟨-, rfl⟩, reported⟩ := h
  obtain ⟨printed, disk', changed, settled⟩ := plan.reportFailure_changes f o
    { (plan.stepCase f p).2 with outcomes := (plan.stepCase f p).2.outcomes ++ [o] }
  rw [reported] at changed settled
  obtain rfl : q = _ := changed
  exact ⟨o, judged, by rw [← outcomes], disk ▸ settled rfl⟩

/-- A clean case never ends a run. -/
theorem performCase_of_clean {plan : Plan σ} {f : Fixture} {p : Progress σ} {o : Outcome}
    (judged : f.outcome (plan.stepCase f p).1 = .ok o) (clean : o.error = none) :
    (plan.performCase f).start p = (.ok (),
      { (plan.stepCase f p).2 with outcomes := (plan.stepCase f p).2.outcomes ++ [o] }) := by
  simp only [performCase, reportFailure, start_bind, start_runCase, start_modify, judged, clean]
  rfl

/-- A case that has an outcome adds it, even if its report then cannot be written. -/
theorem performCase_outcomes {plan : Plan σ} {f : Fixture} {p : Progress σ} {o : Outcome}
    (judged : f.outcome (plan.stepCase f p).1 = .ok o) :
    ((plan.performCase f).start p).2.outcomes = p.outcomes ++ [o] := by
  obtain ⟨printed, disk, changed, -⟩ := plan.reportFailure_changes f o
    { (plan.stepCase f p).2 with outcomes := (plan.stepCase f p).2.outcomes ++ [o] }
  simp only [performCase, start_bind, start_runCase, start_modify, judged]
  rw [changed, (plan.stepCase_keeps f p).1]

/-- A fault in the step of a case that is no failure ends the run. -/
theorem performCase_of_error {plan : Plan σ} {f : Fixture} {p : Progress σ} {e : Fault}
    (judged : f.outcome (plan.stepCase f p).1 = .error e) :
    (plan.performCase f).start p = (.error e, (plan.stepCase f p).2) := by
  simp only [performCase, start_bind, start_runCase, judged]

/-- Engines change in the step of a case alone, whether or not a fault ends the run. -/
theorem performCase_engines (plan : Plan σ) (f : Fixture) (p : Progress σ) :
    let q := ((plan.performCase f).start p).2
    q.retired = (plan.stepCase f p).2.retired ∧ q.shared = (plan.stepCase f p).2.shared := by
  simp only [performCase, start_bind, start_runCase, start_modify]
  cases f.outcome (plan.stepCase f p).1 with
  | error e => exact ⟨rfl, rfl⟩
  | ok o =>
    obtain ⟨printed, disk, changed, -⟩ := plan.reportFailure_changes f o
      { (plan.stepCase f p).2 with outcomes := (plan.stepCase f p).2.outcomes ++ [o] }
    dsimp only at changed ⊢
    rw [changed]
    exact ⟨rfl, rfl⟩

/-! ## The run -/

omit [Environment σ] in
theorem makeWorkDirectory_changes (plan : Plan σ) (p : Progress σ) :
    ∃ disk, (plan.makeWorkDirectory.start p).2 = { p with disk } := by
  simp only [makeWorkDirectory, start_bind, start_get]
  split
  · simp only [start_bind, start_set]
    cases (p.disk.makeDirectories Disk.depthLimit plan.workDirectory).2 with
    | none => exact ⟨_, rfl⟩
    | some e => exact ⟨_, rfl⟩
  · exact ⟨p.disk, rfl⟩

omit [Environment σ] in
theorem opening_changes (plan : Plan σ) (p : Progress σ) :
    ∃ outcomes disk, (plan.opening.start p).2 = { p with outcomes, disk } := by
  obtain ⟨disk, changed⟩ := plan.makeWorkDirectory_changes p
  simp only [opening, start_bind]
  rcases ran : plan.makeWorkDirectory.start p with ⟨_ | _, q⟩ <;> rw [ran] at changed <;>
    obtain rfl : q = _ := changed
  · exact ⟨p.outcomes, disk, rfl⟩
  · exact ⟨[], disk, rfl⟩

omit [Environment σ] in
theorem opening_eq_ok {plan : Plan σ} {p q : Progress σ} {u : Unit}
    (h : plan.opening.start p = (.ok u, q)) :
    ∃ disk, plan.makeWorkDirectory.start p = (.ok (), { p with disk }) ∧
      q = { p with outcomes := [], disk } := by
  obtain ⟨disk, changed⟩ := plan.makeWorkDirectory_changes p
  simp only [opening, start_bind_eq_ok, start_modify, Prod.mk.injEq, true_and] at h
  obtain ⟨_, made, ready, rfl⟩ := h
  rw [ready] at changed
  obtain rfl : made = _ := changed
  exact ⟨disk, ready, rfl⟩

theorem summary_encodable (outcomes : List Outcome) :
    ∀ word ∈ summary outcomes, (Utf8.encode? word).isSome = true := by
  intro word member
  simp only [summary, List.mem_cons, List.not_mem_nil, or_false] at member
  rcases member with rfl | rfl | rfl | rfl | rfl
  · decide +kernel
  · exact Utf8.encode?_isSome_of_ascii fun _ => Decimal.ascii_of_mem_ofNat
  · decide +kernel
  · exact Utf8.encode?_isSome_of_ascii fun _ => Decimal.ascii_of_mem_ofNat
  · decide +kernel

omit [Environment σ] in
/-- Summing a run up never fails. -/
theorem closing_start (p : Progress σ) :
    ∃ printed, closing.start p = (.ok (p.outcomes.all Outcome.clean), { p with printed }) := by
  obtain ⟨printed, said⟩ := printLine_of_encodable p (summary_encodable p.outcomes)
  refine ⟨printed, ?_⟩
  simp only [closing, start_bind, start_get, said]
  rfl

/-- A run that comes to its end has opened and performed all its cases. -/
theorem run_eq_ok {plan : Plan σ} {p q : Progress σ} {clean : Bool}
    (h : plan.run.start p = (.ok clean, q)) :
    ∃ disk last printed, plan.makeWorkDirectory.start p = (.ok (), { p with disk }) ∧
      plan.opening.start p = (.ok (), { p with outcomes := [], disk }) ∧
      (plan.performAll plan.corpus).start { p with outcomes := [], disk } = (.ok (), last) ∧
      clean = last.outcomes.all Outcome.clean ∧ q = { last with printed } := by
  simp only [run, start_bind_eq_ok] at h
  obtain ⟨_, _, opened, _, last, performed, closed⟩ := h
  obtain ⟨disk, made, rfl⟩ := opening_eq_ok opened
  obtain ⟨printed, said⟩ := closing_start last
  rw [said] at closed
  cases closed
  exact ⟨disk, last, printed, made, opened, performed, rfl, rfl⟩

theorem performAll_append (plan : Plan σ) (fs gs : List Fixture) :
    plan.performAll (fs ++ gs) = plan.performAll fs >>= fun _ => plan.performAll gs := by
  induction fs with
  | nil => rfl
  | cons f fs ih =>
    rw [List.cons_append, performAll, ih, performAll, bind_assoc]

/-- The outcomes of a run are there once its cases have been performed. -/
theorem run_outcomes {plan : Plan σ} {p opened : Progress σ}
    (begun : plan.opening.start p = (.ok (), opened)) :
    (plan.run.start p).2.outcomes = ((plan.performAll plan.corpus).start opened).2.outcomes := by
  simp only [run, start_bind, begun]
  rcases (plan.performAll plan.corpus).start opened with ⟨_ | _, last⟩
  · rfl
  · obtain ⟨printed, said⟩ := closing_start last
    dsimp only
    rw [said]

/-- A run that has opened and performed all its cases comes to its end. -/
theorem run_of_performed {plan : Plan σ} {p opened last : Progress σ}
    (begun : plan.opening.start p = (.ok (), opened))
    (performed : (plan.performAll plan.corpus).start opened = (.ok (), last)) :
    ∃ printed, plan.run.start p = (.ok (last.outcomes.all Outcome.clean), { last with printed }) := by
  obtain ⟨printed, said⟩ := closing_start last
  refine ⟨printed, ?_⟩
  simp only [run, start_bind, begun, performed, said]

end StepReplay.Plan
