import StepReplay.Proofs.Progress

set_option autoImplicit false

/-! # Attempts and runs side by side

Two attempts go in lockstep if from related states they end alike, and in related states again.
What goes in lockstep is put together from parts that do.

What a run shows are its outcomes, what it printed and its disk. None of this depends on engines but
through the results of the steps. So two runs over the same cases show the same if the steps of each
case have the same result in both: `Parallel` asks for a relation between the two that every case
keeps and that makes their steps agree. -/

namespace StepReplay

namespace Attempt

variable {S T α β : Type}

/-- `Lockstep before after a a'`: begun in states that are related by `before`, two attempts have
the same result, and the states in which they end are related by `after`. -/
def Lockstep (before after : S → T → Prop) (a : Attempt S α) (a' : Attempt T α) : Prop :=
  ∀ s t, before s t → (a.start s).1 = (a'.start t).1 ∧ after (a.start s).2 (a'.start t).2

theorem Lockstep.pure {before : S → T → Prop} (x : α) :
    Lockstep before before (Pure.pure x) (Pure.pure x) :=
  fun _ _ related => ⟨rfl, related⟩

theorem Lockstep.throw {before : S → T → Prop} (e : Fault) :
    Lockstep before before (MonadExcept.throw e : Attempt S α) (MonadExcept.throw e) :=
  fun _ _ related => ⟨rfl, related⟩

/-- A fault in the first part ends both attempts there, so what relates the states between the parts
has to be enough for the end. -/
theorem Lockstep.bind_of_imp {before between after : S → T → Prop} {a : Attempt S α}
    {a' : Attempt T α} {f : α → Attempt S β} {f' : α → Attempt T β}
    (first : Lockstep before between a a') (second : ∀ x, Lockstep between after (f x) (f' x))
    (enough : ∀ s t, between s t → after s t) :
    Lockstep before after (a >>= f) (a' >>= f') := by
  intro s t related
  obtain ⟨result, next⟩ := first s t related
  rw [start_bind, start_bind]
  rcases left : a.start s with ⟨_ | x, s'⟩ <;> rcases right : a'.start t with ⟨_ | y, t'⟩ <;>
    rw [left, right] at result next <;> cases result
  · exact ⟨rfl, enough s' t' next⟩
  · exact second x s' t' next

theorem Lockstep.bind {before after : S → T → Prop} {a : Attempt S α} {a' : Attempt T α}
    {f : α → Attempt S β} {f' : α → Attempt T β} (first : Lockstep before after a a')
    (second : ∀ x, Lockstep after after (f x) (f' x)) :
    Lockstep before after (a >>= f) (a' >>= f') :=
  first.bind_of_imp second fun _ _ related => related

end Attempt

namespace Action

open Attempt

variable {σ τ α : Type} {R : σ → τ → Prop}

/-- Sessions whose engines are related, whatever was noted in them. -/
def Beside (R : σ → τ → Prop) (x : Session σ) (y : Session τ) : Prop :=
  R x.env y.env

theorem beside_note (e : Event) : Lockstep (Beside R) (Beside R) (note e) (note e) :=
  fun _ _ related => ⟨rfl, related⟩

theorem beside_ofExcept (x : Except Fault α) :
    Lockstep (Beside R) (Beside R) (ofExcept x) (ofExcept x) := by
  intro s t related
  rw [start_ofExcept, start_ofExcept]
  exact ⟨rfl, related⟩

theorem beside_check (x : Except Failure α) :
    Lockstep (Beside R) (Beside R) (check x) (check x) := by
  intro s t related
  rw [start_check, start_check]
  exact ⟨rfl, related⟩

theorem beside_requireReady [Environment σ] [Environment τ]
    (ready : ∀ {s t}, R s t → Environment.available s = Environment.available t) :
    Lockstep (Beside R) (Beside R) (requireReady : Action σ Unit)
      (requireReady : Action τ Unit) := by
  intro s t related
  rw [start_requireReady, start_requireReady, ready related]
  exact ⟨rfl, related⟩

end Action

variable {σ : Type}

/-- `p.Alike q`: two runs have shown the same so far. -/
structure Progress.Alike (p q : Progress σ) : Prop where
  outcomes : p.outcomes = q.outcomes
  printed : p.printed = q.printed
  disk : p.disk = q.disk

namespace Plan

open Attempt

variable {α : Type}

/-! ## Parts that see no engine -/

/-- `Blind a`: what comes of an attempt and what it shows depends only on what was shown before. -/
def Blind (a : Running σ α) : Prop :=
  Lockstep Progress.Alike Progress.Alike a a

theorem blind_print (t : Text) : Blind (print t : Running σ Unit) := by
  unfold print
  split
  · exact .throw _
  · intro p q alike
    exact ⟨rfl, alike.outcomes, congrArg (· ++ t) alike.printed, alike.disk⟩

theorem blind_printLine (words : List Text) : Blind (printLine words : Running σ Unit) := by
  induction words with
  | nil => exact blind_print _
  | cons word rest ih =>
    cases rest with
    | nil => exact (blind_print word).bind fun _ => blind_print _
    | cons next rest => exact (blind_print word).bind fun _ => (blind_print _).bind fun _ => ih

theorem blind_changeDisk (change : Disk → Except FileError Disk) :
    Blind (changeDisk change : Running σ Unit) := by
  intro p q alike
  simp only [changeDisk, start_bind, start_get, alike.disk]
  cases change q.disk with
  | error e => exact ⟨rfl, alike⟩
  | ok disk => exact ⟨rfl, alike.outcomes, alike.printed, rfl⟩

theorem blind_writeReport (plan : Plan σ) (f : Fixture) (o : Outcome) :
    Blind (plan.writeReport f o) := by
  unfold writeReport
  dsimp only
  split
  · exact blind_changeDisk _
  · exact .throw _

theorem blind_reportFailure (plan : Plan σ) (f : Fixture) (o : Outcome) :
    Blind (plan.reportFailure f o) := by
  unfold reportFailure
  cases o.error with
  | none => exact .pure _
  | some e => exact (blind_printLine _).bind fun _ => plan.blind_writeReport f o

theorem blind_makeWorkDirectory (plan : Plan σ) : Blind plan.makeWorkDirectory := by
  intro p q alike
  simp only [makeWorkDirectory, start_bind, start_get, alike.disk]
  by_cases missing : (!q.disk.holds plan.workDirectory) = true
  · rw [if_pos missing, if_pos missing]
    simp only [start_bind, start_set]
    cases (q.disk.makeDirectories Disk.depthLimit plan.workDirectory).2 with
    | none => exact ⟨rfl, alike.outcomes, alike.printed, rfl⟩
    | some e => exact ⟨rfl, alike.outcomes, alike.printed, rfl⟩
  · rw [if_neg missing, if_neg missing]
    exact ⟨rfl, alike⟩

theorem blind_opening (plan : Plan σ) : Blind plan.opening := by
  have reset : Blind (modify fun p => { p with outcomes := [] } : Running σ Unit) := by
    intro p q alike
    exact ⟨rfl, rfl, alike.printed, alike.disk⟩
  exact plan.blind_makeWorkDirectory.bind fun _ => reset

theorem blind_closing : Blind (closing : Running σ Bool) := by
  intro p q alike
  have said : Blind (printLine (summary q.outcomes) >>= fun _ =>
      pure (q.outcomes.all Outcome.clean) : Running σ Bool) :=
    (blind_printLine _).bind fun _ => .pure _
  have agree := said p q alike
  simp only [start_bind] at agree
  simpa only [closing, start_bind, start_get, alike.outcomes] using agree

/-! ## Cases -/

variable [Environment σ]

theorem alike_stepCase {plan plan' : Plan σ} {p q : Progress σ} (alike : p.Alike q) (f : Fixture) :
    (plan.stepCase f p).2.Alike (plan'.stepCase f q).2 := by
  obtain ⟨outcomes, printed, disk⟩ := plan.stepCase_keeps f p
  obtain ⟨outcomes', printed', disk'⟩ := plan'.stepCase_keeps f q
  exact {
    outcomes := outcomes.trans (alike.outcomes.trans outcomes'.symm)
    printed := printed.trans (alike.printed.trans printed'.symm)
    disk := disk.trans (alike.disk.trans disk'.symm) }

/-- `Parallel plan plan' fs E`: the steps of these cases have the same results in two runs that are
related by `E`, and the runs stay related. -/
structure Parallel (plan plan' : Plan σ) (fs : List Fixture)
    (E : Progress σ → Progress σ → Prop) : Prop where
  place : plan.workDirectory = plan'.workDirectory
  agree : ∀ f ∈ fs, ∀ p q, E p q → (plan.stepCase f p).1 = (plan'.stepCase f q).1
  keep : ∀ f ∈ fs, ∀ p q, E p q →
    E ((plan.performCase f).start p).2 ((plan'.performCase f).start q).2

namespace Parallel

variable {plan plan' : Plan σ} {fs : List Fixture} {E : Progress σ → Progress σ → Prop}

/-- Two cases show the same if their steps have the same result. -/
theorem performCase (h : Parallel plan plan' fs E) {f : Fixture} (member : f ∈ fs) :
    Lockstep (fun p q => E p q ∧ p.Alike q) (fun p q => E p q ∧ p.Alike q)
      (plan.performCase f) (plan'.performCase f) := by
  rintro p q ⟨related, alike⟩
  have agree := h.agree f member p q related
  have keep := h.keep f member p q related
  have stepped : (plan.stepCase f p).2.Alike (plan'.stepCase f q).2 := alike_stepCase alike f
  have report (o : Outcome) : plan'.reportFailure f o = plan.reportFailure f o := by
    unfold reportFailure writeReport
    rw [h.place]
  suffices shown : ((plan.performCase f).start p).1 = ((plan'.performCase f).start q).1 ∧
      ((plan.performCase f).start p).2.Alike ((plan'.performCase f).start q).2 from
    ⟨shown.1, keep, shown.2⟩
  simp only [Plan.performCase, start_bind, start_runCase, start_modify, agree, report]
  cases f.outcome (plan'.stepCase f q).1 with
  | error e => exact ⟨rfl, stepped⟩
  | ok o =>
    exact plan.blind_reportFailure f o _ _
      ⟨congrArg (· ++ [o]) stepped.outcomes, stepped.printed, stepped.disk⟩

theorem performAll (h : Parallel plan plan' fs E) :
    Lockstep (fun p q => E p q ∧ p.Alike q) (fun p q => E p q ∧ p.Alike q)
      (plan.performAll fs) (plan'.performAll fs) := by
  induction fs with
  | nil => exact .pure _
  | cons f fs ih =>
    have rest : Parallel plan plan' fs E :=
      ⟨h.place, fun g member => h.agree g (List.mem_cons_of_mem _ member),
        fun g member => h.keep g (List.mem_cons_of_mem _ member)⟩
    exact (h.performCase (List.mem_cons_self ..)).bind fun _ => ih rest

/-- Two runs of one corpus in one place show the same if they are parallel from the first case
on. -/
theorem run (h : Parallel plan plan' plan.corpus E) (corpus : plan'.corpus = plan.corpus)
    {before : Progress σ → Progress σ → Prop}
    (opened : ∀ p q, before p q → E (plan.opening.start p).2 (plan'.opening.start q).2) :
    Lockstep (fun p q => before p q ∧ p.Alike q) Progress.Alike plan.run plan'.run := by
  have same : plan'.opening = plan.opening := by
    unfold Plan.opening makeWorkDirectory
    rw [h.place]
  have opening : Lockstep (fun p q => before p q ∧ p.Alike q) (fun p q => E p q ∧ p.Alike q)
      plan.opening plan'.opening := by
    rintro p q ⟨start, alike⟩
    obtain ⟨result, shown⟩ := plan.blind_opening p q alike
    have related := opened p q start
    rw [same] at related ⊢
    exact ⟨result, related, shown⟩
  have closing : Lockstep (fun p q => E p q ∧ p.Alike q) Progress.Alike
      (closing : Running σ Bool) Plan.closing :=
    fun p q both => blind_closing p q both.2
  have alike (p q : Progress σ) (both : E p q ∧ p.Alike q) : p.Alike q := both.2
  unfold Plan.run
  rw [corpus]
  exact opening.bind_of_imp (fun _ => h.performAll.bind_of_imp (fun _ => closing) alike) alike

end Parallel

end Plan

end StepReplay
