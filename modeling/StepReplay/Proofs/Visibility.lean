import StepReplay.Proofs.Disclosure
import StepReplay.Proofs.Progress
import StepReplay.Proofs.Rollback
import StepReplay.Proofs.SimulatedStep
import StepReplay.Proofs.Table

set_option autoImplicit false

/-! # Which preimages a case sees

In a shared run all cases use one engine, and what one discloses stays for those after it. The
preimages that are stored when the step of a case is called are those that this case and the cases
before it could disclose, for each key the one that came last. What became of the steps of those
cases plays no part in it, since a step is a dry run. -/

namespace StepReplay

/-! ## What is known -/

/-- What is stored after the disclosure of a witness. -/
def learn (stored : Table Bytes (Nat × Bytes)) (w : StepWitness) : Table Bytes (Nat × Bytes) :=
  match w.disclosed? with
  | some (key, entry) => stored.put key entry
  | none => stored

/-- What is stored after the disclosures of some cases. -/
def known (fs : List Fixture) : Table Bytes (Nat × Bytes) :=
  fs.foldl (fun stored f => learn stored f.witness) []

theorem known_concat (fs : List Fixture) (f : Fixture) :
    known (fs ++ [f]) = learn (known fs) f.witness := by
  rw [known, List.foldl_append]
  rfl

/-- Filling the table case by case is putting in all that the cases disclose. -/
theorem known_eq_putAll (fs : List Fixture) :
    known fs = Table.putAll (fs.filterMap fun f => f.witness.disclosed?) [] := by
  induction fs using List.reverseRecOn with
  | nil => rfl
  | append_singleton fs f ih =>
    rw [known_concat, ih, List.filterMap_append, learn]
    cases disclosed : f.witness.disclosed? with
    | none => simp [disclosed]
    | some entry =>
      simp [disclosed, Table.putAll_concat]

/-- The data of a witness is of a size that a register holds. -/
def StepWitness.Holdable (w : StepWitness) : Prop :=
  ∀ data, w.preimageData = .ok data → data.length < Bytes.capacity 4

theorem holdable_learn {stored : Table Bytes (Nat × Bytes)} {w : StepWitness}
    (h : Simulated.Holdable stored) (small : w.Holdable) : Simulated.Holdable (learn stored w) := by
  intro key entry found
  unfold learn at found
  split at found
  · rename_i key' entry' disclosed
    by_cases same : key = key'
    · subst same
      rw [Table.find?_put_self] at found
      cases found
      exact small _ (StepWitness.preimageData_of_disclosed? disclosed)
    · rw [Table.find?_put_of_ne same] at found
      exact h key entry found
  · exact h key entry found

theorem holdable_known {fs : List Fixture} (small : ∀ f ∈ fs, f.witness.Holdable) :
    Simulated.Holdable (known fs) := by
  induction fs using List.reverseRecOn with
  | nil => rintro key entry ⟨⟩
  | append_singleton fs f ih =>
    rw [known_concat]
    refine holdable_learn (ih fun g member => small g (List.mem_append_left _ member)) (small f ?_)
    exact List.mem_append_right _ (List.mem_singleton_self f)

/-- `Latest fs key data`: under this key some cases have disclosed this data, and nothing after
it. -/
def Latest (fs : List Fixture) (key data : Bytes) : Prop :=
  ∃ offset before after,
    fs.filterMap (fun f => f.witness.disclosed?) = before ++ (key, offset, data) :: after ∧
      key ∉ after.map Prod.fst

/-- `Undisclosed fs key`: none of the cases has disclosed anything under this key. -/
def Undisclosed (fs : List Fixture) (key : Bytes) : Prop :=
  key ∉ (fs.filterMap fun f => f.witness.disclosed?).map Prod.fst

theorem Latest.find?_known {fs : List Fixture} {key data : Bytes} (h : Latest fs key data) :
    ∃ offset, (known fs).find? key = some (offset, data) := by
  obtain ⟨offset, before, after, parts, last⟩ := h
  refine ⟨offset, ?_⟩
  rw [known_eq_putAll]
  exact Table.find?_putAll.2 (.inl ⟨before, after, parts, last⟩)

theorem Undisclosed.find?_known {fs : List Fixture} {key : Bytes} (h : Undisclosed fs key) :
    (known fs).find? key = none := by
  rw [Option.eq_none_iff_forall_ne_some, known_eq_putAll]
  intro entry found
  obtain ⟨before, after, parts, -⟩ | ⟨-, ⟨⟩⟩ := Table.find?_putAll.1 found
  rw [Undisclosed, parts] at h
  exact h (by simp)

namespace Simulated

/-! ## One case -/

variable {c : Config} {s : Simulated} {w : StepWitness}

theorem Plays.executes_oracle (h : s.Plays c) (input : Bytes) :
    Environment.execute s (c.transaction (some c.oracleAddress.bytes) (some input)) true =
      ({ s with transactions := s.transactions ++
          [(c.transaction (some c.oracleAddress.bytes) (some input), true)] } : Simulated).oracle
        input true := by
  have works := h.sound.fail
  have code := h.oracle
  unfold accountAt at code
  simp only [Environment.execute, execute, works, Config.transaction, call, accountAt, code,
    ↓reduceIte, Bool.false_eq_true]

/-- The disclosure of a witness, once encoded, is stored. -/
theorem Plays.discloses (h : s.Plays c) (signatures : c.signatures = {}) {input : Bytes}
    (encoded : w.oracleInput {} = .ok (some input)) :
    Step.Discloses c w s
      { s with
        preimages := learn s.preimages w
        transactions := s.transactions ++
          [(c.transaction (some c.oracleAddress.bytes) (some input), true)] } := by
  obtain ⟨⟨key, entry⟩, meant, read⟩ := StepWitness.disclosed_oracleInput encoded
  obtain ⟨needed, -⟩ := StepWitness.oracleInput_eq_some.1 encoded
  rw [← signatures] at encoded
  refine .kept needed encoded ?_ (show ({ success := true } : Receipt).success = true from rfl)
  rw [h.executes_oracle, Simulated.oracle, read, learn, meant]
  rfl

theorem Plays.discloses_iff (h : s.Plays c) (signatures : c.signatures = {}) :
    (∃ env, Step.Discloses c w s env) ↔
      (w.hasPreimage = true → ∃ input, w.oracleInput {} = .ok (some input)) := by
  constructor
  · rintro ⟨env, without | ⟨-, encoded, -, -⟩⟩ needed
    · rw [needed] at without
      cases without
    · rw [signatures] at encoded
      obtain ⟨input, rfl⟩ := StepWitness.exists_of_oracleInput needed encoded
      exact ⟨input, encoded⟩
  · intro encodable
    cases needed : w.hasPreimage with
    | false => exact ⟨s, .needless needed⟩
    | true =>
      obtain ⟨input, encoded⟩ := encodable needed
      exact ⟨_, h.discloses signatures encoded⟩

theorem learn_of_unencodable (stored : Table Bytes (Nat × Bytes))
    (h : ∀ input, w.oracleInput {} ≠ .ok (some input)) : learn stored w = stored := by
  rw [learn, StepWitness.disclosed?_eq_none h]

/-- The engine on which the step of a case is called has learned what the case discloses. -/
theorem Plays.learns (h : s.Plays c) (signatures : c.signatures = {}) {env : Simulated}
    (discloses : Step.Discloses c w s env) :
    env.Plays c ∧ env.preimages = learn s.preimages w := by
  cases needed : w.hasPreimage with
  | false =>
    obtain rfl := discloses.unique (.needless needed)
    refine ⟨h, (learn_of_unencodable _ fun input encoded => ?_).symm⟩
    have needed' := (StepWitness.oracleInput_eq_some.1 encoded).1
    rw [needed] at needed'
    cases needed'
  | true =>
    obtain ⟨input, encoded⟩ := (h.discloses_iff signatures).1 ⟨env, discloses⟩ needed
    obtain rfl := discloses.unique (h.discloses signatures encoded)
    exact ⟨h.frame _ _, rfl⟩

theorem Plays.perform_engine (h : s.Plays c) (w : StepWitness) (events : List Event) :
    let env := ((Step.perform c w).start ⟨s, events⟩).2.env
    env.Plays c ∧ env.preimages = s.preimages := by
  rw [Step.perform_engine]
  cases w.stepInput c.signatures.step with
  | error e => exact ⟨h, rfl⟩
  | ok input =>
    dsimp only [Environment.execute]
    rw [execute_dry]
    exact ⟨h.frame _ _, rfl⟩

/-- Whatever becomes of a case, the engine plays the modules afterwards and has learned what the
case discloses. -/
theorem Plays.after (h : s.Plays c) (signatures : c.signatures = {}) (events : List Event) :
    let env := ((Step.execute c w).start ⟨s, events⟩).2.env
    env.Plays c ∧ env.preimages = learn s.preimages w := by
  have ready : Environment.available s = true := h.sound.attached
  by_cases called : ∃ env, Step.Discloses c w s env
  · obtain ⟨env, discloses⟩ := called
    obtain ⟨plays, learned⟩ := h.learns signatures discloses
    obtain ⟨later, ran⟩ := Step.start_execute_of_discloses ready discloses events
    rw [ran, ← learned]
    exact plays.perform_engine w later
  -- a disclosure that cannot be encoded ends the case before anything is called
  · rw [h.discloses_iff signatures, Classical.not_imp, not_exists] at called
    obtain ⟨needed, unencodable⟩ := called
    cases encoded : w.oracleInput c.signatures with
    | ok input =>
      obtain ⟨calldata, rfl⟩ := StepWitness.exists_of_oracleInput needed encoded
      rw [signatures] at encoded
      exact absurd encoded (unencodable calldata)
    | error e =>
      obtain ⟨later, ran⟩ := Step.start_execute_of_unencodable ready needed encoded events
      rw [ran, learn_of_unencodable _ unencodable]
      exact ⟨h, rfl⟩

/-- A case whose step is called ends as that step does with what the case has disclosed. -/
theorem Plays.ends_of_discloses (h : s.Plays c) (signatures : c.signatures = {})
    (holdable : Holdable (learn s.preimages w)) {env : Simulated}
    (discloses : Step.Discloses c w s env) (events : List Event) :
    Ends (learn s.preimages w) w ((Step.execute c w).start ⟨s, events⟩).1 := by
  obtain ⟨plays, learned⟩ := h.learns signatures discloses
  obtain ⟨later, ran⟩ := Step.start_execute_of_discloses h.sound.attached discloses events
  rw [← learned] at holdable ⊢
  rw [ran]
  exact plays.ends holdable signatures w later

end Simulated

/-! ## A run -/

namespace Plan

open Attempt Simulated

/-- A shared run of the simulated modules that are installed as they come and called by the
signatures that they know, over data of a proper size. -/
structure Standard (plan : Plan Simulated) : Prop where
  sharing : plan.sharing = true
  signatures : plan.config.signatures = {}
  apart : plan.config.mipsAddress ≠ plan.config.oracleAddress
  oracle : plan.bindings.oracle = oracleCode
  fresh : ∀ n, (plan.factory n).Sound ∧ (plan.factory n).preimages = []
  small : ∀ f ∈ plan.corpus, f.witness.Holdable

/-- `Knows plan p stored`: the next case begins with an engine that plays the modules and has
stored these preimages. -/
def Knows (plan : Plan Simulated) (p : Progress Simulated)
    (stored : Table Bytes (Nat × Bytes)) : Prop :=
  ∃ engine, plan.Begins p engine ∧ engine.Plays plan.config ∧ engine.preimages = stored

variable {plan : Plan Simulated}

theorem Standard.knows_nothing (standard : plan.Standard) {p : Progress Simulated}
    (unshared : p.shared = none) : plan.Knows p [] := by
  obtain ⟨sound, empty⟩ := standard.fresh p.engines.length
  obtain ⟨engine, prepared, plays, kept⟩ := sound.prepares standard.apart standard.oracle
  exact ⟨engine, .made unshared prepared, plays, kept.trans empty⟩

theorem Knows.performCase (standard : plan.Standard) {p : Progress Simulated}
    {stored : Table Bytes (Nat × Bytes)} (h : plan.Knows p stored) (f : Fixture) :
    plan.Knows ((plan.performCase f).start p).2 (learn stored f.witness) := by
  obtain ⟨engine, begins, plays, rfl⟩ := h
  obtain ⟨events, stepped⟩ := stepCase_of_begins begins f
  obtain ⟨plays', learned⟩ := plays.after standard.signatures events
  refine ⟨_, .kept ?_, plays', learned⟩
  rw [(plan.performCase_engines f p).2, stepped, putBack, if_pos standard.sharing]

theorem Knows.performAll (standard : plan.Standard) {fs : List Fixture} {p q : Progress Simulated}
    {u : Unit} {stored : Table Bytes (Nat × Bytes)} (h : plan.Knows p stored)
    (ran : (plan.performAll fs).start p = (.ok u, q)) :
    plan.Knows q (fs.foldl (fun stored f => learn stored f.witness) stored) := by
  induction fs generalizing p stored with
  | nil =>
    cases ran
    exact h
  | cons f fs ih =>
    obtain ⟨_, between, performed, rest⟩ := start_bind_eq_ok.1 ran
    have next := h.performCase standard f
    rw [performed] at next
    exact ih next rest

/-- `Sees plan p earlier f engine`: what the case of a fixture finds stored in its engine after the
cases of others, and what that does to the state after its step. -/
structure Sees (plan : Plan Simulated) (p : Progress Simulated) (earlier : List Fixture)
    (f : Fixture) (engine : Simulated) : Prop where
  begins : plan.Begins p engine
  before : engine.preimages = known earlier
  /-- The step is called unless there is a preimage whose disclosure cannot be encoded. -/
  called : (∃ env, Step.Discloses plan.config f.witness engine env) ↔
    (f.witness.hasPreimage = true →
      ∃ input, f.witness.oracleInput plan.config.signatures = .ok (some input))
  /-- The engine on which it is called has stored what was disclosed so far, and nothing else. -/
  stored : ∀ env, Step.Discloses plan.config f.witness engine env →
    env.preimages = known (earlier ++ [f])
  /-- A step that is called has a state after it if its counters have room. -/
  comes : (∃ env, Step.Discloses plan.config f.witness engine env) →
    f.witness.proof.length < Bytes.capacity 32 →
    f.witness.state.nextPc + 4 < Bytes.capacity 4 → f.witness.state.step + 1 < Bytes.capacity 8 →
      ∃ result, (plan.stepCase f p).1 = .ok result
  /-- The data disclosed last under the key that the state reads puts its size into register 2. -/
  reads : ∀ result data, (plan.stepCase f p).1 = .ok result →
    Latest (earlier ++ [f]) f.witness.state.preimageKey data →
      result.postState.registers[2]? = some data.length
  /-- Where there is none, the register stays as it is. -/
  keeps : ∀ result, (plan.stepCase f p).1 = .ok result →
    Undisclosed (earlier ++ [f]) f.witness.state.preimageKey →
      result.postState.registers[2]? = f.witness.state.registers[2]?

/-- For every case that a shared run reaches, the preimages that are stored when its step is called
are what the disclosures up to its own have put there one after another, whatever became of the
steps of the cases before it. -/
theorem run_visibility (standard : plan.Standard) {disk : Disk} {earlier later : List Fixture}
    {f : Fixture} (corpus : plan.corpus = earlier ++ f :: later) {opened p : Progress Simulated}
    (begun : plan.opening.start { disk } = (.ok (), opened))
    (reached : (plan.performAll earlier).start opened = (.ok (), p)) :
    ∃ engine, plan.Sees p earlier f engine := by
  obtain ⟨disk', -, rfl⟩ := opening_eq_ok begun
  obtain ⟨engine, begins, plays, stored⟩ :=
    (standard.knows_nothing rfl).performAll standard reached
  obtain ⟨events, stepped⟩ := stepCase_of_begins begins f
  change engine.preimages = known earlier at stored
  have grown : learn engine.preimages f.witness = known (earlier ++ [f]) := by
    rw [stored, known_concat]
  have holdable : Holdable (known (earlier ++ [f])) := by
    refine holdable_known fun g member => standard.small g ?_
    rw [corpus, List.append_cons]
    exact List.mem_append_left _ member
  have ends {env : Simulated} (discloses : Step.Discloses plan.config f.witness engine env) :
      Ends (known (earlier ++ [f])) f.witness (plan.stepCase f p).1 := by
    rw [stepped, ← grown]
    exact plays.ends_of_discloses standard.signatures (grown ▸ holdable) discloses events
  have succeeds {result : StepResult} (came : (plan.stepCase f p).1 = .ok result) :
      Succeeds (known (earlier ++ [f])) f.witness.state result.postState := by
    have ran := came
    rw [stepped] at ran
    obtain ⟨receipt, ⟨-, discloses, -, -⟩, -⟩ := (Step.execute_iff events).1
      ⟨_, Prod.ext ran rfl⟩
    have reached := ends discloses
    rw [came] at reached
    exact reached.succeeds
  exact ⟨engine, {
    begins
    before := stored
    called := by
      rw [standard.signatures]
      exact plays.discloses_iff standard.signatures
    stored := fun env discloses => (plays.learns standard.signatures discloses).2.trans grown
    comes := by
      rintro ⟨env, discloses⟩
      exact (ends discloses).exists_result
    reads := by
      intro result data came latest
      obtain ⟨offset, found⟩ := latest.find?_known
      rw [(succeeds came).registers, registersAfter, found]
      refine List.getElem?_set_self ?_
      rw [State.length_registers]
      decide
    keeps := by
      intro result came undisclosed
      rw [(succeeds came).registers, registersAfter, undisclosed.find?_known] }⟩

/-- A case that discloses three bytes under a local key. -/
def disclosing : Fixture where
  name := "disclosing"
  witness :=
    { state := Block.zero 226
      preimageKey := some ⟨1 :: Bytes.zeros 31, rfl⟩
      preimageValue := some (Bytes.zeros 8 ++ [7, 8, 0]) }

/-- A case whose state reads that key. -/
def reading : Fixture where
  name := "reading"
  witness := { state := ⟨Bytes.zeros 32 ++ 1 :: Bytes.zeros 31 ++ Bytes.zeros 162, rfl⟩ }

/-- A shared run of the two cases. -/
def disclosingPlan : Plan Simulated where
  corpus := [disclosing, reading]
  factory _ := {}
  bindings := Simulated.bindings
  workDirectory := "."
  sharing := true

theorem disclosing_encodable : ∃ input, disclosing.witness.oracleInput {} = .ok (some input) :=
  StepWitness.exists_oracleInput_local (by decide) rfl rfl (by decide)
    (show ([7, 8, 0] : Bytes).length ≤ Calldata.wordSize by decide)

theorem latest_disclosing :
    Latest [disclosing, reading] reading.witness.state.preimageKey [7, 8, 0] := by
  obtain ⟨input, encoded⟩ := disclosing_encodable
  have first : disclosing.witness.disclosed? = some (1 :: Bytes.zeros 31, 0, [7, 8, 0]) := by
    rw [StepWitness.disclosed?, encoded]
    rfl
  have second : reading.witness.disclosed? = none := rfl
  refine ⟨0, [], [], ?_, by decide⟩
  simp only [List.filterMap_cons, first, second]
  rfl

theorem disclosingPlan_standard : disclosingPlan.Standard where
  sharing := rfl
  signatures := rfl
  apart := by decide
  oracle := rfl
  fresh _ := ⟨⟨rfl, rfl, rfl, rfl⟩, rfl⟩
  small := by
    intro f member data content
    rcases List.mem_cons.1 member with rfl | member
    · cases content
      decide
    · obtain rfl := List.mem_singleton.1 member
      cases content

/-- The second case finds what the first has disclosed. -/
theorem run_visibility_disclosingPlan : disclosingPlan.Standard ∧
    disclosingPlan.opening.start {} = (.ok (), {}) ∧
    ∃ p engine, (disclosingPlan.performAll [disclosing]).start {} = (.ok (), p) ∧
      disclosingPlan.Sees p [disclosing] reading engine ∧
      ∃ result, (disclosingPlan.stepCase reading p).1 = .ok result ∧
        result.postState.registers[2]? = some 3 := by
  have opened : disclosingPlan.opening.start {} = (.ok (), {}) := by
    have present : ({} : Disk).holds disclosingPlan.workDirectory = true := by decide +kernel
    simp only [opening, makeWorkDirectory, start_bind, start_get, present, start_modify]
    rfl
  obtain ⟨first, sees⟩ := run_visibility disclosingPlan_standard
    (show disclosingPlan.corpus = [] ++ disclosing :: [reading] from rfl) opened rfl
  obtain ⟨done, came⟩ := sees.comes (sees.called.2 fun _ => disclosing_encodable) (by decide)
    (by decide) (by decide)
  obtain ⟨p, reached⟩ : ∃ p, (disclosingPlan.performAll [disclosing]).start {} = (.ok (), p) := by
    have judged : disclosing.outcome (disclosingPlan.stepCase disclosing {}).1 =
        .ok ⟨disclosing.name, some done.stateHash, none⟩ := by
      rw [came]
      rfl
    exact ⟨_, start_bind_eq_ok.2 ⟨(), _, performCase_of_clean judged rfl, start_pure ..⟩⟩
  obtain ⟨second, sees'⟩ := run_visibility disclosingPlan_standard
    (show disclosingPlan.corpus = [disclosing] ++ reading :: [] from rfl) opened reached
  obtain ⟨result, came'⟩ := sees'.comes (sees'.called.2 fun needed => absurd needed (by decide))
    (by decide) (by decide) (by decide)
  exact ⟨disclosingPlan_standard, opened, p, second, reached, sees', result, came',
    sees'.reads result _ came' latest_disclosing⟩

end Plan

end StepReplay
