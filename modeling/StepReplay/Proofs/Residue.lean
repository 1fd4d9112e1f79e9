import StepReplay.Proofs.Exchange
import StepReplay.Proofs.Rollback

set_option autoImplicit false

/-! # What a step leaves of an engine

A step makes two calls at most, of which only the disclosure of a preimage is meant to be kept. So
what is left of a step is what that call did, if it was made and succeeded, and nothing otherwise,
however the step ends: the dry run that comes after it, the checks of its receipt and a disclosure
that is refused all leave the engine as they found it. -/

namespace StepReplay

namespace Step

variable {σ : Type} [Environment σ]

/-- The engine that a step leaves: the one after the disclosure, if the engine is ready and there is
a preimage whose disclosure can be encoded and succeeds, and otherwise the one before. -/
def residue (c : Config) (w : StepWitness) (env : σ) : σ :=
  match Environment.available env, w.hasPreimage, w.oracleInput c.signatures with
  | true, true, .ok input =>
    match Environment.execute env (c.transaction (some c.oracleAddress.bytes) input) true with
    | (.ok receipt, disclosed) => if receipt.success then disclosed else env
    | (.error _, _) => env
  | _, _, _ => env

theorem residue_of_discloses {c : Config} {w : StepWitness} {env env' : σ}
    (ready : Environment.available env = true) (preimage : Discloses c w env env') :
    residue c w env = env' := by
  obtain without | ⟨needed, encoded, executed, success⟩ := preimage
  · rw [residue, without]
    cases Environment.available env <;> rfl
  · rw [residue, ready, needed, encoded]
    dsimp only
    rw [executed]
    exact if_pos success

/-- A disclosure that is not kept is refused, and nothing is left of it. -/
theorem residue_of_dropped {c : Config} {w : StepWitness} {env env' : σ} {input : Option Bytes}
    {answer : Except Fault Receipt} (ready : Environment.available env = true)
    (needed : w.hasPreimage = true) (encoded : w.oracleInput c.signatures = .ok input)
    (executed : Environment.execute env (c.transaction (some c.oracleAddress.bytes) input) true
      = (answer, env')) (dropped : ¬ Keeps true answer) :
    residue c w env = env ∧
      ∃ e, (answer.bind fun receipt => (disclosed receipt).mapError .failure) = .error e := by
  rw [residue, ready, needed, encoded]
  dsimp only
  rw [executed]
  cases answer with
  | error e => exact ⟨rfl, e, rfl⟩
  | ok receipt =>
    have failed : ¬ receipt.success = true := fun success => dropped ⟨rfl, receipt, rfl, success⟩
    refine ⟨if_neg failed, .failure (.disclosureFailed receipt.reason), ?_⟩
    dsimp only [Except.bind]
    rw [disclosed, if_neg failed]
    rfl

end Step

/-- `Forgets R`: a call that transfers nothing and is not kept leads to a related engine. -/
structure Forgets {σ : Type} [Environment σ] (R : σ → σ → Prop) : Prop where
  refl : ∀ env, R env env
  drops : ∀ {env : σ} {t : Transaction} {target : Bytes} {commit : Bool}, t.target = some target →
    t.value = 0 → ¬ Keeps commit (Environment.execute env t commit).1 →
      R env (Environment.execute env t commit).2

namespace Forgets

variable {σ : Type} [Environment σ] {R : σ → σ → Prop}

theorem perform (h : Forgets R) (c : Config) (w : StepWitness) (env : σ) (events : List Event) :
    R env ((Step.perform c w).start ⟨env, events⟩).2.env := by
  rw [Step.perform_engine]
  cases w.stepInput c.signatures.step with
  | error e => exact h.refl env
  | ok input => exact h.drops rfl rfl fun keeps => absurd keeps.1 (by decide)

/-- However a step ends, it leaves its residue. -/
theorem execute (h : Forgets R) (c : Config) (w : StepWitness) (env : σ) (events : List Event) :
    R (Step.residue c w env) ((Step.execute c w).start ⟨env, events⟩).2.env := by
  cases ready : Environment.available env with
  | false =>
    rw [Step.start_execute_of_unready ready, Step.residue, ready]
    exact h.refl env
  | true =>
    have performs {env' : σ} (preimage : Step.Discloses c w env env') :
        R (Step.residue c w env) ((Step.execute c w).start ⟨env, events⟩).2.env := by
      obtain ⟨later, ran⟩ := Step.start_execute_of_discloses ready preimage events
      rw [Step.residue_of_discloses ready preimage, ran]
      exact h.perform c w env' later
    cases needed : w.hasPreimage with
    | false => exact performs (.needless needed)
    | true =>
      cases encoded : w.oracleInput c.signatures with
      | error e =>
        obtain ⟨later, ran⟩ := Step.start_execute_of_unencodable ready needed encoded events
        rw [ran, Step.residue, ready, needed, encoded]
        exact h.refl env
      | ok input =>
        rcases executed : Environment.execute env
          (c.transaction (some c.oracleAddress.bytes) input) true with ⟨answer, env'⟩
        by_cases kept : Keeps true answer
        · obtain ⟨-, receipt, rfl, success⟩ := kept
          exact performs (.kept needed encoded executed success)
        · obtain ⟨before, e, refused⟩ := Step.residue_of_dropped ready needed encoded executed kept
          obtain ⟨later, ran⟩ :=
            Step.start_execute_of_refused ready needed encoded executed refused events
          have dropped : R env (Environment.execute env
              (c.transaction (some c.oracleAddress.bytes) input) true).2 :=
            h.drops rfl rfl (by rw [executed]; exact kept)
          rw [executed] at dropped
          rw [ran, before]
          exact dropped

end Forgets

end StepReplay
