import StepReplay.Attempt
import StepReplay.Environment

set_option autoImplicit false

/-! # Actions on an engine

Preparing an engine and replaying a step are actions: they talk to one engine, note events, and
end with a value or a fault. -/

namespace StepReplay

/-- What an action notes along the way. -/
inductive Event where
  | installing (size : Nat) (address : Bytes)
  | reading (key : Block 32) (offset : Nat)
  | stepping
  | stepped (hash : Hash)
  deriving DecidableEq

/-- The wording of an event. -/
def Event.message : Event → Text
  | installing size address =>
    "Installing " ++ Decimal.ofNat size ++ " bytes of code at " ++ hexText address
  | reading key offset =>
    "Reading preimage key " ++ hexText key.bytes ++ " at offset " ++ Decimal.ofNat offset
  | stepping => "Performing EVM step"
  | stepped hash =>
    "EVM step successful with resulting post-state hash: " ++ hexText hash.bytes

/-- An engine in use, with the events so far, oldest first. -/
structure Session (σ : Type) where
  env : σ
  events : List Event := []

/-- What is done with an engine of type `σ` to obtain an `α`. -/
abbrev Action (σ α : Type) := Attempt (Session σ) α

namespace Action

open Attempt

variable {σ α : Type}

/-- Notes an event. -/
def note (e : Event) : Action σ Unit :=
  modify fun s => { s with events := s.events ++ [e] }

theorem start_note (e : Event) (s : Session σ) :
    start (note e) s = (.ok (), { s with events := s.events ++ [e] }) := rfl

theorem start_note_eq_ok {e : Event} {u : Unit} {s t : Session σ} :
    start (note e) s = (.ok u, t) ↔ t = { s with events := s.events ++ [e] } := by
  rw [start_note, Prod.mk.injEq, eq_comm (b := t)]
  exact and_iff_right rfl

/-- The value of a computation that needs no engine. -/
def ofExcept : Except Fault α → Action σ α
  | .ok a => pure a
  | .error e => throw e

theorem start_ofExcept (x : Except Fault α) (s : Session σ) : start (ofExcept x) s = (x, s) := by
  cases x <;> rfl

theorem start_ofExcept_eq_ok {x : Except Fault α} {a : α} {s t : Session σ} :
    start (ofExcept x) s = (.ok a, t) ↔ x = .ok a ∧ t = s := by
  rw [start_ofExcept, Prod.mk.injEq, eq_comm (b := t)]

/-- The value of a check on the case at hand. -/
def check : Except Failure α → Action σ α
  | .ok a => pure a
  | .error f => throw (.failure f)

theorem start_check (x : Except Failure α) (s : Session σ) :
    start (check x) s = (x.mapError .failure, s) := by
  cases x <;> rfl

theorem start_check_eq_ok {x : Except Failure α} {a : α} {s t : Session σ} :
    start (check x) s = (.ok a, t) ↔ x = .ok a ∧ t = s := by
  rw [start_check, Prod.mk.injEq, eq_comm (b := t)]
  refine and_congr_left fun _ => ?_
  cases x with
  | ok b => constructor <;> (rintro ⟨⟩; rfl)
  | error f => constructor <;> rintro ⟨⟩

/-- A check leaves the engine as it is, also where it fails. -/
theorem start_check_eq_error {x : Except Failure α} {e : Fault} {s t : Session σ}
    (failed : start (check x) s = (.error e, t)) : t = s := by
  rw [start_check] at failed
  exact (congrArg Prod.snd failed).symm

variable [Environment σ]

/-- Goes on only with an engine that is ready. -/
def requireReady : Action σ Unit := do
  if !Environment.available (← get).env then throw (.failure .noEngine)

theorem start_requireReady (s : Session σ) :
    start requireReady s =
      (if Environment.available s.env then .ok () else .error (.failure .noEngine), s) := by
  simp only [requireReady, start_bind, start_get]
  cases Environment.available s.env <;> rfl

theorem start_requireReady_eq_ok {u : Unit} {s t : Session σ} :
    start requireReady s = (.ok u, t) ↔ Environment.available s.env = true ∧ t = s := by
  rw [start_requireReady, Prod.mk.injEq, eq_comm (b := t)]
  cases Environment.available s.env <;> simp

theorem start_requireReady_eq_error {e : Fault} {s t : Session σ} :
    start requireReady s = (.error e, t) ↔
      Environment.available s.env = false ∧ e = .failure .noEngine ∧ t = s := by
  rw [start_requireReady, Prod.mk.injEq, eq_comm (b := t)]
  cases Environment.available s.env <;> simp [eq_comm]

/-- Installs an account. -/
def install (address : Bytes) (account : Account) : Action σ Unit := do
  let s ← get
  let env ← ofExcept (Environment.setAccount s.env address account)
  set { s with env }

theorem start_install (address : Bytes) (account : Account) (s : Session σ) :
    start (install address account) s = match Environment.setAccount s.env address account with
      | .ok env => (.ok (), { s with env })
      | .error e => (.error e, s) := by
  simp only [install, start_bind, start_get, start_ofExcept]
  cases Environment.setAccount s.env address account <;> rfl

theorem start_install_eq_ok {address : Bytes} {account : Account} {u : Unit} {s t : Session σ} :
    start (install address account) s = (.ok u, t) ↔
      ∃ env, Environment.setAccount s.env address account = .ok env ∧ t = { s with env } := by
  rw [start_install]
  cases Environment.setAccount s.env address account <;> simp [eq_comm]

theorem start_install_eq_error {address : Bytes} {account : Account} {e : Fault}
    {s t : Session σ} :
    start (install address account) s = (.error e, t) ↔
      Environment.setAccount s.env address account = .error e ∧ t = s := by
  rw [start_install]
  cases Environment.setAccount s.env address account <;> simp [eq_comm]

/-- Executes a transaction. -/
def submit (transaction : Transaction) (commit : Bool) : Action σ Receipt := do
  let s ← get
  let (result, env) := Environment.execute s.env transaction commit
  set { s with env }
  ofExcept result

theorem start_submit (t : Transaction) (commit : Bool) (s : Session σ) :
    start (submit t commit) s =
      ((Environment.execute s.env t commit).1,
        { s with env := (Environment.execute s.env t commit).2 }) := by
  simp only [submit, start_bind, start_get, start_set, start_ofExcept]

theorem start_submit_eq_ok {transaction : Transaction} {commit : Bool} {receipt : Receipt}
    {s t : Session σ} :
    start (submit transaction commit) s = (.ok receipt, t) ↔
      ∃ env, Environment.execute s.env transaction commit = (.ok receipt, env) ∧
        t = { s with env } := by
  rw [start_submit]
  rcases Environment.execute s.env transaction commit with ⟨result, env⟩
  constructor
  · rintro ⟨⟩
    exact ⟨env, rfl, rfl⟩
  · rintro ⟨_, ⟨⟩, rfl⟩
    rfl

end Action

end StepReplay
