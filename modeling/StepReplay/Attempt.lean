import StepReplay.Fault

set_option autoImplicit false

/-! # Attempts

Work on a state that a fault may break off. The state is there after a fault as well, so what an
attempt did before it failed can always be seen. -/

namespace StepReplay

/-- Work on a state `S` that ends with an `α` or a fault. -/
abbrev Attempt (S α : Type) := ExceptT Fault (StateM S) α

namespace Attempt

variable {S α β : Type}

/-- The result of an attempt that is begun in a state, and the state after it. -/
def start (a : Attempt S α) (s : S) : Except Fault α × S :=
  StateT.run (ExceptT.run a) s

theorem start_pure (a : α) (s : S) : start (pure a) s = (.ok a, s) := rfl

/-- The second of two attempts begins where the first one ended, if that was no fault. -/
theorem start_bind (a : Attempt S α) (f : α → Attempt S β) (s : S) :
    start (a >>= f) s = match start a s with
      | (.ok x, t) => start (f x) t
      | (.error e, t) => (.error e, t) := by
  simp only [start, ExceptT.run_bind, StateT.run_bind]
  rcases StateT.run (ExceptT.run a) s with ⟨r, t⟩
  cases r <;> rfl

/-- Two attempts in a row end well just when the first does and the second does from there. -/
theorem start_bind_eq_ok {a : Attempt S α} {f : α → Attempt S β} {s u : S} {y : β} :
    start (a >>= f) s = (.ok y, u) ↔
      ∃ x t, start a s = (.ok x, t) ∧ start (f x) t = (.ok y, u) := by
  rw [start_bind]
  rcases start a s with ⟨_ | x, t⟩
  · simp
  · constructor
    · exact fun h => ⟨x, t, rfl, h⟩
    · rintro ⟨_, _, ⟨⟩, h⟩
      exact h

/-- Two attempts in a row break off where the first does, or where the second does from there. -/
theorem start_bind_eq_error {a : Attempt S α} {f : α → Attempt S β} {s u : S} {e : Fault} :
    start (a >>= f) s = (.error e, u) ↔
      start a s = (.error e, u) ∨
        ∃ x t, start a s = (.ok x, t) ∧ start (f x) t = (.error e, u) := by
  rw [start_bind]
  rcases start a s with ⟨_ | x, t⟩
  · simp
  · constructor
    · exact fun h => .inr ⟨x, t, rfl, h⟩
    · rintro (⟨⟨⟩⟩ | ⟨_, _, ⟨⟩, h⟩)
      exact h

theorem start_get (s : S) : start get s = (.ok s, s) := rfl

theorem start_set (t s : S) : start (set t) s = (.ok ⟨⟩, t) := rfl

theorem start_modify (f : S → S) (s : S) : start (modify f) s = (.ok ⟨⟩, f s) := rfl

end Attempt

end StepReplay
