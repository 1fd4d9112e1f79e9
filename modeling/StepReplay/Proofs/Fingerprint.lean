import StepReplay.Proofs.Recoding
import StepReplay.State.Hash

set_option autoImplicit false

/-! # The status in a fingerprint

The first byte of a fingerprint is the status of the machine. It is taken from two bytes of the
encoded state by their offsets, and these are the bytes that the layout gives to the exit code and
to the exited flag. So the status is that of the fields, whatever the bytes of the state, and it
outlasts encoding the fields again although the fingerprint may not. -/

namespace StepReplay

theorem stateHash_bytes (s : State) : stateHash s.bytes = .ok s.hash := by
  rw [stateHash, Block.ofBytes_bytes]
  rfl

/-- Bytes have a fingerprint just when they are as many as a state has. -/
theorem stateHash_eq_error {b : Bytes} {e : DecodeError} :
    stateHash b = .error e ↔ b.length ≠ 226 ∧ e = .wrongSize 226 b.length := by
  unfold stateHash Block.ofBytes
  split
  · rename_i size
    refine iff_of_false ?_ fun refused => refused.1 size
    rintro ⟨⟩
  · rename_i other
    rw [and_iff_right other]
    constructor
    · exact fun refused => (Except.error.inj refused).symm
    · rintro rfl
      rfl

namespace State

/-- The two bytes that the status is read from are the fields of the exit. -/
theorem status_eq (s : State) : s.status = Status.ofExit s.exited s.exitCode := by
  rw [exited_eq, exitCode_eq]
  rfl

/-- Encoding a state again changes neither its flag nor its exit code. -/
theorem status_of_fields {s t : State} (again : ofFields s.fields = .ok t) :
    t.status = s.status := by
  have same := fields_of_ofFields again
  have exited : t.exited = s.exited := congrArg Fields.exited same
  have exitCode : (t.exitCode : Int) = s.exitCode := congrArg Fields.exitCode same
  rw [status_eq, status_eq, exited, exitCode]

/-- The status of fields that have a state. -/
theorem status_of_ofFields {f : Fields} {s : State} (made : ofFields f = .ok s) :
    s.status = Status.ofExit f.exited f.exitCode := by
  rw [status_eq, ← fields_of_ofFields made]
  rfl

/-- The byte of a status by flag and exit code. -/
theorem byte_ofExit (exited : Bool) (exitCode : Int) :
    (Status.ofExit exited exitCode).byte =
      if exited = false then 3 else if exitCode = 0 then 0 else if exitCode = 1 then 1 else 2 := by
  unfold Status.ofExit
  cases exited with
  | false => rfl
  | true =>
    by_cases zero : exitCode = 0
    · simp [zero, Status.byte]
    · by_cases one : exitCode = 1
      · simp [one, Status.byte]
      · simp [zero, one, Status.byte]

/-- A fingerprint is a digest whose first byte is the status by the fields of the state. Every state
has one and nothing else has, and its first byte is that of the same state encoded again, and what
flag and exit code say of the fields that a state was made of. -/
theorem stateHash_commits :
    (∀ b e, stateHash b = .error e ↔ b.length ≠ 226 ∧ e = .wrongSize 226 b.length) ∧
    (∀ s : State, ∃ hash, stateHash s.bytes = .ok hash ∧ hash.bytes.length = 32 ∧
      hash.bytes.drop 1 = (Keccak.hash s.bytes).bytes.drop 1 ∧
      hash.bytes[0]? = some (Status.ofExit s.exited s.exitCode).byte ∧
      ∃ t again, ofFields s.fields = .ok t ∧ stateHash t.bytes = .ok again ∧
        again.bytes[0]? = hash.bytes[0]?) ∧
    ∀ f s, ofFields f = .ok s → ∃ hash, stateHash s.bytes = .ok hash ∧
      hash.bytes[0]? = some (if f.exited = false then 3 else
        if f.exitCode = 0 then 0 else if f.exitCode = 1 then 1 else 2) := by
  have first (s : State) : s.hash.bytes[0]? = some s.status.byte := rfl
  refine ⟨fun b e => stateHash_eq_error, fun s => ?_, fun f s made => ?_⟩
  · obtain ⟨t, again⟩ := exists_of_fits s.fits_fields
    refine ⟨s.hash, stateHash_bytes s, s.hash.length_bytes, rfl, ?_, t, t.hash, again,
      stateHash_bytes t, ?_⟩
    · rw [first, status_eq]
    · rw [first, first, status_of_fields again]
  · refine ⟨s.hash, stateHash_bytes s, ?_⟩
    rw [first, status_of_ofFields made, byte_ofExit]

end State

end StepReplay
