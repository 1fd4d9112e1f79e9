import StepReplay.Environment.Simulated
import StepReplay.Proofs.Calldata
import StepReplay.Proofs.Keccak

set_option autoImplicit false

/-! # What a disclosure stores

The oracle takes the calldata of a disclosure apart again: from the identifier of a local value it
makes the key of the witness, and from a Keccak preimage the hash. The padding of a word and the
size that goes with it together give back short data exactly, with zeros at its end or without. -/

namespace StepReplay

open Calldata

namespace Simulated

theorem selectorOf_eq {signature : Text} {front : Bytes} (h : selector signature = .ok front) :
    selectorOf signature = front := by
  rw [selectorOf, h]

/-- The oracle tells its two functions apart. -/
theorem selectorOf_ne :
    selectorOf ({} : Signatures).loadKeccak ≠ selectorOf ({} : Signatures).loadLocal := by
  simp only [selectorOf, selector, Keccak.hash, Keccak.hashBytes_eq]
  decide +kernel

theorem parse_loadLocal : Signature.parse ({} : Signatures).loadLocal =
    .ok ⟨"loadLocalData", ["uint256", "bytes32", "uint256", "uint256"]⟩ := by
  rfl

theorem parse_loadKeccak : Signature.parse ({} : Signatures).loadKeccak =
    .ok ⟨"loadKeccak256PreimagePart", ["uint256", "bytes"]⟩ := by
  rfl

/-- A local value comes back whole, although its word is filled with zeros. -/
theorem disclosed_local {ident offset : Nat} {data input : Bytes}
    (few : ident < Bytes.capacity 31)
    (h : encodeCall ({} : Signatures).loadLocal
      [.int ident, .bytes data, .int data.length, .int offset] = .ok input) :
    disclosed input = .ok (some (1 :: Bytes.ofNat 31 ident, offset, data)) := by
  obtain ⟨front, back⟩ := readsBack_of_encodeCall h parse_loadLocal
  have key : word input 0 = ident := (back 0 _ _ rfl rfl).eq_number
  have size : word input 2 = data.length := (back 2 _ _ rfl rfl).eq_number
  have place : word input 3 = offset := (back 3 _ _ rfl rfl).eq_number
  -- the word of the data is filled up with zeros, and the next argument says how many are left out
  have content : (input.slice 36 32).take data.length = data := by
    have padded := (back 1 _ _ rfl rfl).eq_padded rfl
    exact (congrArg (List.take data.length) padded).trans List.take_left
  rw [disclosed, selectorOf_eq front]
  simp only [↓reduceIte, key, size, place, few, content]

/-- A short local value can always be encoded. -/
theorem exists_encodeCall_local {ident offset : Nat} {data : Bytes}
    (few : ident < Bytes.capacity 31) (short : data.length ≤ wordSize)
    (below : offset < Bytes.capacity 4) :
    ∃ input, encodeCall ({} : Signatures).loadLocal
      [.int ident, .bytes data, .int data.length, .int offset] = .ok input := by
  obtain ⟨front, hashed⟩ := exists_selector
    (show (asciiBytes? ({} : Signatures).loadLocal).isSome = true by decide)
  have wide {width n : Nat} (fits : n < Bytes.capacity width) (narrow : width ≤ wordSize) :
      n < Bytes.capacity wordSize :=
    Nat.lt_of_lt_of_le fits (Bytes.capacity_le narrow)
  have length : data.length < Bytes.capacity wordSize :=
    Nat.lt_of_le_of_lt short (by decide)
  have parts := (Encodes.int (wide few (by decide))).encodeFrom_cons
    ((Encodes.word short).encodeFrom_cons
      ((Encodes.int length).encodeFrom_cons
        ((Encodes.int (wide below (by decide))).encodeFrom_cons
          (encodeFrom_nil (wordSize * 4)))))
  exact ⟨_, encodeCall_eq_ok.2 ⟨_, front, _, parse_loadLocal, hashed,
    encodeArguments_eq_ok.2 ⟨rfl, _, _, parts, rfl⟩, rfl⟩⟩

theorem disclosed_keccak {offset : Nat} {data input : Bytes}
    (h : encodeCall ({} : Signatures).loadKeccak [.int offset, .bytes data] = .ok input) :
    disclosed input =
      .ok (some (2 :: (Keccak.hash data).bytes.drop 1, offset, data)) := by
  obtain ⟨front, back⟩ := readsBack_of_encodeCall h parse_loadKeccak
  have number : word input 0 = offset := (back 0 _ _ rfl rfl).eq_number
  have content : dynamicArgument input 1 = data := (back 1 _ _ rfl rfl).eq_content rfl
  have here : input.take 4 = selectorOf ({} : Signatures).loadKeccak := (selectorOf_eq front).symm
  have other : input.take 4 ≠ selectorOf ({} : Signatures).loadLocal := by
    rw [here]
    exact selectorOf_ne
  refine (if_neg other).trans ((if_pos here).trans ?_)
  rw [number, content]

end Simulated

namespace StepWitness

/-- The disclosure of a witness can be encoded just when there is a preimage to be disclosed, with
data, and the call for its kind can be encoded. -/
theorem oracleInput_eq_some {w : StepWitness} {signatures : Signatures} {input : Bytes} :
    w.oracleInput signatures = .ok (some input) ↔ w.hasPreimage = true ∧
      ∃ key data, w.preimageKey = some key ∧ w.preimageData = .ok data ∧
        disclosure key data w.offset signatures = .ok input := by
  constructor
  · intro h
    unfold oracleInput at h
    split at h
    · rename_i key needed present
      obtain ⟨data, content, h⟩ := bind_eq_ok.1 h
      obtain ⟨_, encoded, same⟩ := bind_eq_ok.1 h
      cases same
      exact ⟨needed, key, data, present, mapError_eq_ok.1 content, encoded⟩
    · cases h
  · rintro ⟨needed, key, data, present, content, encoded⟩
    unfold oracleInput
    rw [needed, present]
    exact bind_eq_ok.2 ⟨data, mapError_eq_ok.2 content, bind_eq_ok.2 ⟨input, encoded, rfl⟩⟩

/-- A disclosure that is needed and can be encoded has calldata. -/
theorem exists_of_oracleInput {w : StepWitness} {signatures : Signatures} {input : Option Bytes}
    (needed : w.hasPreimage = true) (h : w.oracleInput signatures = .ok input) :
    ∃ calldata, input = some calldata := by
  unfold oracleInput at h
  split at h
  · obtain ⟨data, -, h⟩ := bind_eq_ok.1 h
    obtain ⟨calldata, -, same⟩ := bind_eq_ok.1 h
    cases same
    exact ⟨calldata, rfl⟩
  · rename_i other
    unfold hasPreimage at needed
    split at needed
    · rename_i key present
      exact absurd present (other key (by rw [hasPreimage, present]; exact needed))
    · cases needed

/-- What the disclosure of a witness stores, if it can be encoded: the key with the offset and the
data. The key of a Keccak preimage is made of its hash, whatever key the witness has. -/
def disclosed? (w : StepWitness) : Option (Bytes × Nat × Bytes) :=
  match w.oracleInput {}, w.preimageKey, w.preimageData with
  | .ok (some _), some key, .ok data =>
    match PreimageKind.ofByte? (key.bytes.headD 0) with
    | some .localData => some (key.bytes, w.offset, data)
    | some .keccak => some (2 :: (Keccak.hash data).bytes.drop 1, w.offset, data)
    | none => none
  | _, _, _ => none

theorem disclosed?_eq_none {w : StepWitness}
    (h : ∀ input, w.oracleInput {} ≠ .ok (some input)) : w.disclosed? = none := by
  unfold disclosed?
  split
  · rename_i encoded _ _
    exact absurd encoded (h _)
  · rfl

theorem preimageData_of_disclosed? {w : StepWitness} {key : Bytes} {offset : Nat} {data : Bytes}
    (h : w.disclosed? = some (key, offset, data)) : w.preimageData = .ok data := by
  unfold disclosed? at h
  split at h
  · split at h <;> cases h <;> assumption
  · cases h

theorem ofByte?_eq_localData {b : UInt8} :
    PreimageKind.ofByte? b = some .localData ↔ b = 1 := by
  unfold PreimageKind.ofByte?
  split
  · rename_i one
    exact iff_of_true rfl one
  · rename_i other
    refine iff_of_false ?_ other
    split <;> rintro ⟨⟩

/-- The key of a local value is its type and the form of its identifier, leading zeros included. -/
theorem local_key {key : Block 32}
    (kind : PreimageKind.ofByte? (key.bytes.headD 0) = some .localData) :
    Bytes.toNat (key.bytes.drop 1) < Bytes.capacity 31 ∧
      1 :: Bytes.ofNat 31 (Bytes.toNat (key.bytes.drop 1)) = key.bytes := by
  obtain ⟨bytes, size⟩ := key
  cases bytes with
  | nil => cases size
  | cons type ident =>
    have length : ident.length = 31 := Nat.succ.inj size
    have one : type = 1 := ofByte?_eq_localData.1 kind
    rw [List.drop_one, List.tail_cons, ← length, Bytes.ofNat_toNat, one]
    exact ⟨Bytes.toNat_lt ident, rfl⟩

theorem offset_lt (w : StepWitness) : w.offset < Bytes.capacity 4 := by
  unfold offset
  cases w.preimageOffset with
  | none => decide
  | some n => exact n.toNat_lt

theorem exists_oracleInput_local {w : StepWitness} {key : Block 32} {data : Bytes}
    (needed : w.hasPreimage = true) (present : w.preimageKey = some key)
    (content : w.preimageData = .ok data)
    (kind : PreimageKind.ofByte? (key.bytes.headD 0) = some .localData)
    (short : data.length ≤ wordSize) : ∃ input, w.oracleInput {} = .ok (some input) := by
  obtain ⟨input, encoded⟩ :=
    Simulated.exists_encodeCall_local (local_key kind).1 short w.offset_lt
  refine ⟨input, oracleInput_eq_some.2 ⟨needed, key, data, present, content, ?_⟩⟩
  simp only [disclosure, kind]
  rw [if_neg (Nat.not_lt.2 short)]
  exact mapError_eq_ok.2 encoded

/-- The oracle reads off the calldata what the witness means to disclose. -/
theorem disclosed_oracleInput {w : StepWitness} {input : Bytes}
    (h : w.oracleInput {} = .ok (some input)) :
    ∃ entry, w.disclosed? = some entry ∧ Simulated.disclosed input = .ok (some entry) := by
  obtain ⟨needed, key, data, present, content, encoded⟩ := oracleInput_eq_some.1 h
  rcases kind : PreimageKind.ofByte? (key.bytes.headD 0) with _ | _ | _ <;>
    simp only [disclosure, kind] at encoded <;>
    simp only [disclosed?, h, present, content, kind]
  · cases encoded
  · obtain ⟨few, whole⟩ := local_key kind
    split at encoded
    · cases encoded
    · have stored := Simulated.disclosed_local few (mapError_eq_ok.1 encoded)
      rw [whole] at stored
      exact ⟨_, rfl, stored⟩
  · exact ⟨_, rfl, Simulated.disclosed_keccak (mapError_eq_ok.1 encoded)⟩

end StepWitness

end StepReplay
