import Mathlib
import StepReplay.Fixture
import StepReplay.Proofs.Except
import StepReplay.Proofs.Json.Encoding

set_option autoImplicit false

/-! # Fixtures read back

A part of a witness that is absent has no field, and one that is empty has a field that says so, so
the JSON form of a witness loses nothing, and neither does that of a fixture. Reading looks at
fields by their keys only. What a style does to the order of fields is therefore of no account, and
a fixture comes back from a file in whichever style the file is written. -/

namespace StepReplay

open Json

/-! ## Texts of the format -/

namespace Decimal

theorem length_ofNat_le {n k : Nat} (h : n < 10 ^ (k + 1)) : (ofNat n).length ≤ k + 1 := by
  induction k generalizing n with
  | zero =>
    rw [ofNat, if_pos (by omega)]
    exact Nat.le_refl 1
  | succ k ih =>
    rw [ofNat]
    split
    · exact Nat.le_add_left ..
    · rw [List.length_append, List.length_singleton]
      have := ih (n := n / 10) (by rw [Nat.pow_succ] at h; omega)
      omega

end Decimal

theorem ascii_of_mem_hexText {b : Bytes} {c : CodePoint} (h : c ∈ hexText b) : c.val < 0x80 := by
  have digit : ∀ d < 16, (Hex.ofDigit d).val < 0x80 := by decide
  rcases List.mem_append.1 h with mark | digits
  · have plain : (Text.ofString "0x").all (·.val < 0x80) = true := by decide
    simpa using List.all_eq_true.1 plain c mark
  · obtain ⟨x, -, here⟩ := List.mem_flatMap.1 digits
    have bound : x.toNat < 256 := x.toNat_lt
    simp only [Hex.ofByte, List.mem_cons, List.not_mem_nil, or_false] at here
    rcases here with rfl | rfl
    · exact digit _ (by omega)
    · exact digit _ (by omega)

/-- Texts of ASCII are accepted. -/
def AcceptsAscii (accepts : Text → Prop) : Prop :=
  ∀ t : Text, t.all (·.val < 0x80) = true → accepts t

theorem Json.Style.acceptsAscii_takes (style : Style) : AcceptsAscii style.Takes :=
  fun _ ascii => style.takes_of_ascii fun c member => by
    simpa using List.all_eq_true.1 ascii c member

theorem AcceptsAscii.hexText {accepts : Text → Prop} (ascii : AcceptsAscii accepts) (b : Bytes) :
    accepts (hexText b) :=
  ascii _ (List.all_eq_true.2 fun _ member => decide_eq_true (ascii_of_mem_hexText member))

/-! ## Witnesses -/

namespace StepWitness

/-- What each field of the JSON form holds. -/
theorem field?_toJson (w : StepWitness) :
    w.toJson.field? "state" = some (.string w.state.hex) ∧
      w.toJson.field? "proof" = some (.string (hexText w.proof)) ∧
      w.toJson.field? "preimageKey" =
        w.preimageKey.map (fun key => .string (hexText key.bytes)) ∧
      w.toJson.field? "preimageValue" = w.preimageValue.map (fun value => .string (hexText value)) ∧
      w.toJson.field? "preimageOffset" = w.preimageOffset.map (fun n => .int n.toNat) := by
  obtain ⟨state, proof, key, value, offset⟩ := w
  cases key <;> cases value <;> cases offset <;> exact ⟨rfl, rfl, rfl, rfl, rfl⟩

/-- Reading looks at fields only. -/
theorem ofJson_congr {j k : Json} (same : ∀ key, j.field? key = k.field? key) :
    ofJson j = ofJson k := by
  simp only [ofJson, present?, same]

theorem offsetOfInt_eq_ok {n : Int} {m : UInt32} : offsetOfInt n = .ok m ↔ (m.toNat : Int) = n := by
  constructor
  · intro made
    unfold offsetOfInt at made
    split at made
    · rename_i range
      have small : n.toNat < UInt32.size := (Int.toNat_lt range.1).2 range.2
      cases made
      rw [UInt32.toNat_ofNat_of_lt' small, Int.toNat_of_nonneg range.1]
    · cases made
  · rintro rfl
    have bound : m.toNat < Bytes.capacity 4 := m.toNat_lt
    rw [offsetOfInt, if_pos ⟨Int.natCast_nonneg _, Int.ofNat_lt.2 bound⟩, Int.toNat_natCast,
      UInt32.ofNat_toNat]

theorem present?_of_field? {α : Type} {g : α → Json} {part : Option α} {j : Json} {key : Text}
    (field : j.field? key = part.map g) (shown : ∀ a, g a ≠ .null) :
    j.present? key = part.map g := by
  unfold present?
  rw [field]
  cases part with
  | none => rfl
  | some a =>
    rw [Option.map_some]
    split
    · rename_i null
      exact absurd (Option.some.inj null) (shown a)
    · rfl

/-- A part that has a field where it is there is read where it is there. -/
theorem readOptional_present {α β : Type} {f : Json → Except DecodeError β} {g : α → Json}
    {r : α → β} {part : Option α} {j : Json} {key : Text} (field : j.field? key = part.map g)
    (shown : ∀ a, g a ≠ .null) (reads : ∀ a, f (g a) = .ok (r a)) :
    readOptional f (j.present? key) = .ok (part.map r) := by
  rw [present?_of_field? field shown]
  cases part with
  | none => rfl
  | some a =>
    rw [Option.map_some, readOptional, reads]
    rfl

/-- A part that is read back from what it is written as is absent where it was absent. -/
theorem readOptional_eq_ok {α β : Type} {f : α → Except DecodeError β} {g : β → α}
    (each : ∀ {a b}, f a = .ok b ↔ g b = a) {part : Option α} {out : Option β} :
    readOptional f part = .ok out ↔ out.map g = part := by
  cases part with
  | none =>
    rw [Option.map_eq_none_iff]
    constructor
    · rintro ⟨⟩
      rfl
    · rintro rfl
      rfl
  | some a =>
    rw [Option.map_eq_some_iff, readOptional, map_eq_ok]
    constructor
    · rintro ⟨b, made, rfl⟩
      exact ⟨b, rfl, each.1 made⟩
    · rintro ⟨b, rfl, made⟩
      exact ⟨b, each.2 made, rfl⟩

/-- A witness is read from its JSON form as it was. -/
theorem ofJson_self (w : StepWitness) : ofJson w.toJson = .ok w := by
  obtain ⟨state, proof, key, value, offset⟩ := w.field?_toJson
  have readState : Block.read 226 (.string w.state.hex) = .ok w.state := Block.read_hexText w.state
  have readProof : HexForm.read {} (.string (hexText w.proof)) = .ok w.proof :=
    HexForm.read_hexText {} w.proof
  have readKey := readOptional_present (f := Block.read 32) key (by simp) Block.read_hexText
  have readValue := readOptional_present (f := HexForm.read {}) value (by simp)
    (HexForm.read_hexText {})
  have readOffset := readOptional_present (f := integerOf) (r := fun n => (n.toNat : Int)) offset
    (by simp) fun _ => rfl
  rw [Option.map_id'] at readKey readValue
  rw [ofJson, state]
  simp only [readOffset, readState, proof, Option.getD_some, readProof, readKey, readValue]
  have inRange := (readOptional_eq_ok offsetOfInt_eq_ok).2
    (rfl : w.preimageOffset.map (fun n => (n.toNat : Int)) = _)
  show (readOptional offsetOfInt _ >>= _) = _
  rw [inRange]
  rfl

/-- The keys that a witness may have. -/
def keys : List Text := ["state", "proof", "preimageKey", "preimageValue", "preimageOffset"]

theorem sublist_optional (key : Text) (value : Option Json) :
    ((value.map (key, ·)).toList.map Prod.fst).Sublist [key] := by
  cases value with
  | none => exact List.nil_sublist _
  | some v => exact .refl _

/-- The JSON form is an object of some of the keys, each once, with hex texts and an integer. -/
theorem toJson_eq_object (w : StepWitness) :
    ∃ fields, w.toJson = .object fields ∧ (fields.map Prod.fst).Sublist keys ∧
      ∀ f ∈ fields, (∃ b, f.2 = .string (hexText b)) ∨ ∃ n : UInt32, f.2 = .int n.toNat := by
  refine ⟨_, rfl, ?_, ?_⟩
  · have key := sublist_optional "preimageKey"
      (w.preimageKey.map fun key => .string (hexText key.bytes))
    have value := sublist_optional "preimageValue"
      (w.preimageValue.map fun value => .string (hexText value))
    have offset := sublist_optional "preimageOffset"
      (w.preimageOffset.map fun n => .int n.toNat)
    rw [List.map_append, List.map_append, List.map_append]
    exact (((List.Sublist.refl [("state" : Text), "proof"]).append key).append value).append offset
  · simp only [List.forall_mem_append, List.forall_mem_cons, Option.mem_toList]
    refine ⟨⟨⟨⟨.inl ⟨_, rfl⟩, .inl ⟨_, rfl⟩, ?_⟩, ?_⟩, ?_⟩, ?_⟩
    · simp
    · cases w.preimageKey <;> simp
    · cases w.preimageValue <;> simp
    · cases w.preimageOffset with
      | none => simp
      | some n =>
        intro field member
        have same : field = (Text.ofString "preimageOffset", Json.int n.toNat) := by
          simpa using Eq.symm member
        exact .inr ⟨n, by rw [same]⟩

/-- The parts are texts and a number, so no style changes anything in them. -/
theorem field?_arranged (style : Style) (w : StepWitness) (key : Text) :
    (w.toJson.arranged style).field? key = w.toJson.field? key := by
  obtain ⟨fields, object, some, scalars⟩ := w.toJson_eq_object
  have same : (fields.map fun f => (f.1, f.2.arranged style)) = fields.map id := by
    refine List.map_congr_left fun f member => Prod.ext rfl ?_
    show f.2.arranged style = f.2
    rcases scalars f member with ⟨b, text⟩ | ⟨n, number⟩
    · rw [text, arranged.eq_def]
    · rw [number, arranged.eq_def]
  rw [object, Json.field?_arranged style (some.nodup (by decide)), field?, ← Table.find?_map, same,
    List.map_id]

theorem built_toJson {accepts : Text → Prop} (ascii : AcceptsAscii accepts) (depth : Nat)
    (w : StepWitness) : Built accepts (depth + 1) w.toJson := by
  obtain ⟨fields, object, some, scalars⟩ := w.toJson_eq_object
  rw [object]
  refine .object (fun f member => ?_) (fun f member => ?_) (some.nodup (by decide))
  · have plain : keys.all (·.all (·.val < 0x80)) = true := by decide
    exact ascii _ (List.all_eq_true.1 plain f.1 (some.subset (List.mem_map_of_mem member)))
  · rcases scalars f member with ⟨b, text⟩ | ⟨n, number⟩
    · rw [text]
      exact .string (ascii.hexText b)
    · have bound : n.toNat < 10 ^ (9 + 1) := n.toNat_lt.trans (by decide)
      rw [number]
      exact .int ((Decimal.length_ofNat_le bound).trans (by decide))

end StepWitness

/-! ## Fixtures -/

namespace Fixture

theorem field?_toJson (f : Fixture) :
    f.toJson.field? "witness" = some f.witness.toJson ∧
      f.toJson.field? "postStateHash" = f.postStateHash.map (fun h => .string (hexText h.bytes)) := by
  obtain ⟨name, witness, hash⟩ := f
  cases hash <;> exact ⟨rfl, rfl⟩

/-- A fixture is read from any object with its fields, whatever is read with its name. -/
theorem ofJson_of_fields {j k : Json} {f : Fixture} (witness : j.field? "witness" = some k)
    (same : ∀ key, k.field? key = f.witness.toJson.field? key)
    (hash : j.field? "postStateHash" = f.toJson.field? "postStateHash") (name : Text) :
    ofJson name j = .ok { f with name } := by
  have readHash := StepWitness.readOptional_present (f := Block.read 32)
    (hash.trans f.field?_toJson.2) (by simp) Block.read_hexText
  rw [Option.map_id'] at readHash
  rw [ofJson, witness]
  simp only [StepWitness.ofJson_congr same, StepWitness.ofJson_self, readHash]
  rfl

/-- A fixture is read from its JSON form as it was, up to its name. -/
theorem ofJson_toJson (f : Fixture) (name : Text) : ofJson name f.toJson = .ok { f with name } :=
  ofJson_of_fields f.field?_toJson.1 (fun _ => rfl) rfl name

/-- The keys that a fixture may have. -/
def keys : List Text := ["witness", "postStateHash"]

/-- The JSON form is an object of some of the keys, each once, with the witness and a hex text. -/
theorem toJson_eq_object (f : Fixture) :
    ∃ fields, f.toJson = .object fields ∧ (fields.map Prod.fst).Sublist keys ∧
      ∀ field ∈ fields, field.2 = f.witness.toJson ∨ ∃ b, field.2 = .string (hexText b) := by
  refine ⟨_, rfl, ?_, ?_⟩
  · cases f.postStateHash with
    | none => exact List.sublist_append_left [("witness" : Text)] ["postStateHash"]
    | some hash => exact .refl _
  · rw [List.forall_mem_cons]
    refine ⟨.inl rfl, ?_⟩
    cases f.postStateHash <;> simp

/-- What a style does to the order of fields does not matter. -/
theorem ofJson_arranged (style : Style) (f : Fixture) (name : Text) :
    ofJson name (f.toJson.arranged style) = .ok { f with name } := by
  obtain ⟨fields, object, some, -⟩ := f.toJson_eq_object
  obtain ⟨witness, hash⟩ := f.field?_toJson
  have arranged (key : Text) : (f.toJson.arranged style).field? key =
      (f.toJson.field? key).map (Json.arranged style) := by
    rw [object]
    exact field?_arranged style (some.nodup (by decide)) key
  refine ofJson_of_fields (k := f.witness.toJson.arranged style) ?_ ?_ ?_ name
  · rw [arranged, witness, Option.map_some]
  · exact f.witness.field?_arranged style
  · rw [arranged, hash]
    cases f.postStateHash with
    | none => rfl
    | some h => rw [Option.map_some, Option.map_some, Json.arranged.eq_def]

theorem built_toJson {accepts : Text → Prop} (ascii : AcceptsAscii accepts) (depth : Nat)
    (f : Fixture) : Built accepts (depth + 2) f.toJson := by
  obtain ⟨fields, object, some, parts⟩ := f.toJson_eq_object
  rw [object]
  refine .object (fun field member => ?_) (fun field member => ?_) (some.nodup (by decide))
  · have plain : keys.all (·.all (·.val < 0x80)) = true := by decide
    exact ascii _ (List.all_eq_true.1 plain field.1 (some.subset (List.mem_map_of_mem member)))
  · rcases parts field member with witness | ⟨b, text⟩
    · rw [witness]
      exact f.witness.built_toJson ascii depth
    · rw [text]
      exact .string (ascii.hexText b)

end Fixture

end StepReplay
