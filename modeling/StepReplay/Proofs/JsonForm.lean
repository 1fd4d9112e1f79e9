import StepReplay.Proofs.Bytes
import StepReplay.Proofs.Fixture

set_option autoImplicit false

/-! # The JSON form keeps everything apart

Whatever parts a witness is made of, its JSON form is read as a witness of the same parts: one that
is absent stays absent, and one that is empty or zero stays that. The order of fields in an object
means nothing to a reader, so two witnesses whose forms are equal up to that order are one. For
fixtures, whose form holds that of a witness, the order may differ on both levels. -/

namespace StepReplay

/-- Values that are equal if the order of fields does not count. -/
inductive Json.Alike : Json → Json → Prop
  | same (j : Json) : Alike j j
  | array {items items' : List Json} (each : List.Forall₂ Alike items items') :
      Alike (.array items) (.array items')
  | object {fields fields' : List (Text × Json)}
      (each : ∀ key, Option.Rel Alike (Table.find? key fields) (Table.find? key fields')) :
      Alike (.object fields) (.object fields')

namespace Json.Alike

variable {j k : Json}

theorem rel (a : Option Json) : Option.Rel Alike a a := by
  cases a with
  | none => exact .none
  | some j => exact .some (.same j)

/-- Readers go by keys, so this is all that they see. -/
theorem field? (alike : Alike j k) (key : Text) :
    Option.Rel Alike (j.field? key) (k.field? key) := by
  cases alike with
  | same => exact rel _
  | array each => exact .none
  | object each => exact each key

theorem string_eq {t : Text} (alike : Alike (.string t) k) : .string t = k := by
  cases alike
  rfl

theorem int_eq {n : Int} (alike : Alike (.int n) k) : .int n = k := by
  cases alike
  rfl

/-- Parts that have no fields themselves are equal if they are alike. -/
theorem eq_of_rel {a b : Option Json} (related : Option.Rel Alike a b)
    (plain : ∀ v ∈ a, ∀ v', Alike v v' → v = v') : a = b := by
  cases related with
  | none => rfl
  | some alike => exact congrArg some (plain _ rfl _ alike)

end Json.Alike

open Json (Alike)

/-! ## Witnesses -/

namespace StepWitness

/-- `w.Consists state proof key value offset`: what a witness is made of. -/
structure Consists (w : StepWitness) (state proof : Bytes) (key value : Option Bytes)
    (offset : Option Int) : Prop where
  state : w.state.bytes = state
  proof : w.proof = proof
  key : w.preimageKey.map Block.bytes = key
  value : w.preimageValue = value
  offset : w.preimageOffset.map (fun n => (n.toNat : Int)) = offset

section Parts

variable {state proof : Bytes} {key value : Option Bytes} {offset : Option Int} {w : StepWitness}

theorem ofParts_eq_ok :
    ofParts state proof key value offset = .ok w ↔ w.Consists state proof key value offset := by
  simp only [ofParts, bind_eq_ok, Block.ofBytes_eq_ok,
    readOptional_eq_ok Block.ofBytes_eq_ok, readOptional_eq_ok offsetOfInt_eq_ok]
  constructor
  · rintro ⟨_, rfl, _, rfl, _, rfl, ⟨⟩⟩
    exact ⟨rfl, rfl, rfl, rfl, rfl⟩
  · rintro ⟨rfl, rfl, rfl, rfl, rfl⟩
    exact ⟨_, rfl, _, rfl, _, rfl, rfl⟩

theorem exists_map_eq {α β : Type} {g : β → α} {part : Option α}
    (each : ∀ a ∈ part, ∃ b, g b = a) : ∃ out : Option β, out.map g = part := by
  cases part with
  | none => exact ⟨none, rfl⟩
  | some a =>
    obtain ⟨b, made⟩ := each a rfl
    exact ⟨some b, congrArg some made⟩

/-- The parts that make a witness are those of the sizes and the range that the constructor asks
for. -/
theorem exists_consists :
    (∃ w : StepWitness, w.Consists state proof key value offset) ↔
      state.length = 226 ∧ (∀ k ∈ key, k.length = 32) ∧
        ∀ n ∈ offset, 0 ≤ n ∧ n < Bytes.capacity 4 := by
  constructor
  · rintro ⟨w, rfl, rfl, rfl, rfl, rfl⟩
    refine ⟨w.state.length_bytes, fun k member => ?_, fun n member => ?_⟩
    · obtain ⟨block, -, rfl⟩ := Option.map_eq_some_iff.1 member
      exact block.length_bytes
    · obtain ⟨m, -, rfl⟩ := Option.map_eq_some_iff.1 member
      exact ⟨Int.natCast_nonneg _, Int.ofNat_lt.2 m.toNat_lt⟩
  · rintro ⟨size, keySize, range⟩
    obtain ⟨key', hasKey⟩ := exists_map_eq (g := Block.bytes) fun k member =>
      ⟨(⟨k, keySize k member⟩ : Block 32), rfl⟩
    obtain ⟨offset', hasOffset⟩ := exists_map_eq (g := fun m : UInt32 => (m.toNat : Int))
      fun n member =>
        have made : offsetOfInt n = .ok (UInt32.ofNat n.toNat) := if_pos (range n member)
        ⟨_, offsetOfInt_eq_ok.1 made⟩
    exact ⟨⟨⟨state, size⟩, proof, key', value, offset'⟩, ⟨rfl, rfl, hasKey, rfl, hasOffset⟩⟩

end Parts

/-- Witnesses are equal if their forms are alike. -/
theorem eq_of_alike {w w' : StepWitness} (alike : Alike w.toJson w'.toJson) : w = w' := by
  obtain ⟨fields, object, -, scalars⟩ := w.toJson_eq_object
  -- every field is a text or a number, which is like itself only
  have same (key : Text) : w.toJson.field? key = w'.toJson.field? key := by
    refine Alike.eq_of_rel (alike.field? key) fun v found v' alike' => ?_
    rw [object] at found
    rcases scalars (key, v) (Table.mem_of_find? found) with ⟨b, text⟩ | ⟨n, number⟩
    · obtain rfl : v = _ := text
      exact alike'.string_eq
    · obtain rfl : v = _ := number
      exact alike'.int_eq
  have read := ofJson_congr same
  rw [ofJson_self, ofJson_self] at read
  exact Except.ok.inj read

end StepWitness

/-! ## Fixtures -/

namespace Fixture

/-- Fixtures of one name are equal if their forms are alike. -/
theorem eq_of_alike {f f' : Fixture} (name : f.name = f'.name)
    (alike : Alike f.toJson f'.toJson) : f = f' := by
  obtain ⟨witness, hash⟩ := f.field?_toJson
  obtain ⟨witness', -⟩ := f'.field?_toJson
  -- the witness has fields of its own, so it is compared as a witness and not as a value
  have same : f.witness = f'.witness := by
    have related := alike.field? "witness"
    rw [witness, witness'] at related
    cases related with
    | some parts => exact StepWitness.eq_of_alike parts
  have sameHash : f.toJson.field? "postStateHash" = f'.toJson.field? "postStateHash" := by
    refine Alike.eq_of_rel (alike.field? "postStateHash") fun v found v' alike' => ?_
    rw [hash] at found
    obtain ⟨h, -, rfl⟩ := Option.map_eq_some_iff.1 found
    exact alike'.string_eq
  have read := ofJson_of_fields (f := f') witness (fun key => by rw [same]) sameHash f.name
  rw [ofJson_toJson] at read
  have equal : f = { f' with name := f.name } := Except.ok.inj read
  exact equal.trans (by rw [name])

end Fixture

/-- The JSON form of a witness or of a fixture is read back as it was, and tells it apart from every
other: the parts that make a witness, present, empty or absent, are those that it is read with. -/
theorem Fixture.json_forms_faithful :
    (∀ (state proof : Bytes) (key value : Option Bytes) (offset : Option Int),
      ((∃ w, StepWitness.ofParts state proof key value offset = .ok w) ↔
        state.length = 226 ∧ (∀ k ∈ key, k.length = 32) ∧
          ∀ n ∈ offset, 0 ≤ n ∧ n < Bytes.capacity 4) ∧
      ∀ w, StepWitness.ofParts state proof key value offset = .ok w →
        w.Consists state proof key value offset ∧ StepWitness.ofJson w.toJson = .ok w) ∧
    (∀ w w' : StepWitness, Alike w.toJson w'.toJson → w = w') ∧
    (∀ f : Fixture, Fixture.ofJson f.name f.toJson = .ok f) ∧
    ∀ f f' : Fixture, f.name = f'.name → Alike f.toJson f'.toJson → f = f' := by
  refine ⟨fun state proof key value offset => ⟨?_, fun w made => ⟨?_, ?_⟩⟩,
    fun w w' => StepWitness.eq_of_alike, fun f => f.ofJson_toJson f.name,
    fun f f' => Fixture.eq_of_alike⟩
  · simp only [StepWitness.ofParts_eq_ok]
    exact StepWitness.exists_consists
  · exact StepWitness.ofParts_eq_ok.1 made
  · exact StepWitness.ofJson_self w

end StepReplay
