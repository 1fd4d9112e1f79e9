import StepReplay.Proofs.Calldata.Tuple
import StepReplay.Proofs.Disclosure

set_option autoImplicit false

/-! # The calldata of a disclosure

Whether a witness has a preimage to be disclosed, what is wrong with it and how its calldata is laid
out are described apart from each other, by looking at the witness alone. Every witness falls under
one of these descriptions, so each of them is exact. Numbers are never what is wrong: an identifier
has 31 bytes, an offset four, and a preimage as long as a word can count is beyond any memory. -/

namespace StepReplay.StepWitness

open Calldata

/-! ## Descriptions -/

/-- `Needs w key`: the key says that the step has to be preceded by a disclosure. -/
structure Needs (w : StepWitness) (key : Block 32) : Prop where
  present : w.preimageKey = some key
  nonzero : ∃ b ∈ key.bytes, b ≠ 0

/-- `Given w data`: there is a preimage, and this is what follows its length. -/
def Given (w : StepWitness) (data : Bytes) : Prop :=
  ∃ value, w.preimageValue = some value ∧ 8 ≤ value.length ∧ value.drop 8 = data

/-- `Undisclosable w key e`: what keeps the preimage of a witness from being disclosed. -/
inductive Undisclosable (w : StepWitness) (key : Block 32) : DecodeError → Prop
  | absent (nothing : w.preimageValue = none) : Undisclosable w key .noPreimage
  | cut {value : Bytes} (some : w.preimageValue = some value) (short : value.length < 8) :
      Undisclosable w key .noPreimage
  | long {data : Bytes} (given : w.Given data) (type : key.bytes.headD 0 = 1)
      (long : 32 < data.length) : Undisclosable w key (.localPreimageTooLong data.length)
  | type {data : Bytes} (given : w.Given data)
      (other : key.bytes.headD 0 ≠ 1 ∧ key.bytes.headD 0 ≠ 2) :
      Undisclosable w key (.unknownKeyType (key.bytes.headD 0).toNat)

/-- The calldata of a local value: its identifier, the data filled up with zeros, how many bytes of
those are the data, and the offset. -/
def localCall (key : Block 32) (data : Bytes) (offset : Nat) : Bytes :=
  Simulated.selectorOf ({} : Signatures).loadLocal ++ tuple
    [("uint256", .int (Bytes.toNat (key.bytes.drop 1))), ("bytes32", .bytes data),
      ("uint256", .int data.length), ("uint256", .int offset)]

/-- The calldata of a Keccak preimage: the offset and the whole data. -/
def keccakCall (data : Bytes) (offset : Nat) : Bytes :=
  Simulated.selectorOf ({} : Signatures).loadKeccak ++
    tuple [("uint256", .int offset), ("bytes", .bytes data)]

/-- `HasCalldata w key input`: the preimage of a witness is disclosed by this calldata. -/
inductive HasCalldata (w : StepWitness) (key : Block 32) : Bytes → Prop
  | localData {data : Bytes} (given : w.Given data) (type : key.bytes.headD 0 = 1)
      (short : data.length ≤ 32) : HasCalldata w key (localCall key data w.offset)
  | keccak {data : Bytes} (given : w.Given data) (type : key.bytes.headD 0 = 2)
      (size : data.length < Bytes.capacity 32) : HasCalldata w key (keccakCall data w.offset)

/-- `Ends w r`: what becomes of the disclosure of a witness. -/
inductive Ends (w : StepWitness) : Except Fault (Option Bytes) → Prop
  | needless (without : ¬ ∃ key, Needs w key) : Ends w (.ok none)
  | refused {key : Block 32} {e : DecodeError} (needs : Needs w key)
      (why : Undisclosable w key e) : Ends w (.error (.decode e))
  | encoded {key : Block 32} {input : Bytes} (needs : Needs w key)
      (has : HasCalldata w key input) : Ends w (.ok (some input))
  /-- No word can tell the length of the preimage. -/
  | vast {key : Block 32} {data : Bytes} (needs : Needs w key) (given : w.Given data)
      (type : key.bytes.headD 0 = 2) (size : Bytes.capacity 32 ≤ data.length) :
      Ends w (.error (.call (.intOutOfRange data.length)))

section

variable {w w' : StepWitness} {key : Block 32}

/-! ## What is needed and given -/

theorem hasPreimage_iff : w.hasPreimage = true ↔ ∃ key, Needs w key := by
  unfold hasPreimage
  cases present : w.preimageKey with
  | none =>
    refine iff_of_false Bool.false_ne_true ?_
    rintro ⟨key, needs⟩
    cases present.symm.trans needs.present
  | some key =>
    simp only [List.any_eq_true, decide_eq_true_eq]
    constructor
    · exact fun nonzero => ⟨key, present, nonzero⟩
    · rintro ⟨key', needs⟩
      cases present.symm.trans needs.present
      exact needs.nonzero

theorem preimageData_eq_ok {data : Bytes} : w.preimageData = .ok data ↔ w.Given data := by
  unfold preimageData Given
  cases w.preimageValue with
  | none => simp
  | some value =>
    dsimp only
    by_cases short : value.length < lengthSize
    · rw [if_pos short]
      simp only [reduceCtorEq, Option.some.injEq, exists_eq_left', false_iff, not_and]
      exact fun whole => absurd short (Nat.not_lt.2 whole)
    · rw [if_neg short]
      simp only [Except.ok.injEq, Option.some.injEq, exists_eq_left']
      exact (and_iff_right (Nat.le_of_not_lt short)).symm

/-- A preimage that is not given keeps everything from being disclosed. -/
theorem given_or_undisclosable (w : StepWitness) (key : Block 32) :
    (∃ data, w.Given data) ∨ Undisclosable w key .noPreimage := by
  cases some : w.preimageValue with
  | none => exact .inr (.absent some)
  | some value =>
    by_cases short : value.length < 8
    · exact .inr (.cut some short)
    · exact .inl ⟨_, value, some, Nat.le_of_not_lt short, rfl⟩

/-! ## Encoding -/

/-- A call that can be encoded is a selector with a tuple behind it. -/
theorem eq_tuple_of_encodeCall {signature : Text} {parsed : Signature} {arguments : List Argument}
    {input : Bytes} (read : Signature.parse signature = .ok parsed)
    (h : encodeCall signature arguments = .ok input) :
    input = Simulated.selectorOf signature ++ tuple (parsed.types.zip arguments) := by
  obtain ⟨parsed', front, encoded, read', hashed, filled, rfl⟩ := encodeCall_eq_ok.1 h
  cases read.symm.trans read'
  rw [Simulated.selectorOf_eq hashed, (encodeArguments_eq_ok_tuple.1 filled).2.2]

/-- A local value that fits its word can be encoded. -/
theorem encodeCall_local {data : Bytes} (w : StepWitness) (type : key.bytes.headD 0 = 1)
    (short : data.length ≤ 32) :
    encodeCall ({} : Signatures).loadLocal [.int (Bytes.toNat (key.bytes.drop 1)), .bytes data,
      .int data.length, .int w.offset] = .ok (localCall key data w.offset) := by
  obtain ⟨input, encoded⟩ := Simulated.exists_encodeCall_local
    (local_key (ofByte?_eq_localData.2 type)).1 short w.offset_lt
  rw [encoded, eq_tuple_of_encodeCall Simulated.parse_loadLocal encoded]
  rfl

theorem offset_fits (w : StepWitness) : w.offset < Bytes.capacity wordSize :=
  Nat.lt_of_lt_of_le w.offset_lt (Bytes.capacity_le (by decide))

theorem selector_loadKeccak : ∃ front, selector ({} : Signatures).loadKeccak = .ok front :=
  exists_selector (by decide)

/-- A Keccak preimage can be encoded as long as a word tells its length. -/
theorem encodeCall_keccak {data : Bytes} (w : StepWitness)
    (size : data.length < Bytes.capacity wordSize) :
    encodeCall ({} : Signatures).loadKeccak [.int w.offset, .bytes data] =
      .ok (keccakCall data w.offset) := by
  obtain ⟨front, hashed⟩ := selector_loadKeccak
  have reached : wordSize * 2 + ([] : Bytes).length < Bytes.capacity wordSize := by decide
  have parts := (Encodes.int w.offset_fits).encodeFrom_cons
    ((Encodes.content size reached).encodeFrom_cons (encodeFrom_nil _))
  have arguments : encodeArguments ["uint256", "bytes"] [.int w.offset, .bytes data] = .ok _ :=
    encodeArguments_eq_ok.2 ⟨rfl, _, _, parts, rfl⟩
  have encoded := encodeCall_eq_ok.2 ⟨_, front, _, Simulated.parse_loadKeccak, hashed,
    arguments, rfl⟩
  rw [encoded, eq_tuple_of_encodeCall Simulated.parse_loadKeccak encoded]
  rfl

/-- Only the length of a Keccak preimage can be too large for its word. -/
theorem encodeCall_vast {data : Bytes} (w : StepWitness)
    (size : Bytes.capacity 32 ≤ data.length) :
    encodeCall ({} : Signatures).loadKeccak [.int w.offset, .bytes data] =
      .error (.intOutOfRange data.length) := by
  obtain ⟨front, hashed⟩ := selector_loadKeccak
  have refused : encodeFrom (32 * 2) [("uint256", .int w.offset), ("bytes", .bytes data)] =
      .error (.intOutOfRange data.length) :=
    encodeFrom_of_refused (.int w.offset_fits) (encodeFrom_of_offends (.length size))
  obtain ⟨i, first⟩ := encodeFrom_eq_error.1 refused
  have arguments : encodeArguments ["uint256", "bytes"] [.int w.offset, .bytes data] =
      .error (.intOutOfRange data.length) := encodeArguments_eq_error.2 (.first rfl first)
  rw [encodeCall, Simulated.parse_loadKeccak, hashed]
  exact bind_eq_error.2 (.inr ⟨_, rfl, bind_eq_error.2 (.inr ⟨_, rfl,
    bind_eq_error.2 (.inl arguments)⟩)⟩)

/-! ## Every witness -/

/-- The data of a preimage is what it ends in, whichever value gives it. -/
theorem Given.eq {data data' : Bytes} (given : w.Given data) (given' : w.Given data') :
    data = data' :=
  Except.ok.inj ((preimageData_eq_ok.2 given).symm.trans (preimageData_eq_ok.2 given'))

theorem exists_ends (w : StepWitness) : ∃ r, Ends w r := by
  by_cases needed : ∃ key, Needs w key
  · obtain ⟨key, needs⟩ := needed
    rcases w.given_or_undisclosable key with ⟨data, given⟩ | why
    · by_cases one : key.bytes.headD 0 = 1
      · by_cases short : data.length ≤ 32
        · exact ⟨_, .encoded needs (.localData given one short)⟩
        · exact ⟨_, .refused needs (.long given one (Nat.lt_of_not_le short))⟩
      · by_cases two : key.bytes.headD 0 = 2
        · by_cases size : data.length < Bytes.capacity 32
          · exact ⟨_, .encoded needs (.keccak given two size)⟩
          · exact ⟨_, .vast needs given two (Nat.le_of_not_lt size)⟩
        · exact ⟨_, .refused needs (.type given ⟨one, two⟩)⟩
    · exact ⟨_, .refused needs why⟩
  · exact ⟨_, .needless needed⟩

theorem oracleInput_of_needs {data : Bytes} {signatures : Signatures} (needs : Needs w key)
    (given : w.Given data) :
    w.oracleInput signatures = (disclosure key data w.offset signatures).map some := by
  rw [oracleInput, hasPreimage_iff.2 ⟨key, needs⟩, needs.present]
  dsimp only
  rw [preimageData_eq_ok.2 given]
  cases ends : disclosure key data w.offset signatures with
  | error f => exact bind_eq_error.2 (.inr ⟨data, rfl, bind_eq_error.2 (.inl ends)⟩)
  | ok input => exact bind_eq_ok.2 ⟨data, rfl, bind_eq_ok.2 ⟨input, ends, rfl⟩⟩

theorem oracleInput_of_error {e : DecodeError} {signatures : Signatures} (needs : Needs w key)
    (lacking : w.preimageData = .error e) : w.oracleInput signatures = .error (.decode e) := by
  rw [oracleInput, hasPreimage_iff.2 ⟨key, needs⟩, needs.present]
  dsimp only
  rw [lacking]
  rfl

theorem disclosure_local {data : Bytes} (w : StepWitness) (type : key.bytes.headD 0 = 1)
    (short : data.length ≤ 32) :
    disclosure key data w.offset {} = .ok (localCall key data w.offset) := by
  have encoded := encodeCall_local w type short
  simp only [disclosure, ofByte?_eq_localData.2 type]
  exact (if_neg (Nat.not_lt.2 short)).trans (mapError_eq_ok.2 encoded)

theorem disclosure_keccak {data : Bytes} (w : StepWitness) (type : key.bytes.headD 0 = 2) :
    disclosure key data w.offset {} =
      (encodeCall ({} : Signatures).loadKeccak [.int w.offset, .bytes data]).mapError .call := by
  have kind : PreimageKind.ofByte? (key.bytes.headD 0) = some .keccak := by
    rw [type]
    rfl
  simp only [disclosure, kind]

/-- What is described is what happens. -/
theorem Ends.oracleInput {r : Except Fault (Option Bytes)} (ends : Ends w r) :
    w.oracleInput {} = r := by
  cases ends with
  | needless without =>
    have clear : w.hasPreimage = false :=
      Bool.eq_false_iff.2 fun needed => without (hasPreimage_iff.1 needed)
    rw [StepWitness.oracleInput, clear]
  | refused needs why =>
    cases why with
    | absent nothing => exact oracleInput_of_error needs (by rw [preimageData, nothing])
    | cut some short =>
      refine oracleInput_of_error needs ?_
      rw [preimageData, some]
      exact if_pos short
    | long given type long =>
      rw [oracleInput_of_needs needs given]
      simp only [disclosure, ofByte?_eq_localData.2 type]
      exact congrArg (Except.map _) (if_pos long)
    | type given other =>
      have unknown {b : UInt8} (other : b ≠ 1 ∧ b ≠ 2) : PreimageKind.ofByte? b = none := by
        rw [PreimageKind.ofByte?, if_neg other.1, if_neg other.2]
      rw [oracleInput_of_needs needs given]
      simp only [disclosure, unknown other]
      rfl
  | encoded needs has =>
    cases has with
    | localData given type short =>
      rw [oracleInput_of_needs needs given, disclosure_local w type short]
      rfl
    | keccak given type size =>
      rw [oracleInput_of_needs needs given, disclosure_keccak w type, encodeCall_keccak w size]
      rfl
  | vast needs given type size =>
    rw [oracleInput_of_needs needs given, disclosure_keccak w type, encodeCall_vast w size]
    rfl

/-! ## Exactly these -/

theorem oracleInput_iff {r : Except Fault (Option Bytes)} : w.oracleInput {} = r ↔ Ends w r := by
  constructor
  · rintro rfl
    obtain ⟨r, ends⟩ := exists_ends w
    rwa [ends.oracleInput]
  · exact Ends.oracleInput

theorem oracleInput_eq_none : w.oracleInput {} = .ok none ↔ ¬ ∃ key, Needs w key := by
  rw [oracleInput_iff]
  constructor
  · intro ends
    cases ends with
    | needless without => exact without
  · exact .needless

theorem oracleInput_eq_decode {e : DecodeError} :
    w.oracleInput {} = .error (.decode e) ↔ ∃ key, Needs w key ∧ Undisclosable w key e := by
  rw [oracleInput_iff]
  constructor
  · intro ends
    cases ends with
    | refused needs why => exact ⟨_, needs, why⟩
  · rintro ⟨key, needs, why⟩
    exact .refused needs why

theorem oracleInput_eq_input {input : Bytes} :
    w.oracleInput {} = .ok (some input) ↔ ∃ key, Needs w key ∧ HasCalldata w key input := by
  rw [oracleInput_iff]
  constructor
  · intro ends
    cases ends with
    | encoded needs has => exact ⟨_, needs, has⟩
  · rintro ⟨key, needs, has⟩
    exact .encoded needs has

/-- Nothing else goes wrong with a value whose length fits a word. -/
theorem exists_decode_of_oracleInput {f : Fault} (h : w.oracleInput {} = .error f)
    (held : ∀ value, w.preimageValue = some value → value.length < Bytes.capacity 32) :
    ∃ e, f = .decode e := by
  cases oracleInput_iff.1 h with
  | refused => exact ⟨_, rfl⟩
  | vast needs given type size =>
    obtain ⟨value, present, -, rfl⟩ := given
    have fits := held value present
    rw [List.length_drop] at size
    omega

theorem Undisclosable.kind {e : DecodeError} (why : Undisclosable w key e) :
    e.kind = "PreimageError" := by
  cases why <;> rfl

/-! ## Calldata determines what it discloses -/

/-- `SameDisclosure w w'`: two witnesses disclose the same, where the key of a local value counts
and that of a Keccak preimage does not. -/
structure SameDisclosure (w w' : StepWitness) : Prop where
  data : ∃ data, w.Given data ∧ w'.Given data
  offset : w.offset = w'.offset
  kind : w.preimageKey.map (·.bytes.headD 0) = w'.preimageKey.map (·.bytes.headD 0)
  key : (∃ key, w.preimageKey = some key ∧ key.bytes.headD 0 = 1) →
    w.preimageKey = w'.preimageKey

/-- The key under which the oracle stores data that is disclosed for a key. -/
def storedKey (key : Block 32) (data : Bytes) : Bytes :=
  if key.bytes.headD 0 = 1 then key.bytes else 2 :: (Keccak.hash data).bytes.drop 1

/-- What the oracle stores shows the type of the key, and the whole key of a local value. -/
theorem HasCalldata.stored {input : Bytes} (has : HasCalldata w key input) (needs : Needs w key) :
    ∃ data, w.Given data ∧ w.disclosed? = some (storedKey key data, w.offset, data) ∧
      (storedKey key data).headD 0 = key.bytes.headD 0 := by
  have encodes := oracleInput_eq_input.2 ⟨key, needs, has⟩
  cases has with
  | @localData data given type short =>
    have key_eq : storedKey key data = key.bytes := if_pos type
    refine ⟨data, given, ?_, by rw [key_eq]⟩
    simp only [disclosed?, encodes, needs.present, preimageData_eq_ok.2 given,
      ofByte?_eq_localData.2 type, key_eq]
  | @keccak data given type size =>
    have key_eq : storedKey key data = 2 :: (Keccak.hash data).bytes.drop 1 := by
      rw [storedKey, type]
      rfl
    refine ⟨data, given, ?_, by rw [key_eq, type, List.headD_cons]⟩
    simp only [disclosed?, encodes, needs.present, preimageData_eq_ok.2 given, type, key_eq]
    rfl

theorem sameDisclosure {input : Bytes} (h : w.oracleInput {} = .ok (some input))
    (h' : w'.oracleInput {} = .ok (some input)) : SameDisclosure w w' := by
  obtain ⟨key, needs, has⟩ := oracleInput_eq_input.1 h
  obtain ⟨key', needs', has'⟩ := oracleInput_eq_input.1 h'
  -- the oracle reads one entry off the calldata, so both witnesses mean that one
  have same : w.disclosed? = w'.disclosed? := by
    obtain ⟨entry, means, read⟩ := disclosed_oracleInput h
    obtain ⟨entry', means', read'⟩ := disclosed_oracleInput h'
    rw [means, means', Option.some.inj (Except.ok.inj (read.symm.trans read'))]
  obtain ⟨data, given, entry, head⟩ := has.stored needs
  obtain ⟨data', given', entry', head'⟩ := has'.stored needs'
  rw [entry, entry', Option.some.injEq, Prod.mk.injEq, Prod.mk.injEq] at same
  obtain ⟨keys, offset, rfl⟩ := same
  have type : key.bytes.headD 0 = key'.bytes.headD 0 := by rw [← head, ← head', keys]
  refine ⟨⟨data, given, given'⟩, offset, ?_, ?_⟩
  · rw [needs.present, needs'.present, Option.map_some, Option.map_some, type]
  · rintro ⟨_, present, one⟩
    cases needs.present.symm.trans present
    rw [storedKey, storedKey, if_pos one, if_pos (type.symm.trans one)] at keys
    rw [needs.present, needs'.present, Block.ext keys]

end

/-- The disclosure of a witness is left out just when there is no key or it is all zeros. It is
refused for the reasons described, each of which is of one kind, and as long as a word can tell the
length of the preimage there is no other error. Otherwise its calldata is the one laid out for the
kind of key, and no two disclosures have the same calldata: for a local value it determines the key,
the data and the offset, for a Keccak preimage the data and the offset. -/
theorem oracleInput_exact (w : StepWitness) :
    (w.oracleInput {} = .ok none ↔ ¬ ∃ key, Needs w key) ∧
    (∀ e, w.oracleInput {} = .error (.decode e) ↔
      ∃ key, Needs w key ∧ Undisclosable w key e) ∧
    (∀ e, w.oracleInput {} = .error (.decode e) → e.kind = "PreimageError") ∧
    ((∀ value, w.preimageValue = some value → value.length < Bytes.capacity 32) →
      ∀ f, w.oracleInput {} = .error f → ∃ e, f = .decode e) ∧
    (∀ input, w.oracleInput {} = .ok (some input) ↔
      ∃ key, Needs w key ∧ HasCalldata w key input) ∧
    ∀ (w' : StepWitness) (input : Bytes), w.oracleInput {} = .ok (some input) →
      w'.oracleInput {} = .ok (some input) → SameDisclosure w w' := by
  refine ⟨oracleInput_eq_none, fun e => oracleInput_eq_decode, ?_, ?_,
    fun input => oracleInput_eq_input, fun w' input => sameDisclosure⟩
  · intro e h
    obtain ⟨key, -, why⟩ := oracleInput_eq_decode.1 h
    exact why.kind
  · exact fun held f h => exists_decode_of_oracleInput h held

/-- A witness with a local value that ends in a zero byte. -/
def zeroEnded : StepWitness where
  state := Block.zero 226
  preimageKey := some ⟨1 :: List.replicate 31 9, rfl⟩
  preimageValue := some (Bytes.zeros 8 ++ [5, 0])

/-- A local value that ends in a zero byte is disclosed by calldata of its own, and nothing is
disclosed without the value. -/
theorem oracleInput_exact_local :
    (∃ input, zeroEnded.oracleInput {} = .ok (some input) ∧
      ∀ w' : StepWitness, w'.oracleInput {} = .ok (some input) → w'.Given [5, 0]) ∧
    { zeroEnded with preimageValue := none }.oracleInput {} = .error (.decode .noPreimage) := by
  have nonzero : ∃ b ∈ (1 :: List.replicate 31 9 : Bytes), b ≠ 0 :=
    ⟨1, List.mem_cons_self, by decide⟩
  constructor
  · obtain ⟨-, -, -, -, encodes, determines⟩ := oracleInput_exact zeroEnded
    have given : zeroEnded.Given [5, 0] := ⟨_, rfl, by decide, rfl⟩
    have h := (encodes _).2 ⟨_, ⟨rfl, nonzero⟩, .localData given rfl (by decide)⟩
    refine ⟨_, h, fun w' h' => ?_⟩
    obtain ⟨data, mine, other⟩ := (determines w' _ h h').data
    rwa [given.eq mine]
  · exact ((oracleInput_exact _).2.1 _).2 ⟨_, ⟨rfl, nonzero⟩, .absent rfl⟩

end StepReplay.StepWitness
