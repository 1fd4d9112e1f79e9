import StepReplay.Proofs.Bytes
import StepReplay.Proofs.Except
import StepReplay.StepWitness.Calls

set_option autoImplicit false

/-! # Reading calldata back

An argument is encoded by one word and, for a byte string of any length, by content in the second
part of the calldata, which its word points to. `Encodes` says what an argument's word and content
are, and `encodeFrom_getElem` finds them again in the encoding of many arguments: whatever stands
before an argument, its word is in its slot and its content where the word says. Reading is then a
matter of one argument alone. -/

namespace StepReplay.Calldata

/-! ## One argument -/

/-- `Encodes offset type argument word content`: an argument of a type has this word and this
content, where the content comes to stand at `offset`. -/
inductive Encodes (offset : Nat) : Text → Argument → Bytes → Bytes → Prop
  | int {value : Nat} (fits : value < Bytes.capacity wordSize) :
      Encodes offset "uint256" (.int value) (Bytes.ofNat wordSize value) []
  | word {value : Bytes} (short : value.length ≤ wordSize) :
      Encodes offset "bytes32" (.bytes value) (value.padRight wordSize) []
  | content {value : Bytes} (size : value.length < Bytes.capacity wordSize)
      (reached : offset < Bytes.capacity wordSize) :
      Encodes offset "bytes" (.bytes value) (Bytes.ofNat wordSize offset)
        (Bytes.ofNat wordSize value.length ++ value ++ filler value.length)

theorem Encodes.length_word {offset : Nat} {type : Text} {argument : Argument}
    {word content : Bytes} (h : Encodes offset type argument word content) :
    word.length = wordSize := by
  cases h with
  | int fits => exact Bytes.length_ofNat ..
  | word short => exact Bytes.length_padRight short
  | content size reached => exact Bytes.length_ofNat ..

theorem uintWord_eq_ok {value : Int} {word : Bytes} :
    uintWord value = .ok word ↔
      ∃ n : Nat, value = n ∧ n < Bytes.capacity wordSize ∧ Bytes.ofNat wordSize n = word := by
  unfold uintWord
  split
  · rename_i inside
    obtain ⟨n, rfl⟩ := Int.eq_ofNat_of_zero_le inside.1
    simp only [Int.toNat_natCast, Except.ok.injEq]
    constructor
    · rintro rfl
      exact ⟨n, rfl, by omega, rfl⟩
    · rintro ⟨m, same, -, rfl⟩
      rw [Int.ofNat_inj.1 same]
  · rename_i outside
    simp only [reduceCtorEq, false_iff]
    rintro ⟨n, rfl, fits, -⟩
    omega

theorem bytesWord_eq_ok {value word : Bytes} :
    bytesWord value = .ok word ↔ value.length ≤ wordSize ∧ value.padRight wordSize = word := by
  unfold bytesWord
  split
  · rename_i long
    simp only [reduceCtorEq, false_iff]
    omega
  · rename_i short
    simp only [Except.ok.injEq]
    exact (and_iff_right (by omega)).symm

theorem dynamic_eq_ok {value content : Bytes} :
    dynamic value = .ok content ↔ value.length < Bytes.capacity wordSize ∧
      Bytes.ofNat wordSize value.length ++ value ++ filler value.length = content := by
  unfold dynamic
  cases size : uintWord value.length with
  | error e =>
    simp only [Except.map, reduceCtorEq, false_iff]
    rintro ⟨fits, -⟩
    have := uintWord_eq_ok.2 ⟨value.length, rfl, fits, rfl⟩
    rw [size] at this
    cases this
  | ok word =>
    obtain ⟨n, same, fits, rfl⟩ := uintWord_eq_ok.1 size
    obtain rfl := Int.ofNat_inj.1 same
    simp only [Except.map, Except.ok.injEq]
    exact (and_iff_right fits).symm

theorem encodeFrom_nil (offset : Nat) : encodeFrom offset [] = .ok ([], []) := rfl

/-- Arguments are encoded one after another, and each moves the content of those after it. -/
theorem encodeFrom_cons_eq_ok {offset : Nat} {type : Text} {argument : Argument}
    {rest : List (Text × Argument)} {head tail : Bytes} :
    encodeFrom offset ((type, argument) :: rest) = .ok (head, tail) ↔
      ∃ word content later behind, Encodes offset type argument word content ∧
        encodeFrom (offset + content.length) rest = .ok (later, behind) ∧
        word ++ later = head ∧ content ++ behind = tail := by
  constructor
  · intro h
    -- one case for each type; a number where bytes have to be, or the reverse, has no encoding
    unfold encodeFrom at h
    split at h
    · rename_i int
      subst int
      cases argument with
      | bytes b => cases h
      | int value =>
        obtain ⟨word, encoded, h⟩ := bind_eq_ok.1 h
        obtain ⟨⟨later, behind⟩, after, joined⟩ := bind_eq_ok.1 h
        obtain ⟨n, rfl, fits, form⟩ := uintWord_eq_ok.1 encoded
        cases joined
        exact ⟨word, [], later, _, form ▸ .int fits, after, rfl, rfl⟩
    · split at h
      · rename_i word
        subst word
        cases argument with
        | int value => cases h
        | bytes value =>
          obtain ⟨word, encoded, h⟩ := bind_eq_ok.1 h
          obtain ⟨⟨later, behind⟩, after, joined⟩ := bind_eq_ok.1 h
          obtain ⟨short, form⟩ := bytesWord_eq_ok.1 encoded
          cases joined
          exact ⟨word, [], later, _, form ▸ .word short, after, rfl, rfl⟩
      · split at h
        · rename_i content
          subst content
          cases argument with
          | int value => cases h
          | bytes value =>
            obtain ⟨content, encoded, h⟩ := bind_eq_ok.1 h
            obtain ⟨word, pointer, h⟩ := bind_eq_ok.1 h
            obtain ⟨⟨later, behind⟩, after, joined⟩ := bind_eq_ok.1 h
            obtain ⟨size, form⟩ := dynamic_eq_ok.1 encoded
            obtain ⟨n, same, reached, position⟩ := uintWord_eq_ok.1 pointer
            obtain rfl := Int.ofNat_inj.1 same
            cases joined
            exact ⟨word, content, later, _, form ▸ position ▸ .content size reached, after,
              rfl, rfl⟩
        · cases h
  · rintro ⟨word, content, later, behind, one, after, rfl, rfl⟩
    unfold encodeFrom
    cases one with
    | int fits =>
      rw [if_pos rfl]
      exact bind_eq_ok.2 ⟨_, uintWord_eq_ok.2 ⟨_, rfl, fits, rfl⟩,
        bind_eq_ok.2 ⟨_, after, rfl⟩⟩
    | word short =>
      rw [if_neg (by decide), if_pos rfl]
      exact bind_eq_ok.2 ⟨_, bytesWord_eq_ok.2 ⟨short, rfl⟩, bind_eq_ok.2 ⟨_, after, rfl⟩⟩
    | content size reached =>
      rw [if_neg (by decide), if_neg (by decide), if_pos rfl]
      exact bind_eq_ok.2 ⟨_, dynamic_eq_ok.2 ⟨size, rfl⟩,
        bind_eq_ok.2 ⟨_, uintWord_eq_ok.2 ⟨_, rfl, reached, rfl⟩, bind_eq_ok.2 ⟨_, after, rfl⟩⟩⟩

theorem Encodes.encodeFrom_cons {offset : Nat} {type : Text} {argument : Argument}
    {rest : List (Text × Argument)} {word content later behind : Bytes}
    (one : Encodes offset type argument word content)
    (after : encodeFrom (offset + content.length) rest = .ok (later, behind)) :
    encodeFrom offset ((type, argument) :: rest) = .ok (word ++ later, content ++ behind) :=
  encodeFrom_cons_eq_ok.2 ⟨word, content, later, behind, one, after, rfl, rfl⟩

/-! ## One argument of many -/

theorem length_head {arguments : List (Text × Argument)} {offset : Nat} {head tail : Bytes}
    (h : encodeFrom offset arguments = .ok (head, tail)) :
    head.length = wordSize * arguments.length := by
  induction arguments generalizing offset head tail with
  | nil =>
    cases h
    rfl
  | cons first rest ih =>
    obtain ⟨word, content, later, behind, one, after, rfl, rfl⟩ := encodeFrom_cons_eq_ok.1 h
    rw [List.length_append, one.length_word, ih after, List.length_cons, Nat.mul_succ, Nat.add_comm]

/-- The word of an argument is in its slot, and its content stands behind that of the arguments
before it. -/
theorem encodeFrom_getElem {arguments : List (Text × Argument)} {offset i : Nat}
    {head tail : Bytes} {type : Text} {argument : Argument}
    (h : encodeFrom offset arguments = .ok (head, tail))
    (here : arguments[i]? = some (type, argument)) :
    ∃ word before content after, Encodes (offset + before.length) type argument word content ∧
      head.slice (wordSize * i) wordSize = word ∧ tail = before ++ content ++ after := by
  -- the arguments before only move the offset, so it is left open in the induction
  induction arguments generalizing offset i head tail with
  | nil => simp at here
  | cons first rest ih =>
    obtain ⟨word, content, later, behind, one, after, rfl, rfl⟩ := encodeFrom_cons_eq_ok.1 h
    cases i with
    | zero =>
      cases here
      refine ⟨word, [], content, behind, one, ?_, rfl⟩
      have mine := Bytes.slice_middle [] word later
      rwa [one.length_word] at mine
    | succ i =>
      obtain ⟨word', before, content', after', there, slot, rfl⟩ := ih after here
      refine ⟨word', content ++ before, content', after', ?_, ?_, by simp only [List.append_assoc]⟩
      · rwa [List.length_append, ← Nat.add_assoc]
      · rw [Nat.mul_succ, Nat.add_comm, ← one.length_word, Bytes.slice_append_right,
          one.length_word, slot]

theorem encodeArguments_eq_ok {types : List Text} {arguments : List Argument} {encoded : Bytes} :
    encodeArguments types arguments = .ok encoded ↔ types.length = arguments.length ∧
      ∃ head tail, encodeFrom (wordSize * types.length) (types.zip arguments) = .ok (head, tail) ∧
        head ++ tail = encoded := by
  unfold encodeArguments
  split
  · rename_i other
    simp only [reduceCtorEq, false_iff, not_and]
    exact fun same => absurd same other
  · rename_i same
    rw [and_iff_right (not_not.1 same)]
    cases encodeFrom (wordSize * types.length) (types.zip arguments) with
    | error e =>
      simp only [Except.map, reduceCtorEq, false_iff]
      rintro ⟨head, tail, ⟨⟩, -⟩
    | ok parts =>
      obtain ⟨head, tail⟩ := parts
      simp only [Except.map, Except.ok.injEq]
      constructor
      · exact fun joined => ⟨head, tail, rfl, joined⟩
      · rintro ⟨_, _, ⟨⟩, joined⟩
        exact joined

/-- The same for whole encodings, where the content stands where its offset says. -/
theorem encodeArguments_getElem {types : List Text} {arguments : List Argument} {encoded : Bytes}
    {type : Text} {argument : Argument} {i : Nat}
    (h : encodeArguments types arguments = .ok encoded) (kind : types[i]? = some type)
    (here : arguments[i]? = some argument) :
    ∃ word before content after, Encodes before.length type argument word content ∧
      encoded.slice (wordSize * i) wordSize = word ∧ encoded = before ++ content ++ after := by
  obtain ⟨same, head, tail, parts, rfl⟩ := encodeArguments_eq_ok.1 h
  have paired : (types.zip arguments)[i]? = some (type, argument) :=
    List.getElem?_zip_eq_some.2 ⟨kind, here⟩
  obtain ⟨word, before, content, after, one, slot, rfl⟩ := encodeFrom_getElem parts paired
  have size : head.length = wordSize * types.length := by
    rw [length_head parts, List.length_zip, ← same, Nat.min_self]
  refine ⟨word, head ++ before, content, after, ?_, ?_, by simp only [List.append_assoc]⟩
  · rwa [List.length_append, size]
  · have inside : i < types.length := (List.getElem?_eq_some_iff.1 kind).1
    rw [Bytes.slice_append_left, slot]
    rw [size, ← Nat.mul_succ]
    exact Nat.mul_le_mul_left wordSize inside

/-! ## Reading -/

section Reading

variable {front encoded : Bytes} {i : Nat}

theorem slice_slot (four : front.length = 4) :
    (front ++ encoded).slice (4 + wordSize * i) wordSize =
      encoded.slice (wordSize * i) wordSize := by
  rw [← four, Bytes.slice_append_right]

theorem dynamicArgument_of_pointer {before value after : Bytes} (four : front.length = 4)
    (size : value.length < Bytes.capacity wordSize)
    (pointer : word (front ++ encoded) i = before.length)
    (stands : encoded =
      before ++ (Bytes.ofNat wordSize value.length ++ value ++ filler value.length) ++ after) :
    dynamicArgument (front ++ encoded) i = value := by
  have start : (front ++ before).length = 4 + before.length := by rw [List.length_append, four]
  have length : (front ++ encoded).slice (4 + before.length) wordSize =
      Bytes.ofNat wordSize value.length := by
    have found := Bytes.slice_middle (front ++ before) (Bytes.ofNat wordSize value.length)
      (value ++ filler value.length ++ after)
    rw [start, Bytes.length_ofNat] at found
    simpa only [stands, List.append_assoc] using found
  have found := Bytes.slice_middle (front ++ before ++ Bytes.ofNat wordSize value.length) value
    (filler value.length ++ after)
  rw [List.length_append, start, Bytes.length_ofNat] at found
  rw [dynamicArgument, pointer, length, Bytes.toNat_ofNat size]
  simpa only [stands, List.append_assoc] using found

end Reading

/-- `ReadsBack calldata i type argument`: in slot `i` of calldata the modules read this argument,
where its type says how they read. -/
inductive ReadsBack (calldata : Bytes) (i : Nat) : Text → Argument → Prop
  | int {value : Int} (read : word calldata i = value) : ReadsBack calldata i "uint256" (.int value)
  | word {value : Bytes}
      (read : calldata.slice (4 + 32 * i) 32 = value ++ Bytes.zeros (32 - value.length)) :
      ReadsBack calldata i "bytes32" (.bytes value)
  | content {value : Bytes} (read : dynamicArgument calldata i = value) :
      ReadsBack calldata i "bytes" (.bytes value)

namespace ReadsBack

variable {calldata : Bytes} {i : Nat} {type : Text} {value : Bytes}

theorem eq_number {n : Nat} (h : ReadsBack calldata i type (.int n)) :
    Calldata.word calldata i = n := by
  cases h with
  | int read => exact Int.ofNat_inj.1 read

theorem eq_padded (h : ReadsBack calldata i type (.bytes value)) (kind : type = "bytes32") :
    calldata.slice (4 + 32 * i) 32 = value ++ Bytes.zeros (32 - value.length) := by
  cases h with
  | word read => exact read
  | content => exact absurd kind (by decide)

theorem eq_content (h : ReadsBack calldata i type (.bytes value)) (kind : type = "bytes") :
    dynamicArgument calldata i = value := by
  cases h with
  | word => exact absurd kind (by decide)
  | content read => exact read

end ReadsBack

theorem readsBack_of_encodeArguments {front encoded : Bytes} {types : List Text}
    {arguments : List Argument} {type : Text} {argument : Argument} {i : Nat}
    (four : front.length = 4) (h : encodeArguments types arguments = .ok encoded)
    (kind : types[i]? = some type) (here : arguments[i]? = some argument) :
    ReadsBack (front ++ encoded) i type argument := by
  obtain ⟨word', before, content, after, one, slot, stands⟩ := encodeArguments_getElem h kind here
  rw [← slice_slot four] at slot
  cases one with
  | int fits =>
    refine .int ?_
    rw [word, slot, Bytes.toNat_ofNat fits]
  | word short => exact .word slot
  | content size reached =>
    have pointer : word (front ++ encoded) i = before.length := by
      rw [word, slot, Bytes.toNat_ofNat reached]
    exact .content (dynamicArgument_of_pointer four size pointer stands)

/-! ## Calls -/

theorem length_selector {signature : Text} {front : Bytes} (h : selector signature = .ok front) :
    front.length = 4 := by
  unfold selector at h
  split at h
  · cases h
    rw [List.length_take, (Keccak.hash _).length_bytes]
    rfl
  · cases h

theorem exists_selector {signature : Text} (ascii : (asciiBytes? signature).isSome = true) :
    ∃ front, selector signature = .ok front := by
  obtain ⟨b, spelled⟩ := Option.isSome_iff_exists.1 ascii
  exact ⟨(Keccak.hash b).bytes.take 4, by rw [selector, spelled]⟩

theorem encodeCall_eq_ok {signature : Text} {arguments : List Argument} {calldata : Bytes} :
    encodeCall signature arguments = .ok calldata ↔
      ∃ parsed front encoded, Signature.parse signature = .ok parsed ∧
        selector signature = .ok front ∧ encodeArguments parsed.types arguments = .ok encoded ∧
        front ++ encoded = calldata := by
  simp only [encodeCall, bind_eq_ok]
  constructor
  · rintro ⟨parsed, read, front, hashed, encoded, filled, joined⟩
    exact ⟨parsed, front, encoded, read, hashed, filled, Except.ok.inj joined⟩
  · rintro ⟨parsed, front, encoded, read, hashed, filled, rfl⟩
    exact ⟨parsed, read, front, hashed, encoded, filled, rfl⟩

/-- A call starts with its selector, and the modules read its arguments in their slots. -/
theorem readsBack_of_encodeCall {signature : Text} {arguments : List Argument} {calldata : Bytes}
    {parsed : Signature} (h : encodeCall signature arguments = .ok calldata)
    (read : Signature.parse signature = .ok parsed) :
    selector signature = .ok (calldata.take 4) ∧
      ∀ (i : Nat) (type : Text) (argument : Argument), parsed.types[i]? = some type →
        arguments[i]? = some argument → ReadsBack calldata i type argument := by
  obtain ⟨parsed', front, encoded, read', hashed, filled, rfl⟩ := encodeCall_eq_ok.1 h
  cases read.symm.trans read'
  have four := length_selector hashed
  constructor
  · rw [hashed, List.take_left' four]
  · intro i type argument kind here
    exact readsBack_of_encodeArguments four filled kind here

end StepReplay.Calldata

namespace StepReplay.StepWitness

open Calldata

theorem parse_step :
    Signature.parse ({} : Signatures).step = .ok ⟨"step", ["bytes", "bytes"]⟩ := by
  rfl

/-- The calldata of a step is its selector and two arguments, the state and the proof. -/
theorem stepInput_eq_ok {w : StepWitness} {input : Bytes} :
    w.stepInput ({} : Signatures).step = .ok input ↔
      ∃ front encoded, selector ({} : Signatures).step = .ok front ∧
        encodeArguments ["bytes", "bytes"] [.bytes w.state.bytes, .bytes w.proof] = .ok encoded ∧
        front ++ encoded = input := by
  rw [stepInput, mapError_eq_ok, encodeCall_eq_ok]
  constructor
  · rintro ⟨parsed, front, encoded, read, hashed, filled, joined⟩
    cases parse_step.symm.trans read
    exact ⟨front, encoded, hashed, filled, joined⟩
  · rintro ⟨front, encoded, hashed, filled, joined⟩
    exact ⟨_, front, encoded, parse_step, hashed, filled, joined⟩

/-- The state and the places of the two arguments always fit their words, so the proof alone can be
too long. -/
theorem stepInput_isOk_iff (w : StepWitness) :
    (∃ input, w.stepInput ({} : Signatures).step = .ok input) ↔
      w.proof.length < Bytes.capacity wordSize := by
  constructor
  · rintro ⟨input, h⟩
    obtain ⟨-, encoded, -, filled, -⟩ := stepInput_eq_ok.1 h
    obtain ⟨-, head, tail, parts, -⟩ := encodeArguments_eq_ok.1 filled
    obtain ⟨_, _, _, _, -, rest, -, -⟩ := encodeFrom_cons_eq_ok.1 parts
    obtain ⟨_, _, _, _, proof, -⟩ := encodeFrom_cons_eq_ok.1 rest
    cases proof with
    | content size reached => exact size
  · intro fits
    obtain ⟨front, hashed⟩ := exists_selector
      (show (asciiBytes? ({} : Signatures).step).isSome = true by decide)
    have state : w.state.bytes.length < Bytes.capacity wordSize := by
      rw [w.state.length_bytes]
      decide
    have reached : wordSize * 2 + (Bytes.ofNat wordSize w.state.bytes.length ++ w.state.bytes
        ++ filler w.state.bytes.length).length < Bytes.capacity wordSize := by
      simp only [List.length_append, Bytes.length_ofNat, w.state.length_bytes]
      decide
    have parts := (Encodes.content state (by decide)).encodeFrom_cons
      ((Encodes.content fits reached).encodeFrom_cons (encodeFrom_nil _))
    exact ⟨_, stepInput_eq_ok.2 ⟨front, _, hashed,
      encodeArguments_eq_ok.2 ⟨rfl, _, _, parts, rfl⟩, rfl⟩⟩

theorem read_stepInput {w : StepWitness} {input : Bytes}
    (h : w.stepInput ({} : Signatures).step = .ok input) :
    dynamicArgument input 0 = w.state.bytes ∧ dynamicArgument input 1 = w.proof := by
  obtain ⟨-, back⟩ := readsBack_of_encodeCall (mapError_eq_ok.1 h) parse_step
  exact ⟨(back 0 _ _ rfl rfl).eq_content rfl, (back 1 _ _ rfl rfl).eq_content rfl⟩

end StepReplay.StepWitness

namespace StepReplay.Calldata

/-- The modules read every argument of an encoding in its slot, whatever arguments stand around it.
The calldata of a step can be encoded unless the proof has a length that fits no word, it gives the
state and the proof back, and so no other state or proof has the same calldata. -/
theorem slots_read_back :
    (∀ (front encoded : Bytes) (types : List Text) (arguments : List Argument),
      front.length = 4 → encodeArguments types arguments = .ok encoded →
        ∀ (i : Nat) (type : Text) (argument : Argument), types[i]? = some type →
          arguments[i]? = some argument → ReadsBack (front ++ encoded) i type argument) ∧
    (∀ w : StepWitness, (∃ input, w.stepInput ({} : Signatures).step = .ok input) ↔
      w.proof.length < Bytes.capacity 32) ∧
    (∀ (w : StepWitness) (input : Bytes), w.stepInput ({} : Signatures).step = .ok input →
      dynamicArgument input 0 = w.state.bytes ∧ dynamicArgument input 1 = w.proof) ∧
    ∀ (w w' : StepWitness) (input : Bytes), w.stepInput ({} : Signatures).step = .ok input →
      w'.stepInput ({} : Signatures).step = .ok input →
        w.state = w'.state ∧ w.proof = w'.proof := by
  refine ⟨?_, StepWitness.stepInput_isOk_iff, fun w input => StepWitness.read_stepInput, ?_⟩
  · intro front encoded types arguments four filled i type argument kind here
    exact readsBack_of_encodeArguments four filled kind here
  · intro w w' input h h'
    obtain ⟨state, proof⟩ := StepWitness.read_stepInput h
    obtain ⟨state', proof'⟩ := StepWitness.read_stepInput h'
    exact ⟨Block.ext (state.symm.trans state'), proof.symm.trans proof'⟩

/-- The last of four arguments of mixed types, and the calldata of a step with a short proof. -/
theorem slots_read_back_mixed :
    (∃ encoded, encodeArguments ["bytes", "uint256", "bytes32", "bytes"]
        [.bytes [1, 2, 3], .int 7, .bytes [9], .bytes [5]] = .ok encoded ∧
      ReadsBack ([0xAA, 0xBB, 0xCC, 0xDD] ++ encoded) 3 "bytes" (.bytes [5])) ∧
    ∃ input, StepWitness.stepInput { state := Block.zero 226, proof := [4] }
        ({} : Signatures).step = .ok input ∧
      dynamicArgument input 1 = [4] ∧
      ∀ w : StepWitness, w.stepInput ({} : Signatures).step = .ok input → [4] = w.proof := by
  obtain ⟨back, short, read, injective⟩ := slots_read_back
  constructor
  · have encodable : (encodeArguments ["bytes", "uint256", "bytes32", "bytes"]
        [.bytes [1, 2, 3], .int 7, .bytes [9], .bytes [5]]).isOk = true := by decide +kernel
    cases filled : encodeArguments ["bytes", "uint256", "bytes32", "bytes"]
        [.bytes [1, 2, 3], .int 7, .bytes [9], .bytes [5]] with
    | error e =>
      rw [filled] at encodable
      cases encodable
    | ok encoded => exact ⟨encoded, rfl, back _ encoded _ _ rfl filled 3 _ _ rfl rfl⟩
  · obtain ⟨input, h⟩ := (short { state := Block.zero 226, proof := [4] }).2 (by decide)
    exact ⟨input, h, (read _ input h).2, fun w h' => (injective _ w input h h').2⟩

end StepReplay.Calldata
