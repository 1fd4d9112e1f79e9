import Mathlib
import StepReplay.Proofs.Calldata

set_option autoImplicit false

/-! # Arguments as a tuple

A tuple is the heads of its values one after another and then their tails. The head of a byte string
of any length says where its tail stands: behind all heads and the tails of the values before it.
Here that sum is written out for each position, while the encoding keeps it as a running number, and
`encodeFrom_eq_ok` says that both are one. Whatever cannot be encoded is described position by
position too, so the first position that offends is the one whose error is reported. -/

namespace StepReplay.Calldata

/-! ## The tuple -/

/-- The words that a value takes up behind all heads. -/
def tailWords : Text × Argument → Nat
  | (type, .bytes value) => if type = "bytes" then 1 + (value.length + 31) / 32 else 0
  | (_, .int _) => 0

/-- The tail of a value: for a byte string of any length its length and then the string, filled with
zeros up to a whole number of words. -/
def tail : Text × Argument → Bytes
  | (type, .bytes value) =>
    if type = "bytes" then
      Bytes.ofNat 32 value.length ++ value.padRight (32 * ((value.length + 31) / 32))
    else []
  | (_, .int _) => []

/-- The head of a value whose tail stands at `place`. -/
def head (place : Nat) : Text × Argument → Bytes
  | (type, .bytes value) => if type = "bytes" then Bytes.ofNat 32 place else value.padRight 32
  | (_, .int value) => Bytes.ofNat 32 value.toNat

/-- Where the tail of the value at a position stands, if the first tail stands at `start`. -/
def placeFrom (start : Nat) (arguments : List (Text × Argument)) (i : Nat) : Nat :=
  start + ((arguments.take i).map fun argument => (tail argument).length).sum

/-- Where the tail of the value at a position stands in a tuple. -/
def place (arguments : List (Text × Argument)) (i : Nat) : Nat :=
  placeFrom (32 * arguments.length) arguments i

/-- The heads of values, of which the first tail stands at `start`. -/
def headsFrom (start : Nat) (arguments : List (Text × Argument)) : Bytes :=
  (arguments.mapIdx fun i argument => head (placeFrom start arguments i) argument).flatten

/-- The encoding of values as a tuple. -/
def tuple (arguments : List (Text × Argument)) : Bytes :=
  headsFrom (32 * arguments.length) arguments ++ arguments.flatMap tail

section Places

variable (start : Nat) (first : Text × Argument) (rest : List (Text × Argument))

theorem placeFrom_zero (arguments : List (Text × Argument)) : placeFrom start arguments 0 = start :=
  rfl

theorem placeFrom_cons_succ (i : Nat) :
    placeFrom start (first :: rest) (i + 1) = placeFrom (start + (tail first).length) rest i := by
  rw [placeFrom, List.take_succ_cons, List.map_cons, List.sum_cons, ← Nat.add_assoc]
  rfl

theorem headsFrom_cons : headsFrom start (first :: rest) =
    head start first ++ headsFrom (start + (tail first).length) rest := by
  rw [headsFrom, List.mapIdx_cons, List.flatten_cons, placeFrom_zero]
  simp only [placeFrom_cons_succ]
  rfl

end Places

theorem length_tail (argument : Text × Argument) :
    (tail argument).length = 32 * tailWords argument := by
  obtain ⟨type, value | value⟩ := argument
  · rfl
  · unfold tail tailWords
    dsimp only
    split
    · rw [List.length_append, Bytes.length_ofNat, Bytes.length_padRight (by omega)]
      omega
    · rfl

theorem sum_length_tail (arguments : List (Text × Argument)) :
    (arguments.map fun argument => (tail argument).length).sum =
      32 * (arguments.map tailWords).sum := by
  induction arguments with
  | nil => rfl
  | cons first rest ih =>
    rw [List.map_cons, List.sum_cons, ih, length_tail, List.map_cons, List.sum_cons, Nat.mul_add]

/-! ## What offends -/

/-- `Flawed type argument e`: an argument that is no value of a type. -/
inductive Flawed : Text → Argument → CallError → Prop
  | type {type : Text} {argument : Argument}
      (unsupported : type ∉ ([("uint256" : Text), "bytes32", "bytes"] : List Text)) :
      Flawed type argument (.unsupportedType type)
  | number {value : Int} (outside : ¬ (0 ≤ value ∧ value < Bytes.capacity 32)) :
      Flawed "uint256" (.int value) (.intOutOfRange value)
  | word {value : Bytes} (long : 32 < value.length) :
      Flawed "bytes32" (.bytes value) (.wordTooLong value.length)
  | bytesForNumber {value : Bytes} : Flawed "uint256" (.bytes value) .wrongArgument
  | numberForBytes {type : Text} {value : Int}
      (bytes : type ∈ ([("bytes32" : Text), "bytes"] : List Text)) :
      Flawed type (.int value) .wrongArgument

/-- `Offends place type argument e`: an argument that has no encoding as a value whose tail would
stand at `place`. Besides the flaws of its own, a word may not be able to tell the length of a byte
string or its place. -/
inductive Offends (place : Nat) : Text → Argument → CallError → Prop
  | flawed {type : Text} {argument : Argument} {e : CallError} (flaw : Flawed type argument e) :
      Offends place type argument e
  | length {value : Bytes} (long : Bytes.capacity 32 ≤ value.length) :
      Offends place "bytes" (.bytes value) (.intOutOfRange value.length)
  | place {value : Bytes} (short : value.length < Bytes.capacity 32)
      (far : Bytes.capacity 32 ≤ place) :
      Offends place "bytes" (.bytes value) (.intOutOfRange place)

section One

variable {offset : Nat} {type : Text} {argument : Argument} {rest : List (Text × Argument)}

/-- What has an encoding is encoded by its head and its tail. -/
theorem Encodes.eq_parts {word content : Bytes} (one : Encodes offset type argument word content) :
    word = head offset (type, argument) ∧ content = tail (type, argument) := by
  cases one with
  | int fits => exact ⟨rfl, rfl⟩
  | word short => exact ⟨rfl, rfl⟩
  | @content value size reached =>
    have filled : (wordSize - value.length % wordSize) % wordSize =
        32 * ((value.length + 31) / 32) - value.length := by
      rw [wordSize]
      omega
    refine ⟨rfl, ?_⟩
    rw [filler, filled, List.append_assoc]
    rfl

end One

/-! ## What is refused -/

theorem uintWord_eq_error {value : Int} {e : CallError} :
    uintWord value = .error e ↔
      ¬ (0 ≤ value ∧ value < Bytes.capacity wordSize) ∧ e = .intOutOfRange value := by
  unfold uintWord
  split
  · rename_i inside
    simp [inside]
  · rename_i outside
    simp only [Except.error.injEq, outside, not_false_eq_true, true_and, eq_comm]

theorem bytesWord_eq_error {value : Bytes} {e : CallError} :
    bytesWord value = .error e ↔ wordSize < value.length ∧ e = .wordTooLong value.length := by
  unfold bytesWord
  split
  · rename_i long
    simp only [Except.error.injEq, long, true_and, eq_comm]
  · rename_i short
    simp [short]

theorem dynamic_eq_error {value : Bytes} {e : CallError} :
    dynamic value = .error e ↔
      Bytes.capacity wordSize ≤ value.length ∧ e = .intOutOfRange value.length := by
  have outside : ¬ (0 ≤ (value.length : Int) ∧ (value.length : Int) < Bytes.capacity wordSize) ↔
      Bytes.capacity wordSize ≤ value.length := by omega
  rw [← outside, ← uintWord_eq_error, dynamic]
  cases uintWord value.length <;> simp [Except.map]

section Refused

variable {offset : Nat} {type : Text} {argument : Argument} {rest : List (Text × Argument)}

/-- What does not offend has an encoding. -/
theorem offends_or_encodes (offset : Nat) (type : Text) (argument : Argument) :
    (∃ e, Offends offset type argument e) ∨
      ∃ word content, Encodes offset type argument word content := by
  by_cases supported : type ∈ ([("uint256" : Text), "bytes32", "bytes"] : List Text)
  · simp only [List.mem_cons, List.not_mem_nil, or_false] at supported
    cases argument with
    | int value =>
      rcases supported with rfl | bytes
      · by_cases inside : 0 ≤ value ∧ value < Bytes.capacity 32
        · obtain ⟨n, rfl⟩ := Int.eq_ofNat_of_zero_le inside.1
          exact .inr ⟨_, _, .int (Int.ofNat_lt.1 inside.2)⟩
        · exact .inl ⟨_, .flawed (.number inside)⟩
      · exact .inl ⟨_, .flawed (.numberForBytes (by simpa using bytes))⟩
    | bytes value =>
      rcases supported with rfl | rfl | rfl
      · exact .inl ⟨_, .flawed .bytesForNumber⟩
      · by_cases short : value.length ≤ 32
        · exact .inr ⟨_, _, .word short⟩
        · exact .inl ⟨_, .flawed (.word (Nat.lt_of_not_le short))⟩
      · by_cases size : value.length < Bytes.capacity 32
        · by_cases reached : offset < Bytes.capacity 32
          · exact .inr ⟨_, _, .content size reached⟩
          · exact .inl ⟨_, .place size (Nat.le_of_not_lt reached)⟩
        · exact .inl ⟨_, .length (Nat.le_of_not_lt size)⟩
  · exact .inl ⟨_, .flawed (.type supported)⟩

/-- An argument that offends is refused, whatever stands behind it. -/
theorem encodeFrom_of_offends {e : CallError} (bad : Offends offset type argument e) :
    encodeFrom offset ((type, argument) :: rest) = .error e := by
  unfold encodeFrom
  cases bad with
  | length long =>
    rw [if_neg (by decide), if_neg (by decide), if_pos rfl]
    exact bind_eq_error.2 (.inl (dynamic_eq_error.2 ⟨long, rfl⟩))
  | place short far =>
    rw [if_neg (by decide), if_neg (by decide), if_pos rfl]
    have outside : ¬ (0 ≤ (offset : Int) ∧ (offset : Int) < Bytes.capacity 32) := by omega
    exact bind_eq_error.2 (.inr ⟨_, dynamic_eq_ok.2 ⟨short, rfl⟩,
      bind_eq_error.2 (.inl (uintWord_eq_error.2 ⟨outside, rfl⟩))⟩)
  | flawed flaw =>
    cases flaw with
    | type unsupported =>
      simp only [List.mem_cons, List.not_mem_nil, or_false, not_or] at unsupported
      rw [if_neg unsupported.1, if_neg unsupported.2.1, if_neg unsupported.2.2]
    | number outside =>
      rw [if_pos rfl]
      exact bind_eq_error.2 (.inl (uintWord_eq_error.2 ⟨outside, rfl⟩))
    | word long =>
      rw [if_neg (by decide), if_pos rfl]
      exact bind_eq_error.2 (.inl (bytesWord_eq_error.2 ⟨long, rfl⟩))
    | bytesForNumber => rw [if_pos rfl]
    | numberForBytes bytes =>
      simp only [List.mem_cons, List.not_mem_nil, or_false] at bytes
      rcases bytes with rfl | rfl <;> rfl

/-- Behind an argument with an encoding, the others are refused if anything is. -/
theorem encodeFrom_of_refused {word content : Bytes} {e : CallError}
    (one : Encodes offset type argument word content)
    (after : encodeFrom (offset + content.length) rest = .error e) :
    encodeFrom offset ((type, argument) :: rest) = .error e := by
  unfold encodeFrom
  cases one with
  | int fits =>
    rw [if_pos rfl]
    exact bind_eq_error.2 (.inr ⟨_, uintWord_eq_ok.2 ⟨_, rfl, fits, rfl⟩,
      bind_eq_error.2 (.inl after)⟩)
  | word short =>
    rw [if_neg (by decide), if_pos rfl]
    exact bind_eq_error.2 (.inr ⟨_, bytesWord_eq_ok.2 ⟨short, rfl⟩,
      bind_eq_error.2 (.inl after)⟩)
  | content size reached =>
    rw [if_neg (by decide), if_neg (by decide), if_pos rfl]
    exact bind_eq_error.2 (.inr ⟨_, dynamic_eq_ok.2 ⟨size, rfl⟩, bind_eq_error.2 (.inr
      ⟨_, uintWord_eq_ok.2 ⟨_, rfl, reached, rfl⟩, bind_eq_error.2 (.inl after)⟩)⟩)

end Refused

/-! ## Position by position -/

/-- The value at a position offends. -/
def OffendsAt (start : Nat) (arguments : List (Text × Argument)) (i : Nat) (e : CallError) : Prop :=
  ∃ type argument, arguments[i]? = some (type, argument) ∧
    Offends (placeFrom start arguments i) type argument e

section Positions

variable {start : Nat} {type : Text} {argument : Argument} {rest arguments : List (Text × Argument)}

theorem offendsAt_zero {e : CallError} :
    OffendsAt start ((type, argument) :: rest) 0 e ↔ Offends start type argument e := by
  constructor
  · rintro ⟨_, _, ⟨⟩, bad⟩
    exact bad
  · exact fun bad => ⟨type, argument, rfl, bad⟩

theorem offendsAt_succ {i : Nat} {e : CallError} :
    OffendsAt start ((type, argument) :: rest) (i + 1) e ↔
      OffendsAt (start + (tail (type, argument)).length) rest i e := by
  unfold OffendsAt
  rw [List.getElem?_cons_succ]
  simp only [placeFrom_cons_succ]

/-- The encoding of arguments among which none offends: their heads and their tails. -/
theorem encodeFrom_of_none_offends (none : ∀ i e, ¬ OffendsAt start arguments i e) :
    encodeFrom start arguments = .ok (headsFrom start arguments, arguments.flatMap tail) := by
  induction arguments generalizing start with
  | nil => rfl
  | cons first rest ih =>
    obtain ⟨type, argument⟩ := first
    rcases offends_or_encodes start type argument with ⟨e, bad⟩ | ⟨word, content, one⟩
    · exact absurd (offendsAt_zero.2 bad) (none 0 e)
    · obtain ⟨rfl, rfl⟩ := one.eq_parts
      rw [one.encodeFrom_cons (ih fun i e bad => none (i + 1) e (offendsAt_succ.2 bad)),
        headsFrom_cons, List.flatMap_cons]

/-- The first argument that offends is refused. -/
theorem encodeFrom_of_first_offends {i : Nat} {e : CallError} (here : OffendsAt start arguments i e)
    (before : ∀ j < i, ∀ e', ¬ OffendsAt start arguments j e') :
    encodeFrom start arguments = .error e := by
  induction arguments generalizing start i with
  | nil =>
    obtain ⟨_, _, ⟨⟩, -⟩ := here
  | cons first rest ih =>
    obtain ⟨type, argument⟩ := first
    cases i with
    | zero => exact encodeFrom_of_offends (offendsAt_zero.1 here)
    | succ i =>
      rcases offends_or_encodes start type argument with ⟨e', bad⟩ | ⟨word, content, one⟩
      · exact absurd (offendsAt_zero.2 bad) (before 0 (Nat.zero_lt_succ i) e')
      · refine encodeFrom_of_refused one ?_
        rw [one.eq_parts.2]
        exact ih (offendsAt_succ.1 here) fun j earlier e' bad =>
          before (j + 1) (Nat.succ_lt_succ earlier) e' (offendsAt_succ.2 bad)

/-- `FirstOffends start arguments i e`: the position is the first one that offends. -/
structure FirstOffends (start : Nat) (arguments : List (Text × Argument)) (i : Nat)
    (e : CallError) : Prop where
  here : OffendsAt start arguments i e
  before : ∀ j < i, ∀ e', ¬ OffendsAt start arguments j e'

theorem none_or_first_offends (start : Nat) (arguments : List (Text × Argument)) :
    (∀ i e, ¬ OffendsAt start arguments i e) ∨ ∃ i e, FirstOffends start arguments i e := by
  classical
  by_cases found : ∃ i e, OffendsAt start arguments i e
  · obtain ⟨e, here⟩ := Nat.find_spec found
    exact .inr ⟨Nat.find found, e, here, fun j earlier e' bad =>
      Nat.find_min found earlier ⟨e', bad⟩⟩
  · exact .inl fun i e bad => found ⟨i, e, bad⟩

theorem encodeFrom_eq_ok {parts : Bytes × Bytes} :
    encodeFrom start arguments = .ok parts ↔
      (∀ i e, ¬ OffendsAt start arguments i e) ∧
        parts = (headsFrom start arguments, arguments.flatMap tail) := by
  constructor
  · intro encoded
    rcases none_or_first_offends start arguments with none | ⟨i, e, first⟩
    · rw [encodeFrom_of_none_offends none] at encoded
      exact ⟨none, (Except.ok.inj encoded).symm⟩
    · rw [encodeFrom_of_first_offends first.here first.before] at encoded
      cases encoded
  · rintro ⟨none, rfl⟩
    exact encodeFrom_of_none_offends none

theorem encodeFrom_eq_error {e : CallError} :
    encodeFrom start arguments = .error e ↔ ∃ i, FirstOffends start arguments i e := by
  constructor
  · intro refused
    rcases none_or_first_offends start arguments with none | ⟨i, e', first⟩
    · rw [encodeFrom_of_none_offends none] at refused
      cases refused
    · obtain rfl := Except.error.inj
        ((encodeFrom_of_first_offends first.here first.before).symm.trans refused)
      exact ⟨i, first⟩
  · rintro ⟨i, first⟩
    exact encodeFrom_of_first_offends first.here first.before

end Positions

/-! ## The layout -/

section Layout

variable {start : Nat} {arguments : List (Text × Argument)} {argument : Text × Argument} {i : Nat}

theorem placeFrom_eq (start : Nat) (arguments : List (Text × Argument)) (i : Nat) :
    placeFrom start arguments i = start + 32 * ((arguments.take i).map tailWords).sum := by
  rw [placeFrom, sum_length_tail]

/-- Each tail begins where the one before it ends. -/
theorem placeFrom_succ (here : arguments[i]? = some argument) :
    placeFrom start arguments (i + 1) = placeFrom start arguments i + (tail argument).length := by
  rw [placeFrom, placeFrom, List.take_add_one, here, Option.toList_some, List.map_append,
    List.sum_append, ← Nat.add_assoc]
  rfl

theorem placeFrom_le (start : Nat) (arguments : List (Text × Argument)) (i : Nat) :
    placeFrom start arguments i ≤ start + 32 * (arguments.map tailWords).sum := by
  have split := congrArg (fun row => (row.map tailWords).sum) (List.take_append_drop i arguments)
  simp only [List.map_append, List.sum_append] at split
  rw [placeFrom_eq]
  omega

/-- Where the numbers of a tuple are small enough for words, only flaws of their own keep values
from being encoded. -/
theorem flawed_of_offendsAt {e : CallError}
    (small : start + 32 * (arguments.map tailWords).sum < Bytes.capacity 32)
    (bad : OffendsAt start arguments i e) :
    ∃ type argument, arguments[i]? = some (type, argument) ∧ Flawed type argument e := by
  obtain ⟨type, argument, here, offends⟩ := bad
  refine ⟨type, argument, here, ?_⟩
  cases offends with
  | flawed flaw => exact flaw
  | @length value long =>
    have next : placeFrom start arguments (i + 1) = _ := placeFrom_succ here
    have bound := placeFrom_le start arguments (i + 1)
    rw [length_tail, tailWords, if_pos rfl] at next
    omega
  | place short far =>
    have bound := placeFrom_le start arguments i
    omega

theorem length_head_of_not_offends (place : Nat) {type : Text} {argument : Argument}
    (fine : ∀ e, ¬ Offends place type argument e) : (head place (type, argument)).length = 32 := by
  rcases offends_or_encodes place type argument with ⟨e, bad⟩ | ⟨word, content, one⟩
  · exact absurd bad (fine e)
  · rw [← one.eq_parts.1]
    exact one.length_word

theorem slice_headsFrom (fine : ∀ i e, ¬ OffendsAt start arguments i e)
    (here : arguments[i]? = some argument) :
    (headsFrom start arguments).slice (32 * i) 32 =
      head (placeFrom start arguments i) argument := by
  -- the heads before only move the place, so it is left open in the induction
  induction arguments generalizing start i with
  | nil => simp at here
  | cons first rest ih =>
    obtain ⟨type, value⟩ := first
    have size : (head start (type, value)).length = 32 :=
      length_head_of_not_offends start fun e bad => fine 0 e (offendsAt_zero.2 bad)
    rw [headsFrom_cons]
    cases i with
    | zero =>
      cases here
      have mine := Bytes.slice_middle [] (head start (type, value))
        (headsFrom (start + (tail (type, value)).length) rest)
      rwa [size] at mine
    | succ i =>
      have behind := Bytes.slice_append_right (head start (type, value))
        (headsFrom (start + (tail (type, value)).length) rest) (32 * i) 32
      rw [size, show 32 + 32 * i = 32 * (i + 1) by omega] at behind
      rw [behind, placeFrom_cons_succ]
      exact ih (fun i e bad => fine (i + 1) e (offendsAt_succ.2 bad)) here

/-- `LaidOut arguments encoded`: heads and tails fill an encoding, each where it has to be. -/
structure LaidOut (arguments : List (Text × Argument)) (encoded : Bytes) : Prop where
  length : encoded.length = 32 * (arguments.length + (arguments.map tailWords).sum)
  heads : ∀ i argument, arguments[i]? = some argument →
    encoded.slice (32 * i) 32 = head (place arguments i) argument
  /-- What stands in the head of a byte string is the place of its tail. -/
  pointers : ∀ i value, arguments[i]? = some (("bytes" : Text), Argument.bytes value) →
    (encoded.slice (32 * i) 32).toNat = place arguments i
  tails : ∀ i argument, arguments[i]? = some argument →
    encoded.slice (place arguments i) (tail argument).length = tail argument
  aligned : ∀ i, 32 ∣ place arguments i
  first : place arguments 0 = 32 * arguments.length
  next : ∀ i argument, arguments[i]? = some argument →
    place arguments (i + 1) = place arguments i + (tail argument).length
  last : place arguments arguments.length = encoded.length

theorem laidOut_tuple (fine : ∀ i e, ¬ OffendsAt (32 * arguments.length) arguments i e) :
    LaidOut arguments (tuple arguments) := by
  have front : (headsFrom (32 * arguments.length) arguments).length = 32 * arguments.length :=
    length_head (encodeFrom_of_none_offends fine)
  have back : (arguments.flatMap tail).length = 32 * (arguments.map tailWords).sum := by
    rw [List.length_flatMap, sum_length_tail]
  have length : (tuple arguments).length =
      32 * (arguments.length + (arguments.map tailWords).sum) := by
    rw [tuple, List.length_append, front, back, Nat.mul_add]
  have heads (i : Nat) (argument : Text × Argument) (here : arguments[i]? = some argument) :
      (tuple arguments).slice (32 * i) 32 = head (place arguments i) argument := by
    have inside : i < arguments.length := (List.getElem?_eq_some_iff.1 here).1
    rw [tuple, Bytes.slice_append_left (by omega), slice_headsFrom fine here]
    rfl
  constructor
  case length => exact length
  case heads => exact heads
  case pointers =>
    intro i value here
    have reached : place arguments i < Bytes.capacity 32 := by
      rcases offends_or_encodes (place arguments i) "bytes" (.bytes value) with
        ⟨e, bad⟩ | ⟨_, _, one⟩
      · exact absurd ⟨_, _, here, bad⟩ (fine i e)
      · cases one with
        | content size reached => exact reached
    rw [heads i _ here]
    exact Bytes.toNat_ofNat reached
  case tails =>
    intro i argument here
    obtain ⟨inside, rfl⟩ := List.getElem?_eq_some_iff.1 here
    have stands : tuple arguments =
        headsFrom (32 * arguments.length) arguments ++ (arguments.take i).flatMap tail ++
          tail arguments[i] ++ (arguments.drop (i + 1)).flatMap tail := by
      have split := congrArg (List.flatMap tail) (List.take_append_drop i arguments)
      rw [List.drop_eq_getElem_cons inside, List.flatMap_append, List.flatMap_cons] at split
      rw [tuple, ← split]
      simp only [List.append_assoc]
    have before : (headsFrom (32 * arguments.length) arguments ++
        (arguments.take i).flatMap tail).length = place arguments i := by
      rw [List.length_append, front, List.length_flatMap]
      rfl
    rw [stands, ← before, Bytes.slice_middle]
  case aligned =>
    intro i
    rw [place, placeFrom_eq]
    omega
  case first => rfl
  case next => exact fun i argument => placeFrom_succ
  case last => rw [length, place, placeFrom_eq, List.take_length, Nat.mul_add]

end Layout

/-! ## Whole encodings -/

/-- `Refused types arguments e`: why arguments have no encoding, where what stands further left is
found first. -/
inductive Refused (types : List Text) (arguments : List Argument) : CallError → Prop
  | count (other : types.length ≠ arguments.length) :
      Refused types arguments (.argumentCount types.length arguments.length)
  | first {i : Nat} {e : CallError} (same : types.length = arguments.length)
      (offends : FirstOffends (32 * types.length) (types.zip arguments) i e) :
      Refused types arguments e

/-- `Typed type argument`: the argument is a number for a number's type and a byte string for one of
the others. -/
structure Typed (type : Text) (argument : Argument) : Prop where
  number : type = "uint256" → ∃ n, argument = .int n
  bytes : type = "bytes32" ∨ type = "bytes" → ∃ b, argument = .bytes b

/-- The only refusal that is about the kind of an argument is that of one of the wrong kind. -/
theorem Flawed.not_typed {type : Text} {argument : Argument} {e : CallError}
    (flaw : Flawed type argument e) (wrong : e = .wrongArgument) : ¬ Typed type argument := by
  intro typed
  cases flaw with
  | type | number | word => cases wrong
  | bytesForNumber =>
    obtain ⟨n, other⟩ := typed.number rfl
    cases other
  | numberForBytes bytes =>
    simp only [List.mem_cons, List.not_mem_nil, or_false] at bytes
    obtain ⟨b, other⟩ := typed.bytes bytes
    cases other

section Whole

variable {types : List Text} {arguments : List Argument}

theorem encodeArguments_eq_error {e : CallError} :
    encodeArguments types arguments = .error e ↔ Refused types arguments e := by
  unfold encodeArguments
  by_cases same : types.length = arguments.length
  · rw [if_neg (not_not.2 same), map_eq_error, encodeFrom_eq_error]
    constructor
    · rintro ⟨i, offends⟩
      exact .first same offends
    · intro refused
      cases refused with
      | count other => exact absurd same other
      | first _ offends => exact ⟨_, offends⟩
  · rw [if_pos same, Except.error.injEq]
    constructor
    · rintro rfl
      exact .count same
    · intro refused
      cases refused with
      | count => rfl
      | first equal => exact absurd equal same

theorem encodeArguments_eq_ok_tuple {encoded : Bytes} :
    encodeArguments types arguments = .ok encoded ↔ types.length = arguments.length ∧
      (∀ i e, ¬ OffendsAt (32 * types.length) (types.zip arguments) i e) ∧
      encoded = tuple (types.zip arguments) := by
  rw [encodeArguments_eq_ok]
  refine and_congr_right fun same => ?_
  have whole : tuple (types.zip arguments) = headsFrom (wordSize * types.length)
      (types.zip arguments) ++ (types.zip arguments).flatMap tail := by
    rw [tuple, List.length_zip, ← same, Nat.min_self]
    rfl
  constructor
  · rintro ⟨front, back, parts, rfl⟩
    obtain ⟨none, pair⟩ := encodeFrom_eq_ok.1 parts
    cases pair
    exact ⟨none, whole.symm⟩
  · rintro ⟨none, rfl⟩
    exact ⟨_, _, encodeFrom_of_none_offends none, whole.symm⟩

end Whole

/-- Arguments are refused just if their number is wrong or one of them offends, with the error of
the first that does, and are encoded as a tuple otherwise. As long as a word can count the bytes of
that tuple, an argument offends only by itself: its type is none of the three, it is a number
outside of a word or it is a byte string longer than a word. Heads and tails fill the tuple without
overlap or gap, and each pointer is the place of its tail. -/
theorem encodeArguments_tuple (types : List Text) (arguments : List Argument) :
    (∀ e, encodeArguments types arguments = .error e ↔ Refused types arguments e) ∧
    (∀ encoded, encodeArguments types arguments = .ok encoded ↔
      types.length = arguments.length ∧
        (∀ i e, ¬ OffendsAt (32 * types.length) (types.zip arguments) i e) ∧
        encoded = tuple (types.zip arguments)) ∧
    (32 * (types.length + ((types.zip arguments).map tailWords).sum) < Bytes.capacity 32 →
      ∀ i e, OffendsAt (32 * types.length) (types.zip arguments) i e ↔
        ∃ type argument, (types.zip arguments)[i]? = some (type, argument) ∧
          Flawed type argument e) ∧
    ((∀ (i : Nat) type argument, (types.zip arguments)[i]? = some (type, argument) →
        Typed type argument) →
      encodeArguments types arguments ≠ .error .wrongArgument) ∧
    ∀ encoded, encodeArguments types arguments = .ok encoded →
      LaidOut (types.zip arguments) encoded := by
  refine ⟨fun e => encodeArguments_eq_error, fun encoded => encodeArguments_eq_ok_tuple,
    ?_, ?_, ?_⟩
  · intro small i e
    constructor
    · exact flawed_of_offendsAt (by omega)
    · rintro ⟨type, argument, here, flaw⟩
      exact ⟨type, argument, here, .flawed flaw⟩
  · intro typed refused
    generalize wrong : CallError.wrongArgument = e at refused
    cases encodeArguments_eq_error.1 refused with
    | count => cases wrong
    | first same offends =>
      obtain ⟨type, argument, here, bad⟩ := offends.here
      cases bad with
      | flawed flaw => exact flaw.not_typed wrong.symm (typed _ type argument here)
      | length | place => cases wrong
  · intro encoded encodes
    obtain ⟨same, none, rfl⟩ := encodeArguments_eq_ok_tuple.1 encodes
    refine laidOut_tuple ?_
    rwa [List.length_zip, ← same, Nat.min_self]

/-- Four arguments of mixed types, the last of them empty, fill seven words; and of a negative
number and an unknown type behind it, the number is what offends. -/
theorem encodeArguments_tuple_mixed :
    (∃ encoded, encodeArguments ["bytes", "uint256", "bytes32", "bytes"]
        [.bytes [1, 2, 3], .int 7, .bytes [9], .bytes []] = .ok encoded ∧
      encoded.length = 224 ∧ (encoded.slice 96 32).toNat = 192 ∧
      encoded.slice 128 64 = Bytes.ofNat 32 3 ++ Bytes.padRight 32 [1, 2, 3]) ∧
    Refused ["uint256", "bool"] [.int (-1), .int 0] (.intOutOfRange (-1)) := by
  constructor
  · obtain ⟨-, -, -, -, layout⟩ := encodeArguments_tuple ["bytes", "uint256", "bytes32", "bytes"]
      [.bytes [1, 2, 3], .int 7, .bytes [9], .bytes []]
    have encodable : (encodeArguments ["bytes", "uint256", "bytes32", "bytes"]
        [.bytes [1, 2, 3], .int 7, .bytes [9], .bytes []]).isOk = true := by decide +kernel
    cases filled : encodeArguments ["bytes", "uint256", "bytes32", "bytes"]
        [.bytes [1, 2, 3], .int 7, .bytes [9], .bytes []] with
    | error e =>
      rw [filled] at encodable
      cases encodable
    | ok encoded =>
      have laid := layout encoded filled
      exact ⟨encoded, rfl, laid.length, laid.pointers 3 [] rfl, laid.tails 0 _ rfl⟩
  · exact ((encodeArguments_tuple _ _).1 _).1 rfl

end StepReplay.Calldata
