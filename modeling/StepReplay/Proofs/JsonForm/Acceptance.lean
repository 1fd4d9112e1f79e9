import StepReplay.Proofs.Fixture

set_option autoImplicit false

/-! # Which JSON values are accepted

A field may hold any value, so much can be wrong at once. What is wrong with each part is described
by itself, and the parts have an order in which they are looked at: the first part with a defect is
the one that is reported, and a value without any defect is accepted. -/

namespace StepReplay

/-! ## The first defect -/

/-- `FirstDefect finds parts e`: of these parts, the first that has a defect has this one. -/
inductive FirstDefect {P : Type} (finds : P → DecodeError → Prop) : List P → DecodeError → Prop
  | here {p : P} {later : List P} {e : DecodeError} (found : finds p e) :
      FirstDefect finds (p :: later) e
  | later {p : P} {later : List P} {e : DecodeError} (clear : ∀ e', ¬ finds p e')
      (rest : FirstDefect finds later e) : FirstDefect finds (p :: later) e

namespace FirstDefect

variable {P α β : Type} {finds : P → DecodeError → Prop} {p : P} {later : List P} {e : DecodeError}

theorem exists_found {parts : List P} (first : FirstDefect finds parts e) : ∃ p, finds p e := by
  induction first with
  | here found => exact ⟨_, found⟩
  | later clear rest ih => exact ih

theorem cons_of_clear (clear : ∀ e', ¬ finds p e') :
    FirstDefect finds (p :: later) e ↔ FirstDefect finds later e := by
  constructor
  · intro first
    cases first with
    | here found => exact absurd found (clear e)
    | later _ rest => exact rest
  · exact .later clear

/-- Where the first part has one defect only, that is the one. -/
theorem cons_of_found {d : DecodeError} (found : finds p d) (only : ∀ e', finds p e' → d = e') :
    FirstDefect finds (p :: later) e ↔ d = e := by
  constructor
  · intro first
    cases first with
    | here found' => exact only e found'
    | later clear => exact absurd found (clear d)
  · rintro rfl
    exact .here found

/-- A step that fails with the defect of its part leaves the others to what comes after it. -/
theorem bind {x : Except DecodeError α} {f : α → Except DecodeError β}
    (mine : ∀ e, x = .error e ↔ finds p e)
    (rest : ∀ a, x = .ok a → ∀ e, f a = .error e ↔ FirstDefect finds later e) (e : DecodeError) :
    (x >>= f) = .error e ↔ FirstDefect finds (p :: later) e := by
  cases ends : x with
  | error d =>
    rw [cons_of_found ((mine d).1 ends) fun e' found =>
      Except.error.inj (ends.symm.trans ((mine e').2 found))]
    exact ⟨Except.error.inj, congrArg Except.error⟩
  | ok a =>
    have clear (e' : DecodeError) : ¬ finds p e' := by
      rw [← mine, ends]
      exact nofun
    rw [cons_of_clear clear, ← rest a ends e]
    rfl

theorem nil {a : α} (e : DecodeError) :
    (pure a : Except DecodeError α) = .error e ↔ FirstDefect finds [] e := by
  constructor
  · exact nofun
  · exact nofun

end FirstDefect

/-- What a computation needs to end well is exactly what an error excludes. -/
theorem exists_ok_iff {α : Type} {x : Except DecodeError α} {P : Prop} (ok : ∀ a, x = .ok a → P)
    (error : ∀ e, x = .error e → ¬ P) : (∃ a, x = .ok a) ↔ P := by
  constructor
  · rintro ⟨a, ends⟩
    exact ok a ends
  · intro holds
    cases ends : x with
    | ok a => exact ⟨a, rfl⟩
    | error e => exact absurd holds (error e ends)

/-! ## Hex texts -/

namespace Json

/-- The value is a hex text of these bytes. -/
def IsHex (v : Json) (b : Bytes) : Prop :=
  ∃ t, v = .string t ∧ Hex.decode? (HexForm.digits t) = some b

/-- `Garbled size v e`: the value is no hex text of so many bytes, or of any where none are asked
for. -/
inductive Garbled (size : Option Nat) : Json → DecodeError → Prop
  | kind {v : Json} (other : ∀ t, v ≠ .string t) : Garbled size v (.notText v.kind)
  | digits {t : Text} (unread : Hex.decode? (HexForm.digits t) = none) :
      Garbled size (.string t) (.notHex t)
  | size {t : Text} {b : Bytes} {n : Nat} (asked : size = some n)
      (read : Hex.decode? (HexForm.digits t) = some b) (other : b.length ≠ n) :
      Garbled size (.string t) (.wrongSize n b.length)

theorem Garbled.kind_eq {size : Option Nat} {v : Json} {e : DecodeError} (bad : Garbled size v e) :
    e.kind = "FormatError" ∨ e.kind = "SizeError" := by
  cases bad with
  | kind => exact .inl rfl
  | digits => exact .inl rfl
  | size => exact .inr rfl

theorem Garbled.not_isHex {size : Option Nat} {v : Json} {e : DecodeError} (bad : Garbled size v e)
    {b : Bytes} (fits : ∀ n ∈ size, b.length = n) : ¬ v.IsHex b := by
  rintro ⟨t, rfl, read⟩
  cases bad with
  | kind other => exact other t rfl
  | digits unread => cases read.symm.trans unread
  | size asked read' other =>
    cases read.symm.trans read'
    exact other (fits _ asked)

end Json

open Json (Garbled)

section Hex

variable (size : Option Nat) {v : Json} {b : Bytes} {e : DecodeError}

theorem HexForm.read_eq_error :
    HexForm.read ⟨size.map Nat.cast⟩ v = .error e ↔ Garbled size v e := by
  constructor
  · intro refused
    unfold HexForm.read at refused
    split at refused
    · rename_i t
      unfold decode at refused
      split at refused
      · rename_i b read
        obtain ⟨n, asked, other, rfl⟩ := checkSize_eq_error.1 refused
        obtain ⟨m, sized, rfl⟩ := Option.map_eq_some_iff.1 asked
        exact .size sized read fun same => other (congrArg Nat.cast same.symm)
      · rename_i unread
        cases refused
        exact .digits unread
    · rename_i other
      cases refused
      exact .kind other
  · intro bad
    cases bad with
    | kind other =>
      cases v with
      | string t => exact absurd rfl (other t)
      | _ => rfl
    | digits unread => rw [read, decode, unread]
    | @size t b n asked read' other =>
      rw [read, decode, read']
      refine checkSize_eq_error.2 ⟨n, congrArg (Option.map Nat.cast) asked, ?_, rfl⟩
      exact fun same => other (Int.ofNat_inj.1 same.symm)

theorem HexForm.read_eq_ok :
    HexForm.read ⟨size.map Nat.cast⟩ v = .ok b ↔ v.IsHex b ∧ ∀ n ∈ size, b.length = n := by
  constructor
  · intro accepted
    unfold HexForm.read at accepted
    split at accepted
    · rename_i t
      unfold decode at accepted
      split at accepted
      · rename_i b' read
        obtain ⟨fits, rfl⟩ := checkSize_eq_ok.1 accepted
        refine ⟨⟨t, rfl, read⟩, fun n asked => ?_⟩
        cases asked
        simpa [eq_comm] using fits
      · cases accepted
    · cases accepted
  · rintro ⟨hex, fits⟩
    -- what is not refused is read as the bytes of the text
    cases ends : HexForm.read ⟨size.map Nat.cast⟩ v with
    | error e => exact absurd hex (((read_eq_error size).1 ends).not_isHex fits)
    | ok b' =>
      obtain ⟨t, rfl, read'⟩ := hex
      rw [read, decode, read'] at ends
      rw [(checkSize_eq_ok.1 ends).2]

end Hex

section Blocks

variable {n : Nat} {v : Json} {e : DecodeError}

theorem Block.read_eq_ok {b : Block n} : Block.read n v = .ok b ↔ v.IsHex b.bytes := by
  rw [Block.read, bind_eq_ok]
  constructor
  · rintro ⟨bytes, accepted, made⟩
    cases Block.ofBytes_eq_ok.1 made
    exact ((HexForm.read_eq_ok (some n)).1 accepted).1
  · intro hex
    refine ⟨b.bytes, (HexForm.read_eq_ok (some n)).2 ⟨hex, fun m asked => ?_⟩,
      Block.ofBytes_eq_ok.2 rfl⟩
    cases asked
    exact b.length_bytes

theorem Block.read_eq_error : Block.read n v = .error e ↔ Garbled (some n) v e := by
  rw [Block.read, bind_eq_error]
  constructor
  · rintro (refused | ⟨bytes, accepted, other⟩)
    · exact (HexForm.read_eq_error (some n)).1 refused
    · have fits := ((HexForm.read_eq_ok (some n)).1 accepted).2 n rfl
      rw [Block.ofBytes, dif_pos fits] at other
      cases other
  · exact fun bad => .inl ((HexForm.read_eq_error (some n)).2 bad)

end Blocks

namespace StepWitness

/-! ## Parts that may be absent -/

theorem readOptional_eq_error {α β : Type} {f : α → Except DecodeError β} {part : Option α}
    {e : DecodeError} : readOptional f part = .error e ↔ ∃ a, part = some a ∧ f a = .error e := by
  cases part with
  | none =>
    constructor
    · exact nofun
    · rintro ⟨a, ⟨⟩, -⟩
  | some a =>
    rw [readOptional, map_eq_error]
    simp

theorem readOptional_rel {α β : Type} {f : α → Except DecodeError β} {R : α → β → Prop}
    (each : ∀ a b, f a = .ok b ↔ R a b) {part : Option α} {out : Option β} :
    readOptional f part = .ok out ↔ Option.Rel R part out := by
  cases part with
  | none =>
    constructor
    · rintro ⟨⟩
      exact .none
    · rintro ⟨⟩
      rfl
  | some a =>
    rw [readOptional, map_eq_ok]
    constructor
    · rintro ⟨b, made, rfl⟩
      exact .some ((each a b).1 made)
    · rintro ⟨made⟩
      exact ⟨_, (each a _).2 made, rfl⟩

theorem present?_eq_some {j : Json} {key : Text} {v : Json} :
    j.present? key = some v ↔ j.field? key = some v ∧ v ≠ .null := by
  unfold Json.present?
  split
  · rename_i null
    rw [null]
    simp [eq_comm]
  · rename_i other
    constructor
    · intro found
      refine ⟨found, ?_⟩
      rintro rfl
      exact other found
    · exact And.left

theorem offsetOfInt_eq_error {n : Int} {e : DecodeError} :
    offsetOfInt n = .error e ↔ ¬ (0 ≤ n ∧ n < 2 ^ 32) ∧ e = .offsetOutOfRange n := by
  have same : (0 ≤ n ∧ n < (Bytes.capacity 4 : Nat)) ↔ 0 ≤ n ∧ n < 2 ^ 32 := Iff.rfl
  rw [offsetOfInt, ← same]
  split
  · rename_i range
    simp [range]
  · rename_i range
    simp only [Except.error.injEq, range, not_false_eq_true, true_and, eq_comm]

/-! ## Witnesses -/

/-- What is looked at in a witness. -/
inductive Part where
  | shape
  | offsetType
  | state
  | proof
  | key
  | value
  | offsetRange

/-- The parts in the order in which they are looked at. -/
def Part.order : List Part :=
  [.shape, .offsetType, .state, .proof, .key, .value, .offsetRange]

/-- `Defect j part e`: what is wrong with a part of a value, whatever is wrong with others. -/
inductive Defect (j : Json) : Part → DecodeError → Prop
  | shape (without : j.field? "state" = none) : Defect j .shape .noState
  | offsetType {v : Json} (given : j.present? "preimageOffset" = some v)
      (other : ∀ n, v ≠ .int n) : Defect j .offsetType (.offsetNotInteger v)
  | state {v : Json} {e : DecodeError} (given : j.field? "state" = some v)
      (bad : Garbled (some 226) v e) : Defect j .state e
  | proof {v : Json} {e : DecodeError} (given : j.field? "proof" = some v)
      (bad : Garbled none v e) : Defect j .proof e
  | key {v : Json} {e : DecodeError} (given : j.present? "preimageKey" = some v)
      (bad : Garbled (some 32) v e) : Defect j .key e
  | value {v : Json} {e : DecodeError} (given : j.present? "preimageValue" = some v)
      (bad : Garbled none v e) : Defect j .value e
  | offsetRange {n : Int} (given : j.present? "preimageOffset" = some (.int n))
      (outside : ¬ (0 ≤ n ∧ n < 2 ^ 32)) : Defect j .offsetRange (.offsetOutOfRange n)

/-- `Documented j`: a value has the documented form of a witness. -/
structure Documented (j : Json) : Prop where
  state : ∃ v b, j.field? "state" = some v ∧ v.IsHex b ∧ b.length = 226
  proof : ∀ v, j.field? "proof" = some v → ∃ b, v.IsHex b
  key : ∀ v, j.field? "preimageKey" = some v → v = .null ∨ ∃ b, v.IsHex b ∧ b.length = 32
  value : ∀ v, j.field? "preimageValue" = some v → v = .null ∨ ∃ b, v.IsHex b
  offset : ∀ v, j.field? "preimageOffset" = some v →
    v = .null ∨ ∃ n, v = .int n ∧ 0 ≤ n ∧ n < 2 ^ 32

/-- `Holds j w`: the fields of a value hold the parts of a witness. -/
structure Holds (j : Json) (w : StepWitness) : Prop where
  state : ∃ v, j.field? "state" = some v ∧ v.IsHex w.state.bytes
  proof : ((j.field? "proof").getD (.string "0x")).IsHex w.proof
  key : Option.Rel (fun v (key : Block 32) => v.IsHex key.bytes) (j.present? "preimageKey")
    w.preimageKey
  value : Option.Rel Json.IsHex (j.present? "preimageValue") w.preimageValue
  offset : Option.Rel (fun v (n : UInt32) => v = .int n.toNat) (j.present? "preimageOffset")
    w.preimageOffset

section

variable {j : Json} {w : StepWitness} {e : DecodeError}

theorem Defect.kind_eq {part : Part} (defect : Defect j part e) :
    e.kind = "FormatError" ∨ e.kind = "SizeError" := by
  cases defect with
  | shape | offsetType | offsetRange => exact .inl rfl
  | state _ bad | proof _ bad | key _ bad | value _ bad => exact bad.kind_eq

theorem integerOf_eq_ok {v : Json} {n : Int} : integerOf v = .ok n ↔ v = .int n := by
  cases v with
  | int m => exact ⟨fun read => congrArg Json.int (Except.ok.inj read), by rintro ⟨⟩; rfl⟩
  | _ => exact ⟨nofun, nofun⟩

theorem integerOf_eq_error {v : Json} :
    integerOf v = .error e ↔ (∀ n, v ≠ .int n) ∧ e = .offsetNotInteger v := by
  cases v with
  | int n => exact ⟨nofun, fun h => absurd rfl (h.1 n)⟩
  | _ => exact ⟨fun refused => ⟨nofun, (Except.error.inj refused).symm⟩, fun h => h.2 ▸ rfl⟩

/-! ### Each part by itself -/

theorem offsetType_iff : readOptional integerOf (j.present? "preimageOffset") = .error e ↔
    Defect j .offsetType e := by
  rw [readOptional_eq_error]
  constructor
  · rintro ⟨v, given, refused⟩
    obtain ⟨other, rfl⟩ := integerOf_eq_error.1 refused
    exact .offsetType given other
  · intro defect
    cases defect with
    | offsetType given other => exact ⟨_, given, integerOf_eq_error.2 ⟨other, rfl⟩⟩

theorem state_iff {v : Json} (given : j.field? "state" = some v) :
    Block.read 226 v = .error e ↔ Defect j .state e := by
  rw [Block.read_eq_error]
  constructor
  · exact .state given
  · intro defect
    cases defect with
    | state given' bad =>
      cases given.symm.trans given'
      exact bad

/-- Without a proof there is an empty one, which is fine. -/
theorem proof_iff : HexForm.read {} ((j.field? "proof").getD (.string "0x")) = .error e ↔
    Defect j .proof e := by
  cases given : j.field? "proof" with
  | none =>
    constructor
    · exact nofun
    · intro defect
      cases defect with
      | proof given' => cases given.symm.trans given'
  | some v =>
    refine (HexForm.read_eq_error none).trans ⟨.proof given, fun defect => ?_⟩
    cases defect with
    | proof given' bad =>
      cases given.symm.trans given'
      exact bad

theorem key_iff : readOptional (Block.read 32) (j.present? "preimageKey") = .error e ↔
    Defect j .key e := by
  rw [readOptional_eq_error]
  constructor
  · rintro ⟨v, given, refused⟩
    exact .key given (Block.read_eq_error.1 refused)
  · intro defect
    cases defect with
    | key given bad => exact ⟨_, given, Block.read_eq_error.2 bad⟩

theorem value_iff : readOptional (HexForm.read {}) (j.present? "preimageValue") = .error e ↔
    Defect j .value e := by
  rw [readOptional_eq_error]
  constructor
  · rintro ⟨v, given, refused⟩
    exact .value given ((HexForm.read_eq_error none).1 refused)
  · intro defect
    cases defect with
    | value given bad => exact ⟨_, given, (HexForm.read_eq_error none).2 bad⟩

/-- The range is looked at where there is an integer. -/
theorem offsetRange_iff {offset : Option Int}
    (typed : readOptional integerOf (j.present? "preimageOffset") = .ok offset) :
    readOptional offsetOfInt offset = .error e ↔ Defect j .offsetRange e := by
  have related := (readOptional_rel fun v n => integerOf_eq_ok).1 typed
  rw [readOptional_eq_error]
  constructor
  · rintro ⟨n, rfl, refused⟩
    obtain ⟨outside, rfl⟩ := offsetOfInt_eq_error.1 refused
    generalize given : j.present? "preimageOffset" = part at related
    cases related with
    | some same =>
      rw [same] at given
      exact .offsetRange given outside
  · intro defect
    cases defect with
    | @offsetRange n given outside =>
      rw [given] at related
      cases related with
      | some same =>
        cases same
        exact ⟨n, rfl, offsetOfInt_eq_error.2 ⟨outside, rfl⟩⟩

/-- A value is refused with the first defect that it has. -/
theorem ofJson_eq_error : ofJson j = .error e ↔ FirstDefect (Defect j) Part.order e := by
  cases given : j.field? "state" with
  | none =>
    rw [ofJson, given, Part.order, FirstDefect.cons_of_found (.shape given)]
    · exact ⟨Except.error.inj, congrArg Except.error⟩
    · rintro e' ⟨-⟩
      rfl
  | some v =>
    rw [ofJson, given, Part.order, FirstDefect.cons_of_clear]
    · refine FirstDefect.bind (fun e => offsetType_iff) (fun offset typed => ?_) e
      refine FirstDefect.bind (fun e => state_iff given) (fun state _ => ?_)
      refine FirstDefect.bind (fun e => proof_iff) (fun proof _ => ?_)
      refine FirstDefect.bind (fun e => key_iff) (fun key _ => ?_)
      refine FirstDefect.bind (fun e => value_iff) (fun value _ => ?_)
      exact FirstDefect.bind (fun e => offsetRange_iff typed) (fun offset _ => FirstDefect.nil)
    · rintro e' ⟨without⟩
      cases given.symm.trans without

/-! ### All parts together -/

theorem offset_rel {part : Option Json} {offset : Option UInt32} :
    (∃ number, readOptional integerOf part = .ok number ∧
      readOptional offsetOfInt number = .ok offset) ↔
      Option.Rel (fun v (n : UInt32) => v = .int n.toNat) part offset := by
  constructor
  · rintro ⟨number, typed, range⟩
    have integers := (readOptional_rel fun v n => integerOf_eq_ok).1 typed
    have numbers := (readOptional_rel fun n m => offsetOfInt_eq_ok).1 range
    cases integers with
    | none =>
      cases numbers
      exact .none
    | some same =>
      cases numbers with
      | some fits => exact .some (by rw [same, fits])
  · intro related
    cases related with
    | none => exact ⟨none, rfl, rfl⟩
    | some same =>
      exact ⟨some _, (readOptional_rel fun v n => integerOf_eq_ok).2 (.some same),
        (readOptional_rel fun n m => offsetOfInt_eq_ok).2 (.some rfl)⟩

/-- What a value is read as. -/
theorem ofJson_eq_ok : ofJson j = .ok w ↔ Holds j w := by
  have block {n : Nat} (v : Json) (b : Block n) : Block.read n v = .ok b ↔ v.IsHex b.bytes :=
    Block.read_eq_ok
  have bytes (v : Json) (b : Bytes) : HexForm.read {} v = .ok b ↔ v.IsHex b := by
    refine (HexForm.read_eq_ok none).trans (and_iff_left fun n asked => ?_)
    cases asked
  cases given : j.field? "state" with
  | none =>
    rw [ofJson, given]
    constructor
    · intro accepted
      cases accepted
    · intro holds
      obtain ⟨v, given', -⟩ := holds.state
      cases given.symm.trans given'
  | some v =>
    rw [ofJson, given]
    simp only [bind_eq_ok, readOptional_rel block, readOptional_rel bytes, block, bytes]
    constructor
    · rintro ⟨number, typed, state, hex, proof, hexProof, key, hexKey, value, hexValue, offset,
        range, ⟨⟩⟩
      exact ⟨⟨v, given, hex⟩, hexProof, hexKey, hexValue, offset_rel.1 ⟨number, typed, range⟩⟩
    · rintro ⟨⟨v', given', hex⟩, hexProof, hexKey, hexValue, offsets⟩
      cases given.symm.trans given'
      obtain ⟨number, typed, range⟩ := offset_rel.2 offsets
      exact ⟨number, typed, _, hex, _, hexProof, _, hexKey, _, hexValue, _, range, rfl⟩

/-- What is documented has no defect. -/
theorem Documented.not_defect (documented : Documented j) (part : Part) : ¬ Defect j part e := by
  intro defect
  cases defect with
  | shape without =>
    obtain ⟨v, b, given, -⟩ := documented.state
    cases given.symm.trans without
  | offsetType given other =>
    obtain ⟨field, some⟩ := present?_eq_some.1 given
    rcases documented.offset _ field with null | ⟨n, integer, -⟩
    · exact some null
    · exact other n integer
  | state given bad =>
    obtain ⟨v, b, given', hex, size⟩ := documented.state
    cases given.symm.trans given'
    exact bad.not_isHex (by simpa using size) hex
  | proof given bad =>
    obtain ⟨b, hex⟩ := documented.proof _ given
    exact bad.not_isHex nofun hex
  | key given bad =>
    obtain ⟨field, some⟩ := present?_eq_some.1 given
    rcases documented.key _ field with null | ⟨b, hex, size⟩
    · exact some null
    · exact bad.not_isHex (by simpa using size) hex
  | value given bad =>
    obtain ⟨field, some⟩ := present?_eq_some.1 given
    rcases documented.value _ field with null | ⟨b, hex⟩
    · exact some null
    · exact bad.not_isHex nofun hex
  | offsetRange given outside =>
    rcases documented.offset _ (present?_eq_some.1 given).1 with null | ⟨n, integer, range⟩
    · cases null
    · cases integer
      exact outside range

/-- A field that is read where it is there is null or is read. -/
theorem null_or_rel {β : Type} {R : Json → β → Prop} {key : Text} {v : Json} {out : Option β}
    (related : Option.Rel R (j.present? key) out) (given : j.field? key = some v) :
    v = .null ∨ ∃ b, R v b := by
  by_cases null : v = .null
  · exact .inl null
  · rw [present?_eq_some.2 ⟨given, null⟩] at related
    cases related with
    | some found => exact .inr ⟨_, found⟩

theorem Holds.documented (holds : Holds j w) : Documented j where
  state := by
    obtain ⟨v, given, hex⟩ := holds.state
    exact ⟨v, _, given, hex, w.state.length_bytes⟩
  proof := by
    intro v given
    have hex := holds.proof
    rw [given] at hex
    exact ⟨_, hex⟩
  key := by
    intro v given
    rcases null_or_rel holds.key given with null | ⟨key, hex⟩
    · exact .inl null
    · exact .inr ⟨_, hex, key.length_bytes⟩
  value := fun v => null_or_rel holds.value
  offset := by
    intro v given
    rcases null_or_rel holds.offset given with null | ⟨n, integer⟩
    · exact .inl null
    · exact .inr ⟨n.toNat, integer, Int.natCast_nonneg _, Int.ofNat_lt.2 n.toNat_lt⟩

/-- Exactly the documented form is accepted. -/
theorem exists_ofJson_iff : (∃ w, ofJson j = .ok w) ↔ Documented j := by
  refine exists_ok_iff (fun w accepted => (ofJson_eq_ok.1 accepted).documented) ?_
  intro e refused documented
  obtain ⟨part, defect⟩ := (ofJson_eq_error.1 refused).exists_found
  exact documented.not_defect part defect

/-- Only the documented fields are looked at. -/
theorem ofJson_of_keys {k : Json} (same : ∀ key ∈ keys, j.field? key = k.field? key) :
    ofJson j = ofJson k := by
  simp only [keys, List.forall_mem_cons] at same
  obtain ⟨state, proof, key, value, offset, -⟩ := same
  simp only [ofJson, Json.present?, state, proof, key, value, offset]

end

end StepWitness

/-! ## Fixtures -/

namespace Fixture

/-- What is looked at in a fixture. -/
inductive Part where
  | shape
  | witness
  | hash

/-- The parts in the order in which they are looked at. -/
def Part.order : List Part :=
  [.shape, .witness, .hash]

/-- `Defect name j part e`: what is wrong with a part of a value that is read with a name. -/
inductive Defect (name : Text) (j : Json) : Part → DecodeError → Prop
  | shape (without : j.field? "witness" = none) : Defect name j .shape (.noWitness name)
  | witness {v : Json} {e : DecodeError} (given : j.field? "witness" = some v)
      (first : FirstDefect (StepWitness.Defect v) StepWitness.Part.order e) :
      Defect name j .witness e
  | hash {v : Json} {e : DecodeError} (given : j.present? "postStateHash" = some v)
      (bad : Garbled (some 32) v e) : Defect name j .hash e

/-- `Documented j`: a value has the documented form of a fixture. -/
structure Documented (j : Json) : Prop where
  witness : ∃ v, j.field? "witness" = some v ∧ StepWitness.Documented v
  hash : ∀ v, j.field? "postStateHash" = some v → v = .null ∨ ∃ b, v.IsHex b ∧ b.length = 32

/-- `Holds j f`: the fields of a value hold the parts of a fixture. -/
structure Holds (j : Json) (f : Fixture) : Prop where
  witness : ∃ v, j.field? "witness" = some v ∧ StepWitness.Holds v f.witness
  hash : Option.Rel (fun v (hash : Hash) => v.IsHex hash.bytes) (j.present? "postStateHash")
    f.postStateHash

variable {name : Text} {j : Json} {f : Fixture} {e : DecodeError}

theorem Defect.kind_eq {part : Part} (defect : Defect name j part e) :
    e.kind = "CodecError" ∨ e.kind = "FormatError" ∨ e.kind = "SizeError" := by
  cases defect with
  | shape => exact .inl rfl
  | witness _ first =>
    obtain ⟨part, defect⟩ := first.exists_found
    exact .inr defect.kind_eq
  | hash _ bad => exact .inr bad.kind_eq

theorem witness_iff {v : Json} (given : j.field? "witness" = some v) :
    StepWitness.ofJson v = .error e ↔ Defect name j .witness e := by
  rw [StepWitness.ofJson_eq_error]
  constructor
  · exact .witness given
  · intro defect
    cases defect with
    | witness given' first =>
      cases given.symm.trans given'
      exact first

theorem hash_iff :
    StepWitness.readOptional (Block.read 32) (j.present? "postStateHash") = .error e ↔
      Defect name j .hash e := by
  rw [StepWitness.readOptional_eq_error]
  constructor
  · rintro ⟨v, given, refused⟩
    exact .hash given (Block.read_eq_error.1 refused)
  · intro defect
    cases defect with
    | hash given bad => exact ⟨_, given, Block.read_eq_error.2 bad⟩

theorem ofJson_eq_error : ofJson name j = .error e ↔ FirstDefect (Defect name j) Part.order e := by
  cases given : j.field? "witness" with
  | none =>
    rw [ofJson, given, Part.order, FirstDefect.cons_of_found (.shape given)]
    · exact ⟨Except.error.inj, congrArg Except.error⟩
    · rintro e' ⟨-⟩
      rfl
  | some v =>
    rw [ofJson, given, Part.order, FirstDefect.cons_of_clear]
    · refine FirstDefect.bind (fun e => witness_iff given) (fun witness _ => ?_) e
      exact FirstDefect.bind (fun e => hash_iff) (fun hash _ => FirstDefect.nil)
    · rintro e' ⟨without⟩
      cases given.symm.trans without

theorem ofJson_eq_ok : ofJson name j = .ok f ↔ f.name = name ∧ Holds j f := by
  have block (v : Json) (b : Hash) : Block.read 32 v = .ok b ↔ v.IsHex b.bytes :=
    Block.read_eq_ok
  cases given : j.field? "witness" with
  | none =>
    rw [ofJson, given]
    constructor
    · intro accepted
      cases accepted
    · rintro ⟨-, holds⟩
      obtain ⟨v, given', -⟩ := holds.witness
      cases given.symm.trans given'
  | some v =>
    rw [ofJson, given]
    simp only [bind_eq_ok, StepWitness.ofJson_eq_ok, StepWitness.readOptional_rel block]
    constructor
    · rintro ⟨witness, holds, hash, hex, ⟨⟩⟩
      exact ⟨rfl, ⟨v, given, holds⟩, hex⟩
    · rintro ⟨rfl, ⟨v', given', holds⟩, hex⟩
      cases given.symm.trans given'
      exact ⟨_, holds, _, hex, rfl⟩

theorem Documented.not_defect (documented : Documented j) (part : Part) :
    ¬ Defect name j part e := by
  obtain ⟨v, given, form⟩ := documented.witness
  intro defect
  cases defect with
  | shape without => cases given.symm.trans without
  | witness given' first =>
    cases given.symm.trans given'
    obtain ⟨part, defect⟩ := first.exists_found
    exact form.not_defect part defect
  | hash given bad =>
    obtain ⟨field, some⟩ := StepWitness.present?_eq_some.1 given
    rcases documented.hash _ field with null | ⟨b, hex, size⟩
    · exact some null
    · exact bad.not_isHex (by simpa using size) hex

theorem Holds.documented (holds : Holds j f) : Documented j where
  witness := by
    obtain ⟨v, given, form⟩ := holds.witness
    exact ⟨v, given, form.documented⟩
  hash := by
    intro v given
    rcases StepWitness.null_or_rel holds.hash given with null | ⟨hash, hex⟩
    · exact .inl null
    · exact .inr ⟨_, hex, hash.length_bytes⟩

theorem exists_ofJson_iff : (∃ f, ofJson name j = .ok f) ↔ Documented j := by
  refine exists_ok_iff (fun f accepted => (ofJson_eq_ok.1 accepted).2.documented) ?_
  intro e refused documented
  obtain ⟨part, defect⟩ := (ofJson_eq_error.1 refused).exists_found
  exact documented.not_defect part defect

theorem ofJson_of_keys {k : Json} (same : ∀ key ∈ keys, j.field? key = k.field? key) :
    ofJson name j = ofJson name k := by
  simp only [keys, List.forall_mem_cons] at same
  obtain ⟨witness, hash, -⟩ := same
  simp only [ofJson, Json.present?, witness, hash]

/-- A value is accepted as a witness just if it has the documented form, with the parts that its
fields hold, whatever other fields there are. Otherwise it is refused with its first defect, which
is one of format or of size. It is the same for fixtures, which may have no witness besides. -/
theorem accepts_documented :
    (∀ j : Json, ((∃ w, StepWitness.ofJson j = .ok w) ↔ StepWitness.Documented j) ∧
      (∀ w, StepWitness.ofJson j = .ok w ↔ StepWitness.Holds j w) ∧
      (∀ e, StepWitness.ofJson j = .error e ↔
        FirstDefect (StepWitness.Defect j) StepWitness.Part.order e) ∧
      (∀ e, StepWitness.ofJson j = .error e → e.kind = "FormatError" ∨ e.kind = "SizeError") ∧
      ∀ k : Json, (∀ key ∈ StepWitness.keys, j.field? key = k.field? key) →
        StepWitness.ofJson j = StepWitness.ofJson k) ∧
    ∀ (name : Text) (j : Json), ((∃ f, ofJson name j = .ok f) ↔ Documented j) ∧
      (∀ f, ofJson name j = .ok f ↔ f.name = name ∧ Holds j f) ∧
      (∀ e, ofJson name j = .error e ↔ FirstDefect (Defect name j) Part.order e) ∧
      (∀ e, ofJson name j = .error e →
        e.kind = "CodecError" ∨ e.kind = "FormatError" ∨ e.kind = "SizeError") ∧
      ∀ k : Json, (∀ key ∈ keys, j.field? key = k.field? key) → ofJson name j = ofJson name k := by
  refine ⟨fun j => ⟨StepWitness.exists_ofJson_iff, fun w => StepWitness.ofJson_eq_ok,
    fun e => StepWitness.ofJson_eq_error, ?_, fun k => StepWitness.ofJson_of_keys⟩,
    fun name j => ⟨exists_ofJson_iff, fun f => ofJson_eq_ok, fun e => ofJson_eq_error, ?_,
      fun k => ofJson_of_keys⟩⟩
  · intro e refused
    obtain ⟨part, defect⟩ := (StepWitness.ofJson_eq_error.1 refused).exists_found
    exact defect.kind_eq
  · intro e refused
    obtain ⟨part, defect⟩ := (ofJson_eq_error.1 refused).exists_found
    exact defect.kind_eq

/-- A state that is no text counts less than an offset that is a boolean, and a fixture of an empty
list has no witness. -/
theorem accepts_documented_wrong :
    FirstDefect (StepWitness.Defect (.object [("state", .int 5), ("preimageOffset", .bool true)]))
        StepWitness.Part.order (.offsetNotInteger (.bool true)) ∧
      FirstDefect (Defect "a" (.array [])) Part.order (.noWitness "a") := by
  obtain ⟨witnesses, fixtures⟩ := accepts_documented
  exact ⟨((witnesses _).2.2.1 _).1 rfl, ((fixtures "a" _).2.2.1 _).1 rfl⟩

end Fixture

end StepReplay
