import Mathlib
import StepReplay.Proofs.Layout

set_option autoImplicit false

/-! # Fields into states and back

A state of any bytes can be encoded again from the fields that are read off it. This gives the same
bytes but for one: the exited flag is true for a single byte, and for every other byte it is encoded
as zero. Fields of any sizes and numbers have a state just when all of them fit, and are then read
back off it; otherwise the fault is the first one, sizes before the count of registers before the
numbers in their order. -/

namespace StepReplay

theorem Bytes.capacity_eq (width : Nat) : capacity width = 2 ^ (8 * width) := by
  induction width with
  | zero => rfl
  | succ width ih => rw [capacity, ih, Nat.mul_add_one 8 width, Nat.pow_add]

theorem Bytes.toNat_singleton (x : UInt8) : toNat [x] = x.toNat :=
  (toNat_concat [] x).trans (Nat.zero_add _)

namespace State

/-! ## Fields that are read off a state -/

/-- A field of one byte is the byte behind all fields before it. -/
theorem cell_of_byte (s : State) (place : Nat) (here : widths[place]? = some 1) :
    s.cell place = [s.bytes.getD ((widths.take place).foldr (· + ·) 0) 0] := by
  have stands : s.cell place = s.bytes.slice ((widths.take place).foldr (· + ·) 0) 1 := by
    rw [cell, cells, Bytes.getElem?_cut, here]
    rfl
  have inside : (widths.take place).foldr (· + ·) 0 < s.bytes.length := by
    have one := s.length_cell place here
    rw [stands, Bytes.slice, List.length_take, List.length_drop] at one
    omega
  rw [stands, Bytes.slice, List.drop_eq_getElem_cons inside, List.take_succ_cons, List.take_zero,
    List.getD_eq_getElem _ _ inside]

theorem exitCode_eq (s : State) : s.exitCode = (s.bytes.getD 88 0).toNat := by
  rw [exitCode, s.cell_of_byte 8 rfl, Bytes.toNat_singleton]
  rfl

theorem exited_eq (s : State) : s.exited = (s.bytes.getD 89 0 == 1) := by
  rw [exited, s.cell_of_byte 9 rfl, Bytes.toNat_singleton, Bool.eq_iff_iff, beq_iff_eq, beq_iff_eq,
    ← UInt8.toNat_inj]
  rfl

/-- Every field is encoded as it stands, but for the flag. -/
theorem pieces_fields (s : State) :
    s.fields.pieces = s.cells.take 9 ++ [if s.exited then 1 else 0] :: s.cells.drop 10 := by
  have number (place : Nat) {width : Nat} (here : widths[place]? = some width) :
      Bytes.ofNat width (s.cell place).toNat = s.cell place := by
    rw [← s.length_cell place here, Bytes.ofNat_toNat]
  have registers : (s.registers.map Int.ofNat).map (fun value => Bytes.ofNat 4 value.toNat) =
      s.cells.drop 11 := by
    rw [State.registers, List.map_map, List.map_map]
    refine (List.map_congr_left fun piece drawn => ?_).trans (List.map_id _)
    have four : piece.length = 4 := length_register drawn
    show Bytes.ofNat 4 (Bytes.toNat piece) = piece
    rw [← four, Bytes.ofNat_toNat]
  rw [Fields.pieces]
  dsimp only [fields, preimageOffset, pc, nextPc, lo, hi, heap, exitCode, step]
  simp only [registers, Int.toNat_natCast, number 2 rfl, number 3 rfl, number 4 rfl, number 5 rfl,
    number 6 rfl, number 7 rfl, number 8 rfl, number 10 rfl]
  rfl

/-- A state that is encoded again differs at most in the byte of its flag. -/
theorem encoded_fields (s : State) :
    s.fields.encoded = s.bytes.set 89 (if s.bytes.getD 89 0 = 1 then 1 else 0) := by
  have inside : 89 < s.bytes.length := by
    rw [s.length_bytes]
    decide
  have front : (s.cells.take 9).flatten = s.bytes.take 89 := by
    rw [cells, Bytes.take_cut, Bytes.flatten_cut]
    rfl
  have back : (s.cells.drop 10).flatten = s.bytes.drop 90 := by
    rw [cells, Bytes.drop_cut, Bytes.flatten_cut]
    refine List.take_of_length_le ?_
    rw [List.length_drop, s.length_bytes]
    decide
  rw [← Fields.flatten_pieces, pieces_fields, List.flatten_append, List.flatten_cons, front, back,
    List.set_eq_take_append_cons_drop, if_pos inside, exited_eq]
  simp only [beq_iff_eq]
  rfl

/-! ## Fields that have no state -/

namespace Fields

/-- The numbers among fields with the bits that each may take, in the order in which one that takes
more is looked for. -/
def ranges (f : Fields) : List (Text × Nat × Int) :=
  let named : List (Text × Nat × Int) :=
    [("preimage_offset", 32, f.preimageOffset), ("pc", 32, f.pc), ("next_pc", 32, f.nextPc),
      ("lo", 32, f.lo), ("hi", 32, f.hi), ("heap", 32, f.heap), ("exit_code", 8, f.exitCode),
      ("step", 64, f.step)]
  named ++ f.registers.mapIdx fun i value => ("register " ++ Decimal.ofNat i, 32, value)

/-- Whether so many bits hold a number. -/
def Within (bits : Nat) (value : Int) : Prop :=
  0 ≤ value ∧ value < 2 ^ bits

instance (bits : Nat) (value : Int) : Decidable (Within bits value) :=
  inferInstanceAs (Decidable (0 ≤ value ∧ value < 2 ^ bits))

/-- `Flaw f e`: the first thing that is wrong with fields, sizes before the count of registers and
this before the first number that its bits do not hold. -/
inductive Flaw (f : Fields) : FieldError → Prop
  | memRoot (other : f.memRoot.length ≠ 32) : Flaw f (.wrongSize 32 f.memRoot.length)
  | preimageKey (memRoot : f.memRoot.length = 32) (other : f.preimageKey.length ≠ 32) :
      Flaw f (.wrongSize 32 f.preimageKey.length)
  | count (memRoot : f.memRoot.length = 32) (preimageKey : f.preimageKey.length = 32)
      (other : f.registers.length ≠ 32) : Flaw f (.registerCount f.registers.length)
  | number {name : Text} {bits : Nat} {value : Int} {before after : List (Text × Nat × Int)}
      (memRoot : f.memRoot.length = 32) (preimageKey : f.preimageKey.length = 32)
      (count : f.registers.length = 32) (stands : f.ranges = before ++ (name, bits, value) :: after)
      (within : ∀ number ∈ before, Within number.2.1 number.2.2) (outside : ¬ Within bits value) :
      Flaw f (.outOfRange name bits value)

theorem fits_iff_within {width : Nat} {value : Int} :
    fits width value = true ↔ Within (8 * width) value := by
  rw [fits, Bool.and_eq_true, decide_eq_true_iff, decide_eq_true_iff, Bytes.capacity_eq, Within]
  push_cast
  rfl

theorem ranges_eq (f : Fields) :
    f.ranges = f.numbers.map fun number => (number.1, 8 * number.2.1, number.2.2) := by
  rw [ranges, numbers, List.map_append, List.map_map, List.mapIdx_eq_zipIdx_map]
  rfl

/-- What is wrong with a number by itself. -/
def rangeFault? (number : Text × Nat × Int) : Option FieldError :=
  if Within number.2.1 number.2.2 then none
  else some (.outOfRange number.1 number.2.1 number.2.2)

theorem rangeFault?_eq_none {number : Text × Nat × Int} :
    rangeFault? number = none ↔ Within number.2.1 number.2.2 := by
  unfold rangeFault?
  split
  · rename_i within
    exact iff_of_true rfl within
  · rename_i outside
    exact iff_of_false nofun outside

theorem rangeFault?_eq_some {number : Text × Nat × Int} {e : FieldError} :
    rangeFault? number = some e ↔
      ¬ Within number.2.1 number.2.2 ∧ e = .outOfRange number.1 number.2.1 number.2.2 := by
  unfold rangeFault?
  split
  · rename_i within
    exact iff_of_false nofun fun refused => refused.1 within
  · rename_i outside
    rw [and_iff_right outside, Option.some.injEq, eq_comm]

/-- Where every size is right, the numbers are gone through up to the first one out of range. -/
theorem fault?_of_sizes {f : Fields} (memRoot : f.memRoot.length = 32)
    (preimageKey : f.preimageKey.length = 32) (count : f.registers.length = 32) :
    f.fault? = f.ranges.findSome? rangeFault? := by
  rw [fault?, if_neg (not_not.2 memRoot), if_neg (not_not.2 preimageKey), if_neg (not_not.2 count),
    ranges_eq, List.findSome?_map]
  congr 1
  funext number
  simp only [Function.comp_apply, fits_iff_within, rangeFault?]

theorem fault?_eq_some {f : Fields} {e : FieldError} : f.fault? = some e ↔ f.Flaw e := by
  constructor
  · intro found
    by_cases memRoot : f.memRoot.length = 32
    · by_cases preimageKey : f.preimageKey.length = 32
      · by_cases count : f.registers.length = 32
        · rw [fault?_of_sizes memRoot preimageKey count, List.findSome?_eq_some_iff] at found
          obtain ⟨before, number, after, stands, refused, clear⟩ := found
          obtain ⟨outside, rfl⟩ := rangeFault?_eq_some.1 refused
          exact .number memRoot preimageKey count stands
            (fun earlier member => rangeFault?_eq_none.1 (clear earlier member)) outside
        · rw [fault?, if_neg (not_not.2 memRoot), if_neg (not_not.2 preimageKey),
            if_pos count] at found
          cases found
          exact .count memRoot preimageKey count
      · rw [fault?, if_neg (not_not.2 memRoot), if_pos preimageKey] at found
        cases found
        exact .preimageKey memRoot preimageKey
    · rw [fault?, if_pos memRoot] at found
      cases found
      exact .memRoot memRoot
  · intro flaw
    cases flaw with
    | memRoot other => exact if_pos other
    | preimageKey memRoot other =>
      rw [fault?, if_neg (not_not.2 memRoot)]
      exact if_pos other
    | count memRoot preimageKey other =>
      rw [fault?, if_neg (not_not.2 memRoot), if_neg (not_not.2 preimageKey)]
      exact if_pos other
    | number memRoot preimageKey count stands within outside =>
      rw [fault?_of_sizes memRoot preimageKey count, List.findSome?_eq_some_iff]
      exact ⟨_, _, _, stands, rangeFault?_eq_some.2 ⟨outside, rfl⟩,
        fun earlier member => rangeFault?_eq_none.2 (within earlier member)⟩

theorem fits_iff_ranges {f : Fields} :
    f.Fits ↔ f.memRoot.length = 32 ∧ f.preimageKey.length = 32 ∧ f.registers.length = 32 ∧
      ∀ number ∈ f.ranges, Within number.2.1 number.2.2 := by
  have ranged (memRoot : f.memRoot.length = 32) (preimageKey : f.preimageKey.length = 32)
      (count : f.registers.length = 32) :
      f.Fits ↔ ∀ number ∈ f.ranges, Within number.2.1 number.2.2 := by
    rw [← fault?_eq_none, fault?_of_sizes memRoot preimageKey count, List.findSome?_eq_none_iff]
    simp only [rangeFault?_eq_none]
  constructor
  · intro fits
    exact ⟨fits.memRoot, fits.preimageKey, fits.count,
      (ranged fits.memRoot fits.preimageKey fits.count).1 fits⟩
  · rintro ⟨memRoot, preimageKey, count, within⟩
    exact (ranged memRoot preimageKey count).2 within

end Fields

/-! ## Both ways -/

/-- The flag is encoded as it stands just when its byte is zero or one. -/
theorem set_flag_eq_self (s : State) :
    s.bytes.set 89 (if s.bytes.getD 89 0 = 1 then 1 else 0) = s.bytes ↔
      s.bytes.getD 89 0 = 0 ∨ s.bytes.getD 89 0 = 1 := by
  have inside : 89 < s.bytes.length := by
    rw [s.length_bytes]
    decide
  have unchanged (x : UInt8) : s.bytes.set 89 x = s.bytes ↔ s.bytes.getD 89 0 = x := by
    rw [List.getD_eq_getElem _ _ inside]
    constructor
    · intro same
      have written : (s.bytes.set 89 x)[89]? = some x := List.getElem?_set_self inside
      rw [same, List.getElem?_eq_getElem inside] at written
      exact Option.some.inj written
    · rintro rfl
      exact List.set_getElem_self inside
  rw [unchanged]
  by_cases one : s.bytes.getD 89 0 = 1
  · exact iff_of_true (one.trans (if_pos one).symm) (.inr one)
  · rw [if_neg one, or_iff_left one]

/-- A state that is encoded again from its fields has the same bytes, but that the byte of the
exited flag is one if it was and else zero. Fields have a state, which has these fields again, just
when every size is right and every number within its bits; otherwise the error is the first flaw. -/
theorem recoding_faithful :
    (∀ s : State, ∃ t, ofFields s.fields = .ok t ∧
      t.bytes = s.bytes.set 89 (if s.bytes.getD 89 0 = 1 then 1 else 0) ∧
      (t = s ↔ s.bytes.getD 89 0 = 0 ∨ s.bytes.getD 89 0 = 1)) ∧
    ∀ f : Fields,
      (∀ e, ofFields f = .error e ↔ f.Flaw e) ∧
      ((∃ s, ofFields f = .ok s) ↔
        f.memRoot.length = 32 ∧ f.preimageKey.length = 32 ∧ f.registers.length = 32 ∧
          ∀ number ∈ f.ranges, Fields.Within number.2.1 number.2.2) ∧
      ∀ s, ofFields f = .ok s → s.fields = f := by
  refine ⟨fun s => ?_, fun f => ⟨fun e => ?_, ?_, fun s made => fields_of_ofFields made⟩⟩
  · obtain ⟨t, made⟩ := exists_of_fits s.fits_fields
    have bytes : t.bytes = s.bytes.set 89 (if s.bytes.getD 89 0 = 1 then 1 else 0) :=
      (ofFields_eq_ok.1 made).2.symm.trans s.encoded_fields
    refine ⟨t, made, bytes, ?_⟩
    rw [← set_flag_eq_self, ← bytes]
    constructor
    · rintro rfl
      rfl
    · exact fun same => Block.ext same
  · rw [ofFields_eq_error, Fields.fault?_eq_some]
  · rw [← Fields.fits_iff_ranges]
    constructor
    · rintro ⟨s, made⟩
      exact (ofFields_eq_ok.1 made).1
    · exact exists_of_fits

end State

end StepReplay
