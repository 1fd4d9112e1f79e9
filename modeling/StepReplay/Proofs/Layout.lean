import StepReplay.Proofs.Bytes
import StepReplay.State

set_option autoImplicit false

/-! # The layout of a state

Fields are encoded piece by piece, and cutting the encoding at the widths of the layout gives the
pieces back. So reading undoes encoding for all fields that have a state, which are those that
`Fits` describes. The fields that are read off a state always fit, whatever its bytes. -/

namespace StepReplay

namespace Bytes

/-- Joined pieces are cut apart again. -/
theorem cut_flatten (pieces : List Bytes) :
    cut (pieces.map List.length) pieces.flatten = pieces := by
  induction pieces with
  | nil => rfl
  | cons piece rest ih =>
    rw [List.map_cons, List.flatten_cons, cut, List.take_left, List.drop_left, ih]

theorem take_cut (place : Nat) (widths : List Nat) (b : Bytes) :
    (cut widths b).take place = cut (widths.take place) b := by
  induction widths generalizing place b with
  | nil =>
    rw [List.take_nil]
    exact List.take_nil
  | cons width widths ih =>
    cases place with
    | zero => rfl
    | succ place => rw [cut, List.take_succ_cons, ih, List.take_succ_cons, cut]

theorem drop_cut (place : Nat) (widths : List Nat) (b : Bytes) :
    (cut widths b).drop place =
      cut (widths.drop place) (b.drop ((widths.take place).foldr (· + ·) 0)) := by
  induction widths generalizing place b with
  | nil =>
    rw [List.drop_nil]
    exact List.drop_nil
  | cons width widths ih =>
    cases place with
    | zero => rfl
    | succ place =>
      rw [cut, List.drop_succ_cons, ih, List.drop_succ_cons, List.take_succ_cons, List.foldr_cons,
        List.drop_drop]

/-- The pieces make up as many bytes as they are wide. -/
theorem flatten_cut (widths : List Nat) (b : Bytes) :
    (cut widths b).flatten = b.take (widths.foldr (· + ·) 0) := by
  induction widths generalizing b with
  | nil => exact List.take_zero.symm
  | cons width widths ih => rw [cut, List.flatten_cons, ih, List.foldr_cons, List.take_add]

/-- A piece is the stretch of its width behind all pieces before it. -/
theorem getElem?_cut (place : Nat) (widths : List Nat) (b : Bytes) :
    (cut widths b)[place]? =
      widths[place]?.map (b.slice ((widths.take place).foldr (· + ·) 0)) := by
  have first (widths : List Nat) (b : Bytes) : (cut widths b)[0]? = widths[0]?.map (b.slice 0) := by
    cases widths <;> rfl
  have there := first (widths.drop place) (b.drop ((widths.take place).foldr (· + ·) 0))
  rw [← drop_cut, List.getElem?_drop, List.getElem?_drop] at there
  exact there

/-- The pieces have the widths at which they were cut, if there are bytes enough. -/
theorem map_length_cut {widths : List Nat} {b : Bytes}
    (enough : widths.foldr (· + ·) 0 ≤ b.length) : (cut widths b).map List.length = widths := by
  induction widths generalizing b with
  | nil => rfl
  | cons width widths ih =>
    rw [List.foldr_cons] at enough
    have rest : widths.foldr (· + ·) 0 ≤ (b.drop width).length := by
      rw [List.length_drop]
      omega
    rw [cut, List.map_cons, ih rest, List.length_take, Nat.min_eq_left (by omega)]

end Bytes

namespace State

attribute [ext] Fields

namespace Fields

/-! ## Fields that have a state -/

theorem fits_iff {width : Nat} {value : Int} :
    fits width value = true ↔ ∃ n : Nat, value = n ∧ n < Bytes.capacity width := by
  rw [fits, Bool.and_eq_true, decide_eq_true_iff, decide_eq_true_iff]
  constructor
  · rintro ⟨natural, below⟩
    obtain ⟨n, rfl⟩ := Int.eq_ofNat_of_zero_le natural
    exact ⟨n, rfl, Int.ofNat_lt.1 below⟩
  · rintro ⟨n, rfl, below⟩
    exact ⟨Int.natCast_nonneg n, Int.ofNat_lt.2 below⟩

theorem fits_natCast {width n : Nat} : fits width n = true ↔ n < Bytes.capacity width := by
  rw [fits_iff]
  constructor
  · rintro ⟨m, same, below⟩
    rwa [Int.ofNat_inj.1 same]
  · exact fun below => ⟨n, rfl, below⟩

theorem fits_zero (width : Nat) : fits width 0 = true :=
  fits_natCast.2 (Bytes.capacity_pos width)

/-- All sizes and numbers are those that the layout has room for. -/
structure Fits (f : Fields) : Prop where
  memRoot : f.memRoot.length = 32
  preimageKey : f.preimageKey.length = 32
  count : f.registers.length = 32
  preimageOffset : fits 4 f.preimageOffset = true
  pc : fits 4 f.pc = true
  nextPc : fits 4 f.nextPc = true
  lo : fits 4 f.lo = true
  hi : fits 4 f.hi = true
  heap : fits 4 f.heap = true
  exitCode : fits 1 f.exitCode = true
  step : fits 8 f.step = true
  registers : ∀ value ∈ f.registers, fits 4 value = true

/-- The registers come last in the row of checks and pass them if they fit. -/
theorem findSome?_registers {f : Fields} (h : ∀ value ∈ f.registers, fits 4 value = true) :
    (f.registers.zipIdx.map fun (value, i) =>
        (("register " ++ Decimal.ofNat i, 4, value) : Text × Nat × Int)).findSome?
      (fun (name, width, value) =>
        if fits width value then none else some (FieldError.outOfRange name (8 * width) value)) =
      none := by
  rw [List.findSome?_eq_none_iff]
  intro number member
  obtain ⟨⟨value, i⟩, there, rfl⟩ := List.mem_map.1 member
  exact if_pos (h value (List.fst_mem_of_mem_zipIdx there))

/-- Where all else fits, the two counters alone decide, and the program counter comes first. -/
theorem fault?_of_counters {f : Fields} (h : Fits { f with nextPc := 0, step := 0 }) :
    f.fault? =
      if fits 4 f.nextPc then
        if fits 8 f.step then none else some (.outOfRange "step" 64 f.step)
      else some (.outOfRange "next_pc" 32 f.nextPc) := by
  obtain ⟨memRoot, preimageKey, count, preimageOffset, pc, -, lo, hi, heap, exitCode, -,
    registers⟩ := h
  dsimp only at memRoot preimageKey count preimageOffset pc lo hi heap exitCode registers
  rw [fault?, if_neg (not_not.2 memRoot), if_neg (not_not.2 preimageKey), if_neg (not_not.2 count)]
  simp only [numbers, List.cons_append, List.nil_append, List.findSome?_cons, preimageOffset, pc,
    lo, hi, heap, exitCode, ↓reduceIte, findSome?_registers registers]
  cases fits 4 f.nextPc <;> cases fits 8 f.step <;> rfl

theorem fault?_eq_none {f : Fields} : f.fault? = none ↔ f.Fits := by
  constructor
  · intro h
    have memRoot : f.memRoot.length = 32 := by
      by_contra other
      rw [fault?, if_pos other] at h
      cases h
    rw [fault?, if_neg (not_not.2 memRoot)] at h
    have preimageKey : f.preimageKey.length = 32 := by
      by_contra other
      rw [if_pos other] at h
      cases h
    rw [if_neg (not_not.2 preimageKey)] at h
    have count : f.registers.length = 32 := by
      by_contra other
      rw [if_pos other] at h
      cases h
    rw [if_neg (not_not.2 count), List.findSome?_eq_none_iff] at h
    have sound {name : Text} {width : Nat} {value : Int}
        (member : (name, width, value) ∈ f.numbers) : fits width value = true := by
      have passed : (if fits width value then none
        else some (FieldError.outOfRange name (8 * width) value)) = none := h _ member
      by_contra outside
      rw [if_neg outside] at passed
      cases passed
    have named (i : Nat) {name : Text} {width : Nat} {value : Int}
        (here : f.numbers[i]? = some (name, width, value)) : fits width value = true :=
      sound (List.mem_of_getElem? here)
    refine ⟨memRoot, preimageKey, count, named 0 rfl, named 1 rfl, named 2 rfl, named 3 rfl,
      named 4 rfl, named 5 rfl, named 6 rfl, named 7 rfl, ?_⟩
    intro value member
    obtain ⟨i, inside, rfl⟩ := List.getElem_of_mem member
    refine sound (List.mem_append_right _ (List.mem_map.2 ⟨(f.registers[i], i), ?_, rfl⟩))
    exact List.mk_mem_zipIdx_iff_getElem?.2 (List.getElem?_eq_getElem inside)
  · intro h
    have others : Fits { f with nextPc := 0, step := 0 } :=
      { h with nextPc := fits_zero 4, step := fits_zero 8 }
    rw [fault?_of_counters others, if_pos h.nextPc, if_pos h.step]

/-! ## Encoding -/

/-- The encoded fields, in the order of the layout. -/
def pieces (f : Fields) : List Bytes :=
  let word := fun value : Int => Bytes.ofNat 4 value.toNat
  [f.memRoot, f.preimageKey, word f.preimageOffset, word f.pc, word f.nextPc, word f.lo, word f.hi,
    word f.heap, Bytes.ofNat 1 f.exitCode.toNat, [if f.exited then 1 else 0],
    Bytes.ofNat 8 f.step.toNat] ++ f.registers.map word

theorem flatten_pieces (f : Fields) : f.pieces.flatten = f.encoded := by
  simp only [pieces, encoded, List.flatten_append, List.flatten_cons, List.flatten_nil,
    List.append_assoc, List.append_nil, List.flatMap_def]

theorem map_length_pieces {f : Fields} (h : f.Fits) : f.pieces.map List.length = widths := by
  have registers : (f.registers.map fun value : Int => Bytes.ofNat 4 value.toNat).map List.length =
      List.replicate 32 4 := by
    rw [List.map_map, ← h.count]
    exact List.map_eq_replicate_iff.2 fun value _ => Bytes.length_ofNat 4 value.toNat
  simp only [pieces, widths, List.map_append, registers, List.map_cons, List.map_nil, h.memRoot,
    h.preimageKey, Bytes.length_ofNat, List.length_singleton]

end Fields

theorem ofFields_eq_ok {f : Fields} {s : State} :
    ofFields f = .ok s ↔ f.Fits ∧ f.encoded = s.bytes := by
  unfold ofFields
  split
  · rename_i fault found
    simp only [reduceCtorEq, false_iff]
    rintro ⟨fits, -⟩
    rw [Fields.fault?_eq_none.2 fits] at found
    cases found
  · rename_i sound
    rw [and_iff_right (Fields.fault?_eq_none.1 sound), Except.ok.injEq]
    constructor
    · rintro rfl
      rfl
    · exact fun same => Block.ext same

theorem ofFields_eq_error {f : Fields} {e : FieldError} :
    ofFields f = .error e ↔ f.fault? = some e := by
  unfold ofFields
  split
  · rename_i fault found
    rw [found, Except.error.injEq, Option.some.injEq]
  · rename_i sound
    constructor
    · rintro ⟨⟩
    · rintro found
      rw [sound] at found
      cases found

theorem exists_of_fits {f : Fields} (h : f.Fits) : ∃ s, ofFields f = .ok s :=
  ⟨⟨f.encoded, Fields.length_encoded (Fields.fault?_eq_none.2 h)⟩, ofFields_eq_ok.2 ⟨h, rfl⟩⟩

theorem cells_of_encoded {f : Fields} {s : State} (fits : f.Fits) (h : f.encoded = s.bytes) :
    s.cells = f.pieces := by
  rw [cells, ← h, ← f.flatten_pieces, ← Fields.map_length_pieces fits, Bytes.cut_flatten]

/-- What has been encoded is read back. -/
theorem fields_of_ofFields {f : Fields} {s : State} (h : ofFields f = .ok s) : s.fields = f := by
  obtain ⟨fits, encoded⟩ := ofFields_eq_ok.1 h
  have cells := cells_of_encoded fits encoded
  have read {width : Nat} {value : Int} (fits : Fields.fits width value = true) :
      (Bytes.toNat (Bytes.ofNat width value.toNat) : Int) = value := by
    obtain ⟨n, rfl, below⟩ := Fields.fits_iff.1 fits
    rw [Int.toNat_natCast, Bytes.toNat_ofNat below]
  have number {place width : Nat} {value : Int} (fits : Fields.fits width value = true)
      (stands : f.pieces[place]? = some (Bytes.ofNat width value.toNat)) :
      ((s.cell place).toNat : Int) = value := by
    rw [cell, cells, stands]
    exact read fits
  have memRoot : s.memRoot = f.memRoot := by
    rw [State.memRoot, cell, cells]
    rfl
  have preimageKey : s.preimageKey = f.preimageKey := by
    rw [State.preimageKey, cell, cells]
    rfl
  have exited : s.exited = f.exited := by
    have flag : f.pieces[9]? = some [if f.exited then 1 else 0] := rfl
    rw [State.exited, cell, cells, flag]
    cases f.exited <;> rfl
  have registers : s.registers.map Int.ofNat = f.registers := by
    have words : f.pieces.drop 11 = f.registers.map fun value : Int => Bytes.ofNat 4 value.toNat :=
      rfl
    rw [State.registers, cells, words, List.map_map, List.map_map]
    refine (List.map_congr_left fun value member => ?_).trans (List.map_id _)
    exact read (fits.registers value member)
  exact Fields.ext memRoot preimageKey (number fits.preimageOffset rfl) (number fits.pc rfl)
    (number fits.nextPc rfl) (number fits.lo rfl) (number fits.hi rfl) (number fits.heap rfl)
    (number fits.exitCode rfl) exited (number fits.step rfl) registers

/-! ## Reading -/

theorem map_length_cells (s : State) : s.cells.map List.length = widths := by
  refine Bytes.map_length_cut ?_
  rw [s.length_bytes]
  decide

theorem length_cell (s : State) (place : Nat) {width : Nat} (here : widths[place]? = some width) :
    (s.cell place).length = width := by
  rw [← s.map_length_cells, List.getElem?_map] at here
  obtain ⟨piece, stands, size⟩ := Option.map_eq_some_iff.1 here
  rw [cell, stands]
  exact size

theorem fits_cell (s : State) (place : Nat) {width : Nat} (here : widths[place]? = some width) :
    Fields.fits width (s.cell place).toNat = true := by
  rw [Fields.fits_natCast, ← s.length_cell place here]
  exact Bytes.toNat_lt _

theorem length_registers (s : State) : s.registers.length = 32 := by
  have places : s.cells.length = 43 := by
    rw [← List.length_map List.length, s.map_length_cells]
    rfl
  rw [registers, List.length_map, List.length_drop, places]

theorem length_register {s : State} {piece : Bytes} (drawn : piece ∈ s.cells.drop 11) :
    piece.length = 4 := by
  have size : piece.length ∈ widths.drop 11 := by
    rw [← s.map_length_cells, ← List.map_drop]
    exact List.mem_map_of_mem drawn
  exact List.eq_of_mem_replicate size

theorem register_lt {s : State} {value : Nat} (member : value ∈ s.registers) :
    value < Bytes.capacity 4 := by
  obtain ⟨piece, drawn, rfl⟩ := List.mem_map.1 member
  rw [← length_register drawn]
  exact Bytes.toNat_lt piece

/-- The fields of a state fit, whatever its bytes. -/
theorem fits_fields (s : State) : s.fields.Fits where
  memRoot := s.length_cell 0 rfl
  preimageKey := s.length_cell 1 rfl
  count := by
    rw [fields, List.length_map]
    exact s.length_registers
  preimageOffset := s.fits_cell 2 rfl
  pc := s.fits_cell 3 rfl
  nextPc := s.fits_cell 4 rfl
  lo := s.fits_cell 5 rfl
  hi := s.fits_cell 6 rfl
  heap := s.fits_cell 7 rfl
  exitCode := s.fits_cell 8 rfl
  step := s.fits_cell 10 rfl
  registers := by
    intro value member
    obtain ⟨n, there, rfl⟩ := List.mem_map.1 member
    exact Fields.fits_natCast.2 (register_lt there)

end State

end StepReplay
