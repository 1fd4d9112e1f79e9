import Mathlib.Data.List.Induction
import StepReplay.Form

set_option autoImplicit false

/-! # Numbers and stretches of byte strings

The big-endian form of a number in a fixed width and the number that a byte string denotes undo each
other, as long as the number fits. A stretch of joined byte strings is a stretch of the part that it
lies in. -/

namespace StepReplay.Bytes

/-! ## Numbers -/

theorem capacity_pos (width : Nat) : 0 < capacity width := by
  induction width with
  | zero => exact Nat.one_pos
  | succ width ih => exact Nat.mul_pos ih (by omega)

theorem capacity_le {small wide : Nat} (h : small ≤ wide) : capacity small ≤ capacity wide := by
  induction h with
  | refl => exact Nat.le_refl _
  | step _ ih =>
    rw [capacity]
    omega

theorem toNat_concat (b : Bytes) (x : UInt8) : toNat (b ++ [x]) = toNat b * 256 + x.toNat := by
  rw [toNat, List.foldl_append]
  rfl

theorem toNat_lt (b : Bytes) : toNat b < capacity b.length := by
  induction b using List.reverseRecOn with
  | nil => exact Nat.one_pos
  | append_singleton b x ih =>
    have last := x.toNat_lt
    rw [toNat_concat, List.length_append, List.length_singleton, capacity]
    omega

theorem toNat_digit (n : Nat) : (UInt8.ofNat (n % 256)).toNat = n % 256 :=
  UInt8.toNat_ofNat_of_lt' (Nat.mod_lt n (show 0 < 256 by decide))

/-- A number that fits is read back from its bytes. -/
theorem toNat_ofNat {width n : Nat} (fits : n < capacity width) : toNat (ofNat width n) = n := by
  induction width generalizing n with
  | zero =>
    obtain rfl : n = 0 := Nat.lt_one_iff.1 fits
    rfl
  | succ width ih =>
    have front : n / 256 < capacity width := by
      rw [capacity] at fits
      omega
    rw [ofNat, toNat_concat, ih front, toNat_digit]
    omega

/-- A byte string is the form of the number that it denotes. -/
theorem ofNat_toNat (b : Bytes) : ofNat b.length b.toNat = b := by
  induction b using List.reverseRecOn with
  | nil => rfl
  | append_singleton b x ih =>
    have last := x.toNat_lt
    have front : (toNat b * 256 + x.toNat) / 256 = toNat b := by omega
    have rest : (toNat b * 256 + x.toNat) % 256 = x.toNat := by omega
    rw [List.length_append, List.length_singleton, ofNat, toNat_concat, front, rest, ih,
      UInt8.ofNat_toNat]

/-! ## Stretches -/

/-- A stretch that ends inside the first of two parts. -/
theorem slice_append_left {a : Bytes} {start count : Nat} (inside : start + count ≤ a.length)
    (b : Bytes) : (a ++ b).slice start count = a.slice start count := by
  unfold slice
  rw [List.drop_append_of_le_length (by omega), List.take_append_of_le_length]
  rw [List.length_drop]
  omega

/-- A stretch that begins where the first of two parts ends, or after that. -/
theorem slice_append_right (a b : Bytes) (start count : Nat) :
    (a ++ b).slice (a.length + start) count = b.slice start count := by
  rw [slice, List.drop_append, List.drop_of_length_le (by omega), List.nil_append,
    Nat.add_sub_cancel_left]
  rfl

/-- A part is the stretch that it takes up. -/
theorem slice_middle (before part after : Bytes) :
    (before ++ part ++ after).slice before.length part.length = part := by
  have first := slice_append_right before (part ++ after) 0 part.length
  rw [Nat.add_zero] at first
  rw [List.append_assoc, first, slice, List.drop_zero, List.take_left]

@[simp] theorem length_zeros (n : Nat) : (zeros n).length = n :=
  List.length_replicate

theorem length_padRight {b : Bytes} {width : Nat} (short : b.length ≤ width) :
    (b.padRight width).length = width := by
  rw [padRight, List.length_append, length_zeros]
  omega

end StepReplay.Bytes

namespace StepReplay.Block

variable {n : Nat}

/-- Blocks are equal if their bytes are. -/
theorem ext {a b : Block n} (same : a.bytes = b.bytes) : a = b := by
  cases a
  cases b
  cases same
  rfl

theorem ofBytes_bytes (b : Block n) : ofBytes n b.bytes = .ok b :=
  dif_pos b.length_bytes

theorem ofBytes_eq_ok {b : Bytes} {block : Block n} :
    ofBytes n b = .ok block ↔ block.bytes = b := by
  constructor
  · intro made
    unfold ofBytes at made
    split at made
    · cases made
      rfl
    · cases made
  · rintro rfl
    exact ofBytes_bytes block

end StepReplay.Block
