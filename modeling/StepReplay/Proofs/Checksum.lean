import Mathlib.Data.Int.ModEq
import Mathlib.Data.List.Induction
import Mathlib.Data.Nat.Prime.Int
import Mathlib.Tactic.NormNum.Prime
import Mathlib.Tactic.Ring
import StepReplay.Zlib

set_option autoImplicit false

/-! # What the checksum tells apart

The two halves of an Adler-32 checksum are the sum of the bytes and the sum of the bytes times their
places from the end, both modulo a prime. So two contents of one length share a checksum only if they
share both sums (`Collide`). A front that they have in common does not count for that, and behind it
their first bytes differ. One difference changes the sum, and two that leave it alone change the sum
of places unless they are a multiple of the prime apart (`adler32_separates`). -/

namespace StepReplay.Zlib

/-! ## The halves -/

/-- The sum of the bytes. -/
def total (b : Bytes) : Nat :=
  (b.map UInt8.toNat).sum

/-- The sum of the bytes times their places from the end. -/
def weighted : Bytes → Nat
  | [] => 0
  | x :: b => (b.length + 1) * x.toNat + weighted b

@[simp] theorem total_nil : total [] = 0 := rfl

@[simp] theorem total_cons (x : UInt8) (b : Bytes) : total (x :: b) = x.toNat + total b := rfl

@[simp] theorem total_append (b c : Bytes) : total (b ++ c) = total b + total c := by
  rw [total, List.map_append, List.sum_append]
  rfl

theorem weighted_append (b c : Bytes) :
    weighted (b ++ c) = weighted b + c.length * total b + weighted c := by
  induction b with
  | nil => simp [weighted, total]
  | cons x b ih =>
    simp only [List.cons_append, weighted, List.length_append, total_cons, ih]
    ring

/-- The lower half counts the bytes on from one, the upper half adds the lower ones up. -/
theorem adler32_eq (b : Bytes) : adler32 b =
    (b.length + weighted b) % adlerModulus * 65536 + (1 + total b) % adlerModulus := by
  unfold adler32
  generalize folded : List.foldl _ _ b = sums
  have halves : sums = ((1 + total b) % adlerModulus, (b.length + weighted b) % adlerModulus) := by
    subst folded
    induction b using List.reverseRecOn with
    | nil => rfl
    | append_singleton b x ih =>
      rw [List.foldl_append, ih]
      simp only [List.foldl_cons, List.foldl_nil, weighted_append, total_append, total_cons,
        total_nil, weighted, List.length_append, List.length_cons, List.length_nil, adlerModulus,
        Prod.mk.injEq]
      omega
  rw [halves]

/-! ## Collisions -/

/-- The sums of both halves agree. -/
structure Collide (b c : Bytes) : Prop where
  total : total b ≡ total c [MOD adlerModulus]
  weighted : weighted b ≡ weighted c [MOD adlerModulus]

/-- Contents of one length share a checksum only if both sums agree. -/
theorem collide_of_adler32 {b c : Bytes} (length : b.length = c.length)
    (same : adler32 b = adler32 c) : Collide b c := by
  rw [adler32_eq, adler32_eq, length] at same
  simp only [adlerModulus] at same
  constructor
  · unfold Nat.ModEq adlerModulus
    omega
  · unfold Nat.ModEq adlerModulus
    omega

/-- A common front does not count. -/
theorem Collide.of_append {front b c : Bytes} (length : b.length = c.length)
    (collide : Collide (front ++ b) (front ++ c)) : Collide b c := by
  obtain ⟨sums, places⟩ := collide
  rw [total_append, total_append] at sums
  rw [weighted_append, weighted_append, length] at places
  exact ⟨sums.add_left_cancel', places.add_left_cancel'⟩

/-- A byte is its remainder. -/
theorem eq_of_modEq {x y : UInt8} (same : x.toNat ≡ y.toNat [MOD adlerModulus]) : x = y := by
  have := x.toNat_lt
  have := y.toNat_lt
  unfold Nat.ModEq adlerModulus at same
  exact UInt8.toNat_inj.1 (by omega)

/-- One difference changes the sum. -/
theorem not_collide_of_one {x y : UInt8} (other : x ≠ y) (back : Bytes) :
    ¬Collide (x :: back) (y :: back) := fun collide =>
  other (eq_of_modEq (Nat.ModEq.add_right_cancel' _ collide.total))

/-- Two differences that leave the sum alone change the sum of places, unless they are far apart. -/
theorem not_collide_of_two {x y u v : UInt8} (other : x ≠ y) (middle back : Bytes)
    (near : middle.length + 1 < adlerModulus) :
    ¬Collide (x :: (middle ++ u :: back)) (y :: (middle ++ v :: back)) := by
  rintro ⟨sums, places⟩
  simp only [total_cons, total_append, weighted, weighted_append, List.length_append,
    List.length_cons] at sums places
  have dvdSum := Nat.modEq_iff_dvd.1 sums
  have dvdPlaces := Nat.modEq_iff_dvd.1 places
  push_cast at dvdSum dvdPlaces
  -- the places of the second difference taken off, the first one counts its distance from it
  have dvd : (adlerModulus : Int) ∣ (middle.length + 1) * (y.toNat - x.toNat) := by
    have apart := Int.dvd_sub dvdPlaces (dvdSum.mul_left (back.length + 1))
    convert apart using 1
    ring
  have prime : Nat.Prime adlerModulus := by
    norm_num [adlerModulus]
  rcases (Nat.prime_iff_prime_int.1 prime).dvd_or_dvd dvd with far | same
  · exact absurd (Nat.le_of_dvd (Nat.succ_pos _) (by exact_mod_cast far)) (by omega)
  · exact other (eq_of_modEq (Nat.modEq_iff_dvd.2 same))

/-! ## Differences -/

/-- At how many places two contents of one length differ. -/
def differences (b c : Bytes) : Nat :=
  (b.zip c).countP fun (x, y) => x ≠ y

theorem differences_self (b : Bytes) : differences b b = 0 := by
  induction b with
  | nil => rfl
  | cons x b ih => simpa [differences] using ih

theorem differences_cons {x y : UInt8} (other : x ≠ y) (b c : Bytes) :
    differences (x :: b) (y :: c) = differences b c + 1 := by
  simp [differences, other]

theorem differences_append (front b c : Bytes) :
    differences (front ++ b) (front ++ c) = differences b c := by
  have same := differences_self front
  unfold differences at same ⊢
  rw [List.zip_append rfl, List.countP_append, same, Nat.zero_add]

/-- Where two contents of one length differ first. -/
theorem exists_first {b c : Bytes} (length : b.length = c.length) (other : b ≠ c) :
    ∃ front x y back back', b = front ++ x :: back ∧ c = front ++ y :: back' ∧ x ≠ y ∧
      back.length = back'.length := by
  induction b generalizing c with
  | nil => exact absurd (List.length_eq_zero_iff.1 length.symm).symm other
  | cons x b ih =>
    cases c with
    | nil => cases length
    | cons y c =>
      have shorter := Nat.succ.inj length
      by_cases here : x = y
      · subst here
        obtain ⟨front, u, v, back, back', rfl, rfl, rest⟩ :=
          ih shorter fun same => other (congrArg _ same)
        exact ⟨x :: front, u, v, back, back', rfl, rfl, rest⟩
      · exact ⟨[], x, y, b, c, rfl, rfl, here, shorter⟩

/-- Two contents of one length that share a checksum differ at two places at least, and at three if
they are no longer than the modulus. -/
theorem adler32_separates {b c : Bytes} (length : b.length = c.length) (other : b ≠ c)
    (same : adler32 b = adler32 c) :
    2 ≤ differences b c ∧ (b.length ≤ adlerModulus → 3 ≤ differences b c) := by
  have collide := collide_of_adler32 length same
  obtain ⟨front, x, y, back, back', rfl, rfl, first, shorter⟩ := exists_first length other
  have collide := collide.of_append (by simp [shorter])
  have further : back ≠ back' := by
    rintro rfl
    exact not_collide_of_one first back collide
  obtain ⟨middle, u, v, last, last', rfl, rfl, second, length'⟩ := exists_first shorter further
  rw [differences_append, differences_cons first, differences_append, differences_cons second]
  refine ⟨by omega, fun short => ?_⟩
  have third : last ≠ last' := by
    rintro rfl
    refine not_collide_of_two first middle last ?_ collide
    simp only [List.length_append, List.length_cons] at short
    omega
  obtain ⟨_, _, _, _, _, rfl, rfl, other, -⟩ := exists_first length' third
  rw [differences_append, differences_cons other]
  omega

end StepReplay.Zlib
