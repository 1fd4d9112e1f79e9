import StepReplay.Keccak

set_option autoImplicit false

/-! # Digests worked out on one number

The lanes of a state fit one number, as its digits to the base of 64 bits. A digest that is worked
out on that number takes whole numbers only, and these evaluate at once where words and vectors have
to be taken apart. So the digest of a given message is best decided in this form. `Holds` says that
a number holds the words of a vector. Every step of the permutation keeps that for the lanes, and so
does the sponge, so the digest is the same (`hashBytes_eq`). -/

namespace StepReplay.Keccak

namespace Packed

/-! ## Digits -/

/-- What no lane reaches. -/
def bound : Nat := 0x10000000000000000

/-- A digit of a number, the least significant first. -/
def digit (s i : Nat) : Nat :=
  (s >>> (64 * i)) % bound

/-- The number whose digits are the values of a function, from one on and so many of them. -/
def pack (f : Nat → Nat) : Nat → Nat → Nat
  | _, 0 => 0
  | k, n + 1 => f k + bound * pack f (k + 1) n

theorem digit_pack {f : Nat → Nat} {k n j : Nat} (small : ∀ i, i < n → f (k + i) < bound)
    (inside : j < n) : digit (pack f k n) j = f (k + j) := by
  induction n generalizing k j with
  | zero => omega
  | succ n ih =>
    have first : f k < bound := small 0 (Nat.zero_lt_succ n)
    cases j with
    | zero =>
      rw [digit, pack, Nat.mul_zero, Nat.shiftRight_zero, Nat.add_mul_mod_self_left,
        Nat.mod_eq_of_lt first, Nat.add_zero]
    | succ j =>
      have later : ∀ i, i < n → f (k + 1 + i) < bound := by
        intro i less
        rw [Nat.add_right_comm]
        exact small (i + 1) (Nat.succ_lt_succ less)
      have shifted : (f k + bound * pack f (k + 1) n) >>> 64 = pack f (k + 1) n := by
        rw [Nat.shiftRight_eq_div_pow]
        show (f k + bound * pack f (k + 1) n) / bound = _
        rw [Nat.add_mul_div_left _ _ (by decide), Nat.div_eq_of_lt first, Nat.zero_add]
      have place : 64 * (j + 1) = 64 + 64 * j := by omega
      rw [digit, pack, place, Nat.shiftRight_add, shifted]
      rw [show k + (j + 1) = k + 1 + j by omega]
      exact ih later (Nat.lt_of_succ_lt_succ inside)

/-- `Holds s v`: the digits of a number are the words of a vector. -/
def Holds {n : Nat} (s : Nat) (v : Vector UInt64 n) : Prop :=
  ∀ i (inside : i < n), digit s i = v[i].toNat

theorem holds_pack {n : Nat} {f : Nat → Nat} {v : Vector UInt64 n}
    (same : ∀ i (inside : i < n), f i = v[i].toNat) : Holds (pack f 0 n) v := by
  intro i inside
  have small : ∀ k, k < n → f (0 + k) < bound := by
    intro k less
    rw [Nat.zero_add, same k less]
    exact UInt64.toNat_lt _
  rw [digit_pack small inside, Nat.zero_add, same i inside]

theorem holds_ofFn {n : Nat} {f : Nat → Nat} {g : Fin n → UInt64}
    (same : ∀ i : Fin n, f i = (g i).toNat) : Holds (pack f 0 n) (Vector.ofFn g) :=
  holds_pack fun i inside => by rw [Vector.getElem_ofFn, ← same]

theorem Holds.get {n s : Nat} {v : Vector UInt64 (n + 1)} (h : Holds s v) (i : Nat) :
    digit s (i % (n + 1)) = (v.get (Fin.ofNat (n + 1) i)).toNat :=
  h (i % (n + 1)) (Nat.mod_lt i (Nat.zero_lt_succ n))

/-! ## The permutation -/

/-- The lane in column `x` and row `y`, both taken modulo five. -/
def lane (s x y : Nat) : Nat :=
  digit s (x % 5 + 5 * (y % 5))

/-- The state whose lanes are given by column and row. -/
def ofLanes (f : Nat → Nat → Nat) : Nat :=
  pack (fun i => f (i % 5) (i / 5)) 0 25

/-- The lane turned left by so many bits, fewer than it has. -/
def turn (w bits : Nat) : Nat :=
  (w <<< bits) % bound ||| (w >>> ((64 - bits) % 64))

/-- How far each lane is turned. -/
def turns : Nat :=
  pack (fun i => (Keccak.turns.toList.getD i 0).toNat) 0 25

/-- The parity of each column. -/
def parities (s : Nat) : Nat :=
  pack (fun x => lane s x 0 ^^^ lane s x 1 ^^^ lane s x 2 ^^^ lane s x 3 ^^^ lane s x 4) 0 5

/-- What is added to each column, given their parities. -/
def deltas (parity : Nat) : Nat :=
  pack (fun x => digit parity ((x + 4) % 5) ^^^ turn (digit parity ((x + 1) % 5)) 1) 0 5

/-- Every lane with the parities of the two neighbouring columns added. -/
def mixColumns (s : Nat) : Nat :=
  let delta := deltas (parities s)
  ofLanes fun x y => lane s x y ^^^ digit delta (x % 5)

/-- Every lane turned and moved to its new place. -/
def moveLanes (s : Nat) : Nat :=
  ofLanes fun x y => turn (lane s (x + 3 * y) x) (lane turns (x + 3 * y) x)

/-- Every lane combined with the next two of its row. -/
def mixRows (s : Nat) : Nat :=
  ofLanes fun x y => lane s x y ^^^ ((bound - 1 - lane s (x + 1) y) &&& lane s (x + 2) y)

/-- One round. -/
def round (s constant : Nat) : Nat :=
  let b := mixRows (moveLanes (mixColumns s))
  pack (fun i => if i = 0 then digit b i ^^^ constant else digit b i) 0 25

/-- All rounds. -/
def permute (s : Nat) : Nat :=
  roundConstants.foldl (fun s constant => round s constant.toNat) s

variable {s : Nat} {a : Lanes}

theorem Holds.lane (h : Holds s a) (x y : Nat) : lane s x y = (Keccak.lane a x y).toNat := by
  have inside : x % 5 + 5 * (y % 5) < 25 := by omega
  rw [Packed.lane, Keccak.lane, ← h.get, Nat.mod_eq_of_lt inside]

theorem holds_ofLanes {f : Nat → Nat → Nat} {g : Nat → Nat → UInt64}
    (same : ∀ x y, f x y = (g x y).toNat) : Holds (ofLanes f) (Keccak.ofLanes g) :=
  holds_ofFn fun _ => same _ _

theorem turn_toNat (w bits : UInt64) (fewer : bits.toNat < 64) :
    turn w.toNat bits.toNat = (Keccak.turn w bits).toNat := by
  have other : (64 - bits).toNat = 64 - bits.toNat :=
    UInt64.toNat_sub_of_le _ _ (UInt64.le_iff_toNat_le.2 (Nat.le_of_lt fewer))
  rw [turn, Keccak.turn, UInt64.toNat_or, UInt64.toNat_shiftLeft, UInt64.toNat_shiftRight, other,
    Nat.mod_eq_of_lt fewer]
  rfl

theorem holds_turns : Holds turns Keccak.turns :=
  holds_pack fun i inside => by
    have listed : i < Keccak.turns.toList.length := by rwa [Vector.length_toList]
    rw [List.getD_eq_getElem?_getD, List.getElem?_eq_getElem listed, Option.getD_some,
      Vector.getElem_toList]

theorem turns_lt (x y : Nat) : (Keccak.lane Keccak.turns x y).toNat < 64 := by
  have all : ∀ i : Fin 25, (Keccak.turns.get i).toNat < 64 := by decide
  exact all _

theorem holds_parities (h : Holds s a) : Holds (parities s) (Keccak.parities a) := by
  unfold parities Keccak.parities
  refine holds_ofFn fun x => ?_
  simp only [h.lane, UInt64.toNat_xor]

theorem holds_mixColumns (h : Holds s a) : Holds (mixColumns s) (Keccak.mixColumns a) := by
  have parity := holds_parities h
  unfold mixColumns Keccak.mixColumns
  refine holds_ofLanes fun x y => ?_
  rw [UInt64.toNat_xor, h.lane]
  congr 1
  refine Holds.get (holds_ofFn fun x => ?_) x
  rw [UInt64.toNat_xor, ← turn_toNat _ 1 (by decide), ← parity.get, ← parity.get]
  rfl

theorem holds_moveLanes (h : Holds s a) : Holds (moveLanes s) (Keccak.moveLanes a) := by
  unfold moveLanes Keccak.moveLanes
  refine holds_ofLanes fun x y => ?_
  rw [← turn_toNat _ _ (turns_lt _ _), h.lane, holds_turns.lane]

theorem holds_mixRows (h : Holds s a) : Holds (mixRows s) (Keccak.mixRows a) := by
  unfold mixRows Keccak.mixRows
  refine holds_ofLanes fun x y => ?_
  rw [UInt64.toNat_xor, UInt64.toNat_and, UInt64.toNat_not, h.lane, h.lane, h.lane]
  rfl

theorem holds_round (h : Holds s a) (constant : UInt64) :
    Holds (round s constant.toNat) (Keccak.round a constant) := by
  have mixed := holds_mixRows (holds_moveLanes (holds_mixColumns h))
  unfold round Keccak.round
  refine holds_pack fun i inside => ?_
  rw [Vector.getElem_set]
  by_cases first : i = 0
  · subst first
    rw [if_pos rfl, if_pos rfl, UInt64.toNat_xor, mixed 0 inside]
    rfl
  · rw [if_neg first, if_neg (Ne.symm first), mixed i inside]

theorem holds_permute (h : Holds s a) : Holds (permute s) (Keccak.permute a) := by
  unfold permute Keccak.permute
  generalize roundConstants = constants
  induction constants generalizing s a with
  | nil => exact h
  | cons constant constants ih =>
    rw [List.foldl_cons, List.foldl_cons]
    exact ih (holds_round h constant)

/-! ## The sponge -/

/-- The state after a block. -/
def absorb (s : Nat) (block : Bytes) : Nat :=
  permute (pack (fun i =>
    digit s i ^^^ (if i < 17 then (laneOfBytes (block.slice (8 * i) 8)).toNat else 0)) 0 25)

/-- The state after so many blocks of a message. -/
def absorbAll : Nat → Nat → Bytes → Nat
  | 0, s, _ => s
  | blocks + 1, s, message => absorbAll blocks (absorb s (message.take rate)) (message.drop rate)

theorem holds_absorb (h : Holds s a) (block : Bytes) :
    Holds (absorb s block) (Keccak.absorb a block) := by
  unfold absorb Keccak.absorb
  refine holds_permute (holds_ofFn fun i => ?_)
  rw [UInt64.toNat_xor, h i i.isLt]
  split <;> rfl

theorem holds_absorbAll (h : Holds s a) (blocks : Nat) (message : Bytes) :
    Holds (absorbAll blocks s message) (Keccak.absorbAll blocks a message) := by
  induction blocks generalizing s a message with
  | zero => exact h
  | succ blocks ih => exact ih (holds_absorb h _) _

end Packed

/-- The digest of a message by way of one number. -/
def packedHash (message : Bytes) : Bytes :=
  let whole := message ++ padding message.length
  let s := Packed.absorbAll (whole.length / rate) 0 whole
  (List.range 4).flatMap fun i => bytesOfLane (.ofNat (Packed.lane s i 0))

/-- The digest can be worked out on one number. -/
theorem hashBytes_eq (message : Bytes) : hashBytes message = packedHash message := by
  have empty : Packed.Holds 0 (Vector.replicate 25 0) := by
    intro i inside
    rw [Vector.getElem_replicate, Packed.digit, Nat.zero_shiftRight]
    rfl
  unfold hashBytes packedHash
  simp only [(Packed.holds_absorbAll empty _ _).lane, UInt64.ofNat_toNat]

end StepReplay.Keccak
