import StepReplay.Base64

set_option autoImplicit false

/-! # Base64 text read back

The text of a byte string is the standard one: a character for every six bits, counted from the
highest bit of the first byte on, the last bits filled up with zeros and the last group of four
characters with pads (`encode_eq_standard`). Reading takes the six bits off each character and hands
out a byte as soon as it has eight, so after four characters nothing is left over, and the reader
stands as it did at the start but for the bytes that it has read. That is what the induction over
the text carries along. -/

namespace StepReplay.Base64

/-! ## The standard text -/

/-- The characters in the order of their values. -/
def alphabet : Bytes :=
  "ABCDEFGHIJKLMNOPQRSTUVWXYZabcdefghijklmnopqrstuvwxyz0123456789+/".toList.map
    fun c => UInt8.ofNat c.toNat

/-- The bits of a byte string, the highest of each byte first. -/
def bits (b : Bytes) : List Bool :=
  b.flatMap fun x => (List.range 8).map fun k => x.toNat.testBit (7 - k)

/-- A row of bits in groups of six; a last one that is short is filled up with zeros. -/
def sextets : List Bool → List (List Bool)
  | [] => []
  | a :: b :: c :: d :: e :: f :: rest => [a, b, c, d, e, f] :: sextets rest
  | short => [short ++ List.replicate (6 - short.length) false]

/-- The number of a row of bits, the highest first. -/
def number (row : List Bool) : Nat :=
  row.foldl (fun n bit => 2 * n + bit.toNat) 0

/-- The characters of a byte string without pads. -/
def characters (b : Bytes) : Bytes :=
  (sextets (bits b)).map fun group => alphabet.getD (number group) pad

/-- The standard text of a byte string. -/
def standard (b : Bytes) : Bytes :=
  characters b ++ List.replicate ((4 - (characters b).length % 4) % 4) pad

/-! ## Characters -/

theorem getD_alphabet : ∀ v < 64, alphabet.getD v pad = ofValue v := by decide +kernel

theorem value?_ofValue : ∀ v < 64, value? (ofValue v) = some v := by decide

theorem ofValue_ne_pad : ∀ v < 64, ofValue v ≠ pad := by decide

/-! ## Writing -/

theorem bits_cons (x : UInt8) (rest : Bytes) :
    bits (x :: rest) =
      x.toNat.testBit 7 :: x.toNat.testBit 6 :: x.toNat.testBit 5 :: x.toNat.testBit 4 ::
        x.toNat.testBit 3 :: x.toNat.testBit 2 :: x.toNat.testBit 1 :: x.toNat.testBit 0 ::
          bits rest := rfl

/-- Six bits of a number have the value that they have in it. -/
theorem number_sextet (a b c d e f : Bool) :
    number [a, b, c, d, e, f] = 32 * a.toNat + 16 * b.toNat + 8 * c.toNat + 4 * d.toNat
      + 2 * e.toNat + f.toNat := by
  simp only [number, List.foldl_cons, List.foldl_nil]
  omega

theorem character_eq {group : List Bool} {v : Nat} (same : number group = v) (small : v < 64) :
    alphabet.getD (number group) pad = ofValue v := by
  rw [same, getD_alphabet v small]

/-- Three bytes are four groups of six bits. -/
theorem characters_triple (a b c : UInt8) (rest : Bytes) :
    characters (a :: b :: c :: rest) =
      ofValue (a.toNat / 4) :: ofValue (a.toNat % 4 * 16 + b.toNat / 16)
        :: ofValue (b.toNat % 16 * 4 + c.toNat / 64) :: ofValue (c.toNat % 64)
        :: characters rest := by
  have ha := a.toNat_lt
  have hb := b.toNat_lt
  have hc := c.toNat_lt
  simp only [characters, bits_cons, sextets, List.map_cons, List.cons.injEq]
  refine ⟨character_eq ?_ (by omega), character_eq ?_ (by omega), character_eq ?_ (by omega),
    character_eq ?_ (by omega), trivial⟩
  all_goals
    simp only [number_sextet, Nat.toNat_testBit]
    omega

theorem characters_pair (a b : UInt8) :
    characters [a, b] = [ofValue (a.toNat / 4), ofValue (a.toNat % 4 * 16 + b.toNat / 16),
      ofValue (b.toNat % 16 * 4)] := by
  have ha := a.toNat_lt
  have hb := b.toNat_lt
  have short : sextets (bits [a, b]) = [
      [a.toNat.testBit 7, a.toNat.testBit 6, a.toNat.testBit 5, a.toNat.testBit 4,
        a.toNat.testBit 3, a.toNat.testBit 2],
      [a.toNat.testBit 1, a.toNat.testBit 0, b.toNat.testBit 7, b.toNat.testBit 6,
        b.toNat.testBit 5, b.toNat.testBit 4],
      [b.toNat.testBit 3, b.toNat.testBit 2, b.toNat.testBit 1, b.toNat.testBit 0,
        false, false]] := rfl
  simp only [characters, short, List.map_cons, List.map_nil, List.cons.injEq]
  refine ⟨character_eq ?_ (by omega), character_eq ?_ (by omega), character_eq ?_ (by omega),
    trivial⟩
  all_goals
    simp only [number_sextet, Nat.toNat_testBit, Bool.toNat_false]
    omega

theorem characters_single (a : UInt8) :
    characters [a] = [ofValue (a.toNat / 4), ofValue (a.toNat % 4 * 16)] := by
  have ha := a.toNat_lt
  have short : sextets (bits [a]) = [
      [a.toNat.testBit 7, a.toNat.testBit 6, a.toNat.testBit 5, a.toNat.testBit 4,
        a.toNat.testBit 3, a.toNat.testBit 2],
      [a.toNat.testBit 1, a.toNat.testBit 0, false, false, false, false]] := rfl
  simp only [characters, short, List.map_cons, List.map_nil, List.cons.injEq]
  refine ⟨character_eq ?_ (by omega), character_eq ?_ (by omega), trivial⟩
  all_goals
    simp only [number_sextet, Nat.toNat_testBit, Bool.toNat_false]
    omega

theorem encode_eq_standard (b : Bytes) : encode b = standard b := by
  induction b using encode.induct with
  | case1 => rfl
  | case2 a =>
    rw [encode, standard, characters_single]
    rfl
  | case3 a b =>
    rw [encode, standard, characters_pair]
    rfl
  | case4 a b c rest ih =>
    rw [encode, ih, standard, standard, characters_triple]
    simp only [List.length_cons, List.cons_append, Nat.add_assoc, Nat.reduceAdd, Nat.add_mod_right]

/-! ## Reading -/

section Reading

variable {p : Progress}

theorem run_ofValue (unpadded : p.padded = false) {v : Nat} (small : v < 64) (rest : Bytes) :
    p.run (ofValue v :: rest) = (p.push v).run rest := by
  rw [Progress.run, if_neg (ofValue_ne_pad v small), value?_ofValue v small, unpadded]
  rfl

theorem ofNat_eq {x : UInt8} {n : Nat} (same : n = x.toNat) : UInt8.ofNat n = x := by
  rw [same, UInt8.ofNat_toNat]

/-- The pads that complete a group end a payload. -/
theorem run_pads (left : Nat) (read : Bytes) :
    Progress.run ⟨2, 0, false, left, read⟩ [pad, pad] = .ok read.reverse ∧
      Progress.run ⟨3, 0, false, left, read⟩ [pad] = .ok read.reverse :=
  ⟨rfl, rfl⟩

/-- Read from the start of a group, the text of a byte string adds the byte string to what has been
read. -/
theorem run_encode (read b : Bytes) :
    Progress.run ⟨0, 0, false, 0, read⟩ (encode b) = .ok (read.reverse ++ b) := by
  -- in each case a byte is put together from what two neighbouring characters hold of it
  induction b using encode.induct generalizing read with
  | case1 =>
    rw [List.append_nil]
    rfl
  | case2 a =>
    have ha := a.toNat_lt
    have first : UInt8.ofNat (a.toNat / 4 * 4 + a.toNat % 4 * 16 / 16) = a := ofNat_eq (by omega)
    rw [encode, run_ofValue rfl (by omega), run_ofValue rfl (by omega)]
    simp only [Progress.push, first]
    rw [(run_pads _ _).1, List.reverse_cons]
  | case3 a b =>
    have ha := a.toNat_lt
    have hb := b.toNat_lt
    have first : UInt8.ofNat (a.toNat / 4 * 4 + (a.toNat % 4 * 16 + b.toNat / 16) / 16) = a :=
      ofNat_eq (by omega)
    have second : UInt8.ofNat ((a.toNat % 4 * 16 + b.toNat / 16) % 16 * 16 + b.toNat % 16 * 4 / 4)
        = b := ofNat_eq (by omega)
    rw [encode, run_ofValue rfl (by omega), run_ofValue rfl (by omega), run_ofValue rfl (by omega)]
    simp only [Progress.push, first, second]
    rw [(run_pads _ _).2, List.reverse_cons, List.reverse_cons, List.append_assoc]
    rfl
  | case4 a b c rest ih =>
    have ha := a.toNat_lt
    have hb := b.toNat_lt
    have hc := c.toNat_lt
    have first : UInt8.ofNat (a.toNat / 4 * 4 + (a.toNat % 4 * 16 + b.toNat / 16) / 16) = a :=
      ofNat_eq (by omega)
    have second : UInt8.ofNat ((a.toNat % 4 * 16 + b.toNat / 16) % 16 * 16
        + (b.toNat % 16 * 4 + c.toNat / 64) / 4) = b := ofNat_eq (by omega)
    have third : UInt8.ofNat ((b.toNat % 16 * 4 + c.toNat / 64) % 4 * 64 + c.toNat % 64) = c :=
      ofNat_eq (by omega)
    rw [encode, run_ofValue rfl (by omega), run_ofValue rfl (by omega), run_ofValue rfl (by omega),
      run_ofValue rfl (by omega)]
    simp only [Progress.push, first, second, third]
    rw [ih, List.reverse_cons, List.reverse_cons, List.reverse_cons]
    simp only [List.append_assoc, List.cons_append, List.nil_append]

end Reading

theorem head?_encode (b : Bytes) : (encode b).head? ≠ some pad := by
  have first (a : UInt8) (rest : Bytes) : (ofValue (a.toNat / 4) :: rest).head? ≠ some pad := by
    have ha := a.toNat_lt
    rw [List.head?_cons, Ne, Option.some.injEq]
    exact ofValue_ne_pad _ (by omega)
  cases b using encode.fun_cases with
  | case1 => simp [encode]
  | case2 a => exact first a _
  | case3 a b => exact first a _
  | case4 a b c rest => exact first a _

/-- A byte string is read back from its text. -/
theorem decode_encode (b : Bytes) : decode (encode b) = .ok b := by
  rw [decode, if_neg (head?_encode b)]
  exact run_encode [] b

end StepReplay.Base64
