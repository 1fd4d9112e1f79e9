import StepReplay.Proofs.Compressed
import StepReplay.Proofs.Except

set_option autoImplicit false

/-! # The grammar of base64 payloads

A payload is a row of characters of the alphabet with pads behind it. `Spells` says which numbers of
the two go together, and those are the payloads that are read. Behind every character the reader has
the bits of all characters so far: those of the bytes it has handed out, and less than a byte left
over (`Stands`). Pads change nothing about them, so the bytes of a payload are the whole bytes of
its bits. They are written as the payload again if the bits left over are zero and no pad stands
behind a full group. -/

namespace StepReplay.Base64

/-! ## Characters and their bits -/

/-- The bits of a character, the highest first. -/
def sextet (c : UInt8) : List Bool :=
  (List.range 6).map fun k => (alphabet.idxOf c).testBit (5 - k)

/-- The bits of a row of characters. -/
def carried (chars : Bytes) : List Bool :=
  chars.flatMap sextet

/-- Which numbers of characters and pads make a payload. -/
def Closes (chars pads : Nat) : Prop :=
  (chars = 0 ∧ pads = 0) ∨ (0 < chars ∧ chars % 4 = 0) ∨ (chars % 4 = 2 ∧ pads = 2) ∨
    (chars % 4 = 3 ∧ pads = 1)

/-- A payload is made of characters and pads that go together. -/
structure Spells (payload chars : Bytes) (pads : Nat) : Prop where
  text : payload = chars ++ List.replicate pads pad
  characters : ∀ c ∈ chars, c ∈ alphabet
  closes : Closes chars.length pads

theorem value?_of_mem : ∀ c ∈ alphabet, value? c = some (alphabet.idxOf c) := by decide +kernel

theorem value?_of_not_mem {c : UInt8} (absent : c ∉ alphabet) : value? c = none := by
  have all : ∀ n < 256, (value? (UInt8.ofNat n)).isSome → UInt8.ofNat n ∈ alphabet := by
    decide +kernel
  have this := all c.toNat c.toNat_lt
  rw [UInt8.ofNat_toNat] at this
  by_contra some
  exact absent (this (Option.isSome_iff_ne_none.2 some))

theorem pad_not_mem_alphabet : pad ∉ alphabet := by decide +kernel

theorem getD_number_sextet : ∀ c ∈ alphabet, alphabet.getD (number (sextet c)) pad = c := by
  decide +kernel

theorem sextet_character : ∀ a b c d e f : Bool,
    sextet (alphabet.getD (number [a, b, c, d, e, f]) pad) = [a, b, c, d, e, f] := by
  decide +kernel

theorem bits_number : ∀ a b c d e f g h : Bool,
    bits [UInt8.ofNat (number [a, b, c, d, e, f, g, h])] = [a, b, c, d, e, f, g, h] := by
  decide +kernel

theorem length_sextet (c : UInt8) : (sextet c).length = 6 := rfl

theorem length_carried (chars : Bytes) : (carried chars).length = 6 * chars.length := by
  induction chars with
  | nil => rfl
  | cons c rest ih =>
    rw [carried, List.flatMap_cons, ← carried, List.length_append, length_sextet, ih,
      List.length_cons]
    omega

theorem carried_concat (chars : Bytes) (c : UInt8) :
    carried (chars ++ [c]) = carried chars ++ sextet c := by
  rw [carried, List.flatMap_append, ← carried, List.flatMap_singleton]

theorem bits_append (b b' : Bytes) : bits (b ++ b') = bits b ++ bits b' :=
  List.flatMap_append

theorem length_bits (b : Bytes) : (bits b).length = 8 * b.length := by
  induction b with
  | nil => rfl
  | cons x rest ih =>
    rw [bits_cons]
    simp only [List.length_cons, ih]
    omega

/-! ## Reading characters -/

/-- A reader that has read a row of characters: the bits of its bytes and the bits left over are the
bits of the characters. -/
structure Stands (p : Progress) (chars : Bytes) : Prop where
  group : p.group = chars.length % 4
  pads : p.pads = 0
  unpadded : p.padded = false
  held : ∃ spare, bits p.read.reverse ++ spare = carried chars ∧ spare.length = 6 * p.group % 8 ∧
    number spare = p.left

theorem stands_start : Stands .start [] :=
  ⟨rfl, rfl, rfl, [], rfl, rfl, rfl⟩

/-- A byte is put together from the bits left over and the first bits of the next character, whose
other bits are left over then. -/
theorem carried_of_byte {chars read : Bytes} {c : UInt8} {spare kept : List Bool} {n : Nat}
    (taken : List Bool) (whole : bits read.reverse ++ spare = carried chars)
    (six : sextet c = taken ++ kept)
    (byte : bits [UInt8.ofNat (number (spare ++ taken))] = spare ++ taken)
    (value : number (spare ++ taken) = n) :
    bits (UInt8.ofNat n :: read).reverse ++ kept = carried (chars ++ [c]) := by
  rw [carried_concat, ← whole, six, List.reverse_cons, bits_append, ← value, byte]
  simp only [List.append_assoc]

theorem Stands.push {p : Progress} {chars : Bytes} (stands : Stands p chars) {c : UInt8}
    (member : c ∈ alphabet) : Stands (p.push (alphabet.idxOf c)) (chars ++ [c]) := by
  obtain ⟨group, pads, unpadded, spare, whole, length, left⟩ := stands
  have small : alphabet.idxOf c < 64 := List.idxOf_lt_length_of_mem member
  have six : sextet c = [(alphabet.idxOf c).testBit 5, (alphabet.idxOf c).testBit 4,
    (alphabet.idxOf c).testBit 3, (alphabet.idxOf c).testBit 2, (alphabet.idxOf c).testBit 1,
    (alphabet.idxOf c).testBit 0] := rfl
  generalize alphabet.idxOf c = v at *
  obtain ⟨n, pads, padded, rest, read⟩ := p
  obtain rfl : padded = false := unpadded
  simp only at group whole length left
  have next : (chars ++ [c]).length % 4 = (n + 1) % 4 := by
    rw [List.length_append, List.length_singleton]
    omega
  -- a character is begun at each of the four places in a group; at all but the first a byte ends
  match n, spare, length with
  | 0, [], _ =>
    refine ⟨by rw [next]; rfl, rfl, rfl, sextet c, ?_, rfl, ?_⟩
    · rw [carried_concat, ← whole, List.append_nil]
      rfl
    · simp only [six, number_sextet, Nat.toNat_testBit, Progress.push]
      omega
  | 1, [a₁, a₂, a₃, a₄, a₅, a₆], _ =>
    refine ⟨by rw [next]; rfl, rfl, rfl, [v.testBit 3, v.testBit 2, v.testBit 1, v.testBit 0],
      carried_of_byte [v.testBit 5, v.testBit 4] whole six (bits_number ..) ?_,
      show 4 = 6 * 2 % 8 from rfl, ?_⟩
    all_goals
      simp only [← left, number, List.cons_append, List.nil_append, List.foldl_cons,
        List.foldl_nil, Nat.toNat_testBit, Progress.push]
      omega
  | 2, [a₁, a₂, a₃, a₄], _ =>
    refine ⟨by rw [next]; rfl, rfl, rfl, [v.testBit 1, v.testBit 0],
      carried_of_byte [v.testBit 5, v.testBit 4, v.testBit 3, v.testBit 2] whole six
        (bits_number ..) ?_, show 2 = 6 * 3 % 8 from rfl, ?_⟩
    all_goals
      simp only [← left, number, List.cons_append, List.nil_append, List.foldl_cons,
        List.foldl_nil, Nat.toNat_testBit, Progress.push]
      omega
  | 3, [a₁, a₂], _ =>
    refine ⟨by rw [next]; rfl, rfl, rfl, [],
      carried_of_byte [v.testBit 5, v.testBit 4, v.testBit 3, v.testBit 2, v.testBit 1,
        v.testBit 0] whole six (bits_number ..) ?_, rfl, rfl⟩
    simp only [← left, number, List.cons_append, List.nil_append, List.foldl_cons,
      List.foldl_nil, Nat.toNat_testBit]
    omega
  | _ + 4, _, _ => omega

theorem ne_pad_of_mem {c : UInt8} (member : c ∈ alphabet) : c ≠ pad := by
  rintro rfl
  exact pad_not_mem_alphabet member

/-- A row of characters brings a reader to where it stands behind them. -/
theorem Stands.run_characters {p : Progress} {chars more : Bytes} (stands : Stands p chars)
    (members : ∀ c ∈ more, c ∈ alphabet) :
    ∃ p', Stands p' (chars ++ more) ∧ ∀ rest, p.run (more ++ rest) = p'.run rest := by
  induction more generalizing p chars with
  | nil => exact ⟨p, by rwa [List.append_nil], fun rest => rfl⟩
  | cons c more ih =>
    obtain ⟨member, members⟩ := List.forall_mem_cons.1 members
    obtain ⟨p', behind, same⟩ := ih (stands.push member) members
    refine ⟨p', ?_, fun rest => ?_⟩
    · rwa [List.append_assoc] at behind
    · rw [← same, List.cons_append, Progress.run, if_neg (ne_pad_of_mem member),
        value?_of_mem c member]
      dsimp only
      rw [stands.unpadded]
      rfl

/-! ## Reading pads -/

theorem pad_cons_eq_replicate {rest : Bytes} {k : Nat} :
    pad :: rest = List.replicate k pad ↔ ∃ m, k = m + 1 ∧ rest = List.replicate m pad := by
  cases k with
  | zero => simp
  | succ m => simp [List.replicate_succ]

theorem ne_replicate {c : UInt8} (other : c ≠ pad) (rest : Bytes) (k : Nat) :
    c :: rest ≠ List.replicate k pad := by
  intro same
  have member : c ∈ List.replicate k pad := same ▸ List.mem_cons_self
  exact other (List.eq_of_mem_replicate member)

/-- Behind a pad nothing but pads is read. -/
theorem run_padded_of_ne {p : Progress} (padded : p.padded = true) {c : UInt8} (other : c ≠ pad)
    (rest b : Bytes) : p.run (c :: rest) ≠ .ok b := by
  rw [Progress.run, if_neg other]
  cases value? c with
  | none => simp
  | some v => simp [padded]

/-- A payload may end where a group ends. -/
theorem finish_eq_ok {p : Progress} {b : Bytes} :
    p.finish = .ok b ↔ p.group = 0 ∧ b = p.read.reverse := by
  rw [Progress.finish]
  constructor
  · intro done
    split at done
    · cases done
    · split at done
      case isTrue none => exact ⟨none, (Except.ok.inj done).symm⟩
      case isFalse => cases done
  · rintro ⟨none, rfl⟩
    rw [if_neg (by omega), if_pos none]

/-- Behind a pad at the start of a group only pads may follow. -/
theorem run_padded {p : Progress} (padded : p.padded = true) (begun : p.group < 2) {rest b : Bytes} :
    p.run rest = .ok b ↔
      (∃ k, rest = List.replicate k pad ∧ p.group = 0) ∧ b = p.read.reverse := by
  induction rest with
  | nil =>
    rw [Progress.run, finish_eq_ok]
    constructor
    · rintro ⟨none, read⟩
      exact ⟨⟨0, rfl, none⟩, read⟩
    · rintro ⟨⟨-, -, none⟩, read⟩
      exact ⟨none, read⟩
  | cons c rest ih =>
    by_cases isPad : c = pad
    · have same : { p with padded := true } = p := by rw [← padded]
      rw [Progress.run, if_pos isPad]
      dsimp only
      rw [if_pos begun, same, ih, isPad]
      constructor
      · rintro ⟨⟨k, rfl, none⟩, read⟩
        exact ⟨⟨k + 1, rfl, none⟩, read⟩
      · rintro ⟨⟨k, row, none⟩, read⟩
        obtain ⟨m, -, row⟩ := pad_cons_eq_replicate.1 row
        exact ⟨⟨m, row, none⟩, read⟩
    · constructor
      · exact fun read => absurd read (run_padded_of_ne padded isPad rest b)
      · rintro ⟨⟨k, row, -⟩, -⟩
        exact absurd row (ne_replicate isPad rest k)

/-- A group of two characters takes two pads. -/
theorem run_pad_two {left : Nat} {read rest b : Bytes} :
    Progress.run ⟨2, 0, false, left, read⟩ (pad :: rest) = .ok b ↔
      rest = [pad] ∧ b = read.reverse := by
  have next : Progress.run ⟨2, 0, false, left, read⟩ (pad :: rest) =
      Progress.run ⟨2, 1, true, left, read⟩ rest := rfl
  rw [next]
  constructor
  · intro done
    match rest with
    | [] => cases done
    | c :: rest =>
      obtain rfl : c = pad := by
        by_contra other
        exact run_padded_of_ne rfl other rest b done
      match rest with
      | [] => exact ⟨rfl, (Except.ok.inj done).symm⟩
      | _ :: _ => cases done
  · rintro ⟨rfl, rfl⟩
    rfl

/-- A group of three characters takes one pad. -/
theorem run_pad_three {left : Nat} {read rest b : Bytes} :
    Progress.run ⟨3, 0, false, left, read⟩ (pad :: rest) = .ok b ↔
      rest = [] ∧ b = read.reverse := by
  constructor
  · intro done
    match rest with
    | [] => exact ⟨rfl, (Except.ok.inj done).symm⟩
    | _ :: _ => cases done
  · rintro ⟨rfl, rfl⟩
    rfl

/-- The numbers of pads that end a payload where a group has so many characters. -/
def Ends (group pads : Nat) : Prop :=
  group = 0 ∨ (group = 2 ∧ pads = 2) ∨ (group = 3 ∧ pads = 1)

/-- Behind the first pad only pads may follow, as many as the group asks for. -/
theorem run_pad {group left : Nat} {read rest b : Bytes} (small : group < 4) :
    Progress.run ⟨group, 0, false, left, read⟩ (pad :: rest) = .ok b ↔
      (∃ k, rest = List.replicate k pad ∧ Ends group (k + 1)) ∧ b = read.reverse := by
  by_cases begun : group < 2
  · have next : Progress.run ⟨group, 0, false, left, read⟩ (pad :: rest) =
        Progress.run ⟨group, 0, true, left, read⟩ rest := by
      rw [Progress.run, if_pos rfl]
      exact if_pos begun
    have none (k : Nat) : Ends group (k + 1) ↔ group = 0 := by
      unfold Ends
      omega
    have padded : Progress.run ⟨group, 0, true, left, read⟩ rest = .ok b ↔ _ :=
      run_padded rfl begun
    simp only [next, padded, none]
  · obtain rfl | rfl : group = 2 ∨ group = 3 := by omega
    · rw [run_pad_two]
      constructor
      · rintro ⟨rfl, read⟩
        exact ⟨⟨1, rfl, .inr (.inl ⟨rfl, rfl⟩)⟩, read⟩
      · rintro ⟨⟨k, rfl, ends⟩, read⟩
        obtain rfl : k = 1 := by
          unfold Ends at ends
          omega
        exact ⟨rfl, read⟩
    · rw [run_pad_three]
      constructor
      · rintro ⟨rfl, read⟩
        exact ⟨⟨0, rfl, .inr (.inr ⟨rfl, rfl⟩)⟩, read⟩
      · rintro ⟨⟨k, rfl, ends⟩, read⟩
        obtain rfl : k = 0 := by
          unfold Ends at ends
          omega
        exact ⟨rfl, read⟩

/-- Where the row of characters ends, only pads may follow, as many as the group asks for. -/
theorem run_end {group left : Nat} {read rest b : Bytes} (small : group < 4)
    (first : ∀ c, rest.head? = some c → c ∉ alphabet) :
    Progress.run ⟨group, 0, false, left, read⟩ rest = .ok b ↔
      (∃ k, rest = List.replicate k pad ∧ Ends group k) ∧ b = read.reverse := by
  cases rest with
  | nil =>
    rw [Progress.run, finish_eq_ok]
    constructor
    · rintro ⟨none, read⟩
      exact ⟨⟨0, rfl, .inl none⟩, read⟩
    · rintro ⟨⟨k, row, ends⟩, read⟩
      obtain rfl : k = 0 := by simpa using row.symm
      rcases ends with none | ⟨-, ⟨⟩⟩ | ⟨-, ⟨⟩⟩
      exact ⟨none, read⟩
  | cons c rest =>
    by_cases isPad : c = pad
    · rw [isPad, run_pad small]
      constructor
      · rintro ⟨⟨k, rfl, ends⟩, read⟩
        exact ⟨⟨k + 1, rfl, ends⟩, read⟩
      · rintro ⟨⟨k, row, ends⟩, read⟩
        obtain ⟨m, rfl, others⟩ := pad_cons_eq_replicate.1 row
        exact ⟨⟨m, others, ends⟩, read⟩
    · have foreign : Progress.run ⟨group, 0, false, left, read⟩ (c :: rest) =
          .error .foreignCharacter := by
        rw [Progress.run, if_neg isPad, value?_of_not_mem (first c rfl)]
      rw [foreign]
      constructor
      · rintro ⟨⟩
      · rintro ⟨⟨k, row, -⟩, -⟩
        exact absurd row (ne_replicate isPad rest k)

/-! ## Whole payloads -/

/-- The whole bytes of the bits of a row of characters are those that have been read. -/
theorem Stands.take_carried {p : Progress} {chars : Bytes} (stands : Stands p chars) :
    bits p.read.reverse = (carried chars).take (8 * (3 * chars.length / 4)) := by
  obtain ⟨group, -, -, spare, whole, length, -⟩ := stands
  have total := congrArg List.length whole
  rw [List.length_append, length_bits, length_carried] at total
  have size : (bits p.read.reverse).length = 8 * (3 * chars.length / 4) := by
    rw [length_bits]
    omega
  rw [← whole, List.take_left' size]

theorem bits_injective {b b' : Bytes} (same : bits b = bits b') : b = b' := by
  have standards : standard b = standard b' := by
    rw [standard, standard, characters, characters, same]
  have read := decode_encode b
  rw [encode_eq_standard, standards, ← encode_eq_standard, decode_encode] at read
  exact (Except.ok.inj read).symm

theorem exists_bits {chars : Bytes} (members : ∀ c ∈ chars, c ∈ alphabet) :
    ∃ b, bits b = (carried chars).take (8 * (3 * chars.length / 4)) := by
  obtain ⟨p, stands, -⟩ := stands_start.run_characters members
  exact ⟨p.read.reverse, stands.take_carried⟩

theorem exists_characters (payload : Bytes) :
    ∃ chars rest, payload = chars ++ rest ∧ (∀ c ∈ chars, c ∈ alphabet) ∧
      ∀ c, rest.head? = some c → c ∉ alphabet := by
  induction payload with
  | nil => exact ⟨[], [], rfl, by simp, by simp⟩
  | cons c payload ih =>
    by_cases member : c ∈ alphabet
    · obtain ⟨chars, rest, rfl, members, first⟩ := ih
      exact ⟨c :: chars, rest, rfl, List.forall_mem_cons.2 ⟨member, members⟩, first⟩
    · refine ⟨[], c :: payload, rfl, by simp, ?_⟩
      rintro _ ⟨⟩
      exact member

theorem head?_pads {c : UInt8} {k : Nat} (head : (List.replicate k pad).head? = some c) :
    c = pad :=
  List.eq_of_mem_replicate (List.mem_of_mem_head? head)

theorem decode_append {chars rest b : Bytes} (members : ∀ c ∈ chars, c ∈ alphabet)
    (first : ∀ c, rest.head? = some c → c ∉ alphabet) :
    decode (chars ++ rest) = .ok b ↔
      (∃ k, rest = List.replicate k pad ∧ Closes chars.length k) ∧
        bits b = (carried chars).take (8 * (3 * chars.length / 4)) := by
  obtain ⟨⟨group, pads, padded, left, read⟩, stands, same⟩ := stands_start.run_characters members
  rw [List.nil_append] at stands
  obtain rfl : pads = 0 := stands.pads
  obtain rfl : padded = false := stands.unpadded
  have place : group = chars.length % 4 := stands.group
  have whole : bits b = (carried chars).take (8 * (3 * chars.length / 4)) ↔ b = read.reverse := by
    rw [← stands.take_carried]
    exact ⟨bits_injective, congrArg bits⟩
  have ends (k : Nat) : Closes chars.length k ↔ Ends group k ∧ (chars = [] → k = 0) := by
    rw [← List.length_eq_zero_iff]
    unfold Closes Ends
    omega
  rw [whole, decode]
  split
  case isTrue leading =>
    -- a pad in front of all characters
    constructor
    · rintro ⟨⟩
    · rintro ⟨⟨k, rfl, closes⟩, -⟩
      cases chars with
      | nil =>
        obtain rfl := ((ends k).1 closes).2 rfl
        cases leading
      | cons c chars =>
        exact absurd (Option.some.inj leading) (ne_pad_of_mem (members c List.mem_cons_self))
  case isFalse other =>
    rw [same, run_end (by omega) first]
    simp only [ends]
    constructor
    · rintro ⟨⟨k, rfl, last⟩, read⟩
      refine ⟨⟨k, rfl, last, ?_⟩, read⟩
      rintro rfl
      cases k with
      | zero => rfl
      | succ k => exact absurd rfl other
    · rintro ⟨⟨k, rfl, last, -⟩, read⟩
      exact ⟨⟨k, rfl, last⟩, read⟩

/-- The payloads that are read, and as what. -/
theorem decode_eq_ok {payload b : Bytes} :
    decode payload = .ok b ↔ ∃ chars pads, Spells payload chars pads ∧
      bits b = (carried chars).take (8 * (3 * chars.length / 4)) := by
  constructor
  · intro done
    obtain ⟨chars, rest, rfl, members, first⟩ := exists_characters payload
    obtain ⟨⟨k, rfl, closes⟩, lead⟩ := (decode_append members first).1 done
    exact ⟨chars, k, ⟨rfl, members, closes⟩, lead⟩
  · rintro ⟨chars, pads, ⟨rfl, members, closes⟩, lead⟩
    have first (c : UInt8) (head : (List.replicate pads pad).head? = some c) : c ∉ alphabet := by
      rw [head?_pads head]
      exact pad_not_mem_alphabet
    exact (decode_append members first).2 ⟨⟨pads, rfl, closes⟩, lead⟩

/-! ## Writing a payload again -/

/-- What is left behind all groups of six is less than a group. -/
theorem length_short {row : List Bool}
    (short : ∀ a b c d e f rest, row = a :: b :: c :: d :: e :: f :: rest → False) :
    row.length < 6 := by
  match row with
  | [] | [_] | [_, _] | [_, _, _] | [_, _, _, _] | [_, _, _, _, _] => simp
  | a :: b :: c :: d :: e :: f :: rest => exact absurd rfl (short a b c d e f rest)

theorem length_of_mem_sextets {row group : List Bool} (member : group ∈ sextets row) :
    group.length = 6 := by
  fun_induction sextets row with
  | case1 => cases member
  | case2 a b c d e f rest ih =>
    rcases List.mem_cons.1 member with rfl | member
    · rfl
    · exact ih member
  | case3 row some short =>
    obtain rfl := List.mem_singleton.1 member
    have := length_short short
    rw [List.length_append, List.length_replicate]
    omega

theorem flatten_sextets (row : List Bool) :
    (sextets row).flatten = row ++ List.replicate ((6 - row.length % 6) % 6) false := by
  fun_induction sextets row with
  | case1 => rfl
  | case2 a b c d e f rest ih =>
    rw [List.flatten_cons, ih]
    simp only [List.length_cons, List.cons_append, List.nil_append, Nat.add_assoc, Nat.reduceAdd,
      Nat.add_mod_right]
  | case3 row some short =>
    have below := length_short short
    have above : row.length ≠ 0 := fun none => some (List.length_eq_zero_iff.1 none)
    rw [List.flatten_singleton, Nat.mod_eq_of_lt below, Nat.mod_eq_of_lt (by omega)]

/-- Six bits are those of the character with their number. -/
theorem sextet_of_length {group : List Bool} (six : group.length = 6) :
    sextet (alphabet.getD (number group) pad) = group ∧
      alphabet.getD (number group) pad ∈ alphabet := by
  have member : ∀ a b c d e f : Bool,
      alphabet.getD (number [a, b, c, d, e, f]) pad ∈ alphabet := by decide +kernel
  match group, six with
  | [a, b, c, d, e, f], _ => exact ⟨sextet_character a b c d e f, member a b c d e f⟩

theorem mem_alphabet_of_mem_characters {b : Bytes} {c : UInt8} (member : c ∈ characters b) :
    c ∈ alphabet := by
  obtain ⟨group, listed, rfl⟩ := List.mem_map.1 member
  exact (sextet_of_length (length_of_mem_sextets listed)).2

/-- The characters of a byte string carry its bits and zeros. -/
theorem carried_characters (b : Bytes) :
    carried (characters b) = bits b ++ List.replicate ((6 - 8 * b.length % 6) % 6) false := by
  have each : ∀ group ∈ sextets (bits b), sextet (alphabet.getD (number group) pad) = group :=
    fun group member => (sextet_of_length (length_of_mem_sextets member)).1
  rw [← length_bits, ← flatten_sextets, carried, characters, List.flatMap_map, List.flatMap_def,
    List.map_congr_left each, List.map_id']

theorem carried_injective {chars chars' : Bytes} (members : ∀ c ∈ chars, c ∈ alphabet)
    (members' : ∀ c ∈ chars', c ∈ alphabet) (same : carried chars = carried chars') :
    chars = chars' := by
  induction chars generalizing chars' with
  | nil =>
    cases chars' with
    | nil => rfl
    | cons c' chars' => cases same
  | cons c chars ih =>
    cases chars' with
    | nil => cases same
    | cons c' chars' =>
      obtain ⟨member, members⟩ := List.forall_mem_cons.1 members
      obtain ⟨member', members'⟩ := List.forall_mem_cons.1 members'
      obtain ⟨first, others⟩ := List.append_inj same (by rfl)
      rw [← getD_number_sextet c member, ← getD_number_sextet c' member', first,
        ih members members' others]

/-- A payload is the text of the bytes that it is read as if no pad stands behind a full group and
the bits that make no whole byte are zero. -/
theorem encode_eq_payload {payload chars b : Bytes} {pads : Nat} (spells : Spells payload chars pads)
    (lead : bits b = (carried chars).take (8 * (3 * chars.length / 4))) :
    encode b = payload ↔ (chars.length % 4 = 0 → pads = 0) ∧
      ∀ bit ∈ (carried chars).drop (8 * (3 * chars.length / 4)), bit = false := by
  obtain ⟨rfl, members, closes⟩ := spells
  have closed : (chars.length % 4 = 0 ∧ (chars.length = 0 → pads = 0)) ∨
      (chars.length % 4 = 2 ∧ pads = 2) ∨ (chars.length % 4 = 3 ∧ pads = 1) := by
    unfold Closes at closes
    omega
  have size : b.length = 3 * chars.length / 4 := by
    have length := congrArg List.length lead
    rw [length_bits, List.length_take, length_carried] at length
    omega
  have zeros : (6 - 8 * b.length % 6) % 6 = 6 * chars.length - 8 * (3 * chars.length / 4) := by
    omega
  have count : (characters b).length = chars.length := by
    have length := congrArg List.length (carried_characters b)
    rw [length_carried, List.length_append, length_bits, List.length_replicate] at length
    omega
  have whole : carried chars = bits b ++ (carried chars).drop (8 * (3 * chars.length / 4)) := by
    rw [lead, List.take_append_drop]
  rw [encode_eq_standard, standard, count]
  constructor
  · intro same
    obtain ⟨text, behind⟩ := List.append_inj same count
    have padding := congrArg List.length behind
    rw [List.length_replicate, List.length_replicate] at padding
    refine ⟨by omega, fun bit member => ?_⟩
    have carry := carried_characters b
    rw [text] at carry
    rw [← List.append_cancel_left (carry.symm.trans whole)] at member
    exact List.eq_of_mem_replicate member
  · rintro ⟨unpadded, cleared⟩
    have rest := List.eq_replicate_of_mem cleared
    rw [List.length_drop, length_carried, ← zeros] at rest
    rw [rest, ← carried_characters] at whole
    rw [carried_injective members (fun c => mem_alphabet_of_mem_characters) whole]
    congr 2
    omega

end StepReplay.Base64

namespace StepReplay.CompressedForm

/-- Any bytes may be the content of a stream. They are read as a buffer exactly if they are a row of
characters of the alphabet with pads that go with it, and else refused as no base64 text. The buffer
has three bytes for every four characters, rounded down, and it is the one with the bits that the
characters begin with. Written again, it gives a stream of the same content exactly if no pad stands
behind a full group and the bits of the last character that make no whole byte are zero. -/
theorem payload_grammar (content : Bytes) :
    (∃ blob, inflate blob = .ok content) ∧
    ∀ blob, inflate blob = .ok content →
      ((∃ b, decode ⟨none⟩ blob = .ok b) ↔ ∃ chars pads, Base64.Spells content chars pads) ∧
      ((∃ fault, decode ⟨none⟩ blob = .error (.notBase64 fault)) ↔
        ¬ ∃ chars pads, Base64.Spells content chars pads) ∧
      ∀ chars pads, Base64.Spells content chars pads → ∃ b, decode ⟨none⟩ blob = .ok b ∧
        b.length = 3 * chars.length / 4 ∧
        (∀ b', Base64.bits b' = (Base64.carried chars).take (8 * (3 * chars.length / 4)) ↔
          b' = b) ∧
        ((∃ again, encode ⟨none⟩ b = .ok again ∧ inflate again = .ok content) ↔
          (chars.length % 4 = 0 → pads = 0) ∧
            ∀ bit ∈ (Base64.carried chars).drop (8 * (3 * chars.length / 4)), bit = false) := by
  refine ⟨⟨_, inflate_compress content⟩, fun blob holds => ?_⟩
  have whole : decode ⟨none⟩ blob = (Base64.decode content).mapError .notBase64 := by
    rw [decode_of_inflate holds]
    cases Base64.decode content <;> rfl
  have accepted (b : Bytes) : decode ⟨none⟩ blob = .ok b ↔ ∃ chars pads,
      Base64.Spells content chars pads ∧
        Base64.bits b = (Base64.carried chars).take (8 * (3 * chars.length / 4)) := by
    rw [whole, mapError_eq_ok, Base64.decode_eq_ok]
  have exists_read {chars : Bytes} {pads : Nat} (spells : Base64.Spells content chars pads) :
      ∃ b, decode ⟨none⟩ blob = .ok b ∧
        Base64.bits b = (Base64.carried chars).take (8 * (3 * chars.length / 4)) := by
    obtain ⟨b, lead⟩ := Base64.exists_bits spells.characters
    exact ⟨b, (accepted b).2 ⟨chars, pads, spells, lead⟩, lead⟩
  have read : (∃ b, decode ⟨none⟩ blob = .ok b) ↔
      ∃ chars pads, Base64.Spells content chars pads := by
    constructor
    · rintro ⟨b, done⟩
      obtain ⟨chars, pads, spells, -⟩ := (accepted b).1 done
      exact ⟨chars, pads, spells⟩
    · rintro ⟨chars, pads, spells⟩
      obtain ⟨b, done, -⟩ := exists_read spells
      exact ⟨b, done⟩
  refine ⟨read, ?_, fun chars pads spells => ?_⟩
  · rw [← read, whole]
    cases Base64.decode content with
    | ok b => exact ⟨fun ⟨_, h⟩ => (by cases h), fun h => absurd ⟨b, rfl⟩ h⟩
    | error fault => exact ⟨fun _ ⟨_, h⟩ => (by cases h), fun _ => ⟨fault, rfl⟩⟩
  · obtain ⟨b, done, lead⟩ := exists_read spells
    have length := congrArg List.length lead
    rw [Base64.length_bits, List.length_take, Base64.length_carried] at length
    refine ⟨b, done, by omega, fun b' => ?_, ?_⟩
    · rw [← lead]
      exact ⟨Base64.bits_injective, congrArg Base64.bits⟩
    · rw [← Base64.encode_eq_payload spells lead, encode_fits (.inl rfl)]
      constructor
      · rintro ⟨again, ⟨⟩, content'⟩
        exact Except.ok.inj ((inflate_compress _).symm.trans content')
      · rintro rfl
        exact ⟨_, rfl, inflate_compress _⟩

end StepReplay.CompressedForm
