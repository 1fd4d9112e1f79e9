import StepReplay.Text.Utf8

set_option autoImplicit false

/-! # UTF-8 read back

A text has bytes just when it holds no half of a surrogate pair, and then reading the bytes gives the
text back. One sequence is the matter of `first?_encodePoint`; a text is one sequence after another
(`encode?_cons`), and none of them is empty, so the bytes are fuel enough. -/

namespace StepReplay.Utf8

/-! ## One sequence -/

theorem isSome_encodePoint_iff {c : CodePoint} :
    (encodePoint c).isSome = true ↔ c.isSurrogate = false := by
  unfold encodePoint
  cases half : c.isSurrogate with
  | false =>
    simp only [Bool.false_eq_true, ↓reduceIte, iff_true]
    repeat' split
    all_goals rfl
  | true =>
    have range : 0xD800 ≤ c.val := by
      rw [CodePoint.isSurrogate, Bool.and_eq_true, decide_eq_true_eq] at half
      exact half.1
    rw [if_neg (by omega), if_neg (by omega), if_pos rfl]
    simp

theorem toNat_ofNat {n : Nat} (h : n < 256) : (UInt8.ofNat n).toNat = n :=
  UInt8.toNat_ofNat_of_lt' h

theorem continuation?_ofNat {n : Nat} (h : n < 0x40) :
    continuation? (UInt8.ofNat (0x80 + n)) = some n := by
  rw [continuation?, toNat_ofNat (by omega), if_pos (by omega), Nat.add_sub_cancel_left]

theorem point?_val {least : Nat} {c : CodePoint} (enough : least ≤ c.val)
    (whole : c.isSurrogate = false) : point? least c.val = some c := by
  rw [CodePoint.isSurrogate, Bool.and_eq_false_iff, decide_eq_false_iff_not,
    decide_eq_false_iff_not] at whole
  rw [point?, dif_pos ⟨enough, c.isLt, by omega⟩]

theorem first?_encodePoint {c : CodePoint} {piece : List UInt8} (h : encodePoint c = some piece)
    (rest : List UInt8) : first? (piece ++ rest) = some (c, rest) := by
  have whole : c.isSurrogate = false := isSome_encodePoint_iff.1 (by rw [h]; rfl)
  have bound := c.isLt
  -- one case for each length of a sequence, whose first byte says how long it is
  simp only [encodePoint, whole, Bool.false_eq_true, ↓reduceIte] at h
  split at h
  · cases h
    rw [List.singleton_append]
    unfold first?
    dsimp only
    rw [toNat_ofNat (by omega), if_pos (by omega), point?_val (Nat.zero_le _) whole]
    rfl
  · split at h
    · cases h
      have sum : (0xC0 + c.val / 0x40 - 0xC0) * 0x40 + c.val % 0x40 = c.val := by omega
      simp only [List.cons_append, List.nil_append, first?]
      rw [toNat_ofNat (by omega), if_neg (by omega), if_neg (by omega), if_pos (by omega),
        continuation?_ofNat (by omega)]
      simp only [Option.bind_eq_bind, Option.bind_some, sum]
      rw [point?_val (by omega) whole]
      rfl
    · split at h
      · cases h
        have sum : ((0xE0 + c.val / 0x1000 - 0xE0) * 0x40 + c.val / 0x40 % 0x40) * 0x40
            + c.val % 0x40 = c.val := by omega
        simp only [List.cons_append, List.nil_append, first?]
        rw [toNat_ofNat (by omega), if_neg (by omega), if_neg (by omega), if_neg (by omega),
          if_pos (by omega), continuation?_ofNat (by omega), continuation?_ofNat (by omega)]
        simp only [Option.bind_eq_bind, Option.bind_some, sum]
        rw [point?_val (by omega) whole]
        rfl
      · cases h
        have sum : (((0xF0 + c.val / 0x40000 - 0xF0) * 0x40 + c.val / 0x1000 % 0x40) * 0x40
            + c.val / 0x40 % 0x40) * 0x40 + c.val % 0x40 = c.val := by omega
        simp only [List.cons_append, List.nil_append, first?]
        rw [toNat_ofNat (by omega), if_neg (by omega), if_neg (by omega), if_neg (by omega),
          if_neg (by omega), if_pos (by omega), continuation?_ofNat (by omega),
          continuation?_ofNat (by omega), continuation?_ofNat (by omega)]
        simp only [Option.bind_eq_bind, Option.bind_some, sum]
        rw [point?_val (by omega) whole]
        rfl

/-! ## Texts -/

theorem encode?_cons (c : CodePoint) (t : Text) :
    encode? (c :: t) = (encodePoint c).bind fun piece => (encode? t).map (piece ++ ·) := by
  simp only [encode?, List.mapM_cons]
  cases encodePoint c with
  | none => rfl
  | some piece => cases t.mapM encodePoint <;> rfl

theorem encode?_cons_eq_some {c : CodePoint} {t : Text} {b : List UInt8} :
    encode? (c :: t) = some b ↔
      ∃ piece rest, encodePoint c = some piece ∧ encode? t = some rest ∧ piece ++ rest = b := by
  rw [encode?_cons, Option.bind_eq_some_iff]
  constructor
  · rintro ⟨piece, here, h⟩
    obtain ⟨rest, there, joined⟩ := Option.map_eq_some_iff.1 h
    exact ⟨piece, rest, here, there, joined⟩
  · rintro ⟨piece, rest, here, there, joined⟩
    exact ⟨piece, here, Option.map_eq_some_iff.2 ⟨rest, there, joined⟩⟩

/-- A text can be written unless it holds half of a surrogate pair. -/
theorem isSome_encode?_iff {t : Text} :
    (encode? t).isSome = true ↔ ∀ c ∈ t, c.isSurrogate = false := by
  induction t with
  | nil => simp [encode?]
  | cons c t ih =>
    rw [List.forall_mem_cons, ← ih, ← isSome_encodePoint_iff, encode?_cons]
    cases encodePoint c <;> cases encode? t <;> simp

theorem decodeOnto_encode? {t acc : Text} {b : List UInt8} {fuel : Nat} (h : encode? t = some b)
    (enough : t.length ≤ fuel) : decodeOnto acc fuel b = some (acc.reverse ++ t) := by
  induction t generalizing acc b fuel with
  | nil =>
    cases h
    simp [decodeOnto]
  | cons c t ih =>
    obtain ⟨piece, rest, here, there, rfl⟩ := encode?_cons_eq_some.1 h
    have first := first?_encodePoint here rest
    obtain ⟨fuel, rfl⟩ : ∃ less, fuel = less + 1 :=
      ⟨fuel - 1, by rw [List.length_cons] at enough; omega⟩
    cases bytes : piece ++ rest with
    | nil =>
      rw [bytes] at first
      cases first
    | cons a others =>
      rw [bytes] at first
      rw [decodeOnto, first]
      · dsimp only
        rw [ih there (by rw [List.length_cons] at enough; omega), List.reverse_cons,
          List.append_assoc, List.singleton_append]
      · exact List.cons_ne_nil _ _

theorem length_le_of_encode? {t : Text} {b : List UInt8} (h : encode? t = some b) :
    t.length ≤ b.length := by
  induction t generalizing b with
  | nil => exact Nat.zero_le _
  | cons c t ih =>
    obtain ⟨piece, rest, here, there, rfl⟩ := encode?_cons_eq_some.1 h
    have some : piece ≠ [] := by
      rintro rfl
      have := first?_encodePoint here []
      cases this
    have := List.length_pos_iff.2 some
    have := ih there
    rw [List.length_cons, List.length_append]
    omega

/-- What has been written is read back. -/
theorem decode?_encode? {t : Text} {b : List UInt8} (h : encode? t = some b) :
    decode? b = some t :=
  decodeOnto_encode? h (length_le_of_encode? h)

end StepReplay.Utf8
