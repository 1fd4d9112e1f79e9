import StepReplay.Text

set_option autoImplicit false

/-! # UTF-8

Files are read and written as UTF-8 in its strict form: no overlong sequence, no surrogate and
nothing above U+10FFFF. The decoder takes one sequence at a time and never resynchronises, since
a single wrong byte makes the whole file unreadable. -/

namespace StepReplay.Utf8

/-- The bytes of one code point; a surrogate has none. -/
def encodePoint (c : CodePoint) : Option (List UInt8) :=
  let n := c.val
  if n < 0x80 then some [UInt8.ofNat n]
  else if n < 0x800 then
    some [UInt8.ofNat (0xC0 + n / 0x40), UInt8.ofNat (0x80 + n % 0x40)]
  else if c.isSurrogate then none
  else if n < 0x10000 then
    some [UInt8.ofNat (0xE0 + n / 0x1000), UInt8.ofNat (0x80 + n / 0x40 % 0x40),
      UInt8.ofNat (0x80 + n % 0x40)]
  else
    some [UInt8.ofNat (0xF0 + n / 0x40000), UInt8.ofNat (0x80 + n / 0x1000 % 0x40),
      UInt8.ofNat (0x80 + n / 0x40 % 0x40), UInt8.ofNat (0x80 + n % 0x40)]

/-- The bytes of a text, if it holds no surrogate. -/
def encode? (t : Text) : Option (List UInt8) :=
  (t.mapM encodePoint).map List.flatten

theorem encode?_isSome_of_ascii {t : Text} (h : ∀ c ∈ t, c.val < 0x80) :
    (encode? t).isSome = true := by
  suffices each : ∃ pieces, t.mapM encodePoint = some pieces by
    obtain ⟨pieces, each⟩ := each
    rw [encode?, each]
    rfl
  induction t with
  | nil => exact ⟨[], rfl⟩
  | cons c rest ih =>
    obtain ⟨pieces, each⟩ := ih fun c member => h c (List.mem_cons_of_mem _ member)
    have this : encodePoint c = some [UInt8.ofNat c.val] := if_pos (h c (List.mem_cons_self ..))
    exact ⟨[UInt8.ofNat c.val] :: pieces, by rw [List.mapM_cons, this, each]; rfl⟩

/-- The six bits that a continuation byte carries. -/
def continuation? (b : UInt8) : Option Nat :=
  if 0x80 ≤ b.toNat ∧ b.toNat ≤ 0xBF then some (b.toNat - 0x80) else none

/-- A code point read from a sequence, if it needs a sequence that long and is no surrogate. -/
def point? (least n : Nat) : Option CodePoint :=
  if h : least ≤ n ∧ n < 0x110000 ∧ ¬ (0xD800 ≤ n ∧ n ≤ 0xDFFF) then some ⟨n, h.2.1⟩ else none

/-- The first code point of a byte string with the bytes after its sequence. -/
def first? : List UInt8 → Option (CodePoint × List UInt8)
  | [] => none
  | a :: rest =>
    let n := a.toNat
    if n < 0x80 then (point? 0 n).map (·, rest)
    else if n < 0xC0 then none
    else if n < 0xE0 then match rest with
      | b :: rest => do
        let c ← point? 0x80 ((n - 0xC0) * 0x40 + (← continuation? b))
        return (c, rest)
      | _ => none
    else if n < 0xF0 then match rest with
      | b :: c :: rest => do
        let c ← point? 0x800
          (((n - 0xE0) * 0x40 + (← continuation? b)) * 0x40 + (← continuation? c))
        return (c, rest)
      | _ => none
    else if n < 0xF8 then match rest with
      | b :: c :: d :: rest => do
        let c ← point? 0x10000
          ((((n - 0xF0) * 0x40 + (← continuation? b)) * 0x40 + (← continuation? c)) * 0x40
            + (← continuation? d))
        return (c, rest)
      | _ => none
    else none

/-- Code points read off a byte string, newest first; `fuel` bounds their number. -/
def decodeOnto (acc : Text) : Nat → List UInt8 → Option Text
  | _, [] => some acc.reverse
  | 0, _ :: _ => none
  | fuel + 1, bytes => match first? bytes with
    | some (c, rest) => decodeOnto (c :: acc) fuel rest
    | none => none

/-- The text of a byte string, if it is strict UTF-8; no code point takes less than one byte. -/
def decode? (bytes : List UInt8) : Option Text :=
  decodeOnto [] bytes.length bytes

end StepReplay.Utf8
