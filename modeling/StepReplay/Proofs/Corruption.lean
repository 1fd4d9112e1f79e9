import StepReplay.Proofs.Checksum
import StepReplay.Proofs.Truncation

set_option autoImplicit false

/-! # A changed byte

What becomes of a stream when one of its bytes is changed depends on where the byte stands. The two
bytes of the header check each other, the four of the checksum stand for the content, and what lies
behind them is not read. A changed byte between them changes the blocks, and the blocks have no check
of their own: nothing but the checksum tells the new content from the old one. -/

namespace StepReplay.Zlib

open Deflate

/-! ## The header -/

/-- A dictionary would be named by the next four bytes. -/
theorem exists_number {rest : Bytes} (four : 4 ≤ rest.length) :
    ∃ n s, Takes (Reader.number 32) ⟨[], rest⟩ n s := by
  match rest, four with
  | a :: b :: c :: d :: rest, _ =>
    exact ⟨_, _, .number_byte a (.number_byte b (.number_byte c (.number_byte d .number_zero)))⟩

/-- What is wrong with a header: the check is made first. -/
def headerFault? (method flags : UInt8) : Option Fault :=
  if (method.toNat * 256 + flags.toNat) % 31 ≠ 0 then some .headerCheck
  else if method.toNat % 16 ≠ 8 then some .unknownMethod
  else if 7 < method.toNat / 16 then some .windowSize
  else if flags.toNat / 32 % 2 = 1 then some .dictionaryNeeded
  else none

theorem run_readHeader (method flags : UInt8) {rest : Bytes} (four : 4 ≤ rest.length) :
    readHeader.run ⟨[], method :: flags :: rest⟩ =
      match headerFault? method flags with
      | some fault => .error fault
      | none => .ok ((), ⟨[], rest⟩) := by
  have low : (method.toNat + 256 * flags.toNat) % 256 = method.toNat := by
    have := method.toNat_lt
    omega
  have high : (method.toNat + 256 * flags.toNat) / 256 = flags.toNat := by
    have := method.toNat_lt
    omega
  rw [readHeader, (Takes.number_word method flags rest).run_bind]
  dsimp only
  rw [low, high, headerFault?]
  by_cases check : (method.toNat * 256 + flags.toNat) % 31 ≠ 0
  · rw [if_pos check, if_pos check]
    rfl
  rw [if_neg check, if_neg check]
  by_cases known : method.toNat % 16 ≠ 8
  · rw [if_pos known, if_pos known]
    rfl
  rw [if_neg known, if_neg known]
  by_cases wide : 7 < method.toNat / 16
  · rw [if_pos wide, if_pos wide]
    rfl
  rw [if_neg wide, if_neg wide]
  by_cases named : flags.toNat / 32 % 2 = 1
  · obtain ⟨n, s, takes⟩ := exists_number four
    rw [if_pos named, if_pos named, takes.run_bind]
    rfl
  · rw [if_neg named, if_neg named]
    rfl

theorem decompress_of_header {method flags : UInt8} {rest : Bytes} (four : 4 ≤ rest.length)
    {fault : Fault} (wrong : headerFault? method flags = some fault) :
    decompress (method :: flags :: rest) = .error fault := by
  have refused : readHeader.run ⟨[], method :: flags :: rest⟩ = .error fault := by
    rw [run_readHeader method flags four, wrong]
  rw [decompress, readStream, run_bind_of_error refused]
  rfl

/-- Apart from its checks a header says nothing. -/
theorem decompress_congr {method flags method' flags' : UInt8} {rest : Bytes}
    (four : 4 ≤ rest.length)
    (same : headerFault? method flags = headerFault? method' flags') :
    decompress (method :: flags :: rest) = decompress (method' :: flags' :: rest) := by
  have header : readHeader.run ⟨[], method :: flags :: rest⟩ =
      readHeader.run ⟨[], method' :: flags' :: rest⟩ := by
    rw [run_readHeader method flags four, run_readHeader method' flags' four, same]
  have read (method flags : UInt8) : decompress (method :: flags :: rest) =
      ((readStream (8 * (rest.length + 2) + 1)).run ⟨[], method :: flags :: rest⟩).map (·.1) := rfl
  rw [read, read, readStream, StateT.run_bind, StateT.run_bind, header]

theorem headerFault?_eq_none {method flags : UInt8} : headerFault? method flags = none ↔
    (method.toNat * 256 + flags.toNat) % 31 = 0 ∧ method.toNat % 16 = 8 ∧ method.toNat / 16 ≤ 7 ∧
      flags.toNat / 32 % 2 = 0 := by
  unfold headerFault?
  grind

/-- With another method byte a header does not check, or the method is another one. -/
theorem headerFault?_method {method flags : UInt8} (good : headerFault? method flags = none)
    {x : UInt8} (other : x ≠ method) :
    headerFault? x flags = some .headerCheck ∨ headerFault? x flags = some .unknownMethod := by
  obtain ⟨check, known, narrow, -⟩ := headerFault?_eq_none.1 good
  have differ : x.toNat ≠ method.toNat := fun same => other (UInt8.toNat_inj.1 same)
  have := x.toNat_lt
  unfold headerFault?
  by_cases check' : (x.toNat * 256 + flags.toNat) % 31 = 0
  · rw [if_neg (not_not.2 check'), if_pos (by omega)]
    exact .inr rfl
  · rw [if_pos check']
    exact .inl rfl

/-- With another flag byte a header does not check, or asks for a dictionary, or is as good. -/
theorem headerFault?_flags {method flags : UInt8} (good : headerFault? method flags = none)
    (x : UInt8) : headerFault? method x = some .headerCheck ∨
      headerFault? method x = some .dictionaryNeeded ∨ headerFault? method x = none := by
  obtain ⟨-, known, narrow, -⟩ := headerFault?_eq_none.1 good
  unfold headerFault?
  split
  · exact .inl rfl
  · rw [if_neg (not_not.2 known), if_neg (Nat.not_lt.2 narrow)]
    split
    · exact .inr (.inl rfl)
    · exact .inr (.inr rfl)

end StepReplay.Zlib

namespace StepReplay.CompressedForm

theorem exists_inflate {form : CompressedForm} {blob b : Bytes} (holds : form.decode blob = .ok b) :
    ∃ content, inflate blob = .ok content := by
  rw [decode] at holds
  obtain ⟨content, inflated, -⟩ := bind_eq_ok.1 holds
  exact ⟨content, inflated⟩

section Changed

variable {blob content : Bytes} {n i : Nat} {x : UInt8}

theorem Frames.inflate_eq (frames : Frames blob content n) : inflate blob = .ok content := by
  have holds := frames.holds (blob.drop n)
  rwa [List.take_append_drop] at holds

/-- The header of a stream is good. -/
theorem Frames.exists_header (frames : Frames blob content n) : ∃ method flags rest,
    blob = method :: flags :: rest ∧ 4 ≤ rest.length ∧ Zlib.headerFault? method flags = none := by
  have six := Nat.le_trans frames.room frames.within
  match blob, six with
  | method :: flags :: rest, six =>
    have four : 4 ≤ rest.length := by
      simp only [List.length_cons] at six
      omega
    refine ⟨method, flags, rest, rfl, four, ?_⟩
    cases good : Zlib.headerFault? method flags with
    | none => rfl
    | some fault =>
      have read := inflate_eq_ok.1 frames.inflate_eq
      rw [Zlib.decompress_of_header four good] at read
      cases read

/-- Another method is refused. -/
theorem Frames.changed_method (frames : Frames blob content n) (other : blob[0]? ≠ some x) :
    inflate (blob.set 0 x) = .error (.badStream .headerCheck) ∨
      inflate (blob.set 0 x) = .error (.badStream .unknownMethod) := by
  obtain ⟨method, flags, rest, rfl, four, good⟩ := frames.exists_header
  have other : x ≠ method := by
    rintro rfl
    exact other rfl
  rcases Zlib.headerFault?_method good other with wrong | wrong
  · exact .inl (inflate_eq_error.2 (Zlib.decompress_of_header four wrong))
  · exact .inr (inflate_eq_error.2 (Zlib.decompress_of_header four wrong))

/-- Other flags are refused or do not matter. -/
theorem Frames.changed_flags (frames : Frames blob content n) :
    inflate (blob.set 1 x) = .error (.badStream .headerCheck) ∨
      inflate (blob.set 1 x) = .error (.badStream .dictionaryNeeded) ∨
      inflate (blob.set 1 x) = inflate blob := by
  obtain ⟨method, flags, rest, rfl, four, good⟩ := frames.exists_header
  rcases Zlib.headerFault?_flags good x with wrong | wrong | same
  · exact .inl (inflate_eq_error.2 (Zlib.decompress_of_header four wrong))
  · exact .inr (.inl (inflate_eq_error.2 (Zlib.decompress_of_header four wrong)))
  · refine .inr (.inr ?_)
    have read := Zlib.decompress_congr four (same.trans good.symm)
    rw [inflate, inflate, ← read]
    rfl

/-- Another byte of the checksum is refused. -/
theorem Frames.changed_checksum (frames : Frames blob content n) (behind : n - 4 ≤ i) (inside : i < n)
    (other : blob[i]? ≠ some x) : inflate (blob.set i x) = .error (.badStream .checksum) := by
  have within := frames.within
  have whole : blob.take (n - 4) ++ (blob.take n).drop (n - 4) ++ blob.drop n = blob := by
    have front : (blob.take n).take (n - 4) = blob.take (n - 4) := by
      rw [List.take_take, Nat.min_eq_left (Nat.sub_le n 4)]
    rw [← front, List.take_append_drop, List.take_append_drop]
  have length : (blob.take (n - 4)).length = n - 4 := by
    rw [List.length_take]
    omega
  have four : ((blob.take n).drop (n - 4)).length = 4 := by
    have := frames.room
    rw [List.length_drop, List.length_take]
    omega
  have changed : blob.set i x =
      blob.take (n - 4) ++ ((blob.take n).drop (n - 4)).set (i - (n - 4)) x ++ blob.drop n := by
    conv_lhs => rw [← whole]
    rw [List.set_append_left, List.set_append_right, length]
    · omega
    · rw [List.length_append, length, four]
      omega
  rw [changed]
  refine frames.damaged _ _ (by rw [List.length_set, four]) fun same => other ?_
  have there : (((blob.take n).drop (n - 4)).set (i - (n - 4)) x)[i - (n - 4)]? = some x :=
    List.getElem?_set_self (by omega)
  rwa [same, List.getElem?_drop, Nat.add_sub_cancel' behind, List.getElem?_take_of_lt inside]
    at there

/-- What stands behind a stream is not read. -/
theorem Frames.changed_behind (frames : Frames blob content n) (behind : n ≤ i) :
    inflate (blob.set i x) = .ok content := by
  have length : (blob.take n).length = n := by
    rw [List.length_take, Nat.min_eq_left frames.within]
  rw [← List.take_append_drop n blob, List.set_append_right i x (by omega)]
  exact frames.holds _

/-- A stream of the same bytes with a changed byte in its blocks has the checksum that it had. -/
theorem Frames.same_checksum (frames : Frames blob content n) {content' : Bytes}
    (inside : i < n - 4) (frames' : Frames (blob.set i x) content' n) :
    Zlib.adler32 content' = Zlib.adler32 content := by
  rw [← frames.sum, ← frames'.sum, List.take_set, List.drop_set_of_lt inside]

/-- Only a byte of the blocks makes another content of a stream, one that the checksum takes for the
old one if the stream ends where it did. -/
theorem Frames.changed_blocks (frames : Frames blob content n) (other : blob[i]? ≠ some x)
    {content' : Bytes} (read : inflate (blob.set i x) = .ok content') (changed : content' ≠ content) :
    2 ≤ i ∧ i < n - 4 ∧ ∃ n', Frames (blob.set i x) content' n' ∧
      (n' = n → Zlib.adler32 content' = Zlib.adler32 content) := by
  have notSame : inflate (blob.set i x) ≠ .ok content := fun same =>
    changed (Except.ok.inj (read.symm.trans same))
  have notMethod : i ≠ 0 := by
    rintro rfl
    rcases frames.changed_method other with refused | refused <;> simp [refused] at read
  have notFlags : i ≠ 1 := by
    rintro rfl
    rcases frames.changed_flags (x := x) with refused | refused | same
    · simp [refused] at read
    · simp [refused] at read
    · exact notSame (same.trans frames.inflate_eq)
  have notBehind : ¬n ≤ i := fun behind => notSame (frames.changed_behind behind)
  have notChecksum : ¬n - 4 ≤ i := by
    intro start
    simp [frames.changed_checksum start (by omega) other] at read
  have inBlocks : i < n - 4 := Nat.lt_of_not_le notChecksum
  obtain ⟨n', frames'⟩ := exists_frames read
  refine ⟨by omega, inBlocks, n', frames', ?_⟩
  rintro rfl
  exact frames.same_checksum inBlocks frames'

end Changed

/-- What a changed byte does to a buffer that is read from a stream of `n` bytes. In the header it is
refused, unless it is the flags that change and they are as good; in the checksum it is refused, and
behind the stream it is not seen. In the blocks it may make another buffer of a stream only if the
stream holds another text then, behind which its own checksum stands. If that is where it stood, the
two texts share it, and so differ in more than one place or in length. -/
theorem decode_changed_byte (form : CompressedForm) {blob b : Bytes}
    (holds : form.decode blob = .ok b) :
    ∃ content n, Frames blob content n ∧
      ∀ i x, i < blob.length → blob[i]? ≠ some x →
        (i = 0 → form.decode (blob.set i x) = .error (.badStream .headerCheck) ∨
          form.decode (blob.set i x) = .error (.badStream .unknownMethod)) ∧
        (i = 1 → form.decode (blob.set i x) = .error (.badStream .headerCheck) ∨
          form.decode (blob.set i x) = .error (.badStream .dictionaryNeeded) ∨
          form.decode (blob.set i x) = .ok b) ∧
        (n - 4 ≤ i → i < n → form.decode (blob.set i x) = .error (.badStream .checksum)) ∧
        (n ≤ i → form.decode (blob.set i x) = .ok b) ∧
        ∀ b', form.decode (blob.set i x) = .ok b' → b' ≠ b →
          2 ≤ i ∧ i < n - 4 ∧ ∃ content' n', Frames (blob.set i x) content' n' ∧
            content' ≠ content ∧
            (n' = n → Zlib.adler32 content' = Zlib.adler32 content ∧
              (content'.length = content.length →
                2 ≤ Zlib.differences content content' ∧
                (content.length ≤ Zlib.adlerModulus →
                  3 ≤ Zlib.differences content content'))) := by
  obtain ⟨content, inflated⟩ := exists_inflate holds
  obtain ⟨n, frames⟩ := exists_frames inflated
  refine ⟨content, n, frames, fun i x _ other => ⟨?_, ?_, ?_, ?_, ?_⟩⟩
  · rintro rfl
    rcases frames.changed_method other with refused | refused
    · exact .inl (decode_of_refused refused form)
    · exact .inr (decode_of_refused refused form)
  · rintro rfl
    rcases frames.changed_flags (x := x) with refused | refused | same
    · exact .inl (decode_of_refused refused form)
    · exact .inr (.inl (decode_of_refused refused form))
    · exact .inr (.inr ((decode_congr same form).trans holds))
  · intro start inside
    exact decode_of_refused (frames.changed_checksum start inside other) form
  · intro behind
    exact (decode_congr ((frames.changed_behind behind).trans inflated.symm) form).trans holds
  · intro b' read changed
    obtain ⟨content', inflated'⟩ := exists_inflate read
    have differs : content' ≠ content := by
      rintro rfl
      have same := decode_congr (inflated'.trans inflated.symm) form
      exact changed (Except.ok.inj (read.symm.trans (same.trans holds)))
    obtain ⟨begun, inBlocks, n', frames', sum⟩ := frames.changed_blocks other inflated' differs
    exact ⟨begun, inBlocks, content', n', frames', differs, fun ends => ⟨sum ends, fun length =>
      Zlib.adler32_separates length.symm differs.symm (sum ends).symm⟩⟩

/-- A stream of the text `AABABCBDBABC`, whose last four characters are a match six places back. -/
def matched : Bytes :=
  [0x78, 0x01, 0x73, 0x74, 0x74, 0x72, 0x74, 0x72, 0x76, 0x72, 0x01, 0x91, 0x00, 0x14, 0x17, 0x03,
    0x19]

theorem inflate_matched : inflate matched =
    .ok [0x41, 0x41, 0x42, 0x41, 0x42, 0x43, 0x42, 0x44, 0x42, 0x41, 0x42, 0x43] :=
  inflate_eq_ok.2 (by decide +kernel)

/-- With one bit changed the match is five places back, and the checksum is the same. -/
theorem inflate_rematched : inflate (matched.set 11 0x11) =
    .ok [0x41, 0x41, 0x42, 0x41, 0x42, 0x43, 0x42, 0x44, 0x41, 0x42, 0x43, 0x42] :=
  inflate_eq_ok.2 (by decide +kernel)

theorem changed_byte_unnoticed : matched[11]? = some 0x91 ∧
    decode ⟨none⟩ matched = .ok [0x00, 0x00, 0x40, 0x04, 0x20, 0x43, 0x04, 0x00, 0x42] ∧
    decode ⟨none⟩ (matched.set 11 0x11) =
      .ok [0x00, 0x00, 0x40, 0x04, 0x20, 0x43, 0x00, 0x10, 0x81] ∧
    decode ⟨some 9⟩ matched = .ok [0x00, 0x00, 0x40, 0x04, 0x20, 0x43, 0x04, 0x00, 0x42] ∧
    decode ⟨some 9⟩ (matched.set 11 0x11) =
      .ok [0x00, 0x00, 0x40, 0x04, 0x20, 0x43, 0x00, 0x10, 0x81] := by
  simp only [decode_of_inflate inflate_matched, decode_of_inflate inflate_rematched]
  exact ⟨rfl, rfl, rfl, rfl, rfl⟩

theorem decode_changed_byte_matched :
    ∃ content n, Frames matched content n ∧ 11 < n - 4 ∧
      (∀ x, x ≠ 0x78 → ∃ e, decode ⟨none⟩ (matched.set 0 x) = .error e) ∧
      ∃ content' n', Frames (matched.set 11 0x11) content' n' ∧ content' ≠ content ∧
        (n' = n → Zlib.adler32 content' = Zlib.adler32 content) := by
  have holds : decode ⟨none⟩ matched =
      .ok [0x00, 0x00, 0x40, 0x04, 0x20, 0x43, 0x04, 0x00, 0x42] :=
    decode_of_inflate inflate_matched
  have reads : decode ⟨none⟩ (matched.set 11 0x11) =
      .ok [0x00, 0x00, 0x40, 0x04, 0x20, 0x43, 0x00, 0x10, 0x81] :=
    decode_of_inflate inflate_rematched
  obtain ⟨content, n, frames, changed⟩ := decode_changed_byte ⟨none⟩ holds
  obtain ⟨-, -, -, -, unnoticed⟩ := changed 11 0x11 (by decide) (by decide)
  obtain ⟨-, inBlocks, content', n', frames', other, same⟩ := unnoticed _ reads (by decide)
  refine ⟨content, n, frames, inBlocks, fun x differs => ?_, content', n', frames', other,
    fun length => (same length).1⟩
  rcases (changed 0 x (by decide) fun here => differs (Option.some.inj here).symm).1 rfl with
    refused | refused
  · exact ⟨_, refused⟩
  · exact ⟨_, refused⟩

end StepReplay.CompressedForm
