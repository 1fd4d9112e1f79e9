import StepReplay.Proofs.Compressed
import StepReplay.Proofs.Deflate.Forward
import StepReplay.Proofs.Except

set_option autoImplicit false

/-! # Streams cut off, continued and damaged at the end

A stream that is read is a body, made of the header and the blocks, with the checksum of its content
in four bytes behind it. `Encodes` says that of a body with as many turns as the loops may ask for,
and from it follows what is read of any bytes that begin with the body (`decompress_body`): nothing
behind the checksum counts, without all of the checksum the input ends too early, and another
checksum is refused. -/

namespace StepReplay.Zlib

open Deflate

/-! ## Body and checksum -/

/-- What stands in front of the checksum. -/
def readContent (fuel : Nat) : Reader Bytes := do
  readHeader
  let out ← readBlocks fuel fuel #[]
  Reader.align
  return out.toList

/-- The checksum of a content. -/
def readChecksum (content : Bytes) : Reader Bytes := do
  let checksum ← Reader.bytes 4
  if checksum.toNat ≠ adler32 content then throw .checksum
  return content

theorem readStream_eq (fuel : Nat) : readStream fuel = readContent fuel >>= readChecksum := by
  simp only [readStream, readContent, readChecksum, bind_assoc, pure_bind]

theorem forward_readHeader : Forward 0 readHeader := by
  unfold readHeader
  refine (forward_number 16).bind fun header => .ite (.throw_bind _ _) ?_
  refine .ite (.throw_bind _ _) (.ite (.throw_bind _ _) (.ite ?_ (.pure _)))
  exact (forward_number 32).bind fun _ => .throw _

theorem forward_readContent (fuel : Nat) : Forward 0 (readContent fuel) :=
  forward_readHeader.bind fun _ => (forward_readBlocks _ _ _).bind fun _ =>
    forward_align.bind fun _ => .pure _

/-- The checksum starts with a byte. -/
theorem buffered_of_readContent {fuel : Nat} {s t : Bits} {content : Bytes}
    (takes : Takes (readContent fuel) s content t) : t.buffered = [] := by
  obtain ⟨_, _, -, takes⟩ := takes.bind_inv
  obtain ⟨_, _, -, takes⟩ := takes.bind_inv
  obtain ⟨_, _, aligned, takes⟩ := takes.bind_inv
  cases aligned
  cases takes
  rfl

theorem readContent_steady {fuel fuel' : Nat} {s : Bits} (enough : s.length < fuel)
    (enough' : s.length < fuel') : (readContent fuel).run s = (readContent fuel').run s := by
  refine run_bind_congr rfl fun _ t takes => ?_
  have left := (forward_readHeader _ _ _ takes).1
  exact run_bind_congr (readBlocks_steady (by omega) (by omega) (by omega) (by omega) _)
    fun _ _ _ => rfl

/-- Any number of turns beyond the bits of the input will do. -/
theorem decompress_eq {blob : Bytes} {fuel : Nat} (enough : 8 * blob.length < fuel) :
    decompress blob = ((readStream fuel).run ⟨[], blob⟩).map (·.1) := by
  have steady : (readStream (8 * blob.length + 1)).run ⟨[], blob⟩ =
      (readStream fuel).run ⟨[], blob⟩ := by
    have bits : (⟨[], blob⟩ : Bits).length = 8 * blob.length := Nat.zero_add _
    rw [readStream_eq, readStream_eq]
    exact run_bind_congr (readContent_steady (by omega) (by omega)) fun _ _ _ => rfl
  rw [decompress, steady]

/-- The body of a stream: with turns enough it is read as the content. -/
def Encodes (body content : Bytes) : Prop :=
  ∃ turns, ∀ fuel, turns ≤ fuel → Uses (readContent fuel) [] body content []

theorem run_readChecksum (content : Bytes) (buffered : List Bool) (rest : Bytes) :
    (readChecksum content).run ⟨buffered, rest⟩ =
      if rest.length < 4 then .error .truncated
      else if Bytes.toNat (rest.take 4) ≠ adler32 content then .error .checksum
      else .ok (content, ⟨buffered, rest.drop 4⟩) := by
  rw [readChecksum, StateT.run_bind, run_bytes]
  split
  · rfl
  · show StateT.run (if _ then _ else _) _ = _
    split <;> rfl

/-- A stream that is read begins with a body and the checksum of its content. -/
theorem exists_body {blob content : Bytes} (holds : decompress blob = .ok content) :
    ∃ body checksum rest, blob = body ++ checksum ++ rest ∧ checksum.length = 4 ∧
      checksum.toNat = adler32 content ∧ Encodes body content := by
  rw [decompress, readStream_eq] at holds
  obtain ⟨⟨out, u⟩, read, rfl⟩ := map_eq_ok.1 holds
  have takes : Takes (readContent (8 * blob.length + 1) >>= readChecksum) ⟨[], blob⟩ out u := read
  obtain ⟨content, ⟨buffered, behind⟩, first, last⟩ := takes.bind_inv
  unfold Takes at last
  rw [run_readChecksum] at last
  split at last
  case isTrue => cases last
  case isFalse enough =>
    split at last
    case isTrue => cases last
    case isFalse same =>
      cases last
      obtain rfl : buffered = [] := buffered_of_readContent first
      obtain ⟨-, body, whole, -⟩ := forward_readContent _ _ _ _ first
      refine ⟨body, behind.take 4, behind.drop 4, ?_, ?_, not_not.1 same, 8 * blob.length + 1,
        fun fuel turns => ?_⟩
      · rw [List.append_assoc, List.take_append_drop]
        exact whole
      · rw [List.length_take]
        omega
      · have bits : (⟨[], blob⟩ : Bits).length = 8 * blob.length := Nat.zero_add _
        have steady : (readContent fuel).run ⟨[], blob⟩ =
            (readContent (8 * blob.length + 1)).run ⟨[], blob⟩ :=
          readContent_steady (by omega) (by omega)
        have first' : Takes (readContent fuel) ⟨[], blob⟩ out ⟨[], behind⟩ := steady.trans first
        obtain ⟨-, body', whole', uses⟩ := forward_readContent _ _ _ _ first'
        rwa [← List.append_cancel_right (whole.symm.trans whole')] at uses

/-- A body has a header. -/
theorem Encodes.exists_header {body content : Bytes} (encodes : Encodes body content) :
    ∃ method flags blocks, body = method :: flags :: blocks := by
  obtain ⟨turns, uses⟩ := encodes
  have takes := (uses turns (Nat.le_refl _)).takes []
  match body with
  | [] => cases takes
  | [_] => cases takes
  | method :: flags :: blocks => exact ⟨method, flags, blocks, rfl⟩

/-- Whatever the input, the body may be read with turns that are enough for both. -/
theorem Encodes.exists_turns {body content : Bytes} (encodes : Encodes body content)
    (blob : Bytes) : ∃ fuel, Uses (readContent fuel) [] body content [] ∧
      decompress blob = ((readContent fuel >>= readChecksum).run ⟨[], blob⟩).map (·.1) := by
  obtain ⟨turns, uses⟩ := encodes
  refine ⟨turns + (8 * blob.length + 1), uses _ (Nat.le_add_right _ _), ?_⟩
  rw [← readStream_eq]
  exact decompress_eq (by omega)

/-- What is read of bytes that begin with a body and four bytes more. -/
theorem decompress_body {body content checksum : Bytes} (encodes : Encodes body content)
    (four : checksum.length = 4) (rest : Bytes) :
    decompress (body ++ checksum ++ rest) =
      if checksum.toNat = adler32 content then .ok content else .error .checksum := by
  obtain ⟨fuel, uses, read⟩ := encodes.exists_turns (body ++ checksum ++ rest)
  rw [read, List.append_assoc, (uses.takes _).run_bind, run_readChecksum, if_neg,
    List.take_left' four]
  · by_cases same : checksum.toNat = adler32 content
    · rw [if_neg (not_not.2 same), if_pos same]
      rfl
    · rw [if_pos same, if_neg same]
      rfl
  · rw [List.length_append]
    omega

/-- Bytes that end before four bytes behind the body hold nothing. -/
theorem decompress_take {body content : Bytes} (encodes : Encodes body content) (rest : Bytes)
    {k : Nat} (short : k < body.length + 4) :
    decompress ((body ++ rest).take k) = .error .truncated := by
  obtain ⟨fuel, uses, read⟩ := encodes.exists_turns ((body ++ rest).take k)
  rw [read]
  by_cases inside : k < body.length
  · rw [List.take_append_of_le_length (by omega), run_bind_of_error (uses.truncated k inside)]
    rfl
  · obtain ⟨m, rfl⟩ := Nat.exists_eq_add_of_le (Nat.le_of_not_lt inside)
    rw [List.take_length_add_append, (uses.takes _).run_bind, run_readChecksum, if_pos]
    · rfl
    · rw [List.length_take]
      omega

theorem toNat_injective {b b' : Bytes} (length : b.length = b'.length)
    (same : b.toNat = b'.toNat) : b = b' := by
  rw [← Bytes.ofNat_toNat b, ← Bytes.ofNat_toNat b', length, same]

end StepReplay.Zlib

namespace StepReplay.CompressedForm

theorem inflate_eq_error {blob : Bytes} {fault : Deflate.Fault} :
    inflate blob = .error (.badStream fault) ↔ Zlib.decompress blob = .error fault := by
  rw [inflate, mapError_eq_error]
  constructor
  · rintro ⟨_, refused, ⟨⟩⟩
    exact refused
  · exact fun refused => ⟨fault, refused, rfl⟩

theorem inflate_eq_ok {blob content : Bytes} :
    inflate blob = .ok content ↔ Zlib.decompress blob = .ok content :=
  mapError_eq_ok

theorem decode_of_refused {blob : Bytes} {e : DecodeError} (refused : inflate blob = .error e)
    (form : CompressedForm) : form.decode blob = .error e := by
  rw [decode, refused]
  rfl

theorem decode_congr {blob blob' : Bytes} (same : inflate blob = inflate blob')
    (form : CompressedForm) : form.decode blob = form.decode blob' := by
  rw [decode, decode, same]

/-- A stream of `n` bytes at the front of a byte string, the last four of them the checksum of its
content. Cut off anywhere it is refused as cut off; whatever stands behind it, it is read; and another
checksum is refused. -/
structure Frames (blob content : Bytes) (n : Nat) : Prop where
  room : 6 ≤ n
  within : n ≤ blob.length
  sum : Bytes.toNat ((blob.take n).drop (n - 4)) = Zlib.adler32 content
  cutOff : ∀ k < n, inflate (blob.take k) = .error (.badStream .truncated)
  holds : ∀ rest, inflate (blob.take n ++ rest) = .ok content
  damaged : ∀ checksum rest, checksum.length = 4 → checksum ≠ (blob.take n).drop (n - 4) →
    inflate (blob.take (n - 4) ++ checksum ++ rest) = .error (.badStream .checksum)

theorem exists_frames {blob content : Bytes} (holds : inflate blob = .ok content) :
    ∃ n, Frames blob content n := by
  obtain ⟨body, checksum, rest, rfl, four, sum, encodes⟩ :=
    Zlib.exists_body (inflate_eq_ok.1 holds)
  obtain ⟨method, flags, blocks, header⟩ := encodes.exists_header
  have two : 2 ≤ body.length := by
    rw [header]
    exact Nat.le_add_left 2 _
  have length : (body ++ checksum).length = body.length + 4 := by rw [List.length_append, four]
  have whole : (body ++ checksum ++ rest).take (body.length + 4) = body ++ checksum :=
    List.take_left' length
  have front : (body ++ checksum ++ rest).take (body.length + 4 - 4) = body := by
    rw [Nat.add_sub_cancel, List.append_assoc, List.take_left]
  have last : (body ++ checksum).drop (body.length + 4 - 4) = checksum := by
    rw [Nat.add_sub_cancel, List.drop_left]
  refine ⟨body.length + 4, by omega, ?_, ?_, ?_, ?_, ?_⟩
  · rw [List.length_append, length]
    exact Nat.le_add_right _ _
  · rw [whole, last, sum]
  · intro k short
    rw [inflate_eq_error, List.append_assoc]
    exact Zlib.decompress_take encodes _ short
  · intro more
    rw [whole, inflate_eq_ok, Zlib.decompress_body encodes four, if_pos sum]
  · intro checksum' more four' other
    rw [whole, last] at other
    rw [front, inflate_eq_error, Zlib.decompress_body encodes four', if_neg]
    exact fun same => other (Zlib.toNat_injective (four'.trans four.symm) (same.trans sum.symm))

/-- Every stream that is read ends somewhere in the bytes that it is read from. Cut off before its
end, at whatever place, it is refused as cut off; continued behind its end, with whatever bytes, it
is read as the same content; and with other bytes in the place of its last four it is refused for its
checksum. The same goes for the buffers that are read from the content, in a form of any size. -/
theorem inflate_framed {blob content : Bytes} (holds : inflate blob = .ok content) :
    ∃ n, 4 ≤ n ∧ n ≤ blob.length ∧
      (∀ k < n, inflate (blob.take k) = .error (.badStream .truncated)) ∧
      (∀ rest, inflate (blob.take n ++ rest) = .ok content) ∧
      (∀ checksum rest, checksum.length = 4 → checksum ≠ (blob.take n).drop (n - 4) →
        inflate (blob.take (n - 4) ++ checksum ++ rest) = .error (.badStream .checksum)) ∧
      (∀ form : CompressedForm,
        (∀ k < n, form.decode (blob.take k) = .error (.badStream .truncated)) ∧
        (∀ rest, form.decode (blob.take n ++ rest) = form.decode blob) ∧
        ∀ checksum rest, checksum.length = 4 → checksum ≠ (blob.take n).drop (n - 4) →
          form.decode (blob.take (n - 4) ++ checksum ++ rest) = .error (.badStream .checksum)) ∧
      (DecodeError.badStream .truncated).message = Text.ofString
        "corrupt compressed stream: Error -5 while decompressing data: incomplete or truncated stream"
        ∧
      (DecodeError.badStream .checksum).message = Text.ofString
        "corrupt compressed stream: Error -3 while decompressing data: incorrect data check" := by
  obtain ⟨n, frames⟩ := exists_frames holds
  refine ⟨n, Nat.le_trans (by decide) frames.room, frames.within, frames.cutOff, frames.holds,
    frames.damaged, fun form => ⟨?_, ?_, ?_⟩, rfl, rfl⟩
  · intro k short
    exact decode_of_refused (frames.cutOff k short) form
  · intro rest
    exact decode_congr ((frames.holds rest).trans holds.symm) form
  · intro checksum rest four other
    exact decode_of_refused (frames.damaged checksum rest four other) form

/-- A stream with a match in it, and a byte behind it. -/
def repeating : Bytes :=
  [0x78, 0xDA, 0x73, 0x74, 0x84, 0x00, 0x00, 0x09, 0x2C, 0x02, 0x09, 0xFF]

theorem inflate_framed_repeating : inflate repeating = .ok (List.replicate 8 0x41) ∧
    ∃ n ≤ 12, (∀ k < n, inflate (repeating.take k) = .error (.badStream .truncated)) ∧
      (∀ rest, inflate (repeating.take n ++ rest) = .ok (List.replicate 8 0x41)) ∧
      ∀ checksum rest, checksum.length = 4 → checksum ≠ (repeating.take n).drop (n - 4) →
        inflate (repeating.take (n - 4) ++ checksum ++ rest) = .error (.badStream .checksum) := by
  have holds : inflate repeating = .ok (List.replicate 8 0x41) :=
    inflate_eq_ok.2 (by decide +kernel)
  obtain ⟨n, -, within, cutOff, continued, damaged, -⟩ := inflate_framed holds
  exact ⟨holds, n, within, cutOff, continued, damaged⟩

end StepReplay.CompressedForm
