import Mathlib.Tactic.Convert
import StepReplay.Proofs.Bytes

set_option autoImplicit false

/-! # Stored streams read back

A stream is written in stored blocks of up to 65535 bytes and read bit by bit. Numbers stand in it
lowest bit first, so a number of whole bytes is the sum of the bytes, each weighed by where it
stands. A stored block starts inside a byte, whose rest is dropped; after its content the reader
stands at the start of a byte again, which is what the induction over the blocks needs. The loop
over the blocks is bounded by the bits of the input, and every block but the last holds a byte at
least, so the bound is never met. -/

namespace StepReplay.Deflate

/-- Reading from a stream yields a value and leaves a stream. -/
def Takes {α : Type} (reader : Reader α) (s : Bits) (a : α) (left : Bits) : Prop :=
  reader.run s = .ok (a, left)

section Takes

variable {α β : Type} {s t u : Bits}

theorem Takes.pure (a : α) : Takes (Pure.pure a) s a s := rfl

theorem Takes.bind {reader : Reader α} {next : α → Reader β} {a : α} {b : β}
    (first : Takes reader s a t) (second : Takes (next a) t b u) :
    Takes (reader >>= next) s b u := by
  unfold Takes at first second ⊢
  rw [StateT.run_bind, first]
  exact second

end Takes

/-! ## Numbers -/

namespace Takes

variable {count more n : Nat} {buffered : List Bool} {rest : Bytes} {s : Bits}

theorem number_zero : Takes (Reader.number 0) s 0 s := rfl

/-- The lowest bit of a number comes first. -/
theorem number_succ (b : Bool) (higher : Takes (Reader.number count) ⟨buffered, rest⟩ n s) :
    Takes (Reader.number (count + 1)) ⟨b :: buffered, rest⟩ (b.toNat + 2 * n) s :=
  bind (show Takes Reader.bit _ b ⟨buffered, rest⟩ from rfl) (bind higher (pure _))

/-- The bits of a byte are taken from a stream at the start of the byte as if they had been
buffered. -/
theorem number_refill (x : UInt8) (bits : Takes (Reader.number (count + 1)) ⟨bitsOf x, rest⟩ n s) :
    Takes (Reader.number (count + 1)) ⟨[], x :: rest⟩ n s := bits

/-- The lowest byte of a number comes first. -/
theorem number_byte (x : UInt8) (higher : Takes (Reader.number more) ⟨[], rest⟩ n s) :
    Takes (Reader.number (more + 8)) ⟨[], x :: rest⟩ (x.toNat + 256 * n) s := by
  have weighed := number_refill x <| number_succ (x.toNat.testBit 0) <|
    number_succ (x.toNat.testBit 1) <| number_succ (x.toNat.testBit 2) <|
    number_succ (x.toNat.testBit 3) <| number_succ (x.toNat.testBit 4) <|
    number_succ (x.toNat.testBit 5) <| number_succ (x.toNat.testBit 6) <|
    number_succ (x.toNat.testBit 7) higher
  have small := x.toNat_lt
  convert weighed using 1
  simp only [Nat.toNat_testBit]
  omega

/-- Two bytes, the lower one first. -/
theorem number_word (low high : UInt8) (rest : Bytes) :
    Takes (Reader.number 16) ⟨[], low :: high :: rest⟩ (low.toNat + 256 * high.toNat) ⟨[], rest⟩ :=
  number_byte low (number_byte high number_zero)

/-- The bytes of a number below 65536, the lower one first. -/
theorem number_reversed {m : Nat} (small : m < 65536) :
    Takes (Reader.number 16) ⟨[], (Bytes.ofNat 2 m).reverse ++ rest⟩ m ⟨[], rest⟩ := by
  have word := number_word (UInt8.ofNat (m % 256)) (UInt8.ofNat (m / 256 % 256)) rest
  have sum : m % 256 + 256 * (m / 256 % 256) = m := by omega
  rw [Bytes.toNat_digit, Bytes.toNat_digit, sum] at word
  exact word

/-- The inverted bytes of a number below 65536. -/
theorem number_inverted {m : Nat} (small : m < 65536) :
    Takes (Reader.number 16) ⟨[], (Bytes.ofNat 2 m).reverse.map (~~~ ·) ++ rest⟩ (65535 - m)
      ⟨[], rest⟩ := by
  have word := number_word (~~~UInt8.ofNat (m % 256)) (~~~UInt8.ofNat (m / 256 % 256)) rest
  have sum : (255 - m % 256) + 256 * (255 - m / 256 % 256) = 65535 - m := by omega
  rw [UInt8.toNat_not, UInt8.toNat_not, Bytes.toNat_digit, Bytes.toNat_digit, UInt8.size,
    sum] at word
  exact word

/-- So many bytes from the start of a byte. -/
theorem bytes (b rest : Bytes) : Takes (Reader.bytes b.length) ⟨[], b ++ rest⟩ b ⟨[], rest⟩ := by
  show Reader.bytes b.length ⟨[], b ++ rest⟩ = _
  unfold Reader.bytes
  simp only [List.take_left, List.drop_left, Nat.lt_irrefl, ↓reduceIte]

end Takes

end StepReplay.Deflate

namespace StepReplay.Zlib

open Deflate

/-! ## Blocks -/

theorem takes_readHeader (rest : Bytes) :
    Takes readHeader ⟨[], 0x78 :: 0x01 :: rest⟩ () ⟨[], rest⟩ := by
  have number : Takes (Reader.number 16) ⟨[], 0x78 :: 0x01 :: rest⟩ 376 ⟨[], rest⟩ :=
    .number_word 0x78 0x01 rest
  refine number.bind ?_
  exact .pure ()

/-- What stands behind the marks of a stored block: its length twice and its content. -/
def storedBody (b : Bytes) : Bytes :=
  (Bytes.ofNat 2 b.length).reverse ++ (Bytes.ofNat 2 b.length).reverse.map (~~~ ·) ++ b

/-- What a stored block holds is added to the output. -/
theorem takes_readStored {b : Bytes} (short : b.length ≤ storedLimit) (out : Array UInt8)
    (buffered : List Bool) (rest : Bytes) :
    Takes (readStored out) ⟨buffered, storedBody b ++ rest⟩ (out ++ b) ⟨[], rest⟩ := by
  have small : b.length < 65536 := by
    rw [storedLimit] at short
    omega
  rw [storedBody, List.append_assoc, List.append_assoc]
  have aligned : Takes Reader.align ⟨buffered, (Bytes.ofNat 2 b.length).reverse
      ++ ((Bytes.ofNat 2 b.length).reverse.map (~~~ ·) ++ (b ++ rest))⟩ () ⟨[], _⟩ := rfl
  refine aligned.bind (.bind (.number_reversed small) (.bind (.number_inverted small) ?_))
  rw [if_neg (by omega)]
  exact .bind (.bytes b rest) (.pure _)

section Blocks

variable {fuel blocks : Nat} {out all : Array UInt8} {b : Bytes} {s : Bits}

/-- The byte in front of a stored block says whether it is the last one, and that it is stored. -/
theorem takes_marks (last : Bool) (rest : Bytes) :
    let mark : UInt8 := if last then 1 else 0
    Takes (Reader.number 1) ⟨[], mark :: rest⟩ last.toNat ⟨(bitsOf mark).drop 1, rest⟩ ∧
      Takes (Reader.number 2) ⟨(bitsOf mark).drop 1, rest⟩ 0 ⟨(bitsOf mark).drop 3, rest⟩ := by
  cases last <;> exact ⟨rfl, rfl⟩

/-- The last stored block ends the output. -/
theorem takes_last (short : b.length ≤ storedLimit) (rest : Bytes) :
    Takes (readBlocks fuel (blocks + 1) out) ⟨[], storedBlock true b ++ rest⟩ (out ++ b)
      ⟨[], rest⟩ := by
  obtain ⟨mark, kind⟩ := takes_marks true (storedBody b ++ rest)
  exact mark.bind (kind.bind ((takes_readStored short out _ rest).bind (.pure _)))

/-- After any other stored block the output goes on. -/
theorem takes_further (short : b.length ≤ storedLimit) {rest : Bytes}
    (others : Takes (readBlocks fuel blocks (out ++ b)) ⟨[], rest⟩ all s) :
    Takes (readBlocks fuel (blocks + 1) out) ⟨[], storedBlock false b ++ rest⟩ all s := by
  obtain ⟨mark, kind⟩ := takes_marks false (storedBody b ++ rest)
  exact mark.bind (kind.bind ((takes_readStored short out _ rest).bind others))

end Blocks

/-- A byte string is read from its blocks, if there are as many turns as it has bytes and one. -/
theorem takes_storedBlocks {fuel blocks : Nat} {b : Bytes} (enough : b.length < blocks)
    (out : Array UInt8) (rest : Bytes) :
    Takes (readBlocks fuel blocks out) ⟨[], storedBlocks b ++ rest⟩ (out ++ b) ⟨[], rest⟩ := by
  obtain ⟨blocks, rfl⟩ : ∃ n, blocks = n + 1 := ⟨blocks - 1, by omega⟩
  induction b using storedBlocks.induct generalizing blocks out with
  | case1 b short =>
    rw [storedBlocks, if_pos short]
    exact takes_last short rest
  | case2 b long ih =>
    -- the first block takes one turn and leaves fewer bytes than turns
    have first : (b.take storedLimit).length = storedLimit := by
      rw [List.length_take]
      omega
    have behind : (b.drop storedLimit).length < blocks := by
      rw [List.length_drop]
      rw [storedLimit] at *
      omega
    obtain ⟨blocks, rfl⟩ : ∃ n, blocks = n + 1 := ⟨blocks - 1, by omega⟩
    have whole : out ++ b.take storedLimit ++ b.drop storedLimit = out ++ b := by
      apply Array.ext'
      rw [Array.toList_appendList, Array.toList_appendList, Array.toList_appendList,
        List.append_assoc, List.take_append_drop]
    rw [storedBlocks, if_neg long, List.append_assoc, ← whole]
    exact takes_further (Nat.le_of_eq first) (ih (out ++ b.take storedLimit) blocks behind)

/-! ## Checksums -/

/-- Both halves of a checksum stay below the modulus. -/
theorem adler32_lt (b : Bytes) : adler32 b < Bytes.capacity 4 := by
  unfold adler32
  generalize folded : List.foldl _ _ b = sums
  have halves : sums.1 < adlerModulus ∧ sums.2 < adlerModulus := by
    rw [← folded]
    exact List.foldlRecOn (motive := fun sums : Nat × Nat => sums.1 < adlerModulus ∧
      sums.2 < adlerModulus) b _ (by decide)
      fun sums _ x _ => ⟨Nat.mod_lt _ (by decide), Nat.mod_lt _ (by decide)⟩
  simp only [adlerModulus] at halves
  show sums.2 * 65536 + sums.1 < 4294967296
  omega

/-! ## Streams -/

theorem length_storedBlocks (b : Bytes) : b.length ≤ (storedBlocks b).length := by
  induction b using storedBlocks.induct with
  | case1 b short =>
    rw [storedBlocks, if_pos short, storedBlock]
    simp only [List.length_append, List.length_cons]
    omega
  | case2 b long ih =>
    rw [storedBlocks, if_neg long, storedBlock]
    rw [List.length_drop] at ih
    simp only [List.length_append, List.length_cons, List.length_take]
    omega

/-- The checksum behind the blocks is the one of what they hold. -/
theorem takes_stream {fuel : Nat} {b : Bytes} (enough : b.length < fuel) (rest : Bytes) :
    Takes (readStream fuel) ⟨[], compress b ++ rest⟩ b ⟨[], rest⟩ := by
  have aligned (rest : Bytes) : Takes Reader.align ⟨[], rest⟩ () ⟨[], rest⟩ := rfl
  have checksum : Takes (Reader.bytes 4) ⟨[], Bytes.ofNat 4 (adler32 b) ++ rest⟩
      (Bytes.ofNat 4 (adler32 b)) ⟨[], rest⟩ := .bytes (Bytes.ofNat 4 (adler32 b)) rest
  have content : ((#[] : Array UInt8) ++ b).toList = b := by
    rw [Array.toList_appendList, List.nil_append]
  unfold compress
  simp only [List.append_assoc, List.cons_append, List.nil_append]
  refine (takes_readHeader _).bind ((takes_storedBlocks enough #[] _).bind
    ((aligned _).bind (checksum.bind ?_)))
  rw [content, Bytes.toNat_ofNat (adler32_lt b), if_neg (fun wrong => wrong rfl)]
  exact .pure b

/-- A byte string is read back from its stream, whatever stands behind it. -/
theorem decompress_compress (b rest : Bytes) : decompress (compress b ++ rest) = .ok b := by
  have enough : b.length < 8 * (compress b ++ rest).length + 1 := by
    have held := length_storedBlocks b
    simp only [compress, List.length_append]
    omega
  rw [decompress, takes_stream enough rest]
  rfl

end StepReplay.Zlib
