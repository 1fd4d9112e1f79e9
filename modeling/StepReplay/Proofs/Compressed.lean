import StepReplay.Proofs.Base64
import StepReplay.Proofs.Hex
import StepReplay.Proofs.Zlib

set_option autoImplicit false

/-! # Compressed buffers read back

A buffer is written as base64 text inside a stream. Which stream that is does not matter: a reader
sees its content only, and every stream that holds the text of a buffer is read as the buffer. The
size asked for is checked on both ways, so what has been written under a size passes it again. -/

namespace StepReplay

variable {size : Option Int} {b : Bytes}

namespace CompressedForm

/-- A stream whose content is the standard base64 text of a buffer. -/
def Carries (blob b : Bytes) : Prop :=
  inflate blob = .ok (Base64.standard b)

theorem encode_eq_error {e : DecodeError} :
    encode ⟨size⟩ b = .error e ↔
      ∃ n, size = some n ∧ n ≠ b.length ∧ e = .wrongSize n b.length := by
  rw [← checkSize_eq_error, encode, payload]
  cases checkSize size b with
  | ok b => constructor <;> rintro ⟨⟩
  | error e' => exact Iff.rfl

theorem encode_fits (fits : size = none ∨ size = some (b.length : Int)) :
    encode ⟨size⟩ b = .ok (Zlib.compress (Base64.encode b)) := by
  rw [encode, payload, checkSize_fits fits]
  rfl

theorem inflate_compress (content : Bytes) : inflate (Zlib.compress content) = .ok content := by
  have read := Zlib.decompress_compress content []
  rw [List.append_nil] at read
  rw [inflate, read]
  rfl

theorem carries_compress (b : Bytes) : Carries (Zlib.compress (Base64.encode b)) b := by
  rw [Carries, inflate_compress, Base64.encode_eq_standard]

/-- A reader sees the content of a stream only. -/
theorem decode_of_inflate {blob content : Bytes} (holds : inflate blob = .ok content) :
    decode ⟨size⟩ blob = (Base64.decode content).mapError .notBase64 >>= checkSize size := by
  rw [decode, holds]
  rfl

theorem decode_carries {blob : Bytes} (fits : size = none ∨ size = some (b.length : Int))
    (carries : Carries blob b) : decode ⟨size⟩ blob = .ok b := by
  rw [decode_of_inflate carries, ← Base64.encode_eq_standard, Base64.decode_encode]
  exact checkSize_fits fits

end CompressedForm

namespace Block

variable {n : Nat}

theorem compressed_eq (b : Block n) : b.compressed = .ok (Zlib.compress (Base64.encode b.bytes)) :=
  CompressedForm.encode_fits (.inr (by rw [b.length_bytes]))

theorem ofCompressed_carries {blob : Bytes} {b : Block n}
    (carries : CompressedForm.Carries blob b.bytes) : ofCompressed n blob = .ok b := by
  have decoded : CompressedForm.decode ⟨some n⟩ blob = .ok b.bytes :=
    CompressedForm.decode_carries (.inr (by rw [b.length_bytes])) carries
  rw [ofCompressed, decoded]
  exact ofBytes_bytes b

end Block

/-- A buffer is refused exactly if another size is asked for, and else written into a stream that
holds its standard base64 text. Every stream that holds it, however it is compressed, is read as the
buffer again, and one that holds the text of a block, such as a state or a page, as the block. -/
theorem CompressedForm.reads_written (size : Option Int) (b : Bytes) :
    (∀ e, encode ⟨size⟩ b = .error e ↔
      ∃ n, size = some n ∧ n ≠ b.length ∧ e = .wrongSize n b.length) ∧
    (size = none ∨ size = some (b.length : Int) →
      (∃ blob, encode ⟨size⟩ b = .ok blob ∧ Carries blob b ∧ decode ⟨size⟩ blob = .ok b) ∧
      ∀ blob, Carries blob b → decode ⟨size⟩ blob = .ok b) ∧
    ∀ (n : Nat) (block : Block n),
      (∃ blob, block.compressed = .ok blob ∧ Carries blob block.bytes ∧
        Block.ofCompressed n blob = .ok block) ∧
      ∀ blob, Carries blob block.bytes → Block.ofCompressed n blob = .ok block := by
  refine ⟨fun e => encode_eq_error, fun fits => ⟨?_, fun blob => decode_carries fits⟩,
    fun n block => ⟨?_, fun blob => Block.ofCompressed_carries⟩⟩
  · have carries := carries_compress b
    exact ⟨_, encode_fits fits, carries, decode_carries fits carries⟩
  · have carries := carries_compress block.bytes
    exact ⟨_, block.compressed_eq, carries, Block.ofCompressed_carries carries⟩

end StepReplay
