/- digest: Both checksums are the remainders that their polynomials define. -/

import LivoxMid360.Foundation.BitPolynomials
import LivoxMid360.Protocol.CrcWindows

set_option autoImplicit false
set_option relaxedAutoImplicit false

namespace LivoxMid360.Protocol.CrcRemainders

open Foundation.BitPolynomials
open Foundation.LittleEndian (Bytes)
open Foundation.ShiftRegister
open Polynomial
open Crc
open CrcWindows

/-- The generator of the header checksum, with the power that its feedback word leaves out. -/
theorem modulus_crc16 : modulus 0x1021#16 = X ^ 16 + X ^ 12 + X ^ 5 + 1 := by
  simp [modulus, ofBits, Finset.sum_range_succ]
  ring

theorem ofBits_crc16CcittFalse (data : Bytes) : ofBits (crc16CcittFalse data).toBitVec =
    (message data * X ^ 16 + (∑ i ∈ Finset.range 16, X ^ i) * X ^ (8 * data.length)) %ₘ
      (X ^ 16 + X ^ 12 + X ^ 5 + 1) := by
  rw [crc16CcittFalse_toBitVec, ← modulus_crc16, ← ofBits_allOnes]
  exact ofBits_foldl_absorb _ _ _ _ data

theorem ofBits_reverse_crc32 (data : Bytes) :
    ofBits (data.foldl crc32Register.absorb 0xFFFFFFFF#32).reverse =
      (message (data.map mirrored) * X ^ 32 +
        (∑ i ∈ Finset.range 32, X ^ i) * X ^ (8 * data.length)) %ₘ
      (X ^ 32 + ofBits 0x04C11DB7#32) := by
  have feedback : BitVec.reverse 0xEDB88320#32 = 0x04C11DB7#32 := by decide +kernel
  have bottom : BitVec.getLsbD 0x04C11DB7#32 0 = true := rfl
  have remainder := ofBits_foldl_absorb _ bottom (by decide) (BitVec.allOnes 32)
    (data.map mirrored)
  rw [List.length_map, ofBits_allOnes] at remainder
  -- a register that shifts down is the mirror image of one that shifts up
  have mirror := reverse_foldl_absorb feedback rfl bottom (by decide) (BitVec.allOnes 32) data
  rw [reverse_allOnes] at mirror
  exact (congrArg ofBits mirror).trans remainder

/-- Both checksums are remainders of the message under their polynomials, the data checksum with
the bits of bytes and word mirrored and the word inverted. -/
theorem crc_remainders (data : Bytes) :
    ofBits (crc16CcittFalse data).toBitVec =
      (message data * X ^ 16 + (∑ i ∈ Finset.range 16, X ^ i) * X ^ (8 * data.length)) %ₘ
        (X ^ 16 + X ^ 12 + X ^ 5 + 1) ∧
    ∃ r : BitVec 32,
      ofBits r = (message (data.map mirrored) * X ^ 32 +
        (∑ i ∈ Finset.range 32, X ^ i) * X ^ (8 * data.length)) %ₘ
          (X ^ 32 + ofBits 0x04C11DB7#32) ∧
      (crc32 data).toBitVec = ~~~r.reverse := by
  refine ⟨ofBits_crc16CcittFalse data, _, ofBits_reverse_crc32 data, ?_⟩
  rw [crc32_toBitVec, BitVec.reverse_reverse_eq]
  exact BitVec.xor_allOnes

end LivoxMid360.Protocol.CrcRemainders
