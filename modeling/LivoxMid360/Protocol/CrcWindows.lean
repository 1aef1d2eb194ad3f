/- digest: Both checksums tell apart messages that differ within a window of their own width. -/

import LivoxMid360.Foundation.ShiftRegister
import LivoxMid360.Protocol.Crc

set_option autoImplicit false
set_option relaxedAutoImplicit false

namespace LivoxMid360.Protocol.CrcWindows

open Foundation.LittleEndian (Bytes)
open Foundation.ShiftRegister
open Crc

/-- The register behind `crc16_ccitt_false`. -/
def crc16Register : Register 16 := highEntry 0x1021#16 rfl (by decide)

/-- The register behind `crc32`. -/
def crc32Register : Register 32 := lowEntry 0xEDB88320#32 rfl (by decide)

theorem top_bit_iff (c : UInt16) : c &&& 0x8000 ≠ 0 ↔ c.toBitVec.msb = true := by
  -- the mask of the source keeps the one bit that falls out
  have mask : c.toBitVec &&& 0x8000#16 = if c.toBitVec.getLsbD 15 then 0x8000#16 else 0#16 :=
    BitVec.and_twoPow c.toBitVec 15
  rw [Ne, ← UInt16.toBitVec_inj, UInt16.toBitVec_and, BitVec.msb_eq_getLsbD_last]
  show ¬ c.toBitVec &&& 0x8000#16 = 0#16 ↔ c.toBitVec.getLsbD 15 = true
  rw [mask]
  cases c.toBitVec.getLsbD 15 with
  | false => decide
  | true => decide

theorem low_bit_iff (c : UInt32) : c &&& 1 ≠ 0 ↔ c.toBitVec.getLsbD 0 = true := by
  have mask : c.toBitVec &&& 1#32 = if c.toBitVec.getLsbD 0 then 1#32 else 0#32 :=
    BitVec.and_twoPow c.toBitVec 0
  rw [Ne, ← UInt32.toBitVec_inj, UInt32.toBitVec_and]
  show ¬ c.toBitVec &&& 1#32 = 0#32 ↔ c.toBitVec.getLsbD 0 = true
  rw [mask]
  cases c.toBitVec.getLsbD 0 with
  | false => decide
  | true => decide

theorem crc16Bit_toBitVec (c : UInt16) :
    (crc16Bit c).toBitVec = up 0x1021#16 c.toBitVec := by
  rw [crc16Bit, up]
  by_cases out : c &&& 0x8000 ≠ 0
  · rw [if_pos out, if_pos ((top_bit_iff c).mp out)]
    rfl
  · rw [if_neg out, if_neg fun top => out ((top_bit_iff c).mpr top)]
    rfl

theorem crc32Bit_toBitVec (c : UInt32) :
    (crc32Bit c).toBitVec = down 0xEDB88320#32 c.toBitVec := by
  rw [crc32Bit, down]
  by_cases out : c &&& 1 ≠ 0
  · rw [if_pos out, if_pos ((low_bit_iff c).mp out)]
    rfl
  · rw [if_neg out, if_neg fun low => out ((low_bit_iff c).mpr low)]
    rfl

theorem crc16Byte_toBitVec (c : UInt16) (b : UInt8) :
    (crc16Byte c b).toBitVec = crc16Register.absorb c.toBitVec b :=
  Function.Semiconj.iterate_right (f := UInt16.toBitVec) crc16Bit_toBitVec 8 _

theorem crc32Byte_toBitVec (c : UInt32) (b : UInt8) :
    (crc32Byte c b).toBitVec = crc32Register.absorb c.toBitVec b :=
  Function.Semiconj.iterate_right (f := UInt32.toBitVec) crc32Bit_toBitVec 8 _

theorem crc16CcittFalse_toBitVec (data : Bytes) :
    (crc16CcittFalse data).toBitVec = data.foldl crc16Register.absorb 0xFFFF#16 := by
  rw [crc16CcittFalse]
  exact (List.foldl_hom UInt16.toBitVec fun c b => (crc16Byte_toBitVec c b).symm).symm

theorem crc32_toBitVec (data : Bytes) :
    (crc32 data).toBitVec = data.foldl crc32Register.absorb 0xFFFFFFFF#32 ^^^ 0xFFFFFFFF#32 := by
  rw [crc32, UInt32.toBitVec_xor]
  apply congrArg (· ^^^ 0xFFFFFFFF#32)
  exact (List.foldl_hom UInt32.toBitVec fun c b => (crc32Byte_toBitVec c b).symm).symm

theorem crc16_window_ne (pre post : Bytes) {bs bs' : Bytes} (same : bs.length = bs'.length)
    (fits : bs.length ≤ 2) (differ : bs ≠ bs') :
    crc16CcittFalse (pre ++ bs ++ post) ≠ crc16CcittFalse (pre ++ bs' ++ post) := by
  intro collide
  have states := congrArg UInt16.toBitVec collide
  rw [crc16CcittFalse_toBitVec, crc16CcittFalse_toBitVec] at states
  exact Register.foldl_absorb_window_ne (highEntry_holds (by decide)) _ pre post same fits
    differ states

theorem crc32_window_ne (pre post : Bytes) {bs bs' : Bytes} (same : bs.length = bs'.length)
    (fits : bs.length ≤ 4) (differ : bs ≠ bs') :
    crc32 (pre ++ bs ++ post) ≠ crc32 (pre ++ bs' ++ post) := by
  intro collide
  have states := congrArg UInt32.toBitVec collide
  rw [crc32_toBitVec, crc32_toBitVec, BitVec.xor_left_inj] at states
  exact Register.foldl_absorb_window_ne (lowEntry_holds (by decide)) _ pre post same fits
    differ states

end LivoxMid360.Protocol.CrcWindows
