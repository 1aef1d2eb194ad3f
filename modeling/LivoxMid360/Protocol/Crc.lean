/- digest: The two bitwise checksum loops of the command and data frames. -/

import LivoxMid360.Foundation.LittleEndian

set_option autoImplicit false
set_option relaxedAutoImplicit false

namespace LivoxMid360.Protocol.Crc

open Foundation.LittleEndian (Bytes)

def crc16Bit (crc : UInt16) : UInt16 :=
  if crc &&& 0x8000 ≠ 0 then (crc <<< 1) ^^^ 0x1021 else crc <<< 1

def crc16Byte (crc : UInt16) (byte : UInt8) : UInt16 :=
  crc16Bit^[8] (crc ^^^ (byte.toUInt16 <<< 8))

/-- CRC-16/CCITT-FALSE as used for the command header: polynomial 0x1021, initial
value 0xFFFF, no reflection, no final exclusive or. -/
@[irreducible] def crc16CcittFalse (data : Bytes) : UInt16 :=
  data.foldl crc16Byte 0xFFFF

def crc32Bit (crc : UInt32) : UInt32 :=
  if crc &&& 1 ≠ 0 then (crc >>> 1) ^^^ 0xEDB88320 else crc >>> 1

def crc32Byte (crc : UInt32) (byte : UInt8) : UInt32 :=
  crc32Bit^[8] (crc ^^^ byte.toUInt32)

/-- Standard reflected CRC-32: polynomial 0x04C11DB7, initial value and final exclusive
or 0xFFFFFFFF. -/
@[irreducible] def crc32 (data : Bytes) : UInt32 :=
  data.foldl crc32Byte 0xFFFFFFFF ^^^ 0xFFFFFFFF

example : crc16CcittFalse [0x31, 0x32, 0x33, 0x34, 0x35, 0x36, 0x37, 0x38, 0x39] = 0x29B1 := by
  decide +kernel

example : crc32 [0x31, 0x32, 0x33, 0x34, 0x35, 0x36, 0x37, 0x38, 0x39] = 0xCBF43926 := by
  decide +kernel

end LivoxMid360.Protocol.Crc
