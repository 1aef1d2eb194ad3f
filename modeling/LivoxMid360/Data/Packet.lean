/- digest: Data packets: the header codec, the checksum, and the payload loops. -/

import LivoxMid360.Data.Points
import LivoxMid360.Protocol.Crc

set_option autoImplicit false
set_option relaxedAutoImplicit false

namespace LivoxMid360.Data.Packet

open Foundation.RustOutcome
open Foundation.LittleEndian
open Foundation.ByteBuffer
open Protocol.Vocabulary Protocol.Crc
open Points

def dataHeaderSize : Nat := 36

structure DataFrameHeader where
  version : UInt8
  length : UInt16
  timeInterval : UInt16
  dotNum : UInt16
  udpCnt : UInt16
  frameCnt : UInt8
  dataType : DataType
  timeType : TimestampType
  timestamp : UInt64
  deriving DecidableEq

inductive DataPayload
  | imu (sample : ImuSample)
  | points (points : List Point)
  deriving DecidableEq

structure DataPacket where
  header : DataFrameHeader
  payload : DataPayload
  deriving DecidableEq

namespace DataFrameHeader

/-- A stored checksum of zero means that no checksum is present. -/
def verifyCrc (self : DataFrameHeader) (buf : Bytes) : Result Unit := do
  let stored ← readLe UInt32 buf 24
  if stored = 0 then
    .ok ()
  else
  let computed := crc32 (← slice buf 28 self.length.toNat)
  if stored ≠ computed then
    .err .crcMismatch
  else
  return ()

def parse (profile : Profile) (buf : Bytes) : Result DataFrameHeader := do
  if buf.length < dataHeaderSize then
    .err (.packetTooShort dataHeaderSize buf.length)
  else
  let version ← index buf 0
  let length ← readLe UInt16 buf 1
  if buf.length < length.toNat then
    .err (.packetTooShort length.toNat buf.length)
  else
  let dataType ← DataType.tryFrom (← index buf 10)
  -- the length is not compared with the header before it is reduced by it
  let payloadLen ← usizeSub profile length.toNat dataHeaderSize
  -- the count of an IMU packet is not looked at
  let expectedPayload ←
    (if dataType = .imu then .ok ImuSample.size
      else (dataType.pointSize * ·.toNat) <$> readLe UInt16 buf 5)
  if payloadLen ≠ expectedPayload then
    .err (.parameterParse
      s!"payload length mismatch: header says {payloadLen}, expected {expectedPayload}")
  else
  let timeInterval ← readLe UInt16 buf 3
  let dotNum ← readLe UInt16 buf 5
  let udpCnt ← readLe UInt16 buf 7
  let frameCnt ← index buf 9
  let timeType ← TimestampType.tryFrom (← index buf 11)
  let timestamp ← readLe UInt64 buf 28
  let header : DataFrameHeader :=
    { version, length, timeInterval, dotNum, udpCnt, frameCnt, dataType, timeType, timestamp }
  header.verifyCrc buf
  return header

def write (self : DataFrameHeader) (payloadLen : Nat) : Edit LidarError Unit := do
  let total := dataHeaderSize + payloadLen
  if (← Edit.len) < total then
    Edit.fail .bufferTooSmall
  else
  Edit.setIndex 0 self.version
  Edit.copyFromSlice 1 3 (toLe (UInt16.ofNat total))
  Edit.copyFromSlice 3 5 (toLe self.timeInterval)
  Edit.copyFromSlice 5 7 (toLe self.dotNum)
  Edit.copyFromSlice 7 9 (toLe self.udpCnt)
  Edit.setIndex 9 self.frameCnt
  Edit.setIndex 10 self.dataType.toByte
  Edit.setIndex 11 self.timeType.toByte
  Edit.fill 12 24 0
  Edit.fill 24 28 0
  Edit.copyFromSlice 28 36 (toLe self.timestamp)

def fillCrc (payloadLen : Nat) : Edit LidarError Unit := do
  let total := dataHeaderSize + payloadLen
  if (← Edit.len) < total then
    Edit.fail .bufferTooSmall
  else
  -- over timestamp and payload, the checksum of zeros included
  let computed ← Edit.read fun buf => crc32 <$> slice buf 28 total
  Edit.copyFromSlice 24 28 (toLe computed)

end DataFrameHeader

namespace DataPacket

def parsePoints (dataType : DataType) (dotNum : Nat) (buf : Bytes) : Result (List Point) :=
  (List.range dotNum).mapM fun i => do
    let off := dataHeaderSize + i * dataType.pointSize
    Point.parse dataType (← slice buf off (off + dataType.pointSize))

def parsePayload (header : DataFrameHeader) (buf : Bytes) : Result DataPayload :=
  match header.dataType with
  | .imu => do
    let sample ← ImuSample.parse (← sliceFrom buf dataHeaderSize)
    return .imu sample
  | dataType => do
    let points ← parsePoints dataType header.dotNum.toNat buf
    return .points points

def parse (profile : Profile) (buf : Bytes) : Result DataPacket := do
  let header ← DataFrameHeader.parse profile buf
  let payload ← parsePayload header buf
  return { header, payload }

/-- The payload length that `build` announces: the stride is the header's, whatever the
variants of the points are. -/
def payloadLen (header : DataFrameHeader) : DataPayload → Nat
  | .imu _ => ImuSample.size
  | .points points => header.dataType.pointSize * points.length

def writePoints (pointSize : Nat) (points : List Point) : Edit LidarError Unit :=
  points.zipIdx.forM fun (point, i) =>
    Edit.suffix (dataHeaderSize + i * pointSize) point.write

def writePayload (header : DataFrameHeader) : DataPayload → Edit LidarError Unit
  | .imu sample => Edit.suffix dataHeaderSize sample.write
  -- the points are written as they are, at the stride of the header
  | .points points => writePoints header.dataType.pointSize points

def build (header : DataFrameHeader) (payload : DataPayload) : Edit LidarError Unit := do
  header.write (payloadLen header payload)
  writePayload header payload
  DataFrameHeader.fillCrc (payloadLen header payload)

end DataPacket

/-- The thirty-six header bytes, none of them interpreted. -/
structure RawHeader where
  version : UInt8
  length : UInt16
  timeInterval : UInt16
  dotNum : UInt16
  udpCnt : UInt16
  frameCnt : UInt8
  dataType : UInt8
  timeType : UInt8
  reserved : Vector UInt8 12
  crc : UInt32
  timestamp : UInt64

instance : LeWord RawHeader :=
  LeWord.ofEquiv
    (fun r => (r.version, r.length, r.timeInterval, r.dotNum, r.udpCnt, r.frameCnt, r.dataType,
      r.timeType, r.reserved, r.crc, r.timestamp))
    (fun (v, l, ti, n, u, f, d, t, res, c, ts) => ⟨v, l, ti, n, u, f, d, t, res, c, ts⟩)
    (fun _ => rfl) (fun _ => rfl)

@[simp] theorem width_rawHeader : LeWord.width RawHeader = 36 := rfl

theorem field_rawHeader (bs : Bytes) :
    field RawHeader 0 bs =
      ⟨field UInt8 0 bs, field UInt16 1 bs, field UInt16 3 bs, field UInt16 5 bs,
        field UInt16 7 bs, field UInt8 9 bs, field UInt8 10 bs, field UInt8 11 bs,
        field (Vector UInt8 12) 12 bs, field UInt32 24 bs, field UInt64 28 bs⟩ := by
  show (fun (v, l, ti, n, u, f, d, t, res, c, ts) =>
      (⟨v, l, ti, n, u, f, d, t, res, c, ts⟩ : RawHeader))
    (field (UInt8 × UInt16 × UInt16 × UInt16 × UInt16 × UInt8 × UInt8 × UInt8 × Vector UInt8 12 ×
      UInt32 × UInt64) 0 bs) = _
  simp only [field_prod, width_u8, width_u16, width_u32, width_vector, Nat.zero_add, Nat.reduceAdd]

def payloadSize (dataType : DataType) (dotNum : Nat) : Nat :=
  if dataType = .imu then ImuSample.size else dataType.pointSize * dotNum

theorem payloadSize_lt (dataType : DataType) (dotNum : UInt16) :
    payloadSize dataType dotNum.toNat < 2 ^ 20 := by
  have small : dotNum.toNat < 2 ^ 16 := dotNum.toNat_lt
  rw [payloadSize]
  cases dataType <;> simp [ImuSample.size, DataType.pointSize] <;> omega

/-- An announced payload length equals the expected one only without wrapping. -/
theorem length_of_payloadLen {profile : Profile} {length dotNum : UInt16} {dataType : DataType}
    {n : Nat} (h : (usizeSub profile length.toNat dataHeaderSize : Result Nat) = .ok n)
    (same : n = payloadSize dataType dotNum.toNat) :
    length.toNat = 36 + payloadSize dataType dotNum.toNat := by
  have bound := payloadSize_lt dataType dotNum
  have range : 36 + 2 ^ 20 ≤ usizeModulus := by decide
  rw [dataHeaderSize] at h
  obtain ⟨low, diff⟩ := usizeSub_small h (by omega) range
  omega

def RawHeader.interpret (r : RawHeader) (dataType : DataType) (timeType : TimestampType) :
    DataFrameHeader :=
  ⟨r.version, r.length, r.timeInterval, r.dotNum, r.udpCnt, r.frameCnt, dataType, timeType,
    r.timestamp⟩

def covered (length : Nat) (buf : Bytes) : Bytes := (buf.drop 28).take (length - 28)

namespace DataFrameHeader

theorem parse_short (profile : Profile) {buf : Bytes} (h : buf.length < dataHeaderSize) :
    parse profile buf = .err (.packetTooShort dataHeaderSize buf.length) := by
  rw [parse, if_pos h]

theorem verifyCrc_eq {header : DataFrameHeader} {buf : Bytes} (low : 28 ≤ header.length.toNat)
    (high : header.length.toNat ≤ buf.length) :
    header.verifyCrc buf =
      if field UInt32 24 buf = 0 ∨
          field UInt32 24 buf = crc32 (covered header.length.toNat buf) then .ok ()
      else .err .crcMismatch := by
  rw [verifyCrc, readLe_ok (by rw [width_u32]; omega), Outcome.ok_bind]
  by_cases absent : field UInt32 24 buf = 0
  · rw [if_pos absent, if_pos (.inl absent)]
  rw [if_neg absent, slice_ok low high, Outcome.ok_bind]
  by_cases same : field UInt32 24 buf = crc32 (covered header.length.toNat buf)
  · have valid : field UInt32 24 buf = 0 ∨
        field UInt32 24 buf = crc32 (covered header.length.toNat buf) := .inr same
    rw [if_pos valid]
    exact if_neg (fun differ => differ same)
  · have invalid : ¬ (field UInt32 24 buf = 0 ∨
        field UInt32 24 buf = crc32 (covered header.length.toNat buf)) :=
      fun either => either.elim absent same
    rw [if_neg invalid]
    exact if_pos same

/-- The header parser as a decision list over the raw header. -/
theorem parse_eq (profile : Profile) {buf : Bytes} (h : dataHeaderSize ≤ buf.length)
    {r : RawHeader} (hr : field RawHeader 0 buf = r) :
    parse profile buf =
      if buf.length < r.length.toNat then .err (.packetTooShort r.length.toNat buf.length)
      else (do
        let dataType ← DataType.tryFrom r.dataType
        let payloadLen ← usizeSub profile r.length.toNat dataHeaderSize
        if payloadLen ≠ payloadSize dataType r.dotNum.toNat then
          .err (.parameterParse ("payload length mismatch: header says " ++ toString payloadLen ++
            ", expected " ++ toString (payloadSize dataType r.dotNum.toNat)))
        else do
          let timeType ← TimestampType.tryFrom r.timeType
          if r.crc = 0 ∨ r.crc = crc32 (covered r.length.toNat buf) then
            .ok (r.interpret dataType timeType)
          else .err .crcMismatch) := by
  rw [field_rawHeader] at hr
  subst hr
  rw [dataHeaderSize] at h
  rw [parse, dataHeaderSize, if_neg (by omega), index_bind (by omega),
    readLe_bind (by rw [width_u16]; omega)]
  by_cases hbound : buf.length < (field UInt16 1 buf).toNat
  · rw [if_pos hbound, if_pos hbound]
  rw [if_neg hbound, if_neg hbound, index_bind (by omega)]
  -- from here on the two agree wherever the type is known and the length did not underflow
  refine Outcome.bind_congr_ok fun dataType _ => Outcome.bind_congr_ok fun payloadLen hlen => ?_
  dsimp only
  have expected : (if dataType = .imu then .ok ImuSample.size
      else (dataType.pointSize * ·.toNat) <$> (readLe UInt16 buf 5 : Result UInt16)) =
        .ok (payloadSize dataType (field UInt16 5 buf).toNat) := by
    rw [payloadSize, readLe_ok (by rw [width_u16]; omega)]
    split
    · rfl
    · rfl
  rw [expected, Outcome.ok_bind]
  by_cases mismatch : payloadLen ≠ payloadSize dataType (field UInt16 5 buf).toNat
  · rw [if_pos mismatch, if_pos mismatch]
    rfl
  -- an announced length that passed its check covers the checksum's own bytes
  have sized := length_of_payloadLen hlen (not_not.mp mismatch)
  have low : 28 ≤ (field UInt16 1 buf).toNat := by omega
  have high : (field UInt16 1 buf).toNat ≤ buf.length := by omega
  rw [if_neg mismatch, if_neg mismatch, readLe_bind (by rw [width_u16]; omega),
    readLe_bind (by rw [width_u16]; omega), readLe_bind (by rw [width_u16]; omega),
    index_bind (by omega), index_bind (by omega)]
  refine Outcome.bind_congr_ok fun timeType _ => ?_
  rw [readLe_bind (by rw [width_u64]; omega), verifyCrc_eq (by exact low) (by exact high)]
  split
  · rfl
  · rfl

end DataFrameHeader

end LivoxMid360.Data.Packet
