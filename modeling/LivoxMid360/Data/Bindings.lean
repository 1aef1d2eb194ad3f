/- digest: Packets as the bindings make and serialize them. -/

import LivoxMid360.Data.PacketBuild

set_option autoImplicit false
set_option relaxedAutoImplicit false

namespace LivoxMid360.Data.Bindings

open Foundation.RustOutcome
open Foundation.LittleEndian
open Foundation.ByteBuffer
open Protocol.Vocabulary Protocol.Crc
open Points Packet PacketFormat PacketBuild
open DataPacket (payloadLen)

namespace PyDataPacket

/-- The header's own count is overwritten; its data type is kept, whatever the points are. -/
def fromPoints (header : DataFrameHeader) (points : List Point) : DataPacket :=
  ⟨{ header with dotNum := UInt16.ofNat points.length }, .points points⟩

def fromImu (header : DataFrameHeader) (sample : ImuSample) : DataPacket :=
  ⟨{ header with dotNum := 1, dataType := .imu }, .imu sample⟩

def toBytes (self : DataPacket) : Result Bytes :=
  let buf := List.replicate (dataHeaderSize + payloadLen self.header self.payload) 0
  match (DataPacket.build self.header self.payload).run buf with
  | (.ok (), buf) => .ok buf
  | (.err e, _) => .err e
  | (.panic c, _) => .panic c

end PyDataPacket

open PyDataPacket

def total (packet : DataPacket) : Nat := dataHeaderSize + payloadLen packet.header packet.payload

def withLength (packet : DataPacket) : DataPacket :=
  ⟨{ packet.header with length := UInt16.ofNat (total packet) }, packet.payload⟩

/-- A packet of the bindings whose points are of the format that its header names, and few enough
for the 16-bit length field; or an IMU packet. -/
inductive Made : DataPacket → Prop
  | points (header : DataFrameHeader) (points : List Point) (cloud : header.dataType ≠ .imu)
    (same : ∀ p ∈ points, p.dataType = header.dataType)
    (small : dataHeaderSize + header.dataType.pointSize * points.length ≤ 65535) :
    Made (fromPoints header points)
  | imu (header : DataFrameHeader) (sample : ImuSample) : Made (fromImu header sample)

theorem Made.agree {packet : DataPacket} (made : Made packet) :
    Agree packet.header packet.payload := by
  cases made with
  | imu header sample =>
    exact ⟨rfl, show dataHeaderSize + ImuSample.size ≤ 65535 by decide⟩
  | points header points cloud same small =>
    refine ⟨⟨cloud, same, ?_⟩, small⟩
    have size : 8 ≤ header.dataType.pointSize := by
      cases header.dataType <;> decide
    have product := Nat.mul_le_mul_right points.length size
    refine (UInt16.toNat_ofNat_of_lt' ?_).symm
    show points.length < 65536
    omega

section Agreeing

variable {packet : DataPacket} (agree : Agree packet.header packet.payload)

include agree

theorem toNat_length_withLength : (withLength packet).header.length.toNat = total packet := by
  refine UInt16.toNat_ofNat_of_lt' ?_
  have small : total packet ≤ 65535 := agree.2
  show total packet < 65536
  omega

theorem toBytes_eq : toBytes packet = .ok (encoding (withLength packet) zeroReserved
    (crc32 (coveredBytes (withLength packet)))) := by
  have sized := payloadLen_eq agree.1
  have room : dataHeaderSize + payloadLen packet.header packet.payload ≤ (List.replicate
      (dataHeaderSize + payloadLen packet.header packet.payload) (0 : UInt8)).length :=
    le_of_eq (List.length_replicate).symm
  have built := build_eq (describes_same agree.1) sized room
  have nothing : (List.replicate (dataHeaderSize + payloadLen packet.header packet.payload)
      (0 : UInt8)).drop (dataHeaderSize + payloadLen packet.header packet.payload) = [] := by
    rw [List.drop_replicate, Nat.sub_self]
    rfl
  rw [nothing, List.append_nil] at built
  rw [toBytes, built]
  rfl

theorem length_toBytes {datagram : Bytes} (built : toBytes packet = .ok datagram) :
    datagram.length = total packet := by
  rw [toBytes_eq agree] at built
  cases built
  rw [length_encoding, total, payloadLen_eq agree.1]
  rfl

theorem declaredLength_toBytes {datagram : Bytes} (built : toBytes packet = .ok datagram) :
    declaredLength datagram = total packet := by
  rw [toBytes_eq agree] at built
  cases built
  have declared := (declaredLength_encoding (withLength packet) zeroReserved
    (crc32 (coveredBytes (withLength packet))) []).1
  rw [List.append_nil] at declared
  exact declared.trans (toNat_length_withLength agree)

theorem parse_toBytes (profile : Profile) {datagram : Bytes}
    (built : toBytes packet = .ok datagram) :
    DataPacket.parse profile datagram = .ok (withLength packet) := by
  rw [toBytes_eq agree] at built
  cases built
  refine packet_parse_eq_ok_iff.mpr ⟨?_, ?_, zeroReserved, _, [], .inr rfl, ?_⟩
  · have describes := agree.1
    cases packet with
    | mk header payload => cases payload <;> exact describes
  · rw [SizeMatches, toNat_length_withLength agree, total, payloadLen_eq agree.1]
    rfl
  · rw [List.append_nil]

end Agreeing

/-- The packet can be serialized, and is parsed back as it was made, with its length. -/
def Survives (profile : Profile) (packet : DataPacket) : Prop :=
  ∃ bytes, toBytes packet = .ok bytes ∧
    DataPacket.parse profile bytes = .ok (withLength packet)

theorem describes_withLength {packet : DataPacket} :
    Describes (withLength packet).header (withLength packet).payload ↔
      Describes packet.header packet.payload := by
  obtain ⟨header, payload⟩ := packet
  cases payload <;> exact Iff.rfl

theorem agree_of_survives {profile : Profile} {packet : DataPacket}
    (survives : Survives profile packet) : Agree packet.header packet.payload := by
  obtain ⟨bytes, -, parsed⟩ := survives
  obtain ⟨describes, sized, -⟩ := packet_parse_eq_ok_iff.mp parsed
  have described := describes_withLength.mp describes
  have bound : (withLength packet).header.length.toNat < 65536 :=
    (withLength packet).header.length.toNat_lt
  refine ⟨described, ?_⟩
  rw [payloadLen_eq described]
  rw [SizeMatches] at sized
  exact Nat.le_of_lt_succ (sized ▸ bound)

/-- Points that the bindings put behind a header survive exactly when they are all of the format
that it names, and few enough for its length field; an IMU sample survives behind any header. -/
theorem survives_iff (profile : Profile) (header : DataFrameHeader) :
    (∀ points, Survives profile (fromPoints header points) ↔
      header.dataType ≠ .imu ∧ (∀ p ∈ points, p.dataType = header.dataType) ∧
        dataHeaderSize + header.dataType.pointSize * points.length ≤ 65535) ∧
    ∀ sample, Survives profile (fromImu header sample) := by
  have survives {packet : DataPacket} (made : Made packet) : Survives profile packet :=
    ⟨_, toBytes_eq made.agree, parse_toBytes made.agree profile (toBytes_eq made.agree)⟩
  refine ⟨fun points => ⟨fun survived => ?_, fun ⟨cloud, same, small⟩ => ?_⟩, fun sample => ?_⟩
  · obtain ⟨⟨cloud, same, -⟩, small⟩ := agree_of_survives survived
    exact ⟨cloud, same, small⟩
  · exact survives (.points header points cloud same small)
  · exact survives (.imu header sample)

end LivoxMid360.Data.Bindings
