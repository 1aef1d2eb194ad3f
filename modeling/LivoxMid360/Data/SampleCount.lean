/- digest: Whether the header of an accepted packet counts the samples that the packet holds. -/

import LivoxMid360.Data.PacketFormat

set_option autoImplicit false
set_option relaxedAutoImplicit false

namespace LivoxMid360.Data.SampleCount

open Foundation.RustOutcome
open Foundation.LittleEndian
open Protocol.Vocabulary Protocol.Crc
open Packet PacketFormat

def sampleCount : DataPayload → Nat
  | .imu _ => 1
  | .points points => points.length

/-- Kind, variants and number of the samples are those that the header names. -/
structure SelfConsistent (packet : DataPacket) : Prop where
  kind : (∃ sample, packet.payload = .imu sample) ↔ packet.header.dataType = .imu
  variants : ∀ points, packet.payload = .points points →
    ∀ p ∈ points, p.dataType = packet.header.dataType
  count : packet.header.dotNum.toNat = sampleCount packet.payload

theorem kind_of_describes {packet : DataPacket}
    (describes : Describes packet.header packet.payload) :
    (∃ sample, packet.payload = .imu sample) ↔ packet.header.dataType = .imu := by
  obtain ⟨header, payload⟩ := packet
  cases payload with
  | imu sample => exact iff_of_true ⟨sample, rfl⟩ describes
  | points points =>
    refine iff_of_false ?_ describes.1
    rintro ⟨sample, same⟩
    cases same

theorem variants_of_describes {packet : DataPacket}
    (describes : Describes packet.header packet.payload) (points : List Points.Point)
    (held : packet.payload = .points points) :
    ∀ p ∈ points, p.dataType = packet.header.dataType := by
  rw [held] at describes
  exact describes.2.1

theorem count_of_describes {packet : DataPacket}
    (describes : Describes packet.header packet.payload) :
    packet.header.dotNum.toNat = sampleCount packet.payload ↔
      packet.header.dataType ≠ .imu ∨ packet.header.dotNum = 1 := by
  obtain ⟨header, payload⟩ := packet
  cases payload with
  | imu sample =>
    -- an IMU packet is decoded whatever its count, and holds one sample
    have kind : header.dataType = .imu := describes
    constructor
    · intro one
      exact .inr (UInt16.toNat_inj.mp one)
    · rintro (other | one)
      · exact absurd kind other
      · show header.dotNum.toNat = 1
        rw [one]
        rfl
  | points points => exact iff_of_true describes.2.2.symm (.inl describes.1)

theorem imu_code_iff (dataType : DataType) : dataType.toByte = 0 ↔ dataType = .imu := by
  cases dataType <;> decide

theorem fields_of_parse {profile : Profile} {buf : Bytes} {packet : DataPacket}
    (parsed : DataPacket.parse profile buf = .ok packet) :
    field UInt16 5 buf = packet.header.dotNum ∧
      field UInt8 10 buf = packet.header.dataType.toByte := by
  obtain ⟨header, headed, parsed⟩ := Outcome.bind_eq_ok.mp parsed
  obtain ⟨payload, _, parsed⟩ := Outcome.bind_eq_ok.mp parsed
  cases parsed
  obtain ⟨_, _, _, reserved, crc, raw, _⟩ := header_parse_eq_ok_iff.mp headed
  obtain ⟨-, dotNum, code, -⟩ := fields_of_header raw
  exact ⟨dotNum, code⟩

/-- An accepted packet is consistent with its header exactly when it is no IMU packet, or an
IMU packet that counts one sample. -/
theorem accepted_consistent_iff {profile : Profile} {buf : Bytes} {packet : DataPacket}
    (parsed : DataPacket.parse profile buf = .ok packet) :
    SelfConsistent packet ↔ field UInt8 10 buf ≠ 0 ∨ field UInt16 5 buf = 1 := by
  have describes := (packet_parse_eq_ok_iff.mp parsed).1
  obtain ⟨dotNum, code⟩ := fields_of_parse parsed
  rw [dotNum, code, Ne, imu_code_iff]
  constructor
  · intro consistent
    exact (count_of_describes describes).mp consistent.count
  · intro condition
    exact ⟨kind_of_describes describes, variants_of_describes describes,
      (count_of_describes describes).mpr condition⟩

def imuPacket (n : UInt8) : Bytes :=
  [0, 60, 0, 0, 0, n, 0, 0, 0, 0, 0, 0] ++ List.replicate 48 0

theorem imuPacket_consistent_iff :
    ∃ packet, DataPacket.parse .release (imuPacket 1) = .ok packet ∧
      (SelfConsistent packet ↔
        field UInt8 10 (imuPacket 1) ≠ 0 ∨ field UInt16 5 (imuPacket 1) = 1) := by
  have accepted : Accepted (imuPacket 1) :=
    ⟨by decide, by decide, by decide, by decide, by decide, .inl (by decide)⟩
  obtain ⟨packet, parsed⟩ := (@packet_parse_iff_accepted .release _).mpr accepted
  exact ⟨packet, parsed, accepted_consistent_iff parsed⟩

/-- Seven samples are counted where one is held. -/
theorem imu_packet_miscounted :
    ¬ ∀ profile buf packet, DataPacket.parse profile buf = .ok packet → SelfConsistent packet := by
  intro claim
  have accepted : Accepted (imuPacket 7) :=
    ⟨by decide, by decide, by decide, by decide, by decide, .inl (by decide)⟩
  obtain ⟨packet, parsed⟩ := (@packet_parse_iff_accepted .release _).mpr accepted
  have consistent := claim .release _ packet parsed
  obtain ⟨dotNum, code⟩ := fields_of_parse parsed
  have kind : packet.header.dataType = .imu :=
    (imu_code_iff _).mp (code.symm.trans (by decide))
  have seven : packet.header.dotNum = 7 := dotNum.symm.trans (by decide)
  rcases (count_of_describes (packet_parse_eq_ok_iff.mp parsed).1).mp consistent.count with
    other | one
  · exact other kind
  · exact absurd (seven.symm.trans one) (by decide)

end LivoxMid360.Data.SampleCount
