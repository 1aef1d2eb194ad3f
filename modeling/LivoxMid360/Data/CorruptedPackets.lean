/- digest: Corrupted measurements under a stored checksum are refused. -/

import LivoxMid360.Data.PacketFormat
import LivoxMid360.Protocol.CrcWindows

set_option autoImplicit false
set_option relaxedAutoImplicit false

namespace LivoxMid360.Data.CorruptedPackets

open Foundation.RustOutcome
open Foundation.LittleEndian
open Foundation.ByteBuffer
open Protocol.Vocabulary Protocol.Crc
open Points Packet PacketFormat

theorem rawHeader_of_eqOutside {lo hi : Nat} {buf buf' : Bytes}
    (outside : EqOutside lo hi buf buf') (late : 28 ≤ lo) :
    field RawHeader 0 buf' =
      { field RawHeader 0 buf with timestamp := field UInt64 28 buf' } := by
  have early (α : Type) [LeWord α] (off : Nat) (before : off + LeWord.width α ≤ 28) :
      field α off buf' = field α off buf :=
    (outside.field_before (before.trans late)).symm
  rw [field_rawHeader, field_rawHeader]
  dsimp only
  rw [early UInt8 0 (by simp), early UInt16 1 (by simp), early UInt16 3 (by simp),
    early UInt16 5 (by simp), early UInt16 7 (by simp), early UInt8 9 (by simp),
    early UInt8 10 (by simp), early UInt8 11 (by simp), early (Vector UInt8 12) 12 (by simp),
    early UInt32 24 (by simp)]

/-- A packet that was accepted by its checksum is refused by it once up to four neighbouring
bytes of the timestamp or the payload are corrupted. -/
theorem corrupted_packet_mismatch (profile : Profile) {buf buf' : Bytes} {packet : DataPacket}
    (accepted : DataPacket.parse profile buf = .ok packet) (present : field UInt32 24 buf ≠ 0)
    (differ : buf ≠ buf') {lo n : Nat} (narrow : n ≤ 4) (left : 28 ≤ lo)
    (right : lo + n ≤ packet.header.length.toNat) (outside : EqOutside lo (lo + n) buf buf') :
    DataPacket.parse profile buf' = .err .crcMismatch := by
  obtain ⟨h, parsed, rest⟩ := Outcome.bind_eq_ok.mp accepted
  obtain ⟨payload, -, rest⟩ := Outcome.bind_eq_ok.mp rest
  cases rest
  obtain ⟨whole, high, sized, reserved, crc, hr, valid⟩ := header_parse_eq_ok_iff.mp parsed
  have stored : field UInt32 24 buf = crc := by
    have same := congrArg RawHeader.crc hr
    rwa [field_rawHeader] at same
  rw [stored] at present
  have computed : crc = crc32 (covered h.length.toNat buf) := valid.resolve_left present
  obtain ⟨pre, mid, mid', post, before, after, hmid, hmid', apart⟩ :=
    outside.split left right high
  have window := Protocol.CrcWindows.crc32_window_ne pre post (hmid.trans hmid'.symm) (by omega)
    (apart differ)
  -- only the timestamp of the header can have changed, so all checks before the last still pass
  have hr' : field RawHeader 0 buf' =
      rawOf { h with timestamp := field UInt64 28 buf' } reserved crc := by
    rw [rawHeader_of_eqOutside outside left, hr]
    rfl
  have mismatch : ¬ (crc = 0 ∨ crc = crc32 (covered h.length.toNat buf')) := by
    rintro (absent | same)
    · exact present absent
    · rw [covered, before] at computed
      rw [covered, after] at same
      exact window (computed.symm.trans same)
  have refused : DataFrameHeader.parse profile buf' = .err .crcMismatch := by
    rw [header_parse_of_raw profile (h := { h with timestamp := field UInt64 28 buf' })
      (outside.1 ▸ whole) (outside.1 ▸ high) sized hr']
    exact if_neg mismatch
  rw [DataPacket.parse, refused, Outcome.err_bind]

def soundPacket : Bytes :=
  [0, 50, 0, 50, 0, 1, 0, 7, 0, 3, 1, 1, 0, 0, 0, 0, 0, 0, 0, 0, 0, 0, 0, 0, 56, 74, 211, 196,
    128, 132, 30, 0, 0, 0, 0, 0, 210, 4, 0, 0, 201, 253, 255, 255, 89, 0, 0, 0, 200, 0]

theorem corrupted_packet_mismatch_border :
    DataPacket.parse .dev (soundPacket.take 34 ++ [1, 2, 3, 4] ++ soundPacket.drop 38) =
      .err .crcMismatch := by
  have accepted : DataPacket.parse .dev soundPacket =
      .ok ⟨⟨0, 50, 50, 1, 7, 3, .pointCloudCartesian32, .ptp, 2000000⟩,
        .points [.cartesian32 ⟨1234, -567, 89, 200, ⟨0⟩⟩]⟩ := by
    decide +kernel
  have differ : soundPacket ≠ soundPacket.take 34 ++ [1, 2, 3, 4] ++ soundPacket.drop 38 := by
    decide
  exact corrupted_packet_mismatch .dev accepted (by decide) differ (n := 4) (by decide)
    (show 28 ≤ 34 by decide) (by decide) (by unfold EqOutside; decide)

end LivoxMid360.Data.CorruptedPackets
