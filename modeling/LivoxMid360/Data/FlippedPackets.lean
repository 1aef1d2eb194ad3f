/- digest: Flipped bits in a packet with a stored checksum, and the one way past it. -/

import LivoxMid360.Data.CorruptedPackets
import LivoxMid360.Protocol.FlippedBits

set_option autoImplicit false
set_option relaxedAutoImplicit false

namespace LivoxMid360.Data.FlippedPackets

open Foundation.RustOutcome
open Foundation.LittleEndian
open Foundation.ByteBuffer
open Foundation.BitErrors
open Protocol.Vocabulary Protocol.Crc Protocol.FlippedBits
open Points Packet PacketFormat
open CorruptedPackets (soundPacket)

theorem rawHeader_of_take {buf buf' : Bytes} (lead : buf'.take 24 = buf.take 24) :
    field RawHeader 0 buf' =
      { field RawHeader 0 buf with
        crc := field UInt32 24 buf', timestamp := field UInt64 28 buf' } := by
  have early (α : Type) [LeWord α] (off : Nat) (before : off + LeWord.width α ≤ 24) :
      field α off buf' = field α off buf := by
    rw [← field_take before buf', lead, field_take before]
  rw [field_rawHeader, field_rawHeader]
  dsimp only
  rw [early UInt8 0 (by simp), early UInt16 1 (by simp), early UInt16 3 (by simp),
    early UInt16 5 (by simp), early UInt16 7 (by simp), early UInt8 9 (by simp),
    early UInt8 10 (by simp), early UInt8 11 (by simp), early (Vector UInt8 12) 12 (by simp)]

theorem drop_take_lead {buf : Bytes} {n : Nat} (low : 28 ≤ n) (high : n ≤ buf.length) :
    (buf.take n).drop 24 = toLe (field UInt32 24 buf) ++ covered n buf := by
  have inside : 24 + LeWord.width UInt32 ≤ buf.length := by
    rw [width_u32]
    omega
  have split := toLe_field_append_drop inside
  rw [List.drop_take, ← split, List.take_append, length_toLe, width_u32, covered,
    List.take_of_length_le (by rw [length_toLe, width_u32]; omega), Nat.sub_sub]

theorem length_covered {buf : Bytes} {n : Nat} (high : n ≤ buf.length) :
    (covered n buf).length = n - 28 := by
  rw [covered, List.length_take, List.length_drop]
  omega

/-- Behind an intact lead, one or two flipped bits in a checksummed packet are noticed unless
they clear the stored checksum: then nothing is verified. -/
theorem flipped_packet_refused_iff (profile : Profile) {buf buf' : Bytes} {packet : DataPacket}
    (accepted : DataPacket.parse profile buf = .ok packet) (present : field UInt32 24 buf ≠ 0)
    (sized : buf'.length = buf.length) (lead : buf'.take 24 = buf.take 24)
    (some : flips (buf.take packet.header.length.toNat)
      (buf'.take packet.header.length.toNat) ≠ 0)
    (few : flips (buf.take packet.header.length.toNat)
      (buf'.take packet.header.length.toNat) ≤ 2) :
    DataPacket.parse profile buf' = .err .crcMismatch ↔ field UInt32 24 buf' ≠ 0 := by
  obtain ⟨h, parsed, rest⟩ := Outcome.bind_eq_ok.mp accepted
  obtain ⟨payload, -, rest⟩ := Outcome.bind_eq_ok.mp rest
  cases rest
  obtain ⟨whole, high, exactly, reserved, crc, hr, valid⟩ := header_parse_eq_ok_iff.mp parsed
  have stored : field UInt32 24 buf = crc := by
    have same := congrArg RawHeader.crc hr
    rwa [field_rawHeader] at same
  have computed : field UInt32 24 buf = crc32 (covered h.length.toNat buf) := by
    rw [stored] at present ⊢
    exact valid.resolve_left present
  have hr' : field RawHeader 0 buf' =
      rawOf { h with timestamp := field UInt64 28 buf' } reserved (field UInt32 24 buf') := by
    rw [rawHeader_of_take lead, hr]
    rfl
  have header := header_parse_of_raw profile (h := { h with timestamp := field UInt64 28 buf' })
    (sized ▸ whole) (sized ▸ high) exactly hr'
  dsimp only at some few header
  -- a checksum that still held would leave an error of one or two flips that it misses
  have noticed : field UInt32 24 buf' ≠ crc32 (covered h.length.toNat buf') := by
    intro same
    rw [dataHeaderSize] at exactly
    have split := flips_take_add_drop 24 (buf.take h.length.toNat) (buf'.take h.length.toNat)
    rw [List.take_take, List.take_take, Nat.min_eq_left (by omega), lead, flips_self, Nat.zero_add,
      drop_take_lead (by omega) high, drop_take_lead (by omega) (sized ▸ high),
      flips_append (by rw [length_toLe, length_toLe]), flips_toLe_u32, computed, same,
      Nat.add_comm] at split
    have bound := h.length.toNat_lt
    have many := crc32_misses
      (by rw [length_covered high, length_covered (sized ▸ high)])
      (by rw [length_covered high]; omega) _ split some
    omega
  constructor
  · intro refused absent
    -- zero means that there is no checksum, and nothing is verified
    rw [if_pos (.inl absent)] at header
    obtain ⟨p, ok⟩ := payload_of_header header
    rw [DataPacket.parse, header, Outcome.ok_bind, ok] at refused
    cases refused
  · intro present'
    rw [if_neg fun either => either.elim present' noticed] at header
    rw [DataPacket.parse, header, Outcome.err_bind]

theorem flipped_packet_refused_iff_border :
    DataPacket.parse .dev ((soundPacket.set 24 57).set 49 128) = .err .crcMismatch := by
  have accepted : DataPacket.parse .dev soundPacket =
      .ok ⟨⟨0, 50, 50, 1, 7, 3, .pointCloudCartesian32, .ptp, 2000000⟩,
        .points [.cartesian32 ⟨1234, -567, 89, 200, ⟨0⟩⟩]⟩ := by
    decide +kernel
  exact (flipped_packet_refused_iff .dev accepted (by decide) (by decide) (by decide)
    (by decide +kernel) (by decide +kernel)).mpr (by decide)

end LivoxMid360.Data.FlippedPackets
