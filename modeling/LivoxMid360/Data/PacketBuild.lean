/- digest: The packet builder: what it writes, when it succeeds, and what is read back. -/

import LivoxMid360.Data.PacketFormat

set_option autoImplicit false
set_option relaxedAutoImplicit false

namespace LivoxMid360.Data.PacketBuild

open Foundation.RustOutcome
open Foundation.LittleEndian
open Foundation.ByteBuffer
open Protocol.Vocabulary Protocol.Crc
open Points Packet PacketFormat
open DataPacket (payloadLen writePoints writePayload)

def zeroReserved : Vector UInt8 12 := Vector.replicate 12 0

theorem header_write_short {h : DataFrameHeader} {payloadLen : Nat} {buf : Bytes}
    (short : buf.length < dataHeaderSize + payloadLen) :
    (h.write payloadLen).run buf = (.err .bufferTooSmall, buf) := by
  rw [DataFrameHeader.write]
  rw [Edit.bind_run_ok (Edit.len_run buf), if_pos short, Edit.fail_run]

theorem header_write_eq {h : DataFrameHeader} {payloadLen : Nat} {buf : Bytes}
    (room : dataHeaderSize + payloadLen ≤ buf.length) :
    (h.write payloadLen).run buf =
      (.ok (), toLe (rawOf { h with length := UInt16.ofNat (dataHeaderSize + payloadLen) }
        zeroReserved 0) ++ buf.drop 36) := by
  have start : buf = [] ++ buf.drop 0 := rfl
  rw [DataFrameHeader.write]
  rw [Edit.bind_run_ok (Edit.len_run buf), if_neg (by omega), start]
  rw [dataHeaderSize] at room ⊢
  -- field by field from the left, over whatever the buffer held
  rw [(Edit.fills_setIndex 0 h.version).advance 1 rfl (by simp) (by omega)]
  rw [(Edit.fills_copyFromSlice (by simp)).advance 3 (by simp) (by simp) (by omega)]
  rw [(Edit.fills_copyFromSlice (by simp)).advance 5 (by simp) (by simp) (by omega)]
  rw [(Edit.fills_copyFromSlice (by simp)).advance 7 (by simp) (by simp) (by omega)]
  rw [(Edit.fills_copyFromSlice (by simp)).advance 9 (by simp) (by simp) (by omega)]
  rw [(Edit.fills_setIndex 9 h.frameCnt).advance 10 (by simp) (by simp) (by omega)]
  rw [(Edit.fills_setIndex 10 h.dataType.toByte).advance 11 (by simp) (by simp) (by omega)]
  rw [(Edit.fills_setIndex 11 h.timeType.toByte).advance 12 (by simp) (by simp) (by omega)]
  rw [(Edit.fills_fill (by omega)).advance 24 (by simp) (by simp) (by omega)]
  rw [(Edit.fills_fill (by omega)).advance 28 (by simp) (by simp) (by omega)]
  rw [Edit.fills_copyFromSlice (by simp) _ _ (by simp) (by simp; omega), List.drop_drop]
  have zeros : toLe zeroReserved = List.replicate (24 - 12) 0 := rfl
  have noCrc : toLe (0 : UInt32) = List.replicate (28 - 24) 0 := rfl
  rw [toLe_rawOf, zeros, noCrc, lead]
  simp

theorem fills_writePoints {dataType : DataType} (points : List Point)
    (same : ∀ p ∈ points, p.dataType = dataType) (start : Nat) :
    Edit.Fills ((points.zipIdx start).forM fun (point, i) =>
        Edit.suffix (dataHeaderSize + i * dataType.pointSize) point.write)
      (dataHeaderSize + start * dataType.pointSize) (points.flatMap Point.bytes) := by
  induction points generalizing start with
  | nil => exact Edit.fills_pure _
  | cons p points ih =>
    have width := p.length_bytes
    rw [same p List.mem_cons_self] at width
    -- the next point starts where this one ends only because their formats agree
    have rest := ih (fun q hq => same q (List.mem_cons_of_mem p hq)) (start + 1)
    refine (p.fills_write.suffix _).seq ?_ rest
    rw [width, Nat.succ_mul, Nat.add_assoc]

theorem fills_writePayload {h : DataFrameHeader} {p : DataPayload}
    (same : ∀ points, p = .points points → ∀ q ∈ points, q.dataType = h.dataType) :
    Edit.Fills (writePayload h p) dataHeaderSize (payloadBytes p) := by
  cases p with
  | imu sample => exact (Sample.fills_write sample).suffix dataHeaderSize
  | points points =>
    have loop := fills_writePoints points (same points rfl) 0
    rwa [Nat.zero_mul, Nat.add_zero] at loop

theorem fillCrc_eq (h : DataFrameHeader) (reserved : Vector UInt8 12) (old : UInt32)
    (payload tail : Bytes) :
    (DataFrameHeader.fillCrc payload.length).run
        (toLe (rawOf h reserved old) ++ (payload ++ tail)) =
      (.ok (), toLe (rawOf h reserved (crc32 (toLe h.timestamp ++ payload))) ++
        (payload ++ tail)) := by
  have front : (lead h ++ toLe reserved).length = 24 := by simp [length_lead]
  have total : (toLe (rawOf h reserved old) ++ (payload ++ tail)).length =
      dataHeaderSize + payload.length + tail.length := by
    rw [List.length_append, length_toLe, width_rawHeader, List.length_append, dataHeaderSize,
      Nat.add_assoc]
  have layout (crc : UInt32) : toLe (rawOf h reserved crc) ++ (payload ++ tail) =
      (lead h ++ toLe reserved) ++ (toLe crc ++ ((toLe h.timestamp ++ payload) ++ tail)) := by
    simp only [toLe_rawOf, List.append_assoc]
  -- the checksum covers the timestamp, behind its own field, and the payload
  have covered : (slice (toLe (rawOf h reserved old) ++ (payload ++ tail)) 28
      (dataHeaderSize + payload.length) : Result Bytes) = .ok (toLe h.timestamp ++ payload) := by
    have size : (toLe h.timestamp ++ payload).length = dataHeaderSize + payload.length - 28 := by
      rw [List.length_append, length_toLe, width_u64, dataHeaderSize]
      omega
    have head : ((lead h ++ toLe reserved) ++ toLe old).length = 28 := by
      simp [length_lead]
    rw [slice_ok (by rw [dataHeaderSize]; omega) (by omega), layout,
      ← List.append_assoc _ (toLe old), List.drop_left' head, ← size, List.take_left]
  rw [DataFrameHeader.fillCrc]
  rw [Edit.bind_run_ok (Edit.len_run _), if_neg (by omega)]
  rw [Edit.bind_run_ok ((Edit.read_run _ _).trans
    (congrArg₂ Prod.mk (congrArg (crc32 <$> ·) covered) rfl))]
  rw [layout, Edit.fills_copyFromSlice (by simp) _ _ front (by simp), layout]
  rw [List.drop_left' (by simp)]

theorem build_eq {h : DataFrameHeader} {p : DataPayload} {buf : Bytes}
    (same : ∀ points, p = .points points → ∀ q ∈ points, q.dataType = h.dataType)
    (sized : payloadLen h p = (payloadBytes p).length)
    (room : dataHeaderSize + payloadLen h p ≤ buf.length) :
    (DataPacket.build h p).run buf =
      (.ok (), encoding ⟨{ h with length := UInt16.ofNat (dataHeaderSize + payloadLen h p) }, p⟩
          zeroReserved (crc32 (toLe h.timestamp ++ payloadBytes p)) ++
        buf.drop (dataHeaderSize + payloadLen h p)) := by
  rw [DataPacket.build, Edit.bind_run_ok (header_write_eq room)]
  have front : (toLe (rawOf { h with length := UInt16.ofNat (dataHeaderSize + payloadLen h p) }
      zeroReserved 0)).length = dataHeaderSize := length_toLe _
  have rest : (payloadBytes p).length ≤ (buf.drop 36).length := by
    rw [List.length_drop, ← sized]
    rw [dataHeaderSize] at room
    omega
  rw [Edit.bind_run_ok (fills_writePayload same _ _ front rest), sized,
    fillCrc_eq, List.drop_drop, encoding, List.append_assoc]
  rfl

/-- The header describes the payload, and the total fits the 16-bit length field. -/
def Agree (h : DataFrameHeader) (p : DataPayload) : Prop :=
  Describes h p ∧ dataHeaderSize + payloadLen h p ≤ 65535

theorem describes_same {h : DataFrameHeader} {p : DataPayload} (describes : Describes h p) :
    ∀ points, p = .points points → ∀ q ∈ points, q.dataType = h.dataType := by
  rintro points rfl
  exact describes.2.1

/-- Packets whose header agrees with the payload survive a build and a parse; the length
field becomes the total, and nothing beyond the total is touched. -/
theorem build_parse_roundtrip (profile : Profile) {h : DataFrameHeader} {p : DataPayload}
    (agree : Agree h p) {buf : Bytes} (room : dataHeaderSize + payloadLen h p ≤ buf.length) :
    ∃ out length, (DataPacket.build h p).run buf = (.ok (), out) ∧
      out.length = buf.length ∧
      out.drop (dataHeaderSize + payloadLen h p) = buf.drop (dataHeaderSize + payloadLen h p) ∧
      length.toNat = dataHeaderSize + payloadLen h p ∧
      DataPacket.parse profile (out.take (dataHeaderSize + payloadLen h p)) =
        .ok ⟨{ h with length := length }, p⟩ := by
  obtain ⟨describes, small⟩ := agree
  have sized := payloadLen_eq describes
  have length : (UInt16.ofNat (dataHeaderSize + payloadLen h p)).toNat =
      dataHeaderSize + payloadLen h p := UInt16.toNat_ofNat_of_lt' (by
        show dataHeaderSize + payloadLen h p < 65536
        omega)
  obtain ⟨packet, hpacket⟩ : ∃ packet : DataPacket,
      packet = ⟨{ h with length := UInt16.ofNat (dataHeaderSize + payloadLen h p) }, p⟩ :=
    ⟨_, rfl⟩
  obtain ⟨front, hfront⟩ : ∃ front, front =
      encoding packet zeroReserved (crc32 (coveredBytes packet)) := ⟨_, rfl⟩
  have built := build_eq (describes_same describes) sized room
  have crc : crc32 (toLe h.timestamp ++ payloadBytes p) = crc32 (coveredBytes packet) := by
    rw [hpacket, coveredBytes]
  rw [crc, ← hpacket, ← hfront] at built
  have size : front.length = dataHeaderSize + payloadLen h p := by
    rw [hfront, length_encoding, sized, hpacket, dataHeaderSize]
  refine ⟨_, UInt16.ofNat (dataHeaderSize + payloadLen h p), built, ?_, ?_, length, ?_⟩
  · rw [List.length_append, List.length_drop, size]
    omega
  · rw [List.drop_left' size]
  · rw [List.take_left' size, ← hpacket]
    refine packet_parse_eq_ok_iff.mpr ⟨?_, ?_, zeroReserved, _, [], .inr rfl, ?_⟩
    · rw [hpacket]
      exact describes
    · rw [SizeMatches, hpacket, ← sized]
      exact length
    · rw [List.append_nil, hfront]

def cartesianHeader : DataFrameHeader :=
  ⟨0, 0, 50, 1, 7, 3, .pointCloudCartesian32, .ptp, 2000000⟩

def cartesianPoint : Cartesian32Point := ⟨1234, -567, 89, 200, ⟨0⟩⟩

theorem build_parse_roundtrip_cartesian32 :
    ∃ out length,
      (DataPacket.build cartesianHeader (.points [.cartesian32 cartesianPoint])).run
        (List.replicate 1024 0) = (.ok (), out) ∧
      out.length = (List.replicate 1024 (0 : UInt8)).length ∧
      out.drop 50 = (List.replicate 1024 0).drop 50 ∧ length.toNat = 50 ∧
      DataPacket.parse .dev (out.take 50) =
        .ok ⟨{ cartesianHeader with length := length }, .points [.cartesian32 cartesianPoint]⟩ := by
  have agree : Agree cartesianHeader (.points [.cartesian32 cartesianPoint]) :=
    ⟨⟨by decide, by decide, rfl⟩, by decide⟩
  exact build_parse_roundtrip .dev agree (by rw [List.length_replicate]; decide)

def Fits (h : DataFrameHeader) (p : DataPayload) (n : Nat) : Prop :=
  dataHeaderSize + payloadLen h p ≤ n ∧
    ∀ points, p = .points points → ∀ i (hi : i < points.length),
      dataHeaderSize + i * h.dataType.pointSize + points[i].dataType.pointSize ≤ n

theorem gated_header_write (h : DataFrameHeader) (payloadLen : Nat) :
    Edit.Gated (h.write payloadLen) (fun n => dataHeaderSize + payloadLen ≤ n) where
  sound buf out ok := by
    by_cases short : buf.length < dataHeaderSize + payloadLen
    · rw [header_write_short short] at ok
      cases ok
    · have room := Nat.le_of_not_lt short
      rw [header_write_eq room] at ok
      cases ok
      refine ⟨room, ?_⟩
      rw [dataHeaderSize] at room
      rw [List.length_append, length_toLe, width_rawHeader, List.length_drop]
      omega
  complete buf room := ⟨_, header_write_eq room⟩

theorem gated_writePoints (pointSize : Nat) (points : List Point) :
    Edit.Gated (writePoints pointSize points) (fun n => ∀ q ∈ points.zipIdx,
      dataHeaderSize + q.2 * pointSize ≤ n ∧
        q.1.dataType.pointSize ≤ n - (dataHeaderSize + q.2 * pointSize)) :=
  Edit.Gated.forM fun q _ => q.1.gated_write.suffix _

theorem gated_fillCrc (payloadLen : Nat) :
    Edit.Gated (DataFrameHeader.fillCrc payloadLen)
      (fun n => dataHeaderSize + payloadLen ≤ n) := by
  -- the slice is as long as before in either case, so its length decides
  have short (buf : Bytes) (h : buf.length < dataHeaderSize + payloadLen) :
      (DataFrameHeader.fillCrc payloadLen).run buf = (.err .bufferTooSmall, buf) := by
    rw [DataFrameHeader.fillCrc, Edit.bind_run_ok (Edit.len_run buf), if_pos h, Edit.fail_run]
  have room (buf : Bytes) (h : dataHeaderSize + payloadLen ≤ buf.length) :
      ∃ crc : UInt32, (DataFrameHeader.fillCrc payloadLen).run buf =
        (.ok (), buf.take 24 ++ (toLe crc ++ buf.drop 28)) := by
    rw [dataHeaderSize] at h
    refine ⟨crc32 (covered (36 + payloadLen) buf), ?_⟩
    rw [DataFrameHeader.fillCrc, Edit.bind_run_ok (Edit.len_run buf), dataHeaderSize,
      if_neg (by omega)]
    rw [Edit.bind_run_ok ((Edit.read_run _ _).trans (congrArg₂ Prod.mk
      (congrArg (crc32 <$> ·) (slice_ok (by omega) h)) rfl))]
    have cut : buf = buf.take 24 ++ buf.drop 24 := (List.take_append_drop 24 buf).symm
    have place : Edit.Fills (Edit.copyFromSlice 24 28
        (toLe (crc32 (covered (36 + payloadLen) buf))) : Edit LidarError Unit) 24
        (toLe (crc32 (covered (36 + payloadLen) buf))) := Edit.fills_copyFromSlice (by simp)
    have written := place (buf.take 24) (buf.drop 24) (by rw [List.length_take]; omega)
      (by simp; omega)
    rw [← cut, List.drop_drop] at written
    exact written
  refine ⟨?_, ?_⟩
  · intro buf out ok
    by_cases h : buf.length < dataHeaderSize + payloadLen
    · rw [short buf h] at ok
      cases ok
    · obtain ⟨crc, run⟩ := room buf (Nat.le_of_not_lt h)
      rw [run] at ok
      cases ok
      refine ⟨Nat.le_of_not_lt h, ?_⟩
      rw [dataHeaderSize] at h
      simp only [List.length_append, List.length_take, length_toLe, width_u32, List.length_drop]
      omega
  · intro buf h
    obtain ⟨crc, run⟩ := room buf h
    exact ⟨_, run⟩

theorem gated_build (h : DataFrameHeader) (p : DataPayload) :
    Edit.Gated (DataPacket.build h p) (Fits h p) := by
  cases p with
  | imu sample =>
    have gate : Edit.Gated (writePayload h (.imu sample)) (fun n => dataHeaderSize ≤ n ∧
        LeWord.width ImuSample ≤ n - dataHeaderSize) :=
      (gated_write sample).suffix dataHeaderSize
    have whole := (gated_header_write h (payloadLen h (.imu sample))).bind
      (f := fun _ => do
        writePayload h (.imu sample)
        DataFrameHeader.fillCrc (payloadLen h (.imu sample)))
      (gate.bind (gated_fillCrc (payloadLen h (.imu sample))))
    -- the three writers ask for the total, for each point, and for the total again
    refine whole.mono fun n => ?_
    have size : payloadLen h (.imu sample) = LeWord.width ImuSample := rfl
    constructor
    · rintro ⟨room, -⟩
      exact ⟨room, fun points kind => by cases kind⟩
    · rintro ⟨room, -⟩
      exact ⟨room, ⟨by omega, by omega⟩, room⟩
  | points points =>
    have whole := (gated_header_write h (payloadLen h (.points points))).bind
      (f := fun _ => do
        writePayload h (.points points)
        DataFrameHeader.fillCrc (payloadLen h (.points points)))
      ((gated_writePoints h.dataType.pointSize points).bind
        (gated_fillCrc (payloadLen h (.points points))))
    -- a point behind its stride offset may need more than the total announces
    refine whole.mono fun n => ?_
    constructor
    · rintro ⟨room, each, -⟩
      refine ⟨room, ?_⟩
      intro points' kind i hi
      cases kind
      have here := each (points[i], i) (List.mk_mem_zipIdx_iff_getElem?.mpr
        (List.getElem?_eq_getElem hi))
      dsimp only at here
      omega
    · rintro ⟨room, each⟩
      refine ⟨room, ?_, room⟩
      rintro ⟨q, i⟩ member
      obtain ⟨hi, rfl⟩ := List.getElem?_eq_some_iff.mp
        (List.mk_mem_zipIdx_iff_getElem?.mp member)
      have here := each points rfl i hi
      dsimp only
      omega

theorem build_ok_iff {h : DataFrameHeader} {p : DataPayload} {buf : Bytes} :
    (∃ out, (DataPacket.build h p).run buf = (.ok (), out)) ↔ Fits h p buf.length := by
  constructor
  · rintro ⟨out, ok⟩
    exact ((gated_build h p).sound buf out ok).1
  · exact (gated_build h p).complete buf

/-- A successful build is read back as what was built exactly when header and payload agree. -/
theorem build_faithful_iff (profile : Profile) (h : DataFrameHeader) (p : DataPayload)
    (buf : Bytes) :
    (∀ out, (DataPacket.build h p).run buf = (.ok (), out) →
      ∃ length, DataPacket.parse profile (out.take (dataHeaderSize + payloadLen h p)) =
        .ok ⟨{ h with length := length }, p⟩) ↔
      ¬ Fits h p buf.length ∨ Agree h p := by
  constructor
  · intro faithful
    by_cases fits : Fits h p buf.length
    · right
      obtain ⟨out, built⟩ := build_ok_iff.mpr fits
      obtain ⟨length, parsed⟩ := faithful out built
      -- what is read back is an accepted packet, so its header describes its payload
      obtain ⟨describes, sized, -⟩ := packet_parse_eq_ok_iff.mp parsed
      have describes : Describes h p := by cases p <;> exact describes
      have sized : length.toNat = dataHeaderSize + (payloadBytes p).length := sized
      have bound : length.toNat < 65536 := length.toNat_lt
      refine ⟨describes, ?_⟩
      rw [payloadLen_eq describes]
      omega
    · exact .inl fits
  · rintro (unfit | agree) out built
    · exact absurd (build_ok_iff.mp ⟨out, built⟩) unfit
    · obtain ⟨out', length, built', -, -, -, parsed⟩ :=
        build_parse_roundtrip profile agree (build_ok_iff.mp ⟨out, built⟩).1
      cases built.symm.trans built'
      exact ⟨length, parsed⟩

theorem build_spherical_as_cartesian32 :
    ∃ out,
      (DataPacket.build cartesianHeader (.points [.spherical ⟨1000, 9000, 4500, 7, ⟨0⟩⟩])).run
        (List.replicate 50 0) = (.ok (), out) ∧
      ¬ ∃ length, DataPacket.parse .release (out.take 50) =
        .ok ⟨{ cartesianHeader with length := length },
          .points [.spherical ⟨1000, 9000, 4500, 7, ⟨0⟩⟩]⟩ := by
  refine ⟨_, show _ = (Outcome.ok (), ((DataPacket.build cartesianHeader
    (.points [.spherical ⟨1000, 9000, 4500, 7, ⟨0⟩⟩])).run (List.replicate 50 0)).2) by
      decide +kernel, ?_⟩
  have parsed : DataPacket.parse .release (((DataPacket.build cartesianHeader
      (.points [.spherical ⟨1000, 9000, 4500, 7, ⟨0⟩⟩])).run (List.replicate 50 0)).2.take 50) =
      .ok ⟨{ cartesianHeader with length := 50 },
        .points [.cartesian32 ⟨1000, 294921000, 7, 0, ⟨0⟩⟩]⟩ := by
    decide +kernel
  rintro ⟨length, same⟩
  rw [parsed] at same
  cases congrArg (fun r : Result DataPacket => match r with
    | .ok packet => some packet.payload
    | _ => none) same

theorem rebuild_of_parse {profile : Profile} {buf : Bytes} {packet : DataPacket}
    (ok : DataPacket.parse profile buf = .ok packet) {dst : Bytes}
    (size : dst.length = declaredLength buf) :
    ∃ out, (DataPacket.build packet.header packet.payload).run dst = (.ok (), out) ∧
      EqOutside 12 28 out (buf.take (declaredLength buf)) := by
  obtain ⟨describes, sized, reserved, crc, tail, -, rfl⟩ := packet_parse_eq_ok_iff.mp ok
  rw [(declaredLength_encoding packet reserved crc tail).1] at size ⊢
  rw [take_encoding sized]
  obtain ⟨h, p⟩ := packet
  have payload : payloadLen h p = (payloadBytes p).length := payloadLen_eq describes
  have total : h.length.toNat = dataHeaderSize + payloadLen h p := by
    rw [payload]
    exact sized
  have length : UInt16.ofNat (dataHeaderSize + payloadLen h p) = h.length := by
    rw [← total, UInt16.ofNat_toNat]
  -- reserved bytes and checksum are written anew, everything else as it was read
  have built := build_eq (describes_same describes) payload (le_of_eq (total.symm.trans size.symm))
  rw [length, ← total, ← size, List.drop_length, List.append_nil] at built
  refine ⟨_, built, ?_⟩
  rw [encoding_eq, encoding_eq]
  exact eqOutside_middle (length_lead _) (by simp) (by simp)

/-- The parser accepts exactly the packet format; its result depends on the declared bytes
outside 12 to 28 only, decodes them window by window, and builds back to them. -/
theorem packet_parse_iff_format (profile : Profile) (buf : Bytes) :
    ((∃ packet, DataPacket.parse profile buf = .ok packet) ↔ Accepted buf) ∧
    ∀ packet, DataPacket.parse profile buf = .ok packet →
      (∀ buf' packet', DataPacket.parse profile buf' = .ok packet' →
        EqOutside 12 28 (buf.take (declaredLength buf)) (buf'.take (declaredLength buf)) →
        packet' = packet) ∧
      DecodesWindows packet buf ∧
      ∀ dst : Bytes, dst.length = declaredLength buf →
        ∃ out, (DataPacket.build packet.header packet.payload).run dst = (.ok (), out) ∧
          EqOutside 12 28 out (buf.take (declaredLength buf)) := by
  refine ⟨packet_parse_iff_accepted, fun packet ok => ⟨?_, ?_, ?_⟩⟩
  · intro buf' packet' ok' same
    exact parse_unique ok ok' same
  · exact decodesWindows_of_parse ok
  · intro dst size
    exact rebuild_of_parse ok size

end LivoxMid360.Data.PacketBuild
