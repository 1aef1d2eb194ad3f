/- digest: The data-packet format: what the parser accepts, and where it panics. -/

import LivoxMid360.Data.Packet

set_option autoImplicit false
set_option relaxedAutoImplicit false

namespace LivoxMid360.Data.PacketFormat

open Foundation.RustOutcome
open Foundation.LittleEndian
open Foundation.ByteBuffer
open Protocol.Vocabulary Protocol.Crc
open Points Packet
open DataPacket (parsePoints parsePayload payloadLen)

def payloadBytes : DataPayload → Bytes
  | .imu sample => toLe sample
  | .points points => points.flatMap Point.bytes

def rawOf (h : DataFrameHeader) (reserved : Vector UInt8 12) (crc : UInt32) : RawHeader :=
  ⟨h.version, h.length, h.timeInterval, h.dotNum, h.udpCnt, h.frameCnt, h.dataType.toByte,
    h.timeType.toByte, reserved, crc, h.timestamp⟩

def encoding (packet : DataPacket) (reserved : Vector UInt8 12) (crc : UInt32) : Bytes :=
  toLe (rawOf packet.header reserved crc) ++ payloadBytes packet.payload

def coveredBytes (packet : DataPacket) : Bytes :=
  toLe packet.header.timestamp ++ payloadBytes packet.payload

/-- The header describes the payload: its kind, its format and its number of points. -/
def Describes (h : DataFrameHeader) : DataPayload → Prop
  | .imu _ => h.dataType = .imu
  | .points points => h.dataType ≠ .imu ∧ (∀ p ∈ points, p.dataType = h.dataType) ∧
      points.length = h.dotNum.toNat

def SizeMatches (packet : DataPacket) : Prop :=
  packet.header.length.toNat = dataHeaderSize + (payloadBytes packet.payload).length

def lead (h : DataFrameHeader) : Bytes :=
  toLe h.version ++ (toLe h.length ++ (toLe h.timeInterval ++ (toLe h.dotNum ++ (toLe h.udpCnt ++
    (toLe h.frameCnt ++ (toLe h.dataType.toByte ++ toLe h.timeType.toByte))))))

theorem length_lead (h : DataFrameHeader) : (lead h).length = 12 := by
  simp [lead]

theorem toLe_rawOf (h : DataFrameHeader) (reserved : Vector UInt8 12) (crc : UInt32) :
    toLe (rawOf h reserved crc) =
      lead h ++ ((toLe reserved ++ toLe crc) ++ toLe h.timestamp) := by
  simp only [lead, List.append_assoc]
  rfl

theorem encoding_eq (packet : DataPacket) (reserved : Vector UInt8 12) (crc : UInt32) :
    encoding packet reserved crc =
      lead packet.header ++ ((toLe reserved ++ toLe crc) ++ coveredBytes packet) := by
  simp only [encoding, toLe_rawOf, coveredBytes, List.append_assoc]

theorem length_encoding (packet : DataPacket) (reserved : Vector UInt8 12) (crc : UInt32) :
    (encoding packet reserved crc).length = 36 + (payloadBytes packet.payload).length := by
  rw [encoding, List.length_append, length_toLe, width_rawHeader]

theorem covered_encoding {packet : DataPacket} (sized : SizeMatches packet)
    (reserved : Vector UInt8 12) (crc : UInt32) (tail : Bytes) :
    covered packet.header.length.toNat (encoding packet reserved crc ++ tail) =
      coveredBytes packet := by
  have front : (lead packet.header ++ (toLe reserved ++ toLe crc)).length = 28 := by
    simp [length_lead]
  have size : (coveredBytes packet).length = packet.header.length.toNat - 28 := by
    rw [sized, dataHeaderSize, coveredBytes, List.length_append, length_toLe, width_u64]
    omega
  rw [covered, encoding_eq, ← List.append_assoc, List.append_assoc _ _ tail,
    List.drop_left' front, ← size, List.take_left]

theorem length_points {dataType : DataType} {points : List Point}
    (same : ∀ p ∈ points, p.dataType = dataType) :
    (points.flatMap Point.bytes).length = dataType.pointSize * points.length := by
  induction points with
  | nil => rfl
  | cons p points ih =>
    have head := p.length_bytes
    rw [same p List.mem_cons_self] at head
    rw [List.flatMap_cons, List.length_append, head,
      ih fun q hq => same q (List.mem_cons_of_mem p hq), List.length_cons, Nat.mul_succ,
      Nat.add_comm]

theorem length_payloadBytes {h : DataFrameHeader} {p : DataPayload} (describes : Describes h p) :
    (payloadBytes p).length = payloadSize h.dataType h.dotNum.toNat := by
  cases p with
  | imu sample =>
    have kind : h.dataType = .imu := describes
    rw [payloadSize, if_pos kind]
    exact length_toLe sample
  | points points =>
    obtain ⟨kind, same, count⟩ := describes
    rw [payloadSize, if_neg kind, ← count]
    exact length_points same

theorem payloadLen_eq {h : DataFrameHeader} {p : DataPayload} (describes : Describes h p) :
    payloadLen h p = (payloadBytes p).length := by
  cases p with
  | imu sample => exact (length_toLe sample).symm
  | points points => exact (length_points describes.2.1).symm

theorem header_parse_of_raw (profile : Profile) {buf : Bytes} {h : DataFrameHeader}
    {reserved : Vector UInt8 12} {crc : UInt32} (whole : dataHeaderSize ≤ buf.length)
    (high : h.length.toNat ≤ buf.length)
    (sized : h.length.toNat = dataHeaderSize + payloadSize h.dataType h.dotNum.toNat)
    (hr : field RawHeader 0 buf = rawOf h reserved crc) :
    DataFrameHeader.parse profile buf =
      if crc = 0 ∨ crc = crc32 (covered h.length.toNat buf) then .ok h else .err .crcMismatch := by
  have bound : ¬ buf.length < (rawOf h reserved crc).length.toNat := Nat.not_lt.mpr high
  have code : DataType.tryFrom (rawOf h reserved crc).dataType = .ok h.dataType :=
    ByteCode.tryFrom_toByte h.dataType
  have payload : (usizeSub profile (rawOf h reserved crc).length.toNat dataHeaderSize :
      Result Nat) = .ok (payloadSize h.dataType h.dotNum.toNat) := by
    show usizeSub profile h.length.toNat dataHeaderSize = _
    rw [usizeSub_of_le profile (by omega), sized, Nat.add_sub_cancel_left]
  have clock : TimestampType.tryFrom (rawOf h reserved crc).timeType = .ok h.timeType :=
    ByteCode.tryFrom_toByte h.timeType
  have exactly : ¬ payloadSize h.dataType h.dotNum.toNat ≠
      payloadSize h.dataType (rawOf h reserved crc).dotNum.toNat := fun differ => differ rfl
  rw [DataFrameHeader.parse_eq profile whole hr, if_neg bound, code, Outcome.ok_bind, payload,
    Outcome.ok_bind, if_neg exactly, clock, Outcome.ok_bind]
  rfl

theorem header_parse_eq_ok_iff {profile : Profile} {buf : Bytes} {h : DataFrameHeader} :
    DataFrameHeader.parse profile buf = .ok h ↔
      dataHeaderSize ≤ buf.length ∧ h.length.toNat ≤ buf.length ∧
      h.length.toNat = dataHeaderSize + payloadSize h.dataType h.dotNum.toNat ∧
      ∃ reserved crc, field RawHeader 0 buf = rawOf h reserved crc ∧
        (crc = 0 ∨ crc = crc32 (covered h.length.toNat buf)) := by
  by_cases short : buf.length < dataHeaderSize
  · rw [DataFrameHeader.parse_short profile short]
    refine iff_of_false (fun ok => ?_) (fun ok => ?_)
    · cases ok
    · have := ok.1
      omega
  constructor
  · intro ok
    obtain ⟨r, hr⟩ : ∃ r, field RawHeader 0 buf = r := ⟨_, rfl⟩
    rw [DataFrameHeader.parse_eq profile (Nat.le_of_not_lt short) hr] at ok
    by_cases hbound : buf.length < r.length.toNat
    · rw [if_pos hbound] at ok
      cases ok
    rw [if_neg hbound] at ok
    obtain ⟨dataType, hdataType, ok⟩ := Outcome.bind_eq_ok.mp ok
    obtain ⟨n, hn, ok⟩ := Outcome.bind_eq_ok.mp ok
    by_cases mismatch : n ≠ payloadSize dataType r.dotNum.toNat
    · rw [if_pos mismatch] at ok
      cases ok
    rw [if_neg mismatch] at ok
    obtain ⟨timeType, htimeType, ok⟩ := Outcome.bind_eq_ok.mp ok
    by_cases valid : r.crc = 0 ∨ r.crc = crc32 (covered r.length.toNat buf)
    · rw [if_pos valid] at ok
      cases ok
      have sized := length_of_payloadLen hn (not_not.mp mismatch)
      refine ⟨Nat.le_of_not_lt short, Nat.le_of_not_lt hbound, sized, r.reserved, r.crc, ?_, valid⟩
      -- the decoders invert the discriminants, so the raw bytes are those of the result
      · have code : dataType.toByte = r.dataType := (tryFrom_eq_ok_iff (K := DataType)).mp hdataType
        have clock : timeType.toByte = r.timeType :=
          (tryFrom_eq_ok_iff (K := TimestampType)).mp htimeType
        rw [hr, rawOf, RawHeader.interpret, code, clock]
    · rw [if_neg valid] at ok
      cases ok
  · rintro ⟨whole, high, sized, reserved, crc, hr, valid⟩
    rw [header_parse_of_raw profile whole high sized hr]
    exact if_pos valid

private theorem first_block {buf : Bytes} {n start width : Nat}
    (room : dataHeaderSize + (start + (n + 1)) * width ≤ buf.length) :
    (slice buf (dataHeaderSize + start * width) (dataHeaderSize + start * width + width) :
        Result Bytes) = .ok ((buf.drop (dataHeaderSize + start * width)).take width) ∧
      ((buf.drop (dataHeaderSize + start * width)).take width).length = width ∧
      (buf.drop (dataHeaderSize + start * width)).take ((n + 1) * width) =
        (buf.drop (dataHeaderSize + start * width)).take width ++
          (buf.drop (dataHeaderSize + (start + 1) * width)).take (n * width) := by
  have grow : (start + (n + 1)) * width = start * width + width + n * width := by ring
  refine ⟨?_, ?_, ?_⟩
  · rw [slice_ok (by omega) (by omega), Nat.add_sub_cancel_left]
  · rw [List.length_take, List.length_drop]
    omega
  · rw [Nat.succ_mul, Nat.add_comm (n * _), List.take_add, List.drop_drop, Nat.succ_mul,
      Nat.add_assoc]

private theorem loop_eq_ok_iff {dataType : DataType} {buf : Bytes} (n start : Nat)
    (room : dataHeaderSize + (start + n) * dataType.pointSize ≤ buf.length)
    (points : List Point) :
    ((List.range' start n).mapM fun i => do
      let off := dataHeaderSize + i * dataType.pointSize
      Point.parse dataType (← slice buf off (off + dataType.pointSize))) = .ok points ↔
      points.length = n ∧ (∀ p ∈ points, p.dataType = dataType) ∧
        points.flatMap Point.bytes =
          (buf.drop (dataHeaderSize + start * dataType.pointSize)).take
            (n * dataType.pointSize) := by
  -- on the points left to read, from any start
  induction n generalizing start points with
  | zero =>
    rw [List.range'_zero, List.mapM_nil, Outcome.pure_eq_ok, Nat.zero_mul, List.take_zero]
    constructor
    · intro h
      cases h
      exact ⟨rfl, fun p hp => absurd hp List.not_mem_nil, rfl⟩
    · rintro ⟨empty, -⟩
      rw [List.length_eq_zero_iff.mp empty]
  | succ n ih =>
    have next : start + 1 + n = start + (n + 1) := by omega
    have tail := ih (start + 1) (by rwa [next])
    obtain ⟨here, size, cut⟩ := first_block room
    rw [List.range'_succ, List.mapM_cons, cut]
    dsimp only
    rw [here, Outcome.ok_bind]
    constructor
    · intro h
      obtain ⟨p, hp, h⟩ := Outcome.bind_eq_ok.mp h
      obtain ⟨rest, hrest, h⟩ := Outcome.bind_eq_ok.mp h
      cases h
      obtain ⟨kind, bytes⟩ := (Point.parse_eq_ok_iff size p).mp hp
      obtain ⟨count, same, restBytes⟩ := (tail rest).mp hrest
      refine ⟨by rw [List.length_cons, count], ?_, ?_⟩
      · exact List.forall_mem_cons.mpr ⟨kind, same⟩
      · rw [List.flatMap_cons, bytes, restBytes]
    · rintro ⟨count, same, bytes⟩
      cases points with
      | nil => cases count
      | cons p rest =>
        obtain ⟨kind, restKind⟩ := List.forall_mem_cons.mp same
        have width := p.length_bytes
        rw [kind] at width
        rw [List.flatMap_cons] at bytes
        obtain ⟨first, later⟩ := List.append_inj bytes (width.trans size.symm)
        rw [(Point.parse_eq_ok_iff size p).mpr ⟨kind, first⟩, Outcome.ok_bind,
          (tail rest).mpr ⟨Nat.succ.inj count, restKind, later⟩]
        rfl

theorem parsePoints_eq_ok_iff {dataType : DataType} {n : Nat} {buf : Bytes}
    (room : dataHeaderSize + n * dataType.pointSize ≤ buf.length) (points : List Point) :
    parsePoints dataType n buf = .ok points ↔
      points.length = n ∧ (∀ p ∈ points, p.dataType = dataType) ∧
        points.flatMap Point.bytes =
          (buf.drop dataHeaderSize).take (n * dataType.pointSize) := by
  have loop := @loop_eq_ok_iff dataType buf n 0 (by rwa [Nat.zero_add]) points
  rw [Nat.zero_mul, Nat.add_zero] at loop
  rw [parsePoints, List.range_eq_range']
  exact loop

theorem parsePoints_total {dataType : DataType} (kind : dataType ≠ .imu) {n : Nat} {buf : Bytes}
    (room : dataHeaderSize + n * dataType.pointSize ≤ buf.length) :
    ∃ points, parsePoints dataType n buf = .ok points := by
  refine Outcome.mapM_total fun i hi => ?_
  have within : (i + 1) * dataType.pointSize ≤ n * dataType.pointSize :=
    Nat.mul_le_mul_right _ (List.mem_range.mp hi)
  rw [Nat.succ_mul] at within
  dsimp only
  rw [slice_ok (by omega) (by omega), Outcome.ok_bind]
  apply Point.parse_ok kind
  rw [List.length_take, List.length_drop]
  omega

theorem parsePayload_imu {h : DataFrameHeader} (kind : h.dataType = .imu) (buf : Bytes) :
    parsePayload h buf = (do
      let sample ← ImuSample.parse (← sliceFrom buf dataHeaderSize)
      return .imu sample) := by
  rw [parsePayload, kind]

theorem parsePayload_points {h : DataFrameHeader} (kind : h.dataType ≠ .imu) (buf : Bytes) :
    parsePayload h buf = (do
      let points ← parsePoints h.dataType h.dotNum.toNat buf
      return .points points) := by
  rw [parsePayload]
  split
  · exact absurd ‹_› kind
  · rfl

private theorem imu_room {buf : Bytes} (room : dataHeaderSize + ImuSample.size ≤ buf.length) :
    (do ImuSample.parse (← sliceFrom buf dataHeaderSize) : Result ImuSample) =
      .ok (field ImuSample dataHeaderSize buf) := by
  have rest : ImuSample.size ≤ (buf.drop dataHeaderSize).length := by
    rw [List.length_drop]
    omega
  rw [sliceFrom_ok (by omega), Outcome.ok_bind]
  apply (Sample.parse_ok (α := ImuSample) _ rest).trans
  rw [field, List.drop_zero, field]

theorem parsePayload_eq_ok_iff {h : DataFrameHeader} {buf : Bytes}
    (room : dataHeaderSize + payloadSize h.dataType h.dotNum.toNat ≤ buf.length)
    (p : DataPayload) :
    parsePayload h buf = .ok p ↔ Describes h p ∧
      payloadBytes p =
        (buf.drop dataHeaderSize).take (payloadSize h.dataType h.dotNum.toNat) := by
  -- one sample behind the header, or the loop over the points
  by_cases kind : h.dataType = .imu
  · rw [payloadSize, if_pos kind] at room ⊢
    have sample := imu_room room
    have back : toLe (field ImuSample dataHeaderSize buf) =
        (buf.drop dataHeaderSize).take ImuSample.size := toLe_field room
    rw [parsePayload_imu kind]
    constructor
    · intro ok
      obtain ⟨rest, hrest, ok⟩ := Outcome.bind_eq_ok.mp ok
      rw [hrest, Outcome.ok_bind] at sample
      obtain ⟨s, hs, ok⟩ := Outcome.bind_eq_ok.mp ok
      cases ok
      cases hs.symm.trans sample
      exact ⟨kind, back⟩
    · rintro ⟨describes, bytes⟩
      cases p with
      | points points => exact absurd kind describes.1
      | imu s =>
        have same : s = field ImuSample dataHeaderSize buf := by
          have whole := congrArg (field ImuSample 0) (bytes.trans back.symm)
          have left := field_toLe_append s []
          have right := field_toLe_append (field ImuSample dataHeaderSize buf) []
          rw [List.append_nil] at left right
          exact left.symm.trans (whole.trans right)
        rw [sliceFrom_ok (by omega), Outcome.ok_bind] at sample ⊢
        rw [sample, Outcome.ok_bind, same]
        rfl
  · rw [payloadSize, if_neg kind, Nat.mul_comm] at room ⊢
    have loop := parsePoints_eq_ok_iff room
    rw [parsePayload_points kind]
    constructor
    · intro ok
      obtain ⟨points, hpoints, ok⟩ := Outcome.bind_eq_ok.mp ok
      cases ok
      obtain ⟨count, same, bytes⟩ := (loop points).mp hpoints
      exact ⟨⟨kind, same, count⟩, bytes⟩
    · rintro ⟨describes, bytes⟩
      cases p with
      | imu s => exact absurd describes kind
      | points points =>
        rw [(loop points).mpr ⟨describes.2.2, describes.2.1, bytes⟩]
        rfl

/-- The packet parser accepts exactly the encodings of its results, followed by anything. -/
theorem packet_parse_eq_ok_iff {profile : Profile} {buf : Bytes} {packet : DataPacket} :
    DataPacket.parse profile buf = .ok packet ↔
      Describes packet.header packet.payload ∧ SizeMatches packet ∧
      ∃ reserved crc tail, (crc = 0 ∨ crc = crc32 (coveredBytes packet)) ∧
        buf = encoding packet reserved crc ++ tail := by
  obtain ⟨h, p⟩ := packet
  constructor
  · intro ok
    rw [DataPacket.parse] at ok
    obtain ⟨h', hh, ok⟩ := Outcome.bind_eq_ok.mp ok
    obtain ⟨p', hp, ok⟩ := Outcome.bind_eq_ok.mp ok
    cases ok
    obtain ⟨whole, high, sized, reserved, crc, hr, valid⟩ := header_parse_eq_ok_iff.mp hh
    obtain ⟨describes, bytes⟩ := (parsePayload_eq_ok_iff (by omega) p).mp hp
    have size : SizeMatches ⟨h, p⟩ := by
      rw [SizeMatches, length_payloadBytes describes]
      exact sized
    -- header and payload are next to each other, and the rest was not read
    have layout : buf = encoding ⟨h, p⟩ reserved crc ++ buf.drop h.length.toNat := by
      have split : toLe (field RawHeader 0 buf) ++ buf.drop (0 + LeWord.width RawHeader) =
          buf.drop 0 := toLe_field_append_drop (by rwa [Nat.zero_add])
      rw [hr, Nat.zero_add, List.drop_zero, width_rawHeader] at split
      have tail : payloadBytes p ++ buf.drop h.length.toNat = buf.drop 36 := by
        rw [bytes, sized, dataHeaderSize, ← List.drop_drop, List.take_append_drop]
      rw [encoding, List.append_assoc, tail, split]
    refine ⟨describes, size, reserved, crc, _, ?_, layout⟩
    rw [layout] at valid
    rwa [covered_encoding size] at valid
  · rintro ⟨describes, size, reserved, crc, tail, valid, rfl⟩
    have total : (encoding ⟨h, p⟩ reserved crc ++ tail).length =
        36 + (payloadBytes p).length + tail.length := by
      rw [List.length_append, length_encoding]
    have payload : (payloadBytes p).length = payloadSize h.dataType h.dotNum.toNat :=
      length_payloadBytes describes
    have front : (toLe (rawOf h reserved crc)).length = 36 := length_toLe _
    have sized : h.length.toNat = 36 + (payloadBytes p).length := size
    -- an encoding is read back, header first, whatever follows
    have raw : field RawHeader 0 (encoding ⟨h, p⟩ reserved crc ++ tail) = rawOf h reserved crc := by
      rw [encoding, List.append_assoc, field_toLe_append]
    have header : DataFrameHeader.parse profile (encoding ⟨h, p⟩ reserved crc ++ tail) = .ok h := by
      refine header_parse_eq_ok_iff.mpr ⟨?_, by omega, ?_, reserved, crc, raw, ?_⟩
      · rw [dataHeaderSize]
        omega
      · rw [← payload]
        exact sized
      · rwa [covered_encoding size]
    have rest : (encoding ⟨h, p⟩ reserved crc ++ tail).drop 36 = payloadBytes p ++ tail := by
      rw [encoding, List.append_assoc, List.drop_left' front]
    have body : parsePayload h (encoding ⟨h, p⟩ reserved crc ++ tail) = .ok p := by
      refine (parsePayload_eq_ok_iff (by rw [dataHeaderSize]; omega) p).mpr ⟨describes, ?_⟩
      rw [dataHeaderSize, rest, ← payload, List.take_left]
    rw [DataPacket.parse, header, Outcome.ok_bind, body]
    rfl

def declaredPayload (code : UInt8) (dotNum : Nat) : Nat :=
  match code with
  | 0 => 24
  | 1 => 14 * dotNum
  | 2 => 8 * dotNum
  | _ => 10 * dotNum

def declaredLength (buf : Bytes) : Nat := (field UInt16 1 buf).toNat

/-- The data-packet format, on bytes. -/
def Accepted (buf : Bytes) : Prop :=
  36 ≤ buf.length ∧ declaredLength buf ≤ buf.length ∧
    (field UInt8 10 buf).toNat ≤ 3 ∧ (field UInt8 11 buf).toNat ≤ 2 ∧
    declaredLength buf =
      36 + declaredPayload (field UInt8 10 buf) (field UInt16 5 buf).toNat ∧
    (field UInt32 24 buf = 0 ∨ field UInt32 24 buf = crc32 (covered (declaredLength buf) buf))

theorem declaredPayload_toByte (dataType : DataType) (dotNum : Nat) :
    declaredPayload dataType.toByte dotNum = payloadSize dataType dotNum := by
  cases dataType <;> rfl

theorem dataType_code_iff {b : UInt8} : b.toNat ≤ 3 ↔ ∃ t : DataType, t.toByte = b := by
  constructor
  · intro h
    have cases4 : b.toNat = 0 ∨ b.toNat = 1 ∨ b.toNat = 2 ∨ b.toNat = 3 := by omega
    rcases cases4 with h | h | h | h
    · exact ⟨.imu, UInt8.toNat_inj.mp h.symm⟩
    · exact ⟨.pointCloudCartesian32, UInt8.toNat_inj.mp h.symm⟩
    · exact ⟨.pointCloudCartesian16, UInt8.toNat_inj.mp h.symm⟩
    · exact ⟨.pointCloudSpherical, UInt8.toNat_inj.mp h.symm⟩
  · rintro ⟨t, rfl⟩
    cases t <;> decide

theorem timeType_code_iff {b : UInt8} : b.toNat ≤ 2 ↔ ∃ t : TimestampType, t.toByte = b := by
  constructor
  · intro h
    have cases3 : b.toNat = 0 ∨ b.toNat = 1 ∨ b.toNat = 2 := by omega
    rcases cases3 with h | h | h
    · exact ⟨.none, UInt8.toNat_inj.mp h.symm⟩
    · exact ⟨.ptp, UInt8.toNat_inj.mp h.symm⟩
    · exact ⟨.gps, UInt8.toNat_inj.mp h.symm⟩
  · rintro ⟨t, rfl⟩
    cases t <;> decide

theorem fields_of_header {buf : Bytes} {h : DataFrameHeader} {reserved : Vector UInt8 12}
    {crc : UInt32} (hr : field RawHeader 0 buf = rawOf h reserved crc) :
    field UInt16 1 buf = h.length ∧ field UInt16 5 buf = h.dotNum ∧
      field UInt8 10 buf = h.dataType.toByte ∧ field UInt8 11 buf = h.timeType.toByte ∧
      field UInt32 24 buf = crc := by
  rw [field_rawHeader] at hr
  refine ⟨congrArg RawHeader.length hr, congrArg RawHeader.dotNum hr,
    congrArg RawHeader.dataType hr, congrArg RawHeader.timeType hr, congrArg RawHeader.crc hr⟩

theorem header_parse_iff_accepted {profile : Profile} {buf : Bytes} :
    (∃ h, DataFrameHeader.parse profile buf = .ok h) ↔ Accepted buf := by
  constructor
  · rintro ⟨h, ok⟩
    obtain ⟨whole, high, sized, reserved, crc, hr, valid⟩ := header_parse_eq_ok_iff.mp ok
    obtain ⟨hlength, hdotNum, hcode, hclock, hcrc⟩ := fields_of_header hr
    rw [Accepted, declaredLength, hlength, hdotNum, hcode, hclock, hcrc, declaredPayload_toByte]
    exact ⟨whole, high, dataType_code_iff.mpr ⟨_, rfl⟩, timeType_code_iff.mpr ⟨_, rfl⟩, sized,
      valid⟩
  · rintro ⟨whole, high, code, clock, sized, valid⟩
    obtain ⟨dataType, hcode⟩ := dataType_code_iff.mp code
    obtain ⟨timeType, hclock⟩ := timeType_code_iff.mp clock
    rw [← hcode, declaredPayload_toByte] at sized
    refine ⟨(field RawHeader 0 buf).interpret dataType timeType, ?_⟩
    -- the types of the two bytes are known, so the fields make a header
    have raw : field RawHeader 0 buf =
        rawOf ((field RawHeader 0 buf).interpret dataType timeType)
          (field (Vector UInt8 12) 12 buf) (field UInt32 24 buf) := by
      rw [field_rawHeader, rawOf, RawHeader.interpret]
      dsimp only
      rw [hcode, hclock]
    have hlength := (fields_of_header raw).1
    have hdotNum := (fields_of_header raw).2.1
    refine header_parse_eq_ok_iff.mpr ⟨whole, ?_, ?_, _, _, raw, ?_⟩
    · rw [← hlength]
      exact high
    · rw [← hlength, ← hdotNum]
      exact sized
    · rw [← hlength]
      exact valid

theorem parsePayload_total {h : DataFrameHeader} {buf : Bytes}
    (room : dataHeaderSize + payloadSize h.dataType h.dotNum.toNat ≤ buf.length) :
    ∃ p, parsePayload h buf = .ok p := by
  by_cases kind : h.dataType = .imu
  · rw [payloadSize, if_pos kind] at room
    refine ⟨.imu (field ImuSample dataHeaderSize buf), ?_⟩
    refine (parsePayload_eq_ok_iff (by rwa [payloadSize, if_pos kind]) _).mpr ⟨kind, ?_⟩
    rw [payloadSize, if_pos kind]
    exact toLe_field room
  · rw [payloadSize, if_neg kind, Nat.mul_comm] at room
    obtain ⟨points, ok⟩ := parsePoints_total kind room
    exact ⟨.points points, by rw [parsePayload_points kind, ok]; rfl⟩

theorem payload_of_header {profile : Profile} {buf : Bytes} {h : DataFrameHeader}
    (ok : DataFrameHeader.parse profile buf = .ok h) : ∃ p, parsePayload h buf = .ok p := by
  obtain ⟨-, high, sized, -⟩ := header_parse_eq_ok_iff.mp ok
  exact parsePayload_total (by omega)

theorem packet_parse_iff_accepted {profile : Profile} {buf : Bytes} :
    (∃ packet, DataPacket.parse profile buf = .ok packet) ↔ Accepted buf := by
  rw [← @header_parse_iff_accepted profile]
  constructor
  · rintro ⟨packet, ok⟩
    obtain ⟨h, hh, -⟩ := Outcome.bind_eq_ok.mp ok
    exact ⟨h, hh⟩
  · rintro ⟨h, hh⟩
    obtain ⟨p, hp⟩ := payload_of_header hh
    exact ⟨⟨h, p⟩, by rw [DataPacket.parse, hh, Outcome.ok_bind, hp]; rfl⟩

/-- Every sample of the payload is the decoding of its own window of the buffer. -/
def DecodesWindows (packet : DataPacket) (buf : Bytes) : Prop :=
  match packet.payload with
  | .imu sample => ImuSample.parse ((buf.drop 36).take 24) = .ok sample
  | .points points => points.length = packet.header.dotNum.toNat ∧
      ∀ i (hi : i < points.length), Point.parse packet.header.dataType
        ((buf.drop (36 + i * packet.header.dataType.pointSize)).take
          packet.header.dataType.pointSize) = .ok points[i]

theorem decodesWindows_of_parse {profile : Profile} {buf : Bytes} {packet : DataPacket}
    (ok : DataPacket.parse profile buf = .ok packet) : DecodesWindows packet buf := by
  obtain ⟨h, hh, ok⟩ := Outcome.bind_eq_ok.mp ok
  obtain ⟨p, hp, ok⟩ := Outcome.bind_eq_ok.mp ok
  cases ok
  obtain ⟨-, high, sized, -⟩ := header_parse_eq_ok_iff.mp hh
  have payload := (parsePayload_eq_ok_iff (by omega) p).mp hp
  cases p with
  | imu sample =>
    obtain ⟨kind, bytes⟩ := payload
    have kind : h.dataType = .imu := kind
    rw [payloadSize, if_pos kind] at bytes
    show ImuSample.parse ((buf.drop 36).take 24) = .ok sample
    have window : (buf.drop 36).take 24 = toLe sample := bytes.symm
    rw [window]
    apply (Sample.parse_ok (α := ImuSample) _ (le_of_eq (length_toLe sample).symm)).trans
    have same := field_toLe_append sample []
    rw [List.append_nil] at same
    rw [same]
  | points points =>
    obtain ⟨⟨kind, -, count⟩, -⟩ := payload
    rw [parsePayload_points kind] at hp
    obtain ⟨points', loop, hp⟩ := Outcome.bind_eq_ok.mp hp
    cases hp
    refine ⟨count, ?_⟩
    intro i hi
    rw [payloadSize, if_neg kind, ← count, Nat.mul_comm] at sized
    have within : (i + 1) * h.dataType.pointSize ≤ points.length * h.dataType.pointSize :=
      Nat.mul_le_mul_right _ hi
    rw [Nat.succ_mul] at within
    obtain ⟨_, here⟩ := Outcome.mapM_ok_get loop i hi
    dsimp only at here
    rw [List.getElem_range, slice_ok (by omega) (by omega), Outcome.ok_bind,
      Nat.add_sub_cancel_left] at here
    exact here

theorem declaredLength_encoding (packet : DataPacket) (reserved : Vector UInt8 12)
    (crc : UInt32) (tail : Bytes) :
    declaredLength (encoding packet reserved crc ++ tail) = packet.header.length.toNat ∧
      field UInt32 24 (encoding packet reserved crc ++ tail) = crc := by
  have raw : field RawHeader 0 (encoding packet reserved crc ++ tail) =
      rawOf packet.header reserved crc := by
    rw [encoding, List.append_assoc, field_toLe_append]
  obtain ⟨hlength, -, -, -, hcrc⟩ := fields_of_header raw
  exact ⟨congrArg UInt16.toNat hlength, hcrc⟩

theorem take_encoding {packet : DataPacket} (sized : SizeMatches packet)
    (reserved : Vector UInt8 12) (crc : UInt32) (tail : Bytes) :
    (encoding packet reserved crc ++ tail).take packet.header.length.toNat =
      encoding packet reserved crc := by
  rw [List.take_left']
  rw [length_encoding, sized, dataHeaderSize]

theorem encoding_of_eqOutside {packet : DataPacket} {reserved : Vector UInt8 12} {crc : UInt32}
    {bs : Bytes} (same : EqOutside 12 28 (encoding packet reserved crc) bs) :
    ∃ reserved' crc', bs = encoding packet reserved' crc' := by
  obtain ⟨size, front, back⟩ := same
  rw [length_encoding] at size
  -- any sixteen bytes are reserved bytes and a checksum
  have word : toLe (field (Vector UInt8 12 × UInt32) 12 bs) = (bs.drop 12).take 16 :=
    toLe_field (by simp only [width_prod, width_vector, width_u32]; omega)
  refine ⟨(field (Vector UInt8 12 × UInt32) 12 bs).1,
    (field (Vector UInt8 12 × UInt32) 12 bs).2, ?_⟩
  rw [encoding_eq, ← toLe_prod, word]
  rw [encoding_eq, List.take_left' (length_lead _)] at front
  have head : (lead packet.header ++ (toLe reserved ++ toLe crc)).length = 28 := by
    simp [length_lead]
  rw [encoding_eq, ← List.append_assoc, List.drop_left' head] at back
  rw [front, back]
  calc bs = bs.take 12 ++ bs.drop 12 := (List.take_append_drop 12 bs).symm
    _ = bs.take 12 ++ ((bs.drop 12).take 16 ++ (bs.drop 12).drop 16) := by
        rw [List.take_append_drop 16]
    _ = bs.take 12 ++ ((bs.drop 12).take 16 ++ bs.drop 28) := by rw [List.drop_drop]

/-- Two accepted buffers that differ only in bytes 12 to 28 or after the declared length
parse alike. -/
theorem parse_unique {profile : Profile} {buf buf' : Bytes} {packet packet' : DataPacket}
    (ok : DataPacket.parse profile buf = .ok packet)
    (ok' : DataPacket.parse profile buf' = .ok packet')
    (same : EqOutside 12 28 (buf.take (declaredLength buf)) (buf'.take (declaredLength buf))) :
    packet' = packet := by
  obtain ⟨describes, sized, reserved, crc, tail, -, rfl⟩ := packet_parse_eq_ok_iff.mp ok
  rw [(declaredLength_encoding packet reserved crc tail).1, take_encoding sized] at same
  obtain ⟨reserved', crc', front⟩ := encoding_of_eqOutside same
  have layout : buf' = encoding packet reserved' crc' ++ buf'.drop packet.header.length.toNat := by
    rw [← front, List.take_append_drop]
  obtain ⟨hlength, hcrc⟩ := declaredLength_encoding packet reserved' crc'
    (buf'.drop packet.header.length.toNat)
  -- the second buffer passes the checksum test with its own stored word
  have valid := (packet_parse_iff_accepted.mp ⟨packet', ok'⟩).2.2.2.2.2
  rw [layout, hlength, hcrc, covered_encoding sized] at valid
  have parsed : DataPacket.parse profile buf' = .ok packet :=
    packet_parse_eq_ok_iff.mpr ⟨describes, sized, reserved', crc', _, valid, layout⟩
  cases ok'.symm.trans parsed
  rfl

/-- A declared length below the header's own size, under a known data type. -/
def Underflows (buf : Bytes) : Prop :=
  dataHeaderSize ≤ buf.length ∧ declaredLength buf < dataHeaderSize ∧
    (field UInt8 10 buf).toNat ≤ 3

theorem header_parse_returns_iff (profile : Profile) (buf : Bytes) :
    (DataFrameHeader.parse profile buf).Returns ↔
      ¬ (profile.overflowChecks = true ∧ Underflows buf) := by
  by_cases short : buf.length < dataHeaderSize
  · rw [DataFrameHeader.parse_short profile short]
    exact iff_of_true (Outcome.returns_err _) (fun h => by have := h.2.1; omega)
  obtain ⟨r, hr⟩ : ∃ r, field RawHeader 0 buf = r := ⟨_, rfl⟩
  have hlength : field UInt16 1 buf = r.length :=
    congrArg RawHeader.length ((field_rawHeader buf).symm.trans hr)
  have hcode : field UInt8 10 buf = r.dataType :=
    congrArg RawHeader.dataType ((field_rawHeader buf).symm.trans hr)
  rw [DataFrameHeader.parse_eq profile (Nat.le_of_not_lt short) hr, Underflows, declaredLength,
    hlength, hcode]
  by_cases hbound : buf.length < r.length.toNat
  · rw [if_pos hbound]
    exact iff_of_true (Outcome.returns_err _) (fun h => by have := h.2.2.1; omega)
  rw [if_neg hbound]
  -- an unknown type is refused before the subtraction
  rcases ByteCode.tryFrom_cases (K := DataType) r.dataType with ⟨dataType, code⟩ | refused
  · have decoded : DataType.tryFrom r.dataType = .ok dataType :=
      (tryFrom_eq_ok_iff (K := DataType)).mpr code
    rw [decoded, Outcome.ok_bind]
    by_cases low : r.length.toNat < dataHeaderSize
    · cases checks : profile.overflowChecks with
      | true =>
        rw [usizeSub_checked low checks, Outcome.panic_bind]
        exact iff_of_false (Outcome.not_returns_panic _)
          (fun h => h ⟨rfl, Nat.le_of_not_lt short, low, dataType_code_iff.mpr ⟨_, code⟩⟩)
      | false =>
        refine iff_of_true ?_ (fun h => Bool.false_ne_true h.1)
        -- The wrapped difference is not a payload size, so the length check refuses it.
        cases hsub : (usizeSub profile r.length.toNat dataHeaderSize : Result Nat) with
        | err e => exact Outcome.returns_err _
        | panic c =>
          rw [usizeSub, if_neg (by omega), checks] at hsub
          cases hsub
        | ok n =>
          rw [Outcome.ok_bind]
          by_cases mismatch : n ≠ payloadSize dataType r.dotNum.toNat
          · rw [if_pos mismatch]
            exact Outcome.returns_err _
          · have sized := length_of_payloadLen hsub (not_not.mp mismatch)
            rw [dataHeaderSize] at low
            omega
    · refine iff_of_true ?_ (fun h => low h.2.2.1)
      rw [usizeSub_of_le profile (Nat.le_of_not_lt low), Outcome.ok_bind]
      split
      · exact Outcome.returns_err _
      refine Outcome.Returns.bind (tryFrom_returns (K := TimestampType) _) fun timeType _ => ?_
      split
      · exact Outcome.returns_ok _
      · exact Outcome.returns_err _
  · have unknown : ¬ r.dataType.toNat ≤ 3 := by
      intro known
      obtain ⟨dataType, code⟩ := dataType_code_iff.mp known
      have decoded := (tryFrom_eq_ok_iff (K := DataType)).mpr code
      cases decoded.symm.trans refused
    have refused : DataType.tryFrom r.dataType = .err (.invalidDataType r.dataType) := refused
    rw [refused, Outcome.err_bind]
    exact iff_of_true (Outcome.returns_err _) (fun h => unknown h.2.2.2)

/-- The packet parser panics exactly on underflowing lengths in profiles that check. -/
theorem packet_parse_returns_iff (profile : Profile) (buf : Bytes) :
    (DataPacket.parse profile buf).Returns ↔
      ¬ (profile.overflowChecks = true ∧ Underflows buf) := by
  rw [← header_parse_returns_iff]
  constructor
  · intro returns c hc
    apply returns c
    rw [DataPacket.parse, hc, Outcome.panic_bind]
  · intro returns
    rw [DataPacket.parse]
    refine Outcome.Returns.bind returns fun h hh => ?_
    obtain ⟨p, hp⟩ := payload_of_header hh
    rw [hp]
    exact Outcome.returns_ok _

theorem packet_parse_zeros_panics :
    ¬ (DataPacket.parse .dev (List.replicate 36 0)).Returns := by
  have panics : DataPacket.parse .dev (List.replicate 36 0) = .panic .subtractWithOverflow := by
    decide +kernel
  rw [panics]
  exact Outcome.not_returns_panic _

end LivoxMid360.Data.PacketFormat
