/- digest: The command-frame grammar: what the parser accepts, refuses and cannot survive. -/

import LivoxMid360.Protocol.Command
import LivoxMid360.Protocol.Parameters

set_option autoImplicit false
set_option relaxedAutoImplicit false

namespace LivoxMid360.Protocol.CommandGrammar

open Foundation.RustOutcome
open Foundation.LittleEndian
open Foundation.ByteBuffer
open Vocabulary Crc Command Parameters
open CommandFrame (parse write newReq zeroReserved LengthMatches)

/-- A start of frame, a header checksum that holds, and a declared length below the
header's own size. -/
def Understated (buf : Bytes) : Prop :=
  cmdHeaderSize ≤ buf.length ∧ field UInt8 0 buf = startOfFrame ∧
    (field UInt16 2 buf).toNat < cmdHeaderSize ∧
    field UInt16 18 buf = crc16CcittFalse (buf.take 18)

instance (buf : Bytes) : Decidable (Understated buf) := by
  unfold Understated
  infer_instance

theorem parse_short (profile : Profile) {buf : Bytes} (h : buf.length < cmdHeaderSize) :
    parse profile buf = .err (.packetTooShort cmdHeaderSize buf.length) := by
  rw [parse, if_pos h]

theorem parse_encoding (profile : Profile) {f : CommandFrame} {reserved : Bytes}
    (hres : reserved.length = 6) (hf : f.LengthMatches) (tail : Bytes) :
    parse profile (f.encoding reserved ++ tail) = .ok f := by
  rw [← f.bytes_raw reserved tail hres, CommandFrame.parse_bytes]
  have header : (f.raw reserved tail hres).head = f.head reserved := rfl
  have total : (f.raw reserved tail hres).bytes.length =
      24 + (f.data ++ tail).length := (f.raw reserved tail hres).length_bytes
  have data : (f.raw reserved tail hres).data = f.data := by
    have cut : f.length.toNat - cmdHeaderSize = f.data.length := by
      rw [LengthMatches] at hf
      omega
    show (f.data ++ tail).take (f.length.toNat - cmdHeaderSize) = f.data
    rw [cut, List.take_left]
  rw [header, data, total]
  -- no check of the decision list fails, in the order in which it makes them
  have sof : ¬ (f.raw reserved tail hres).sof ≠ startOfFrame := fun h => h rfl
  have whole : ¬ 24 + (f.data ++ tail).length < (f.raw reserved tail hres).length.toNat := by
    show ¬ 24 + (f.data ++ tail).length < f.length.toNat
    rw [LengthMatches, cmdHeaderSize] at hf
    rw [List.length_append]
    omega
  have headerCrc : ¬ (f.raw reserved tail hres).headerCrc ≠ crc16CcittFalse (f.head reserved) :=
    fun h => h rfl
  have low : ¬ (f.raw reserved tail hres).length.toNat < cmdHeaderSize := by
    show ¬ f.length.toNat < cmdHeaderSize
    rw [LengthMatches] at hf
    omega
  have dataCrc : ¬ (f.raw reserved tail hres).dataCrc ≠ dataChecksum f.data := fun h => h rfl
  rw [if_neg sof, if_neg whole, if_neg headerCrc, if_neg low, if_neg dataCrc]
  have cmdType : CmdType.tryFrom f.cmdType.toByte = .ok f.cmdType :=
    ByteCode.tryFrom_toByte f.cmdType
  have senderType : SenderType.tryFrom f.senderType.toByte = .ok f.senderType :=
    ByteCode.tryFrom_toByte f.senderType
  show (do
    let cmdType ← CmdType.tryFrom f.cmdType.toByte
    let senderType ← SenderType.tryFrom f.senderType.toByte
    pure ⟨f.version, f.length, f.seqNum, f.cmdId, cmdType, senderType, f.data⟩) =
      (.ok f : Result CommandFrame)
  rw [cmdType, Outcome.ok_bind, senderType]
  rfl

/-- What the parser checks before it decodes the two enumerations. -/
structure Checked (r : RawFrame) : Prop where
  start : r.sof = startOfFrame
  within : r.length.toNat ≤ r.bytes.length
  headerCrc : r.headerCrc = crc16CcittFalse r.head
  low : cmdHeaderSize ≤ r.length.toNat
  dataCrc : r.dataCrc = dataChecksum r.data

theorem checked_of_parse {profile : Profile} {r : RawFrame} {f : CommandFrame}
    (h : parse profile r.bytes = .ok f) :
    Checked r ∧ f.cmdType.toByte = r.cmdType ∧ f.senderType.toByte = r.senderType ∧
      f = ⟨r.version, r.length, r.seqNum, r.cmdId, f.cmdType, f.senderType, r.data⟩ := by
  -- a check that failed would have ended in an error or a panic
  rw [CommandFrame.parse_bytes] at h
  by_cases hsof : r.sof ≠ startOfFrame
  · rw [if_pos hsof] at h
    cases h
  rw [if_neg hsof] at h
  by_cases hbound : r.bytes.length < r.length.toNat
  · rw [if_pos hbound] at h
    cases h
  rw [if_neg hbound] at h
  by_cases hcrc : r.headerCrc ≠ crc16CcittFalse r.head
  · rw [if_pos hcrc] at h
    cases h
  rw [if_neg hcrc] at h
  by_cases hlow : r.length.toNat < cmdHeaderSize
  · rw [if_pos hlow] at h
    cases h
  rw [if_neg hlow] at h
  by_cases hdata : r.dataCrc ≠ dataChecksum r.data
  · rw [if_pos hdata] at h
    cases h
  rw [if_neg hdata] at h
  obtain ⟨cmdType, hcmdType, h⟩ := Outcome.bind_eq_ok.mp h
  obtain ⟨senderType, hsenderType, h⟩ := Outcome.bind_eq_ok.mp h
  cases h
  refine ⟨⟨not_not.mp hsof, by omega, not_not.mp hcrc, by omega, not_not.mp hdata⟩, ?_, ?_, rfl⟩
  · exact (tryFrom_eq_ok_iff (K := CmdType)).mp hcmdType
  · exact (tryFrom_eq_ok_iff (K := SenderType)).mp hsenderType

theorem encoding_of_parse {profile : Profile} {buf : Bytes} {f : CommandFrame}
    (h : parse profile buf = .ok f) :
    f.LengthMatches ∧ ∃ reserved tail, reserved.length = 6 ∧
      buf = f.encoding reserved ++ tail := by
  by_cases short : buf.length < cmdHeaderSize
  · rw [parse_short profile short] at h
    cases h
  obtain ⟨r, rfl⟩ : ∃ r : RawFrame, r.bytes = buf :=
    ⟨RawFrame.ofBytes buf (by omega), RawFrame.bytes_ofBytes buf (by omega)⟩
  obtain ⟨checked, hcmdType, hsenderType, whole⟩ := checked_of_parse h
  have size := r.length_data checked.within
  have low := checked.low
  refine ⟨?_, r.reserved, r.body.drop (r.length.toNat - cmdHeaderSize), r.reserved_length, ?_⟩
  · rw [whole]
    show r.length.toNat = cmdHeaderSize + r.data.length
    omega
  -- the two types were decoded, so their bytes are those of the header
  have header : f.head r.reserved = r.head := by
    rw [CommandFrame.head, RawFrame.head, hcmdType, hsenderType, ← checked.start, whole]
  rw [CommandFrame.encoding, header, ← checked.headerCrc, whole]
  dsimp only
  rw [← checked.dataCrc, RawFrame.bytes]
  simp only [List.append_assoc, RawFrame.data, List.take_append_drop]

theorem parse_eq_ok_iff {profile : Profile} {buf : Bytes} {f : CommandFrame} :
    parse profile buf = .ok f ↔ f.LengthMatches ∧
      ∃ reserved tail, reserved.length = 6 ∧ buf = f.encoding reserved ++ tail := by
  constructor
  · exact encoding_of_parse
  · rintro ⟨matched, reserved, tail, hres, rfl⟩
    exact parse_encoding profile hres matched tail

theorem parse_append {profile : Profile} {buf : Bytes} {f : CommandFrame}
    (h : parse profile buf = .ok f) (more : Bytes) : parse profile (buf ++ more) = .ok f := by
  obtain ⟨matched, reserved, tail, hres, rfl⟩ := encoding_of_parse h
  rw [List.append_assoc]
  exact parse_encoding profile hres matched _

theorem parse_of_take {profile : Profile} {buf : Bytes} {n : Nat} {f : CommandFrame}
    (h : parse profile (buf.take n) = .ok f) : parse profile buf = .ok f := by
  have whole := parse_append h (buf.drop n)
  rwa [List.take_append_drop] at whole

theorem write_zeroed (profile : Profile) {f : CommandFrame} (hf : f.LengthMatches) {n : Nat}
    (room : f.length.toNat ≤ n) :
    (write profile f).run (List.replicate n 0) =
      (.ok (), f.encoding zeroReserved ++ List.replicate (n - f.length.toNat) 0) := by
  rw [CommandFrame.write_eq profile hf (by rwa [List.length_replicate]), List.drop_replicate]

theorem write_short (profile : Profile) {f : CommandFrame} {buf : Bytes}
    (short : buf.length < f.length.toNat) :
    (write profile f).run buf = (.err .bufferTooSmall, buf) := by
  rw [write, Edit.bind_run_ok (Edit.len_run buf), if_pos short, Edit.fail_run]

/-- The writer refuses a buffer that is too small and leaves it alone; into any other it
writes exactly the frame, which every prefix that holds it parses back to. -/
theorem write_into_any_buffer (profile : Profile) {f : CommandFrame}
    (matched : f.length.toNat = 24 + f.data.length) (buf : Bytes) :
    (buf.length < f.length.toNat →
      (write profile f).run buf = (.err .bufferTooSmall, buf)) ∧
    (f.length.toNat ≤ buf.length →
      ∃ out, (write profile f).run buf = (.ok (), out) ∧ out.length = buf.length ∧
        out.drop f.length.toNat = buf.drop f.length.toNat ∧
        ∀ n, f.length.toNat ≤ n → n ≤ buf.length → parse profile (out.take n) = .ok f) := by
  refine ⟨write_short profile, ?_⟩
  intro room
  have zeros : zeroReserved.length = 6 := rfl
  have size : (f.encoding zeroReserved).length = f.length.toNat := by
    rw [f.length_encoding zeros, matched]
  refine ⟨_, CommandFrame.write_eq profile matched room, ?_, ?_, ?_⟩
  · rw [List.length_append, List.length_drop, size]
    omega
  · rw [List.drop_left' size]
  · intro n whole _
    have cut : (f.encoding zeroReserved ++ buf.drop f.length.toNat).take n =
        f.encoding zeroReserved ++ (buf.drop f.length.toNat).take (n - f.length.toNat) := by
      rw [List.take_append, size, List.take_of_length_le (by omega)]
    rw [cut]
    exact parse_encoding profile zeros matched _

theorem write_into_any_buffer_inquiry :
    ∃ out, (write .dev (newReq 42 0x0101 [1, 2, 3, 4])).run (List.replicate 64 0xFF) =
        (.ok (), out) ∧
      parse .dev (out.take 28) = .ok (newReq 42 0x0101 [1, 2, 3, 4]) ∧
      parse .dev (out.take 40) = .ok (newReq 42 0x0101 [1, 2, 3, 4]) := by
  have writes := write_into_any_buffer .dev (f := newReq 42 0x0101 [1, 2, 3, 4]) rfl
    (List.replicate 64 0xFF)
  obtain ⟨out, written, -, -, parses⟩ := writes.2 (by decide)
  exact ⟨out, written, parses 28 (by decide) (by decide), parses 40 (by decide) (by decide)⟩

/-- The parser accepts exactly the frame grammar, and writing what it returned restores
the accepted bytes except the reserved ones and the header checksum. -/
theorem parse_iff_grammar (profile : Profile) (buf : Bytes) (f : CommandFrame) :
    (parse profile buf = .ok f ↔
      f.length.toNat = 24 + f.data.length ∧ ∃ reserved tail : Bytes, reserved.length = 6 ∧
        buf = f.encoding reserved ++ tail) ∧
    (parse profile buf = .ok f →
      ∃ out, (write profile f).run (List.replicate f.length.toNat 0) = (.ok (), out) ∧
        EqOutside 12 20 out (buf.take f.length.toNat)) := by
  refine ⟨parse_eq_ok_iff, ?_⟩
  intro h
  obtain ⟨matched, reserved, tail, hres, rfl⟩ := encoding_of_parse h
  refine ⟨f.encoding zeroReserved, ?_, ?_⟩
  · rw [write_zeroed profile matched (le_refl _), Nat.sub_self, List.replicate_zero,
      List.append_nil]
  have size : (f.encoding reserved).length = f.length.toNat := by
    rw [f.length_encoding hres, matched, cmdHeaderSize]
  rw [← size, List.take_left]
  -- reserved bytes and header checksum stand next to each other, at 12 to 20
  have layout (res : Bytes) : f.encoding res = (toLe startOfFrame ++ toLe f.version ++
      toLe f.length ++ toLe f.seqNum ++ toLe f.cmdId ++ toLe f.cmdType.toByte ++
      toLe f.senderType.toByte) ++ ((res ++ toLe (crc16CcittFalse (f.head res))) ++
      (toLe (dataChecksum f.data) ++ f.data)) := by
    simp only [CommandFrame.encoding, CommandFrame.head, List.append_assoc]
  rw [layout zeroReserved, layout reserved]
  refine eqOutside_middle (by simp) ?_ ?_
  · simp [zeroReserved]
  · simp [zeroReserved, hres]

/-- The parser returns on every buffer but the understated ones, whatever the profile. -/
theorem parse_returns_iff (profile : Profile) (buf : Bytes) :
    (parse profile buf).Returns ↔ ¬ Understated buf := by
  by_cases short : buf.length < cmdHeaderSize
  · rw [parse_short profile short]
    exact iff_of_true (Outcome.returns_err _) (fun h => by have := h.1; omega)
  obtain ⟨r, rfl⟩ : ∃ r : RawFrame, r.bytes = buf :=
    ⟨RawFrame.ofBytes buf (by omega), RawFrame.bytes_ofBytes buf (by omega)⟩
  rw [Understated, r.field_sof, r.field_length, r.field_headerCrc, r.take_head,
    CommandFrame.parse_bytes]
  by_cases hsof : r.sof ≠ startOfFrame
  · rw [if_pos hsof]
    exact iff_of_true (Outcome.returns_err _) (fun h => hsof h.2.1)
  rw [if_neg hsof]
  by_cases hbound : r.bytes.length < r.length.toNat
  · rw [if_pos hbound]
    exact iff_of_true (Outcome.returns_err _) (fun h => by have := h.2.2.1; omega)
  rw [if_neg hbound]
  by_cases hcrc : r.headerCrc ≠ crc16CcittFalse r.head
  · rw [if_pos hcrc]
    exact iff_of_true (Outcome.returns_err _) (fun h => hcrc h.2.2.2)
  rw [if_neg hcrc]
  by_cases hlow : r.length.toNat < cmdHeaderSize
  · rw [if_pos hlow]
    exact iff_of_false (Outcome.not_returns_panic _)
      (fun h => h ⟨by omega, not_not.mp hsof, hlow, not_not.mp hcrc⟩)
  rw [if_neg hlow]
  -- from here on every branch is an error or a frame
  refine iff_of_true ?_ (fun h => hlow h.2.2.1)
  by_cases hdata : r.dataCrc ≠ dataChecksum r.data
  · rw [if_pos hdata]
    exact Outcome.returns_err _
  rw [if_neg hdata]
  apply Outcome.Returns.bind (tryFrom_returns (K := CmdType) _)
  intro cmdType _
  apply Outcome.Returns.bind (tryFrom_returns (K := SenderType) _)
  intro senderType _
  exact Outcome.returns_ok _

theorem decode_buildParamConfig {seqNum : UInt32} {cmdId : UInt16}
    {items : List (ParameterKey × Bytes)}
    (matched : (newReq seqNum cmdId (buildParamConfig items)).LengthMatches) :
    decodeKeyValueList (buildParamConfig items) =
      .ok (items.map fun item => (item.1.asU16, item.2)) := by
  apply decodeKeyValueList_of_length
  have bound : (newReq seqNum cmdId (buildParamConfig items)).length.toNat =
      cmdHeaderSize + (buildParamConfig items).length := matched
  -- a length that describes the data was not truncated, and bounds count and values too
  have small := (newReq seqNum cmdId (buildParamConfig items)).length.toNat_lt
  show (buildParamConfig items).length < 2 ^ 16
  omega

/-- A configuration request that the writer accepts is sent whole: the datagram parses back
to the request, and the request decodes back to the items. -/
theorem sent_config_lossless {profile : Profile} {seqNum : UInt32}
    {items : List (ParameterKey × Bytes)} {out : Bytes}
    (h : (write profile (newReq seqNum 0x0100 (buildParamConfig items))).run
      (List.replicate 2048 0) = (.ok (), out)) :
    parse profile (out.take (newReq seqNum 0x0100 (buildParamConfig items)).length.toNat) =
        .ok (newReq seqNum 0x0100 (buildParamConfig items)) ∧
      decodeKeyValueList (newReq seqNum 0x0100 (buildParamConfig items)).data =
        .ok (items.map fun item => (item.1.asU16, item.2)) := by
  obtain ⟨matched, room⟩ := CommandFrame.write_ok_inv h
  rw [List.length_replicate] at room
  rw [write_zeroed profile matched room] at h
  cases h
  have size : ((newReq seqNum 0x0100 (buildParamConfig items)).encoding zeroReserved).length =
      (newReq seqNum 0x0100 (buildParamConfig items)).length.toNat := by
    rw [CommandFrame.length_encoding _ rfl, matched, cmdHeaderSize]
  constructor
  · rw [← size, List.take_left]
    have reserved : zeroReserved.length = 6 := rfl
    have whole := parse_encoding profile reserved matched []
    rwa [List.append_nil] at whole
  · exact decode_buildParamConfig matched

theorem sent_config_lossless_pclDataType :
    ∃ out, (write .dev (newReq 42 0x0100 (buildParamConfig [(.pclDataType, [1])]))).run
        (List.replicate 2048 0) = (.ok (), out) ∧
      parse .dev (out.take (newReq 42 0x0100 (buildParamConfig [(.pclDataType, [1])])).length.toNat)
        = .ok (newReq 42 0x0100 (buildParamConfig [(.pclDataType, [1])])) ∧
      decodeKeyValueList (newReq 42 0x0100 (buildParamConfig [(.pclDataType, [1])])).data =
        .ok [(0x0000, [1])] := by
  have written := write_zeroed .dev (f := newReq 42 0x0100 (buildParamConfig [(.pclDataType, [1])]))
    (n := 2048) (by decide) (by decide)
  exact ⟨_, written, sent_config_lossless written⟩

end LivoxMid360.Protocol.CommandGrammar
