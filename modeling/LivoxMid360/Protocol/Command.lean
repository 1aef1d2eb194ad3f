/- digest: Command frames: the parser and the writer of the control protocol, field by field. -/

import LivoxMid360.Foundation.ByteBuffer
import LivoxMid360.Protocol.Crc
import LivoxMid360.Protocol.Vocabulary

set_option autoImplicit false
set_option relaxedAutoImplicit false

namespace LivoxMid360.Protocol.Command

open Foundation.RustOutcome
open Foundation.LittleEndian
open Foundation.ByteBuffer
open Vocabulary Crc

def cmdHeaderSize : Nat := 24

/-- A complete control-command frame; `length` counts from the start of frame to the end
of the data and is stored, not derived. -/
structure CommandFrame where
  version : UInt8
  length : UInt16
  seqNum : UInt32
  cmdId : UInt16
  cmdType : CmdType
  senderType : SenderType
  data : Bytes
  deriving DecidableEq, Repr

/-- `{:02X}` -/
def hexByte (b : UInt8) : String :=
  String.ofList [(Nat.digitChar (b.toNat / 16)).toUpper, (Nat.digitChar (b.toNat % 16)).toUpper]

namespace CommandFrame

/-- `(CMD_HEADER_SIZE + data.len()) as u16` keeps the low sixteen bits only. -/
def newReq (seqNum : UInt32) (cmdId : UInt16) (data : Bytes) : CommandFrame where
  version := 0
  length := UInt16.ofNat (cmdHeaderSize + data.length)
  seqNum := seqNum
  cmdId := cmdId
  cmdType := .req
  senderType := .host
  data := data

def parse (profile : Profile) (buf : Bytes) : Result CommandFrame := do
  if buf.length < cmdHeaderSize then
    .err (.packetTooShort cmdHeaderSize buf.length)
  else
  let sof ← index buf 0
  if sof ≠ startOfFrame then
    .err (.parameterParse ("invalid SOF: expected 0xAA, got 0x" ++ hexByte sof))
  else
  let length ← readLe UInt16 buf 2
  if buf.length < length.toNat then
    .err (.packetTooShort length.toNat buf.length)
  else
  -- the declared length need not cover the header: the checksum is read regardless
  let storedHeaderCrc ← readLe UInt16 buf 18
  let computedHeaderCrc := crc16CcittFalse (← slice buf 0 18)
  if storedHeaderCrc ≠ computedHeaderCrc then
    .err .crcMismatch
  else
  -- nothing before this has compared the length with the header's own size
  let dataLen ← usizeSub profile length.toNat cmdHeaderSize
  let storedDataCrc ← readLe UInt32 buf 20
  let computedDataCrc ←
    (if dataLen = 0 then .ok 0 else crc32 <$> slice buf cmdHeaderSize length.toNat)
  if storedDataCrc ≠ computedDataCrc then
    .err .crcMismatch
  else
  let version ← index buf 1
  let seqNum ← readLe UInt32 buf 4
  let cmdId ← readLe UInt16 buf 8
  let cmdType ← CmdType.tryFrom (← index buf 10)
  let senderType ← SenderType.tryFrom (← index buf 11)
  let data ← slice buf cmdHeaderSize length.toNat
  return { version, length, seqNum, cmdId, cmdType, senderType, data }

def write (profile : Profile) (self : CommandFrame) : Edit LidarError Unit := do
  -- the stored length is compared, not the length of the data
  if (← Edit.len) < self.length.toNat then
    Edit.fail .bufferTooSmall
  else
  Edit.setIndex 0 startOfFrame
  Edit.setIndex 1 self.version
  Edit.copyFromSlice 2 4 (toLe self.length)
  Edit.copyFromSlice 4 8 (toLe self.seqNum)
  Edit.copyFromSlice 8 10 (toLe self.cmdId)
  Edit.setIndex 10 self.cmdType.toByte
  Edit.setIndex 11 self.senderType.toByte
  Edit.fill 12 18 0
  Edit.copyFromSlice 18 20 (toLe (0 : UInt16))
  let dataLen ← Edit.read fun _ => usizeSub profile self.length.toNat cmdHeaderSize
  let dataCrc := if dataLen = 0 then 0 else crc32 self.data
  Edit.copyFromSlice 20 24 (toLe dataCrc)
  Edit.copyFromSlice cmdHeaderSize self.length.toNat self.data
  let headerCrc ← Edit.read fun buf => crc16CcittFalse <$> slice buf 0 18
  Edit.copyFromSlice 18 20 (toLe headerCrc)

def isAckFor (self req : CommandFrame) : Bool :=
  self.cmdType == .ack && self.cmdId == req.cmdId && self.seqNum == req.seqNum
    && self.senderType == .lidar

end CommandFrame

/-! Every buffer of at least a header's size is, in exactly one way, the bytes of a raw frame:
the header fields at their offsets, none of them checked, and whatever follows. -/

/-- The content of a buffer read at the header's offsets. -/
structure RawFrame where
  sof : UInt8
  version : UInt8
  length : UInt16
  seqNum : UInt32
  cmdId : UInt16
  cmdType : UInt8
  senderType : UInt8
  reserved : Bytes
  headerCrc : UInt16
  dataCrc : UInt32
  body : Bytes
  reserved_length : reserved.length = 6

namespace RawFrame

def head (r : RawFrame) : Bytes :=
  toLe r.sof ++ (toLe r.version ++ (toLe r.length ++ (toLe r.seqNum ++ (toLe r.cmdId ++
    (toLe r.cmdType ++ (toLe r.senderType ++ r.reserved))))))

def bytes (r : RawFrame) : Bytes :=
  r.head ++ (toLe r.headerCrc ++ (toLe r.dataCrc ++ r.body))

@[simp] theorem length_head (r : RawFrame) : r.head.length = 18 := by
  simp [head, r.reserved_length]

@[simp] theorem length_bytes (r : RawFrame) : r.bytes.length = 24 + r.body.length := by
  simp only [bytes, List.length_append, length_head, length_toLe, width_u16, width_u32]
  omega

def ofBytes (buf : Bytes) (h : cmdHeaderSize ≤ buf.length) : RawFrame where
  sof := field UInt8 0 buf
  version := field UInt8 1 buf
  length := field UInt16 2 buf
  seqNum := field UInt32 4 buf
  cmdId := field UInt16 8 buf
  cmdType := field UInt8 10 buf
  senderType := field UInt8 11 buf
  reserved := (buf.drop 12).take 6
  headerCrc := field UInt16 18 buf
  dataCrc := field UInt32 20 buf
  body := buf.drop 24
  reserved_length := by
    rw [cmdHeaderSize] at h
    rw [List.length_take, List.length_drop]
    omega

theorem bytes_ofBytes (buf : Bytes) (h : cmdHeaderSize ≤ buf.length) :
    (ofBytes buf h).bytes = buf := by
  rw [cmdHeaderSize] at h
  have split (α : Type) [LeWord α] (off : Nat) (hoff : off + LeWord.width α ≤ buf.length) :=
    toLe_field_append_drop (α := α) hoff
  have reserved : (buf.drop 12).take 6 ++ buf.drop 18 = buf.drop 12 := by
    rw [show (18 : Nat) = 12 + 6 from rfl, ← List.drop_drop, List.take_append_drop]
  have h0 := split UInt8 0 (by simp; omega)
  have h1 := split UInt8 1 (by simp; omega)
  have h2 := split UInt16 2 (by simp; omega)
  have h4 := split UInt32 4 (by simp; omega)
  have h8 := split UInt16 8 (by simp; omega)
  have h10 := split UInt8 10 (by simp; omega)
  have h11 := split UInt8 11 (by simp; omega)
  have h18 := split UInt16 18 (by simp; omega)
  have h20 := split UInt32 20 (by simp; omega)
  simp only [width_u8, width_u16, width_u32, Nat.reduceAdd, List.drop_zero]
    at h0 h1 h2 h4 h8 h10 h11 h18 h20
  simp only [bytes, head, ofBytes, List.append_assoc]
  rw [h20, h18, reserved, h11, h10, h8, h4, h2, h1, h0]

variable (r : RawFrame)

theorem field_sof : field UInt8 0 r.bytes = r.sof := by
  simp [bytes, head, field_toLe_append]

theorem field_version : field UInt8 1 r.bytes = r.version := by
  simp [bytes, head, field_append_right, field_toLe_append]

theorem field_length : field UInt16 2 r.bytes = r.length := by
  simp [bytes, head, field_append_right, field_toLe_append]

theorem field_seqNum : field UInt32 4 r.bytes = r.seqNum := by
  simp [bytes, head, field_append_right, field_toLe_append]

theorem field_cmdId : field UInt16 8 r.bytes = r.cmdId := by
  simp [bytes, head, field_append_right, field_toLe_append]

theorem field_cmdType : field UInt8 10 r.bytes = r.cmdType := by
  simp [bytes, head, field_append_right, field_toLe_append]

theorem field_senderType : field UInt8 11 r.bytes = r.senderType := by
  simp [bytes, head, field_append_right, field_toLe_append]

theorem field_headerCrc : field UInt16 18 r.bytes = r.headerCrc := by
  simp [bytes, field_append_right, field_toLe_append]

theorem field_dataCrc : field UInt32 20 r.bytes = r.dataCrc := by
  simp [bytes, field_append_right, field_toLe_append]

theorem take_head : r.bytes.take 18 = r.head := by
  rw [bytes, List.take_append_of_le_length (by simp), List.take_of_length_le (by simp)]

theorem drop_body : r.bytes.drop 24 = r.body := by
  have whole : r.bytes = (r.head ++ (toLe r.headerCrc ++ toLe r.dataCrc)) ++ r.body := by
    simp only [bytes, List.append_assoc]
  rw [whole, List.drop_left' (by simp)]

theorem index_header {i : Nat} (h : i < 24) :
    (index r.bytes i : Result UInt8) = .ok (field UInt8 i r.bytes) :=
  index_ok (by rw [length_bytes]; omega)

theorem readLe_header {α : Type} [LeWord α] {off : Nat} (h : off + LeWord.width α ≤ 24) :
    (readLe α r.bytes off : Result α) = .ok (field α off r.bytes) :=
  readLe_ok (by rw [length_bytes]; omega)

theorem slice_head : (slice r.bytes 0 18 : Result Bytes) = .ok r.head := by
  rw [slice_ok (by omega) (by rw [length_bytes]; omega), List.drop_zero, take_head]

def data (r : RawFrame) : Bytes := r.body.take (r.length.toNat - cmdHeaderSize)

theorem slice_data (hlow : cmdHeaderSize ≤ r.length.toNat)
    (hhigh : r.length.toNat ≤ r.bytes.length) :
    (slice r.bytes cmdHeaderSize r.length.toNat : Result Bytes) = .ok r.data := by
  rw [slice_ok hlow hhigh, cmdHeaderSize, drop_body]
  rfl

theorem length_data (hhigh : r.length.toNat ≤ r.bytes.length) :
    r.data.length = r.length.toNat - cmdHeaderSize := by
  rw [length_bytes] at hhigh
  rw [data, List.length_take, cmdHeaderSize]
  omega

theorem data_eq_nil_iff (hhigh : r.length.toNat ≤ r.bytes.length) :
    r.data = [] ↔ r.length.toNat - cmdHeaderSize = 0 := by
  rw [← List.length_eq_zero_iff, r.length_data hhigh]

end RawFrame

/-- The data checksum a frame carries: none for empty data. -/
def dataChecksum (data : Bytes) : UInt32 := if data = [] then 0 else crc32 data

namespace CommandFrame

/-- The parser as a decision list over the raw frame. -/
theorem parse_bytes (profile : Profile) (r : RawFrame) :
    parse profile r.bytes =
      if r.sof ≠ startOfFrame then
        .err (.parameterParse ("invalid SOF: expected 0xAA, got 0x" ++ hexByte r.sof))
      else if r.bytes.length < r.length.toNat then
        .err (.packetTooShort r.length.toNat r.bytes.length)
      else if r.headerCrc ≠ crc16CcittFalse r.head then .err .crcMismatch
      else if r.length.toNat < cmdHeaderSize then
        .panic (if profile.overflowChecks then .subtractWithOverflow else .sliceOutOfBounds)
      else if r.dataCrc ≠ dataChecksum r.data then .err .crcMismatch
      else do
        let cmdType ← CmdType.tryFrom r.cmdType
        let senderType ← SenderType.tryFrom r.senderType
        return ⟨r.version, r.length, r.seqNum, r.cmdId, cmdType, senderType, r.data⟩ := by
  have size := r.length_bytes
  have whole : ¬ r.bytes.length < cmdHeaderSize := by rw [cmdHeaderSize]; omega
  rw [parse, if_neg whole, r.index_header (by omega), r.readLe_header (by simp),
    r.readLe_header (by simp), r.readLe_header (by simp), r.slice_head]
  simp only [Outcome.ok_bind, r.field_sof, r.field_length, r.field_headerCrc, r.field_dataCrc]
  by_cases hsof : r.sof ≠ startOfFrame
  · rw [if_pos hsof, if_pos hsof]
  rw [if_neg hsof, if_neg hsof]
  by_cases hbound : r.bytes.length < r.length.toNat
  · rw [if_pos hbound, if_pos hbound]
  rw [if_neg hbound, if_neg hbound]
  by_cases hcrc : r.headerCrc ≠ crc16CcittFalse r.head
  · rw [if_pos hcrc, if_pos hcrc]
  rw [if_neg hcrc, if_neg hcrc]
  -- a length below the header: the subtraction is checked, or wraps into an inverted slice
  by_cases hlow : r.length.toNat < cmdHeaderSize
  · rw [if_pos hlow, slice_inverted hlow]
    cases checks : profile.overflowChecks with
    | true => rw [usizeSub_checked hlow checks, Outcome.panic_bind, if_pos rfl]
    | false =>
      have range : cmdHeaderSize + 1 ≤ usizeModulus := by decide
      obtain ⟨wrapped, hpos, hsub⟩ := usizeSub_wrapped (ε := LidarError) hlow checks range
      rw [hsub, Outcome.ok_bind, if_neg (by omega), Outcome.map_panic, Outcome.panic_bind,
        if_neg Bool.false_ne_true]
  rw [if_neg hlow, usizeSub_of_le profile (by omega)]
  rw [r.slice_data (by omega) (by omega), Outcome.ok_bind]
  -- the parser tests the size for zero, the frame its data for emptiness
  have checksum : (if r.length.toNat - cmdHeaderSize = 0 then .ok 0
      else crc32 <$> (.ok r.data : Result Bytes)) = .ok (dataChecksum r.data) := by
    have empty := r.data_eq_nil_iff (by omega)
    rw [dataChecksum]
    split
    · rename_i h
      rw [if_pos (empty.mpr h)]
    · rename_i h
      rw [if_neg (fun e => h (empty.mp e)), Outcome.map_ok]
  rw [checksum, Outcome.ok_bind]
  by_cases hdata : r.dataCrc ≠ dataChecksum r.data
  · rw [if_pos hdata, if_pos hdata]
  rw [if_neg hdata, if_neg hdata, r.index_header (by omega), r.readLe_header (by simp),
    r.readLe_header (by simp), r.index_header (by omega), r.index_header (by omega)]
  simp only [Outcome.ok_bind, r.field_version, r.field_seqNum, r.field_cmdId, r.field_cmdType,
    r.field_senderType]

def head (f : CommandFrame) (reserved : Bytes) : Bytes :=
  toLe startOfFrame ++ (toLe f.version ++ (toLe f.length ++ (toLe f.seqNum ++ (toLe f.cmdId ++
    (toLe f.cmdType.toByte ++ (toLe f.senderType.toByte ++ reserved))))))

def encoding (f : CommandFrame) (reserved : Bytes) : Bytes :=
  f.head reserved ++ (toLe (crc16CcittFalse (f.head reserved)) ++
    (toLe (dataChecksum f.data) ++ f.data))

def zeroReserved : Bytes := List.replicate 6 0

def LengthMatches (f : CommandFrame) : Prop := f.length.toNat = cmdHeaderSize + f.data.length

instance (f : CommandFrame) : Decidable f.LengthMatches :=
  inferInstanceAs (Decidable (f.length.toNat = cmdHeaderSize + f.data.length))

def raw (f : CommandFrame) (reserved tail : Bytes) (h : reserved.length = 6) : RawFrame where
  sof := startOfFrame
  version := f.version
  length := f.length
  seqNum := f.seqNum
  cmdId := f.cmdId
  cmdType := f.cmdType.toByte
  senderType := f.senderType.toByte
  reserved := reserved
  headerCrc := crc16CcittFalse (f.head reserved)
  dataCrc := dataChecksum f.data
  body := f.data ++ tail
  reserved_length := h

theorem bytes_raw (f : CommandFrame) (reserved tail : Bytes) (h : reserved.length = 6) :
    (f.raw reserved tail h).bytes = f.encoding reserved ++ tail := by
  have header : (f.raw reserved tail h).head = f.head reserved := rfl
  rw [RawFrame.bytes, header]
  simp only [raw, encoding, List.append_assoc]

theorem length_head (f : CommandFrame) {reserved : Bytes} (h : reserved.length = 6) :
    (f.head reserved).length = 18 :=
  (f.raw reserved [] h).length_head

theorem length_encoding (f : CommandFrame) {reserved : Bytes} (h : reserved.length = 6) :
    (f.encoding reserved).length = 24 + f.data.length := by
  have size := (f.raw reserved [] h).length_bytes
  rw [bytes_raw, List.append_nil] at size
  simpa [raw] using size

theorem write_eq (profile : Profile) {f : CommandFrame} {buf : Bytes} (hf : f.LengthMatches)
    (room : f.length.toNat ≤ buf.length) :
    (write profile f).run buf = (.ok (), f.encoding zeroReserved ++ buf.drop f.length.toNat) := by
  rw [LengthMatches, cmdHeaderSize] at hf
  have start : buf = [] ++ buf.drop 0 := rfl
  rw [write, Edit.bind_run_ok (Edit.len_run buf), if_neg (by omega), start]
  -- field by field from the left, over whatever the buffer held
  rw [(Edit.fills_setIndex 0 startOfFrame).advance 1 rfl (by simp) (by omega)]
  rw [(Edit.fills_setIndex 1 f.version).advance 2 (by simp) (by simp) (by omega)]
  rw [(Edit.fills_copyFromSlice (by simp)).advance 4 (by simp) (by simp) (by omega)]
  rw [(Edit.fills_copyFromSlice (by simp)).advance 8 (by simp) (by simp) (by omega)]
  rw [(Edit.fills_copyFromSlice (by simp)).advance 10 (by simp) (by simp) (by omega)]
  rw [(Edit.fills_setIndex 10 f.cmdType.toByte).advance 11 (by simp) (by simp) (by omega)]
  rw [(Edit.fills_setIndex 11 f.senderType.toByte).advance 12 (by simp) (by simp) (by omega)]
  rw [(Edit.fills_fill (by omega)).advance 18 (by simp) (by simp) (by omega)]
  rw [(Edit.fills_copyFromSlice (by simp)).advance 20 (by simp) (by simp) (by omega)]
  rw [Edit.bind_run_ok ((Edit.read_run _ _).trans
    (congrArg₂ Prod.mk (usizeSub_of_le profile (by rw [cmdHeaderSize]; omega)) rfl))]
  have checksum : (if f.length.toNat - cmdHeaderSize = 0 then 0 else crc32 f.data) =
      dataChecksum f.data := by
    have empty : f.data = [] ↔ f.length.toNat - cmdHeaderSize = 0 := by
      rw [← List.length_eq_zero_iff, cmdHeaderSize]
      omega
    rw [dataChecksum]
    exact if_congr empty.symm rfl rfl
  dsimp only
  rw [checksum]
  rw [(Edit.fills_copyFromSlice (by simp)).advance 24 (by simp) (by simp) (by omega)]
  rw [cmdHeaderSize]
  rw [(Edit.fills_copyFromSlice (by omega)).advance f.length.toNat (by simp) (by omega) (by omega)]
  -- The header checksum is computed over the first 18 bytes and replaces its placeholder.
  have layout : [] ++ toLe startOfFrame ++ toLe f.version ++ toLe f.length ++ toLe f.seqNum ++
      toLe f.cmdId ++ toLe f.cmdType.toByte ++ toLe f.senderType.toByte ++
      List.replicate (18 - 12) 0 ++ toLe (0 : UInt16) ++ toLe (dataChecksum f.data) ++ f.data ++
      buf.drop f.length.toNat =
      f.head zeroReserved ++ (toLe (0 : UInt16) ++ (toLe (dataChecksum f.data) ++ (f.data ++
        buf.drop f.length.toNat))) := by
    simp [head, zeroReserved]
  have size : (f.head zeroReserved).length = 18 := f.length_head rfl
  have covered (rest : Bytes) :
      (slice (f.head zeroReserved ++ rest) 0 18 : Result Bytes) = .ok (f.head zeroReserved) := by
    rw [slice_ok (by omega) (by rw [List.length_append]; omega), List.drop_zero, Nat.sub_zero,
      ← size, List.take_left]
  rw [layout, Edit.bind_run_ok ((Edit.read_run _ _).trans
    (congrArg₂ Prod.mk (congrArg (crc16CcittFalse <$> ·) (covered _)) rfl))]
  rw [Edit.fills_copyFromSlice (by simp) (f.head zeroReserved) _ size (by simp)]
  simp [encoding]

/-- The writer succeeds only on frames whose length describes their data and fits. -/
theorem write_ok_inv {profile : Profile} {f : CommandFrame} {buf out : Bytes}
    (h : (write profile f).run buf = (.ok (), out)) :
    f.LengthMatches ∧ f.length.toNat ≤ buf.length := by
  rw [write] at h
  obtain ⟨n, mid, hlen, h⟩ := Edit.bind_run_ok_inv h
  cases hlen
  by_cases short : buf.length < f.length.toNat
  · rw [if_pos short] at h
    cases h
  rw [if_neg short] at h
  obtain ⟨_, _, _, h⟩ := Edit.bind_run_ok_inv h
  obtain ⟨_, _, _, h⟩ := Edit.bind_run_ok_inv h
  obtain ⟨_, _, _, h⟩ := Edit.bind_run_ok_inv h
  obtain ⟨_, _, _, h⟩ := Edit.bind_run_ok_inv h
  obtain ⟨_, _, _, h⟩ := Edit.bind_run_ok_inv h
  obtain ⟨_, _, _, h⟩ := Edit.bind_run_ok_inv h
  obtain ⟨_, _, _, h⟩ := Edit.bind_run_ok_inv h
  obtain ⟨_, _, _, h⟩ := Edit.bind_run_ok_inv h
  obtain ⟨_, _, _, h⟩ := Edit.bind_run_ok_inv h
  obtain ⟨_, _, _, h⟩ := Edit.bind_run_ok_inv h
  obtain ⟨_, _, _, h⟩ := Edit.bind_run_ok_inv h
  -- The copy of the data demands both the order of the bounds and the exact length.
  obtain ⟨_, _, copied, _⟩ := Edit.bind_run_ok_inv h
  obtain ⟨ordered, _, exactLength⟩ := Edit.copyFromSlice_ok_inv copied
  refine ⟨?_, by omega⟩
  rw [LengthMatches]
  omega

/-- The writer's only error is its size check. -/
theorem write_err_inv {profile : Profile} {f : CommandFrame} {buf out : Bytes} {e : LidarError}
    (h : (write profile f).run buf = (.err e, out)) : buf.length < f.length.toNat := by
  by_contra room
  rw [write, Edit.bind_run_ok (Edit.len_run buf), if_neg room] at h
  -- behind the check no step can fail: each is an index, a copy or a fill
  refine absurd h (Edit.ErrFree.bind (Edit.errFree_setIndex _ _) (fun _ => ?_) buf e out)
  refine (Edit.errFree_setIndex _ _).bind fun _ => ?_
  refine (Edit.errFree_copyFromSlice _ _ _).bind fun _ => ?_
  refine (Edit.errFree_copyFromSlice _ _ _).bind fun _ => ?_
  refine (Edit.errFree_copyFromSlice _ _ _).bind fun _ => ?_
  refine (Edit.errFree_setIndex _ _).bind fun _ => ?_
  refine (Edit.errFree_setIndex _ _).bind fun _ => ?_
  refine (Edit.errFree_fill _ _ _).bind fun _ => ?_
  refine (Edit.errFree_copyFromSlice _ _ _).bind fun _ => ?_
  refine (Edit.errFree_read fun _ => ?_).bind fun _ => ?_
  · exact usizeSub_ne_err profile _ _
  refine (Edit.errFree_copyFromSlice _ _ _).bind fun _ => ?_
  refine (Edit.errFree_copyFromSlice _ _ _).bind fun _ => ?_
  refine (Edit.errFree_read fun buf e => ?_).bind fun _ => Edit.errFree_copyFromSlice _ _ _
  rw [slice]
  split <;> exact fun h => nomatch h

/-- A frame that fits the buffer but whose length does not describe its data. -/
theorem write_panics (profile : Profile) {f : CommandFrame} {buf : Bytes}
    (room : f.length.toNat ≤ buf.length) (mismatch : ¬ f.LengthMatches) :
    ∃ c out, (write profile f).run buf = (.panic c, out) := by
  cases hrun : (write profile f).run buf with
  | mk r out =>
    cases r with
    | ok _ => exact absurd (write_ok_inv hrun).1 mismatch
    | err e => exact absurd room (Nat.not_le.mpr (write_err_inv hrun))
    | panic c => exact ⟨c, out, rfl⟩

end CommandFrame

end LivoxMid360.Protocol.Command
