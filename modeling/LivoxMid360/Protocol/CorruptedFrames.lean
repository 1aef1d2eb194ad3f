/- digest: Corrupted command frames are refused, a corrupted length before it is used. -/

import LivoxMid360.Protocol.CommandGrammar
import LivoxMid360.Protocol.CrcWindows

set_option autoImplicit false
set_option relaxedAutoImplicit false

namespace LivoxMid360.Protocol.CorruptedFrames

open Foundation.RustOutcome
open Foundation.LittleEndian
open Foundation.ByteBuffer
open Vocabulary Crc Command
open CommandFrame (parse newReq zeroReserved)

/-- The parser up to the header checksum. The declared length is compared with the size of
the buffer and used nowhere else. -/
def checkHeader (buf : Bytes) : Result UInt16 := do
  if buf.length < cmdHeaderSize then
    .err (.packetTooShort cmdHeaderSize buf.length)
  else
  let sof ← index buf 0
  if sof ≠ startOfFrame then
    .err (.parameterParse ("invalid SOF: expected 0xAA, got 0x" ++ hexByte sof))
  else
  let length ← readLe UInt16 buf 2
  if buf.length < length.toNat then
    .err (.packetTooShort length.toNat buf.length)
  else
  let storedHeaderCrc ← readLe UInt16 buf 18
  let computedHeaderCrc := crc16CcittFalse (← slice buf 0 18)
  if storedHeaderCrc ≠ computedHeaderCrc then
    .err .crcMismatch
  else
  return length

def parseBody (profile : Profile) (buf : Bytes) (length : UInt16) : Result CommandFrame := do
  let dataLen ← usizeSub profile length.toNat cmdHeaderSize
  let storedDataCrc ← readLe UInt32 buf 20
  let computedDataCrc ←
    (if dataLen = 0 then .ok 0 else crc32 <$> slice buf cmdHeaderSize length.toNat)
  if storedDataCrc ≠ computedDataCrc then
    .err .crcMismatch
  else
  let version ← index buf 1
  let seqNum ← readLe UInt32 buf 4
  let cmdId ← readLe UInt16 buf 8
  let cmdType ← CmdType.tryFrom (← index buf 10)
  let senderType ← SenderType.tryFrom (← index buf 11)
  let data ← slice buf cmdHeaderSize length.toNat
  return { version, length, seqNum, cmdId, cmdType, senderType, data }

theorem checkHeader_bytes (r : RawFrame) :
    checkHeader r.bytes =
      if r.sof ≠ startOfFrame then
        .err (.parameterParse ("invalid SOF: expected 0xAA, got 0x" ++ hexByte r.sof))
      else if r.bytes.length < r.length.toNat then
        .err (.packetTooShort r.length.toNat r.bytes.length)
      else if r.headerCrc ≠ crc16CcittFalse r.head then .err .crcMismatch
      else .ok r.length := by
  have whole : ¬ r.bytes.length < cmdHeaderSize := by
    rw [r.length_bytes, cmdHeaderSize]
    omega
  rw [checkHeader, if_neg whole, r.index_header (by omega), r.readLe_header (by simp),
    r.readLe_header (by simp), r.slice_head]
  simp only [Outcome.ok_bind, r.field_sof, r.field_length, r.field_headerCrc]
  rfl

theorem parse_eq_checkHeader (profile : Profile) (buf : Bytes) :
    parse profile buf = (do
      let length ← checkHeader buf
      parseBody profile buf length) := by
  by_cases short : buf.length < cmdHeaderSize
  · rw [CommandGrammar.parse_short profile short, checkHeader, if_pos short, Outcome.err_bind]
  obtain ⟨r, rfl⟩ : ∃ r : RawFrame, r.bytes = buf :=
    ⟨RawFrame.ofBytes buf (by omega), RawFrame.bytes_ofBytes buf (by omega)⟩
  rw [checkHeader_bytes, parse, if_neg short, r.index_header (by omega),
    r.readLe_header (by simp), r.readLe_header (by simp), r.slice_head]
  simp only [Outcome.ok_bind, r.field_sof, r.field_length, r.field_headerCrc]
  by_cases hsof : r.sof ≠ startOfFrame
  · rw [if_pos hsof, if_pos hsof, Outcome.err_bind]
  rw [if_neg hsof, if_neg hsof]
  by_cases hbound : r.bytes.length < r.length.toNat
  · rw [if_pos hbound, if_pos hbound, Outcome.err_bind]
  rw [if_neg hbound, if_neg hbound]
  by_cases hcrc : r.headerCrc ≠ crc16CcittFalse r.head
  · rw [if_pos hcrc, if_pos hcrc, Outcome.err_bind]
  rw [if_neg hcrc, if_neg hcrc, Outcome.ok_bind]
  rfl

section Corruption

variable {profile : Profile} {r r' : RawFrame}

theorem parse_of_checkHeader_err {buf : Bytes} {e : LidarError}
    (refused : checkHeader buf = .err e) : parse profile buf = .err e := by
  rw [parse_eq_checkHeader, refused, Outcome.err_bind]

theorem checkHeader_refuses (broken : r.headerCrc ≠ crc16CcittFalse r.head) :
    ∃ e, checkHeader r.bytes = .err e := by
  rw [checkHeader_bytes]
  by_cases hsof : r.sof ≠ startOfFrame
  · exact ⟨_, if_pos hsof⟩
  rw [if_neg hsof]
  by_cases hbound : r.bytes.length < r.length.toNat
  · exact ⟨_, if_pos hbound⟩
  rw [if_neg hbound]
  exact ⟨_, if_pos broken⟩

theorem parse_mismatch_header (start : r.sof = startOfFrame)
    (within : r.length.toNat ≤ r.bytes.length) (broken : r.headerCrc ≠ crc16CcittFalse r.head) :
    parse profile r.bytes = .err .crcMismatch := by
  rw [CommandFrame.parse_bytes, if_neg (not_not.mpr start), if_neg (Nat.not_lt.mpr within),
    if_pos broken]

theorem parse_mismatch_data (start : r.sof = startOfFrame)
    (within : r.length.toNat ≤ r.bytes.length) (headerCrc : r.headerCrc = crc16CcittFalse r.head)
    (low : cmdHeaderSize ≤ r.length.toNat) (broken : r.dataCrc ≠ dataChecksum r.data) :
    parse profile r.bytes = .err .crcMismatch := by
  rw [CommandFrame.parse_bytes, if_neg (not_not.mpr start), if_neg (Nat.not_lt.mpr within),
    if_neg (not_not.mpr headerCrc), if_neg (Nat.not_lt.mpr low), if_pos broken]

theorem header_window_refused (checked : CommandGrammar.Checked r) (differ : r.bytes ≠ r'.bytes)
    {lo n : Nat} (narrow : n ≤ 2) (inside : lo + n ≤ 18)
    (outside : EqOutside lo (lo + n) r.bytes r'.bytes) :
    ∃ e, checkHeader r'.bytes = .err e := by
  have size := r.length_bytes
  obtain ⟨pre, mid, mid', post, before, after, hmid, hmid', apart⟩ :=
    outside.split (Nat.zero_le lo) inside (by omega)
  rw [List.drop_zero, Nat.sub_zero, RawFrame.take_head] at before after
  -- the stored checksum stands behind the window
  have stored : r'.headerCrc = r.headerCrc := by
    rw [← r.field_headerCrc, ← r'.field_headerCrc, outside.field_after inside]
  apply checkHeader_refuses
  rw [stored, checked.headerCrc, before, after]
  exact CrcWindows.crc16_window_ne pre post (hmid.trans hmid'.symm) (by omega) (apart differ)

theorem fields_before {lo hi : Nat} (outside : EqOutside lo hi r.bytes r'.bytes)
    (late : 18 ≤ lo) : r'.sof = r.sof ∧ r'.length = r.length ∧ r'.head = r.head := by
  refine ⟨?_, ?_, ?_⟩
  · rw [← r.field_sof, ← r'.field_sof, outside.field_before (by rw [width_u8]; omega)]
  · rw [← r.field_length, ← r'.field_length, outside.field_before (by rw [width_u16]; omega)]
  · rw [← r.take_head, ← r'.take_head, outside.take_eq late]

theorem checksum_window_refused (checked : CommandGrammar.Checked r)
    (differ : r.bytes ≠ r'.bytes) (outside : EqOutside 18 24 r.bytes r'.bytes) :
    parse profile r'.bytes = .err .crcMismatch := by
  obtain ⟨sof, length, head⟩ := fields_before outside (le_refl 18)
  have start : r'.sof = startOfFrame := sof.trans checked.start
  have within : r'.length.toNat ≤ r'.bytes.length := by
    rw [length, ← outside.1]
    exact checked.within
  -- with an intact header checksum it is the data checksum that was hit
  by_cases headerCrc : r'.headerCrc = crc16CcittFalse r'.head
  · have body : r'.body = r.body := by
      rw [← r.drop_body, ← r'.drop_body, outside.drop_eq (le_refl 24)]
    have data : r'.data = r.data := by
      rw [RawFrame.data, RawFrame.data, body, length]
    apply parse_mismatch_data start within headerCrc (length ▸ checked.low)
    rw [data, ← checked.dataCrc]
    intro same
    apply differ
    rw [RawFrame.bytes, RawFrame.bytes, head, body, same, headerCrc, head, checked.headerCrc]
  · exact parse_mismatch_header start within headerCrc

theorem data_window_refused (checked : CommandGrammar.Checked r) (differ : r.bytes ≠ r'.bytes)
    {lo n : Nat} (narrow : n ≤ 4) (left : 24 ≤ lo) (right : lo + n ≤ r.length.toNat)
    (outside : EqOutside lo (lo + n) r.bytes r'.bytes) :
    parse profile r'.bytes = .err .crcMismatch := by
  obtain ⟨sof, length, head⟩ := fields_before outside (by omega)
  have headerCrc : r'.headerCrc = r.headerCrc := by
    rw [← r.field_headerCrc, ← r'.field_headerCrc,
      outside.field_before (by rw [width_u16]; omega)]
  have dataCrc : r'.dataCrc = r.dataCrc := by
    rw [← r.field_dataCrc, ← r'.field_dataCrc, outside.field_before (by rw [width_u32]; omega)]
  obtain ⟨pre, mid, mid', post, before, after, hmid, hmid', apart⟩ :=
    outside.split left right checked.within
  rw [RawFrame.drop_body] at before after
  have window := apart differ
  refine parse_mismatch_data (sof.trans checked.start) ?_ ?_ (length ▸ checked.low) ?_
  · rw [length, ← outside.1]
    exact checked.within
  · rw [headerCrc, head, checked.headerCrc]
  · have data : r.data = pre ++ mid ++ post := before
    have data' : r'.data = pre ++ mid' ++ post := by
      rw [RawFrame.data, length]
      exact after
    -- a window of differing bytes leaves no frame without data, whose checksum is zero
    have full (m : Bytes) (size : m.length = n) : pre ++ m ++ post ≠ [] := by
      intro empty
      have none := List.append_eq_nil_iff.mp (List.append_eq_nil_iff.mp empty).1
      rw [none.2, List.length_nil] at size
      subst size
      exact window ((List.length_eq_zero_iff.mp hmid).trans (List.length_eq_zero_iff.mp hmid').symm)
    rw [dataCrc, checked.dataCrc, data, data', dataChecksum, dataChecksum,
      if_neg (full mid hmid), if_neg (full mid' hmid')]
    exact CrcWindows.crc32_window_ne pre post (hmid.trans hmid'.symm) (by omega) window

end Corruption

/-- An accepted frame with up to two corrupted bytes before the checksums, with corrupted
checksums, or with up to four corrupted data bytes is refused; in the first case by the part
of the parser that slices nothing at the declared length. -/
theorem corrupted_frame_refused (profile : Profile) {buf buf' : Bytes} {f : CommandFrame}
    (accepted : parse profile buf = .ok f) (differ : buf ≠ buf') :
    (∀ lo n, n ≤ 2 → lo + n ≤ 18 → EqOutside lo (lo + n) buf buf' →
      ∃ e, checkHeader buf' = .err e ∧ parse profile buf' = .err e) ∧
    (EqOutside 18 24 buf buf' → parse profile buf' = .err .crcMismatch) ∧
    (∀ lo n, n ≤ 4 → 24 ≤ lo → lo + n ≤ f.length.toNat → EqOutside lo (lo + n) buf buf' →
      parse profile buf' = .err .crcMismatch) := by
  have whole : cmdHeaderSize ≤ buf.length := by
    by_contra short
    rw [CommandGrammar.parse_short profile (by omega)] at accepted
    cases accepted
  obtain ⟨r, rfl⟩ : ∃ r : RawFrame, r.bytes = buf :=
    ⟨RawFrame.ofBytes buf whole, RawFrame.bytes_ofBytes buf whole⟩
  obtain ⟨checked, -, -, result⟩ := CommandGrammar.checked_of_parse accepted
  -- the corrupted buffer is as long, so it is a raw frame as well
  have other {lo hi : Nat} (outside : EqOutside lo hi r.bytes buf') :
      ∃ r' : RawFrame, r'.bytes = buf' := by
    have whole' : cmdHeaderSize ≤ buf'.length := outside.1 ▸ whole
    exact ⟨RawFrame.ofBytes buf' whole', RawFrame.bytes_ofBytes buf' whole'⟩
  refine ⟨?_, ?_, ?_⟩
  · intro lo n narrow inside outside
    obtain ⟨r', rfl⟩ := other outside
    obtain ⟨e, refused⟩ := header_window_refused checked differ narrow inside outside
    exact ⟨e, refused, parse_of_checkHeader_err refused⟩
  · intro outside
    obtain ⟨r', rfl⟩ := other outside
    exact checksum_window_refused checked differ outside
  · intro lo n narrow left right outside
    obtain ⟨r', rfl⟩ := other outside
    have length : f.length = r.length := by rw [result]
    exact data_window_refused checked differ narrow left (length ▸ right) outside

def soundFrame : Bytes :=
  [0xAA, 0, 29, 0, 42, 0, 0, 0, 1, 1, 0, 0, 0, 0, 0, 0, 0, 0, 62, 72, 244, 153, 11, 71,
    1, 2, 3, 4, 5]

/-- A corrupted length, a corrupted checksum, and four corrupted data bytes. -/
theorem corrupted_frame_refused_sound :
    (∃ e, checkHeader (soundFrame.set 2 3) = .err e) ∧
    parse .release (soundFrame.set 21 0) = .err .crcMismatch ∧
    parse .release (soundFrame.take 25 ++ [0, 0, 0, 0]) = .err .crcMismatch := by
  have accepted : parse .release soundFrame = .ok (newReq 42 0x0101 [1, 2, 3, 4, 5]) := by
    decide +kernel
  have lengths := (corrupted_frame_refused .release accepted
    (show soundFrame ≠ soundFrame.set 2 3 by decide)).1 2 2 (by decide) (by decide)
      (by unfold EqOutside; decide)
  have checksums := (corrupted_frame_refused .release accepted
    (show soundFrame ≠ soundFrame.set 21 0 by decide)).2.1 (by unfold EqOutside; decide)
  have data := (corrupted_frame_refused .release accepted
    (show soundFrame ≠ soundFrame.take 25 ++ [0, 0, 0, 0] by decide)).2.2 25 4 (by decide)
      (by decide) (by decide) (by unfold EqOutside; decide)
  exact ⟨lengths.imp fun e refused => refused.1, checksums, data⟩

end LivoxMid360.Protocol.CorruptedFrames
