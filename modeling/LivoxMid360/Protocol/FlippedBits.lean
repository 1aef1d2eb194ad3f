/- digest: Flipped bits in frames that either checksum covers. -/

import LivoxMid360.Foundation.BitErrors
import LivoxMid360.Protocol.CorruptedFrames
import LivoxMid360.Protocol.CrcRemainders
import Mathlib.Tactic.NormNum.Prime

set_option autoImplicit false
set_option relaxedAutoImplicit false

namespace LivoxMid360.Protocol.FlippedBits

open Foundation.RustOutcome
open Foundation.LittleEndian
open Foundation.ByteBuffer
open Foundation.BitPolynomials
open Foundation.BitErrors
open Foundation.ShiftRegister
open Vocabulary Crc Command
open CommandFrame (parse newReq)
open CorruptedFrames

theorem orderOf_crc16 : orderOf (AdjoinRoot.root (modulus 0x1021#16)) = 32767 := by
  -- no shorter cycle: the order is 7 * 31 * 151 and no proper divisor of it
  have primes : ∀ q ∈ [7, 31, 151], q.Prime := by norm_num
  exact orderOf_root _ (by decide) (f := 15) (by decide) (by decide) primes rfl
    (by decide +kernel) (by decide +kernel)

/-- No feedback word of 32 bits has a longer cycle. -/
theorem orderOf_crc32 : orderOf (AdjoinRoot.root (modulus 0x04C11DB7#32)) = 4294967295 := by
  have primes : ∀ q ∈ [3, 5, 17, 257, 65537], q.Prime := by norm_num
  exact orderOf_root _ (by decide) (f := 32) (by decide) (by decide) primes rfl
    (by decide +kernel) (by decide +kernel)

section Messages

variable {a b : Bytes} (same : a.length = b.length)

include same

theorem crc16_misses (short : 8 * a.length + 16 ≤ 32767) (total : Nat)
    (counted : flips a b + weight (crc16CcittFalse a ^^^ crc16CcittFalse b).toBitVec = total) :
    Even total ∧ (total ≠ 0 → 2 < total) := by
  have divides := modulus_dvd_errors 0x1021#16 rfl (by decide) 0xFFFF#16 same
  have card := card_support_errors same (crc16CcittFalse a).toBitVec (crc16CcittFalse b).toBitVec
  rw [← UInt16.toBitVec_xor, counted] at card
  rw [CrcWindows.crc16CcittFalse_toBitVec, CrcWindows.crc16CcittFalse_toBitVec] at card
  -- the generator is divisible by `X + 1`
  have factor : (modulus 0x1021#16).eval 1 = 0 := by
    rw [CrcRemainders.modulus_crc16]
    simp
    decide
  constructor
  · rw [← card]
    exact even_card_support factor divides
  · intro some
    rw [← card] at some ⊢
    exact two_lt_card_support orderOf_crc16 (by decide)
      (fun i high => coeff_errors_eq_zero same _ _ (short.trans high)) divides some

theorem crc32_misses (short : 8 * a.length + 32 ≤ 4294967295) (total : Nat)
    (counted : flips a b + weight (crc32 a ^^^ crc32 b).toBitVec = total) (some : total ≠ 0) :
    2 < total := by
  have bottom : BitVec.getLsbD 0x04C11DB7#32 0 = true := rfl
  have feedback : BitVec.reverse 0xEDB88320#32 = 0x04C11DB7#32 := by decide +kernel
  have image (data : Bytes) :=
    reverse_foldl_absorb feedback rfl bottom (by decide) 0xFFFFFFFF#32 data
  have sameMirrored : (a.map mirrored).length = (b.map mirrored).length := by
    rw [List.length_map, List.length_map, same]
  have divides := modulus_dvd_errors _ bottom (by decide) (BitVec.reverse 0xFFFFFFFF#32)
    sameMirrored
  rw [← image, ← image] at divides
  -- mirroring a word and inverting it at the end move or cancel flips, and make none
  have words : weight ((a.foldl CrcWindows.crc32Register.absorb 0xFFFFFFFF#32).reverse ^^^
      (b.foldl CrcWindows.crc32Register.absorb 0xFFFFFFFF#32).reverse) =
        weight (crc32 a ^^^ crc32 b).toBitVec := by
    rw [← reverse_xor, weight_reverse, UInt32.toBitVec_xor, CrcWindows.crc32_toBitVec,
      CrcWindows.crc32_toBitVec]
    apply congrArg
    rw [BitVec.xor_comm (b.foldl _ _), BitVec.xor_assoc, ← BitVec.xor_assoc (0xFFFFFFFF#32),
      BitVec.xor_self, BitVec.zero_xor]
  have card := card_support_errors sameMirrored
    (a.foldl CrcWindows.crc32Register.absorb 0xFFFFFFFF#32).reverse
    (b.foldl CrcWindows.crc32Register.absorb 0xFFFFFFFF#32).reverse
  rw [flips_map_mirrored, words, counted] at card
  rw [← card] at some ⊢
  refine two_lt_card_support orderOf_crc32 (by decide) (fun i high => ?_) divides some
  refine coeff_errors_eq_zero sameMirrored _ _ ?_
  rw [List.length_map]
  exact short.trans high

end Messages

theorem flips_toLe_u16 (x y : UInt16) : flips (toLe x) (toLe y) = weight (x ^^^ y).toBitVec :=
  flips_words (k := 2) x.toBitVec y.toBitVec

theorem flips_toLe_u32 (x y : UInt32) : flips (toLe x) (toLe y) = weight (x ^^^ y).toBitVec :=
  flips_words (k := 4) x.toBitVec y.toBitVec

section Frames

variable {profile : Profile} {r r' : RawFrame}

theorem take_header (r : RawFrame) : r.bytes.take 20 = r.head ++ toLe r.headerCrc := by
  have whole : r.bytes = (r.head ++ toLe r.headerCrc) ++ (toLe r.dataCrc ++ r.body) := by
    rw [RawFrame.bytes, List.append_assoc]
  rw [whole, List.take_left' (by simp)]

theorem flips_header : flips (r.bytes.take 20) (r'.bytes.take 20) =
    flips r.head r'.head + weight (r.headerCrc ^^^ r'.headerCrc).toBitVec := by
  rw [take_header, take_header, flips_append (by simp), flips_toLe_u16]

theorem drop_take_header (low : cmdHeaderSize ≤ r.length.toNat) :
    (r.bytes.take r.length.toNat).drop 20 = toLe r.dataCrc ++ r.data := by
  rw [cmdHeaderSize] at low
  have whole : r.bytes = (r.head ++ toLe r.headerCrc) ++ (toLe r.dataCrc ++ r.body) := by
    rw [RawFrame.bytes, List.append_assoc]
  rw [List.drop_take, whole, List.drop_left' (by simp), List.take_append, length_toLe, width_u32,
    List.take_of_length_le (by rw [length_toLe, width_u32]; omega), RawFrame.data, cmdHeaderSize,
    Nat.sub_sub]

/-- Flips under the header checksum, in odd number or two. -/
theorem header_flips_refused (checked : CommandGrammar.Checked r)
    (flipped : Odd (flips (r.bytes.take 20) (r'.bytes.take 20)) ∨
      flips (r.bytes.take 20) (r'.bytes.take 20) = 2) :
    ∃ e, checkHeader r'.bytes = .err e := by
  apply checkHeader_refuses
  intro intact
  -- a checksum that still held would turn these flips into an error that it misses
  rw [flips_header, checked.headerCrc, intact] at flipped
  have size : r.head.length = r'.head.length := by
    rw [r.length_head, r'.length_head]
  obtain ⟨even, many⟩ := crc16_misses size (by rw [r.length_head]; decide) _ rfl
  rcases flipped with odd | two
  · exact Nat.not_even_iff_odd.mpr odd even
  · exact absurd (many (by omega)) (by omega)

theorem data_flips_refused (checked : CommandGrammar.Checked r)
    (sized : r'.bytes.length = r.bytes.length) (intact : r'.bytes.take 20 = r.bytes.take 20)
    (some : flips ((r.bytes.take r.length.toNat).drop 20)
      ((r'.bytes.take r.length.toNat).drop 20) ≠ 0)
    (few : flips ((r.bytes.take r.length.toNat).drop 20)
      ((r'.bytes.take r.length.toNat).drop 20) ≤ 2) :
    parse profile r'.bytes = .err .crcMismatch := by
  have apart : EqOutside 20 r'.bytes.length r'.bytes r.bytes := by
    refine ⟨sized, intact, ?_⟩
    rw [List.drop_length, sized, List.drop_length]
  have sof : r'.sof = r.sof := by
    rw [← r.field_sof, ← r'.field_sof, apart.field_before (by simp)]
  have length : r'.length = r.length := by
    rw [← r.field_length, ← r'.field_length, apart.field_before (by simp)]
  have headerCrc : r'.headerCrc = r.headerCrc := by
    rw [← r.field_headerCrc, ← r'.field_headerCrc, apart.field_before (by simp)]
  have head : r'.head = r.head := by
    rw [← r.take_head, ← r'.take_head, apart.take_eq (by decide)]
  have within : r'.length.toNat ≤ r'.bytes.length := by
    rw [length, sized]
    exact checked.within
  have low : cmdHeaderSize ≤ r'.length.toNat := length ▸ checked.low
  have size : r.data.length = r'.data.length := by
    rw [r.length_data checked.within, r'.length_data within, length]
  apply parse_mismatch_data (sof.trans checked.start) within
    (by rw [headerCrc, head, checked.headerCrc]) low
  intro valid
  have words := drop_take_header low
  rw [length] at words
  rw [drop_take_header checked.low, words, flips_append (by simp), flips_toLe_u32,
    checked.dataCrc, valid] at some few
  -- without data the checksum is zero on both sides, and nothing can have flipped
  by_cases empty : r.data = []
  · have empty' : r'.data = [] := by
      rw [← List.length_eq_zero_iff, ← size, empty, List.length_nil]
    rw [empty, empty'] at some
    exact some rfl
  · have full : r'.data ≠ [] := by
      rwa [Ne, ← List.length_eq_zero_iff, ← size, List.length_eq_zero_iff]
    rw [dataChecksum, dataChecksum, if_neg empty, if_neg full, Nat.add_comm] at some few
    have bound := r.length.toNat_lt
    have many := crc32_misses size (by rw [r.length_data checked.within]; omega) _ rfl some
    omega

end Frames

/-- An accepted frame is refused by the checks before its declared length is used when the
header and its checksum have two or an odd number of flipped bits, by the data checksum when
there are one or two behind an intact header, and in any case when the bytes that the frame
declares have one or two flipped bits. -/
theorem flipped_frame_refused (profile : Profile) {buf buf' : Bytes} {f : CommandFrame}
    (accepted : parse profile buf = .ok f) (sized : buf'.length = buf.length) :
    (Odd (flips (buf.take 20) (buf'.take 20)) ∨ flips (buf.take 20) (buf'.take 20) = 2 →
      ∃ e, checkHeader buf' = .err e ∧ parse profile buf' = .err e) ∧
    (∀ n, n = flips (buf.take f.length.toNat) (buf'.take f.length.toNat) → n ≠ 0 → n ≤ 2 →
      (∃ e, parse profile buf' = .err e) ∧
        (buf'.take 20 = buf.take 20 → parse profile buf' = .err .crcMismatch)) := by
  have whole : cmdHeaderSize ≤ buf.length := by
    by_contra short
    rw [CommandGrammar.parse_short profile (by omega)] at accepted
    cases accepted
  obtain ⟨r, rfl⟩ : ∃ r : RawFrame, r.bytes = buf :=
    ⟨RawFrame.ofBytes buf whole, RawFrame.bytes_ofBytes buf whole⟩
  obtain ⟨r', rfl⟩ : ∃ r' : RawFrame, r'.bytes = buf' :=
    ⟨RawFrame.ofBytes buf' (sized ▸ whole), RawFrame.bytes_ofBytes buf' (sized ▸ whole)⟩
  obtain ⟨checked, -, -, result⟩ := CommandGrammar.checked_of_parse accepted
  have declared : f.length = r.length := by rw [result]
  have low := checked.low
  rw [cmdHeaderSize] at low
  have header (flipped : Odd (flips (r.bytes.take 20) (r'.bytes.take 20)) ∨
      flips (r.bytes.take 20) (r'.bytes.take 20) = 2) :
      ∃ e, checkHeader r'.bytes = .err e ∧ parse profile r'.bytes = .err e := by
    obtain ⟨e, refused⟩ := header_flips_refused checked flipped
    exact ⟨e, refused, parse_of_checkHeader_err refused⟩
  refine ⟨header, ?_⟩
  rintro n rfl some few
  rw [declared] at some few
  have split := flips_take_add_drop 20 (r.bytes.take r.length.toNat) (r'.bytes.take r.length.toNat)
  rw [List.take_take, List.take_take, Nat.min_eq_left (by omega)] at split
  have data (intact : r'.bytes.take 20 = r.bytes.take 20) :
      parse profile r'.bytes = .err .crcMismatch := by
    rw [intact, flips_self, Nat.zero_add] at split
    rw [← split] at some few
    exact data_flips_refused checked sized intact some few
  refine ⟨?_, data⟩
  -- flips in the header are refused by it, and otherwise all of them are behind it
  by_cases clean : flips (r.bytes.take 20) (r'.bytes.take 20) = 0
  · have intact := eq_of_flips_eq_zero (by rw [List.length_take, List.length_take, sized]) clean
    exact ⟨_, data intact.symm⟩
  · have flipped : Odd (flips (r.bytes.take 20) (r'.bytes.take 20)) ∨
        flips (r.bytes.take 20) (r'.bytes.take 20) = 2 := by
      by_cases two : flips (r.bytes.take 20) (r'.bytes.take 20) = 2
      · exact .inr two
      · left
        rw [show flips (r.bytes.take 20) (r'.bytes.take 20) = 1 by omega]
        decide
    obtain ⟨e, -, refused⟩ := header flipped
    exact ⟨e, refused⟩

theorem flipped_frame_refused_sound :
    (∃ e, checkHeader ((soundFrame.set 11 1).set 4 41) = .err e) ∧
    parse .release ((soundFrame.set 24 0).set 28 4) = .err .crcMismatch := by
  have accepted : parse .release soundFrame = .ok (newReq 42 0x0101 [1, 2, 3, 4, 5]) := by
    decide +kernel
  have header := (flipped_frame_refused .release accepted
    (show ((soundFrame.set 11 1).set 4 41).length = soundFrame.length by decide)).1
    (.inl (by decide +kernel))
  have data := (flipped_frame_refused .release accepted
    (show ((soundFrame.set 24 0).set 28 4).length = soundFrame.length by decide)).2 2
    (by decide +kernel) (by decide) (by decide)
  exact ⟨header.imp fun e refused => refused.1, data.2 (by decide)⟩

end LivoxMid360.Protocol.FlippedBits
