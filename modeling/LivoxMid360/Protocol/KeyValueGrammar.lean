/- digest: The key-value decoder accepts exactly a grammar, and the grammar delimits itself. -/

import LivoxMid360.Protocol.Parameters

set_option autoImplicit false
set_option relaxedAutoImplicit false

namespace LivoxMid360.Protocol.KeyValueGrammar

open Foundation.RustOutcome
open Foundation.LittleEndian
open Foundation.ByteBuffer
open Vocabulary Parameters

/-- The count, two reserved bytes, one block an item, and whatever follows. Counts and
lengths are numbers that sixteen bits can hold. -/
def Grammar (data : Bytes) (out : KeyValueList) : Prop :=
  out.length < 2 ^ 16 ∧ (∀ item ∈ out, item.2.length < 2 ^ 16) ∧
    ∃ reserved suffix : Bytes, reserved.length = 2 ∧
      data = toLe (UInt16.ofNat out.length) ++ (reserved ++ (out.flatMap encodeItem ++ suffix))

def TooShort (data : Bytes) (result : Result KeyValueList) : Prop :=
  ∃ need, data.length < need ∧ result = .err (.packetTooShort need data.length)

theorem Grammar.append {data : Bytes} {out : KeyValueList} (written : Grammar data out)
    (more : Bytes) : Grammar (data ++ more) out := by
  obtain ⟨count, sizes, reserved, suffix, two, rfl⟩ := written
  exact ⟨count, sizes, reserved, suffix ++ more, two, by simp only [List.append_assoc]⟩

theorem Grammar.length_le {data : Bytes} {out : KeyValueList} (written : Grammar data out) :
    4 + (out.flatMap encodeItem).length ≤ data.length := by
  obtain ⟨_, _, reserved, suffix, two, rfl⟩ := written
  simp only [List.length_append, length_toLe, width_u16, two]
  omega

theorem grammar_encode {items : KeyValueList} (count : items.length < 2 ^ 16)
    (sizes : ∀ item ∈ items, item.2.length < 2 ^ 16) :
    Grammar (encodeKeyValueList items) items :=
  ⟨count, sizes, toLe (0 : UInt16), [], length_toLe _, by rw [List.append_nil, encodeKeyValueList]⟩

theorem decodeItems_cases (data : Bytes) (n off : Nat) :
    TooShort data (decodeItems data (n + 1) off) ∨
      ∃ key value, value.length < 2 ^ 16 ∧
        data.drop off = encodeItem (key, value) ++ data.drop (off + 4 + value.length) ∧
        decodeItems data (n + 1) off =
          (do
            let others ← decodeItems data n (off + 4 + value.length)
            return (key, value) :: others) := by
  rw [decodeItems]
  -- the loop checks for the four bytes of an item, then for its value
  by_cases header : data.length < off + 4
  · rw [if_pos header]
    exact .inl ⟨off + 4, header, rfl⟩
  rw [if_neg header, readLe_ok (by rw [width_u16]; omega), Outcome.ok_bind,
    readLe_ok (by rw [width_u16]; omega), Outcome.ok_bind]
  dsimp only
  obtain ⟨key, hkey⟩ : ∃ key, key = field UInt16 off data := ⟨_, rfl⟩
  obtain ⟨len, hlen⟩ : ∃ len, len = field UInt16 (off + 2) data := ⟨_, rfl⟩
  rw [← hkey, ← hlen]
  by_cases body : data.length < off + 4 + len.toNat
  · rw [if_pos body]
    exact .inl ⟨_, body, rfl⟩
  rw [if_neg body, slice_ok (by omega) (by omega), Outcome.ok_bind, Nat.add_sub_cancel_left]
  obtain ⟨value, hvalue⟩ : ∃ value, value = (data.drop (off + 4)).take len.toNat := ⟨_, rfl⟩
  have size : value.length = len.toNat := by
    rw [hvalue, List.length_take, List.length_drop]
    omega
  have lengthField : UInt16.ofNat value.length = len := by
    rw [size, UInt16.ofNat_toNat]
  -- what was read is what stands there, field by field
  have keyBytes : toLe key ++ data.drop (off + 2) = data.drop off := by
    rw [hkey]
    exact toLe_field_append_drop (by rw [width_u16]; omega)
  have lengthBytes : toLe len ++ data.drop (off + 4) = data.drop (off + 2) := by
    rw [hlen]
    exact toLe_field_append_drop (by rw [width_u16]; omega)
  have valueBytes : value ++ data.drop (off + 4 + value.length) = data.drop (off + 4) := by
    rw [size, ← List.drop_drop, hvalue]
    exact List.take_append_drop _ _
  refine .inr ⟨key, value, ?_, ?_, ?_⟩
  · rw [size]
    exact len.toNat_lt
  · rw [encodeItem, lengthField, List.append_assoc, List.append_assoc, valueBytes, lengthBytes,
      keyBytes]
  · rw [size, hvalue]

/-- From any offset the decoder refuses, or returns as many items as it was asked for, and
they stand there. -/
theorem decodeItems_inv (data : Bytes) (n off : Nat) :
    TooShort data (decodeItems data n off) ∨
      ∃ out suffix, decodeItems data n off = .ok out ∧ out.length = n ∧
        (∀ item ∈ out, item.2.length < 2 ^ 16) ∧
        data.drop off = out.flatMap encodeItem ++ suffix := by
  -- on the number of items to read, the offset being any
  induction n generalizing off with
  | zero => exact .inr ⟨[], data.drop off, rfl, rfl, List.forall_mem_nil _, rfl⟩
  | succ n ih =>
    rcases decodeItems_cases data n off with short | ⟨key, value, size, item, step⟩
    · exact .inl short
    rcases ih (off + 4 + value.length) with ⟨need, short, refused⟩ | found
    · refine .inl ⟨need, short, ?_⟩
      rw [step, refused, Outcome.err_bind]
    · obtain ⟨out, suffix, returned, count, sizes, layout⟩ := found
      refine .inr ⟨(key, value) :: out, suffix, ?_, ?_, ?_, ?_⟩
      · rw [step, returned, Outcome.ok_bind, Outcome.pure_eq_ok]
      · rw [List.length_cons, count]
      · exact List.forall_mem_cons.mpr ⟨size, sizes⟩
      · rw [item, layout, List.flatMap_cons, List.append_assoc]

theorem decode_of_grammar {data : Bytes} {out : KeyValueList} (written : Grammar data out) :
    decodeKeyValueList data = .ok out := by
  have room := written.length_le
  obtain ⟨count, sizes, reserved, suffix, two, layout⟩ := written
  have keyNum : (readLe UInt16 data 0 : Result UInt16) = .ok (UInt16.ofNat out.length) := by
    rw [readLe_ok (by rw [width_u16]; omega), layout, field_toLe_append]
  have header : (toLe (UInt16.ofNat out.length) ++ reserved).length = 4 := by
    rw [List.length_append, length_toLe, width_u16, two]
  have items := decodeItems_encode out sizes (toLe (UInt16.ofNat out.length) ++ reserved) suffix
  rw [header, List.append_assoc, ← layout] at items
  rw [decodeKeyValueList, if_neg (by omega), keyNum, Outcome.ok_bind,
    UInt16.toNat_ofNat_of_lt' count, items]

theorem decode_inv (data : Bytes) :
    TooShort data (decodeKeyValueList data) ∨
      ∃ out, decodeKeyValueList data = .ok out ∧ Grammar data out := by
  rw [decodeKeyValueList]
  by_cases short : data.length < 4
  · rw [if_pos short]
    exact .inl ⟨4, short, rfl⟩
  rw [if_neg short, readLe_ok (by rw [width_u16]; omega), Outcome.ok_bind]
  rcases decodeItems_inv data (field UInt16 0 data).toNat 4 with refused | found
  · exact .inl refused
  obtain ⟨out, suffix, returned, count, sizes, layout⟩ := found
  have countField : UInt16.ofNat out.length = field UInt16 0 data := by
    rw [count, UInt16.ofNat_toNat]
  have countBytes : toLe (field UInt16 0 data) ++ data.drop 2 = data := by
    exact toLe_field_append_drop (by rw [width_u16]; omega)
  have reservedBytes := List.take_append_drop 2 (data.drop 2)
  rw [List.drop_drop] at reservedBytes
  refine .inr ⟨out, returned, ?_, sizes, (data.drop 2).take 2, suffix, ?_, ?_⟩
  · rw [count]
    exact UInt16.toNat_lt _
  · rw [List.length_take, List.length_drop]
    omega
  · rw [countField, ← layout, reservedBytes, countBytes]

theorem decode_eq_ok_iff (data : Bytes) (out : KeyValueList) :
    decodeKeyValueList data = .ok out ↔ Grammar data out := by
  refine ⟨fun returned => ?_, decode_of_grammar⟩
  rcases decode_inv data with ⟨need, _, refused⟩ | ⟨found, same, written⟩
  · cases returned.symm.trans refused
  · cases returned.symm.trans same
    exact written

theorem decode_tooShort {data : Bytes} (foreign : ∀ out, ¬ Grammar data out) :
    TooShort data (decodeKeyValueList data) := by
  rcases decode_inv data with refused | ⟨out, _, written⟩
  · exact refused
  · exact absurd written (foreign out)

theorem no_strict_start_decodes {items : KeyValueList} (count : items.length < 2 ^ 16)
    (sizes : ∀ item ∈ items, item.2.length < 2 ^ 16) {start : Bytes}
    (begins : start <+: encodeKeyValueList items) (strict : start ≠ encodeKeyValueList items)
    (out : KeyValueList) : decodeKeyValueList start ≠ .ok out := by
  intro returned
  have written := (decode_eq_ok_iff start out).mp returned
  obtain ⟨more, whole⟩ := begins
  have continued := written.append more
  rw [whole] at continued
  -- what continues a payload in the grammar decodes to the same list
  have same := (decode_of_grammar continued).symm.trans
    (decode_of_grammar (grammar_encode count sizes))
  cases same
  have room := written.length_le
  have total := length_encodeKeyValueList items
  have lengths := congrArg List.length whole
  rw [List.length_append] at lengths
  -- the start would have to hold that list already
  have none : more = [] := List.length_eq_zero_iff.mp (by omega)
  rw [none, List.append_nil] at whole
  exact strict whole

/-- The decoder accepts exactly the grammar, reports every other payload as too short, and
inverts the encoder, none of whose encodings decodes when cut off. -/
theorem decoder_is_grammar :
    (∀ data out, decodeKeyValueList data = .ok out ↔ Grammar data out) ∧
    (∀ data, (∀ out, ¬ Grammar data out) → TooShort data (decodeKeyValueList data)) ∧
    ∀ items : KeyValueList, items.length ≤ 65535 → (∀ item ∈ items, item.2.length ≤ 65535) →
      decodeKeyValueList (encodeKeyValueList items) = .ok items ∧
        ∀ start, start <+: encodeKeyValueList items → start ≠ encodeKeyValueList items →
          ∀ out, decodeKeyValueList start ≠ .ok out := by
  refine ⟨decode_eq_ok_iff, fun data => decode_tooShort, ?_⟩
  intro items count sizes
  have count : items.length < 2 ^ 16 := Nat.lt_succ_of_le count
  have sizes : ∀ item ∈ items, item.2.length < 2 ^ 16 := fun item member =>
    Nat.lt_succ_of_le (sizes item member)
  exact ⟨decode_of_grammar (grammar_encode count sizes),
    fun start begins strict out => no_strict_start_decodes count sizes begins strict out⟩

theorem decoder_is_grammar_repeated_key :
    decodeKeyValueList (encodeKeyValueList [(7, [1, 2]), (7, [])]) = .ok [(7, [1, 2]), (7, [])] :=
  (decoder_is_grammar.2.2 [(7, [1, 2]), (7, [])] (by decide) (by decide)).1

end LivoxMid360.Protocol.KeyValueGrammar
