/- digest: Key lists and key-value lists: the payloads of configuration and inquiry commands. -/

import LivoxMid360.Foundation.ByteBuffer
import LivoxMid360.Protocol.Vocabulary

set_option autoImplicit false
set_option relaxedAutoImplicit false

namespace LivoxMid360.Protocol.Parameters

open Foundation.RustOutcome
open Foundation.LittleEndian
open Foundation.ByteBuffer
open Vocabulary

abbrev KeyValueList := List (UInt16 × Bytes)

/-- One `(key, value)` pair; the length cast keeps the low sixteen bits only. -/
def encodeItem (item : UInt16 × Bytes) : Bytes :=
  toLe item.1 ++ (toLe (UInt16.ofNat item.2.length) ++ item.2)

def encodeKeyValueList (items : List (UInt16 × Bytes)) : Bytes :=
  toLe (UInt16.ofNat items.length) ++ (toLe (0 : UInt16) ++ items.flatMap encodeItem)

/-- The loop of the decoder: items still to read, and the offset of the next one. -/
def decodeItems (data : Bytes) : Nat → Nat → Result KeyValueList
  | 0, _ => .ok []
  | n + 1, off => do
    if data.length < off + 4 then
      .err (.packetTooShort (off + 4) data.length)
    else
    let key ← readLe UInt16 data off
    let len ← readLe UInt16 data (off + 2)
    let off := off + 4
    if data.length < off + len.toNat then
      .err (.packetTooShort (off + len.toNat) data.length)
    else
    let value ← slice data off (off + len.toNat)
    let rest ← decodeItems data n (off + len.toNat)
    return (key, value) :: rest

def decodeKeyValueList (data : Bytes) : Result KeyValueList := do
  if data.length < 4 then
    .err (.packetTooShort 4 data.length)
  else
  let keyNum ← readLe UInt16 data 0
  decodeItems data keyNum.toNat 4

def encodeKeyList (keys : List UInt16) : Bytes :=
  toLe (UInt16.ofNat keys.length) ++ (toLe (0 : UInt16) ++ keys.flatMap toLe)

/-- `data[lo..hi].try_into().unwrap()` into a byte array of size `n`. -/
def sliceArray (n : Nat) (data : Bytes) (lo hi : Nat) : Result (Vector UInt8 n) := do
  let bytes ← slice data lo hi
  if h : bytes.length = n then .ok ⟨⟨bytes⟩, h⟩ else .panic .unwrapOnErr

structure DiscoveryAck where
  retCode : ReturnCode
  devType : UInt8
  serialNumber : Vector UInt8 16
  lidarIp : Ipv4Addr
  cmdPort : UInt16
  deriving DecidableEq, Repr

def DiscoveryAck.parse (data : Bytes) : Result DiscoveryAck := do
  if data.length < 24 then
    .err (.packetTooShort 24 data.length)
  else
  let retCode ← ReturnCode.tryFrom (← index data 0)
  let devType ← index data 1
  let serialNumber ← sliceArray 16 data 2 18
  let lidarIp := ⟨← index data 18, ← index data 19, ← index data 20, ← index data 21⟩
  let cmdPort ← readLe UInt16 data 22
  return { retCode, devType, serialNumber, lidarIp, cmdPort }

def hostIpCfgValue (ip : Ipv4Addr) (destPort sourcePort : UInt16) : Bytes :=
  ip.octets ++ toLe destPort ++ toLe sourcePort

def buildParamConfig (keys : List (ParameterKey × Bytes)) : Bytes :=
  encodeKeyValueList (keys.map fun item => (item.1.asU16, item.2))

def buildParamInquire (keys : List ParameterKey) : Bytes :=
  encodeKeyList (keys.map ParameterKey.asU16)

def parseParamConfigAck (data : Bytes) : Result (ReturnCode × Option UInt16) := do
  if data.isEmpty then
    .err (.packetTooShort 1 0)
  else
  let retCode ← ReturnCode.tryFrom (← index data 0)
  -- the key is optional, whatever the return code is
  let errorKey ← if 3 ≤ data.length then some <$> readLe UInt16 data 1 else .ok none
  return (retCode, errorKey)

def parseParamInquireAck (data : Bytes) : Result (ReturnCode × KeyValueList) := do
  if data.isEmpty then
    .err (.packetTooShort 1 0)
  else
  let retCode ← ReturnCode.tryFrom (← index data 0)
  let pairs ← decodeKeyValueList (← sliceFrom data 1)
  return (retCode, pairs)

theorem length_encodeItem (item : UInt16 × Bytes) :
    (encodeItem item).length = 4 + item.2.length := by
  simp only [encodeItem, List.length_append, length_toLe, width_u16]
  omega

theorem length_encodeKeyValueList (items : List (UInt16 × Bytes)) :
    (encodeKeyValueList items).length = 4 + (items.flatMap encodeItem).length := by
  simp only [encodeKeyValueList, List.length_append, length_toLe, width_u16]
  omega

theorem length_items_le (items : List (UInt16 × Bytes)) :
    4 * items.length ≤ (items.flatMap encodeItem).length := by
  induction items with
  | nil => exact Nat.le_refl _
  | cons item items ih =>
    rw [List.flatMap_cons, List.length_append, length_encodeItem, List.length_cons]
    omega

theorem length_value_le {items : List (UInt16 × Bytes)} {item : UInt16 × Bytes}
    (member : item ∈ items) : item.2.length ≤ (items.flatMap encodeItem).length := by
  induction items with
  | nil => cases member
  | cons first items ih =>
    rw [List.flatMap_cons, List.length_append, length_encodeItem]
    rcases List.mem_cons.mp member with rfl | later
    · omega
    · have := ih later
      omega

theorem decodeItems_item (key : UInt16) {value : Bytes} (size : value.length < 2 ^ 16)
    (pre rest : Bytes) (n : Nat) :
    decodeItems (pre ++ (encodeItem (key, value) ++ rest)) (n + 1) pre.length =
      (do
        let others ← decodeItems (pre ++ (encodeItem (key, value) ++ rest)) n
          (pre ++ encodeItem (key, value)).length
        return (key, value) :: others) := by
  obtain ⟨data, hdata⟩ : ∃ data, data = pre ++ (encodeItem (key, value) ++ rest) := ⟨_, rfl⟩
  have item : (encodeItem (key, value)).length = 4 + value.length := length_encodeItem _
  have next : (pre ++ encodeItem (key, value)).length = pre.length + 4 + value.length := by
    rw [List.length_append]
    omega
  have total : data.length = pre.length + 4 + value.length + rest.length := by
    rw [hdata, ← List.append_assoc, List.length_append, next]
  have len : (UInt16.ofNat value.length).toNat = value.length := UInt16.toNat_ofNat_of_lt' size
  -- each read finds what the item wrote, `pre` being what was decoded already
  have readKey : (readLe UInt16 data pre.length : Result UInt16) = .ok key := by
    rw [readLe_ok (by rw [width_u16]; omega), hdata, encodeItem, List.append_assoc,
      field_at pre _ key rfl]
  have readLen : (readLe UInt16 data (pre.length + 2) : Result UInt16) =
      .ok (UInt16.ofNat value.length) := by
    have layout : data =
        (pre ++ toLe key) ++ (toLe (UInt16.ofNat value.length) ++ (value ++ rest)) := by
      simp only [hdata, encodeItem, List.append_assoc]
    rw [readLe_ok (by rw [width_u16]; omega), layout, field_at _ _ _ (by simp)]
  have readValue : (slice data (pre.length + 4) (pre.length + 4 + value.length) : Result Bytes) =
      .ok value := by
    have layout : data =
        (pre ++ (toLe key ++ toLe (UInt16.ofNat value.length))) ++ (value ++ rest) := by
      simp only [hdata, encodeItem, List.append_assoc]
    have header : (pre ++ (toLe key ++ toLe (UInt16.ofNat value.length))).length =
        pre.length + 4 := by
      simp
    rw [slice_ok (by omega) (by omega), layout, ← header, List.drop_left,
      Nat.add_sub_cancel_left, List.take_left]
  rw [← hdata, next, decodeItems, if_neg (by omega), readKey, Outcome.ok_bind, readLen,
    Outcome.ok_bind]
  dsimp only
  rw [len, if_neg (by omega), readValue, Outcome.ok_bind]

/-- The decoder reads back, from any offset, the items that stand there, provided that no
value's length was truncated. -/
theorem decodeItems_encode (items : List (UInt16 × Bytes))
    (sizes : ∀ item ∈ items, item.2.length < 2 ^ 16) (pre tail : Bytes) :
    decodeItems (pre ++ (items.flatMap encodeItem ++ tail)) items.length pre.length =
      .ok items := by
  -- the bytes already read grow with the items
  induction items generalizing pre with
  | nil => rfl
  | cons item items ih =>
    obtain ⟨key, value⟩ := item
    obtain ⟨size, others⟩ := List.forall_mem_cons.mp sizes
    have rest := ih others (pre ++ encodeItem (key, value))
    rw [List.append_assoc] at rest
    rw [List.flatMap_cons, List.append_assoc, List.length_cons, decodeItems_item key size, rest]
    rfl

theorem decodeKeyValueList_encode {items : List (UInt16 × Bytes)}
    (count : items.length < 2 ^ 16) (sizes : ∀ item ∈ items, item.2.length < 2 ^ 16)
    (tail : Bytes) :
    decodeKeyValueList (encodeKeyValueList items ++ tail) = .ok items := by
  have num : (UInt16.ofNat items.length).toNat = items.length :=
    UInt16.toNat_ofNat_of_lt' count
  have layout : encodeKeyValueList items ++ tail = (toLe (UInt16.ofNat items.length) ++
      toLe (0 : UInt16)) ++ (items.flatMap encodeItem ++ tail) := by
    simp only [encodeKeyValueList, List.append_assoc]
  have total := length_encodeKeyValueList items
  have keyNum : (readLe UInt16 (encodeKeyValueList items ++ tail) 0 : Result UInt16) =
      .ok (UInt16.ofNat items.length) := by
    rw [readLe_ok (by rw [List.length_append, width_u16]; omega), encodeKeyValueList,
      List.append_assoc, field_toLe_append]
  rw [decodeKeyValueList, if_neg (by rw [List.length_append]; omega), keyNum, Outcome.ok_bind,
    num, layout]
  exact decodeItems_encode items sizes _ tail

theorem decodeKeyValueList_of_length {items : List (UInt16 × Bytes)}
    (h : (encodeKeyValueList items).length < 2 ^ 16) :
    decodeKeyValueList (encodeKeyValueList items) = .ok items := by
  have total := length_encodeKeyValueList items
  have count := length_items_le items
  -- no value is longer than the whole
  have sizes : ∀ item ∈ items, item.2.length < 2 ^ 16 := by
    intro item member
    have within := length_value_le member
    omega
  have whole := decodeKeyValueList_encode (by omega) sizes []
  rwa [List.append_nil] at whole

theorem DiscoveryAck.parse_returns (data : Bytes) : (DiscoveryAck.parse data).Returns := by
  rw [DiscoveryAck.parse]
  by_cases short : data.length < 24
  · rw [if_pos short]
    exact Outcome.returns_err _
  rw [if_neg short, index_ok (by omega), Outcome.ok_bind]
  apply Outcome.Returns.bind (tryFrom_returns (K := ReturnCode) _)
  intro retCode _
  have serial : (sliceArray 16 data 2 18).Returns := by
    rw [sliceArray, slice_ok (by omega) (by omega), Outcome.ok_bind, dif_pos]
    · exact Outcome.returns_ok _
    · rw [List.length_take, List.length_drop]
      omega
  rw [index_ok (by omega), Outcome.ok_bind]
  apply Outcome.Returns.bind serial
  intro serialNumber _
  rw [index_ok (by omega), index_ok (by omega), index_ok (by omega), index_ok (by omega),
    readLe_ok (by rw [width_u16]; omega)]
  exact Outcome.returns_ok _

end LivoxMid360.Protocol.Parameters
