/- digest: The command client: requests, the two receive loops, and the parameter commands. -/

import LivoxMid360.Protocol.CommandGrammar

set_option autoImplicit false
set_option relaxedAutoImplicit false

namespace LivoxMid360.Control.Client

open Foundation.RustOutcome
open Foundation.LittleEndian
open Foundation.ByteBuffer
open Protocol.Vocabulary Protocol.Command Protocol.Parameters
open CommandFrame (newReq)

structure Datagram where
  source : SocketAddr
  bytes : Bytes
  deriving DecidableEq, Repr

/-- `recv_from` into a buffer of the given capacity: the rest of the datagram is lost. -/
def Datagram.received (d : Datagram) (capacity : Nat) : Bytes := d.bytes.take capacity

/-- How one `timeout(remaining, recv_from(..))` can end. A deadline found to have passed
before the call counts as `elapsed` as well. -/
inductive Recv
  | datagram (d : Datagram)
  | failed (error : String)
  | elapsed
  deriving DecidableEq, Repr

@[irreducible] def encodeRequest (profile : Profile) (capacity : Nat) (req : CommandFrame) :
    Result Bytes :=
  match (req.write profile).run (List.replicate capacity 0) with
  -- the socket is handed `&buf[..req.length]`
  | (.ok (), buf) => slice buf 0 req.length.toNat
  | (.err e, _) => .err e
  | (.panic c, _) => .panic c

def seqNumber (n : Nat) : UInt32 := UInt32.ofNat (1 + n)

theorem seqNumber_succ (n : Nat) : seqNumber n + 1 = seqNumber (n + 1) := by
  rw [seqNumber, seqNumber, ← Nat.add_assoc, UInt32.ofNat_add (1 + n) 1]
  rfl

theorem seqNumber_injective {a b : Nat} (ha : 1 + a < 2 ^ 32) (hb : 1 + b < 2 ^ 32)
    (same : seqNumber a = seqNumber b) : a = b := by
  have values := congrArg UInt32.toNat same
  rw [seqNumber, seqNumber, UInt32.toNat_ofNat_of_lt' ha, UInt32.toNat_ofNat_of_lt' hb] at values
  omega

/-- One datagram in the loop of `send_command`; `none` is `continue`. -/
def commandStep (profile : Profile) (addr : SocketAddr) (req : CommandFrame) (d : Datagram) :
    Result (Option CommandFrame) :=
  -- any port of the host will do
  if d.source.ip ≠ addr.ip then .ok none
  else match CommandFrame.parse profile (d.received 2048) with
    | .ok frame => if frame.isAckFor req then .ok (some frame) else .ok none
    -- a frame that does not parse is passed over, not reported
    | .err _ => .ok none
    | .panic c => .panic c

/-- The loop of `send_command`; `none` means that the call is still waiting. -/
def awaitAck (profile : Profile) (addr : SocketAddr) (req : CommandFrame) :
    List Recv → Option (Result CommandFrame)
  | [] => none
  | .elapsed :: _ => some (.err (.noResponse addr))
  | .failed e :: _ => some (.err (.io e))
  | .datagram d :: rest =>
    match commandStep profile addr req d with
    | .ok none => awaitAck profile addr req rest
    | .ok (some frame) => some (.ok frame)
    | .err e => some (.err e)
    | .panic c => some (.panic c)

/-- `send_command` with the sequence number that `next_seq` returned; `sent` is what
`send_to` returned. -/
def sendCommand (profile : Profile) (addr : SocketAddr) (seqNum : UInt32) (cmdId : UInt16)
    (data : Bytes) (sent : Result Unit) (events : List Recv) : Option (Result CommandFrame) :=
  match (do
    let _ ← encodeRequest profile 2048 (newReq seqNum cmdId data)
    sent) with
  | .ok () => awaitAck profile addr (newReq seqNum cmdId data) events
  | .err e => some (.err e)
  | .panic c => some (.panic c)

structure DiscoveredDevice where
  devType : UInt8
  serialNumber : Vector UInt8 16
  lidarCmdAddr : SocketAddr
  deriving DecidableEq, Repr

/-- The two locals that the loop of `discover` accumulates into: the addresses seen are
those of the devices listed. -/
structure Discovery where
  devices : List DiscoveredDevice
  seen : List SocketAddr
  listed : ∀ addr, addr ∈ seen ↔ ∃ device ∈ devices, device.lidarCmdAddr = addr
  deriving DecidableEq

def Discovery.empty : Discovery where
  devices := []
  seen := []
  listed addr := by simp

def Discovery.push (found : Discovery) (device : DiscoveredDevice) : Discovery where
  devices := found.devices ++ [device]
  seen := device.lidarCmdAddr :: found.seen
  listed addr := by
    rw [List.mem_cons, found.listed]
    -- an address is seen as soon as its device is listed
    constructor
    · rintro (rfl | ⟨known, member, same⟩)
      · exact ⟨device, List.mem_append_right _ List.mem_cons_self, rfl⟩
      · exact ⟨known, List.mem_append_left _ member, same⟩
    · rintro ⟨known, member, rfl⟩
      rcases List.mem_append.mp member with old | new
      · exact .inr ⟨known, old, rfl⟩
      · exact .inl (by rw [List.mem_singleton.mp new])

def deviceOf (ack : DiscoveryAck) : DiscoveredDevice :=
  ⟨ack.devType, ack.serialNumber, ⟨.v4 ack.lidarIp, ack.cmdPort⟩⟩

def Discovery.record (found : Discovery) (ack : DiscoveryAck) : Discovery :=
  if (deviceOf ack).lidarCmdAddr ∈ found.seen then found else found.push (deviceOf ack)

def discoveryAck (profile : Profile) (d : Datagram) : Result (Option DiscoveryAck) :=
  match CommandFrame.parse profile (d.received 1024) with
  | .ok frame =>
    -- neither the sender nor the sequence number is looked at
    if frame.cmdId = CmdId.discovery.asU16 ∧ frame.cmdType = .ack then
      match DiscoveryAck.parse frame.data with
      | .ok ack => .ok (some ack)
      | .err _ => .ok none
      | .panic c => .panic c
    else .ok none
  | .err _ => .ok none
  | .panic c => .panic c

/-- One datagram in the loop of `discover`. -/
def discoverStep (profile : Profile) (found : Discovery) (d : Datagram) : Result Discovery := do
  match ← discoveryAck profile d with
  | some ack => return found.record ack
  | none => return found

/-- The loop of `discover`; `none` means that the call is still waiting. -/
def collect (profile : Profile) (found : Discovery) :
    List Recv → Option (Result (List DiscoveredDevice))
  | [] => none
  | .elapsed :: _ => some (.ok found.devices)
  | .failed e :: _ => some (.err (.io e))
  | .datagram d :: rest =>
    match discoverStep profile found d with
    | .ok found => collect profile found rest
    | .err e => some (.err e)
    | .panic c => some (.panic c)

/-- `discover`; `sent` is the first error of its broadcasts and its address lookup, if any. -/
def discover (profile : Profile) (sent : Result Unit) (events : List Recv) :
    Option (Result (List DiscoveredDevice)) :=
  match (do
    let _ ← encodeRequest profile 1024 (newReq 0 CmdId.discovery.asU16 [])
    sent) with
  | .ok () => collect profile .empty events
  | .err e => some (.err e)
  | .panic c => some (.panic c)

def setParameterResult (ack : CommandFrame) : Result Unit := do
  let (ret, _) ← parseParamConfigAck ack.data
  if ret ≠ .success then .err (.commandFailed ret) else return ()

def queryParameterResult (ack : CommandFrame) : Result KeyValueList := do
  let (ret, values) ← parseParamInquireAck ack.data
  if ret ≠ .success then .err (.commandFailed ret) else return values

abbrev Items := List (ParameterKey × Bytes)

def setParameterReq (seqNum : UInt32) (items : Items) : CommandFrame :=
  newReq seqNum CmdId.paramConfig.asU16 (buildParamConfig items)

def setStreamDestinations (dataDst imuDst : SocketAddr) : Items :=
  [(.pointCloudHostIpCfg,
      hostIpCfgValue (dataDst.ip.reparseV4.getD .unspecified) dataDst.port hostDataPort),
    (.imuHostIpCfg,
      hostIpCfgValue (imuDst.ip.reparseV4.getD .unspecified) imuDst.port hostImuPort)]

def setWorkMode (state : LidarState) : Items := [(.workTgtMode, [state.toByte])]

def setDataType (dataType : DataType) : Items := [(.pclDataType, [dataType.toByte])]

def setImuEnabled (enabled : Bool) : Items := [(.imuDataEn, [if enabled then 1 else 0])]

/-- The `set_parameter` calls of `start_streaming`, in order; each but the last is followed
by `?`. -/
def startStreaming (dataDst imuDst : SocketAddr) (dataType : DataType) : List Items :=
  [setStreamDestinations dataDst imuDst, setDataType dataType, setImuEnabled true,
    setWorkMode .sampling]

theorem encodeRequest_eq (profile : Profile) {capacity : Nat} {req : CommandFrame}
    (matched : req.LengthMatches) (room : req.length.toNat ≤ capacity) :
    encodeRequest profile capacity req = .ok (req.encoding CommandFrame.zeroReserved) := by
  have size : (req.encoding CommandFrame.zeroReserved).length = req.length.toNat := by
    rw [req.length_encoding rfl, matched, cmdHeaderSize]
  rw [encodeRequest, Protocol.CommandGrammar.write_zeroed profile matched room]
  dsimp only
  rw [slice_ok (Nat.zero_le _) (by rw [List.length_append, size]; omega), List.drop_zero,
    Nat.sub_zero, List.take_left' size]

theorem parse_encodeRequest {profile : Profile} {capacity : Nat} {req : CommandFrame}
    {bytes : Bytes} (h : encodeRequest profile capacity req = .ok bytes) :
    req.LengthMatches ∧ CommandFrame.parse profile bytes = .ok req := by
  rw [encodeRequest] at h
  split at h
  · rename_i out written
    obtain ⟨matched, room⟩ := CommandFrame.write_ok_inv written
    rw [List.length_replicate] at room
    -- both sides are the one encoding of the request
    have whole := encodeRequest_eq profile matched room
    rw [encodeRequest, written] at whole
    cases h.symm.trans whole
    have zeros : CommandFrame.zeroReserved.length = 6 := rfl
    have parsed := Protocol.CommandGrammar.parse_encoding profile zeros matched []
    rw [List.append_nil] at parsed
    exact ⟨matched, parsed⟩
  · cases h
  · cases h

theorem isAckFor_iff {frame req : CommandFrame} :
    frame.isAckFor req = true ↔ frame.cmdType = .ack ∧ frame.cmdId = req.cmdId ∧
      frame.seqNum = req.seqNum ∧ frame.senderType = .lidar := by
  rw [CommandFrame.isAckFor]
  simp only [Bool.and_eq_true, beq_iff_eq, and_assoc]

/-- What the loop of `send_command` returns was received from the addressed host and
parses, untruncated, to a frame that acknowledges the request. -/
theorem commandStep_some {profile : Profile} {addr : SocketAddr} {req frame : CommandFrame}
    {d : Datagram} (h : commandStep profile addr req d = .ok (some frame)) :
    d.source.ip = addr.ip ∧ CommandFrame.parse profile d.bytes = .ok frame ∧
      frame.isAckFor req = true := by
  rw [commandStep] at h
  by_cases elsewhere : d.source.ip ≠ addr.ip
  · rw [if_pos elsewhere] at h
    cases h
  rw [if_neg elsewhere] at h
  cases parsed : CommandFrame.parse profile (d.received 2048) with
  | err e =>
    rw [parsed] at h
    cases h
  | panic c =>
    rw [parsed] at h
    cases h
  | ok f =>
    rw [parsed] at h
    dsimp only at h
    by_cases acknowledges : f.isAckFor req = true
    · rw [if_pos acknowledges] at h
      cases h
      exact ⟨not_not.mp elsewhere, Protocol.CommandGrammar.parse_of_take parsed, acknowledges⟩
    · rw [if_neg acknowledges] at h
      cases h

theorem awaitAck_ok {profile : Profile} {addr : SocketAddr} {req frame : CommandFrame}
    {events : List Recv} (h : awaitAck profile addr req events = some (.ok frame)) :
    ∃ d, .datagram d ∈ events ∧ commandStep profile addr req d = .ok (some frame) := by
  induction events with
  | nil => cases h
  | cons event events ih =>
    cases event with
    | elapsed => cases h
    | failed e => cases h
    | datagram d =>
      rw [awaitAck] at h
      cases hstep : commandStep profile addr req d with
      | ok result =>
        rw [hstep] at h
        cases result with
        | none =>
          obtain ⟨d', member, accepted⟩ := ih h
          exact ⟨d', List.mem_cons_of_mem _ member, accepted⟩
        | some f =>
          cases h
          exact ⟨d, List.mem_cons_self, hstep⟩
      | err e =>
        rw [hstep] at h
        cases h
      | panic c =>
        rw [hstep] at h
        cases h

/-- The acknowledgement that the crate's test device sends: the request's number and command
under the device's own type and sender. -/
def ackFrame (req : CommandFrame) (data : Bytes) : CommandFrame where
  version := 0
  length := UInt16.ofNat (cmdHeaderSize + data.length)
  seqNum := req.seqNum
  cmdId := req.cmdId
  cmdType := .ack
  senderType := .lidar
  data := data

def ackDatagram (source : SocketAddr) (req : CommandFrame) (data : Bytes) : Datagram :=
  ⟨source, (ackFrame req data).encoding CommandFrame.zeroReserved⟩

theorem ackFrame_lengthMatches (req : CommandFrame) {data : Bytes} (small : data.length ≤ 2024) :
    (ackFrame req data).LengthMatches :=
  UInt16.toNat_ofNat_of_lt' (by
    show cmdHeaderSize + data.length < 65536
    rw [cmdHeaderSize]
    omega)

theorem parse_ackDatagram (profile : Profile) (source : SocketAddr) (req : CommandFrame)
    {data : Bytes} (small : data.length ≤ 2024) :
    CommandFrame.parse profile (ackDatagram source req data).bytes = .ok (ackFrame req data) := by
  have zeros : CommandFrame.zeroReserved.length = 6 := rfl
  have parsed := Protocol.CommandGrammar.parse_encoding profile zeros
    (ackFrame_lengthMatches req small) []
  rwa [List.append_nil] at parsed

theorem commandStep_ack (profile : Profile) (addr : SocketAddr) (req : CommandFrame)
    {data : Bytes} (small : data.length ≤ 2024) :
    commandStep profile addr req (ackDatagram addr req data) =
      .ok (some (ackFrame req data)) := by
  have whole : (ackDatagram addr req data).received 2048 = (ackDatagram addr req data).bytes := by
    have size : (ackDatagram addr req data).bytes.length = 24 + data.length :=
      (ackFrame req data).length_encoding rfl
    rw [Datagram.received, List.take_of_length_le (by omega)]
  have here : ¬ (ackDatagram addr req data).source.ip ≠ addr.ip := fun away => away rfl
  have acknowledges : (ackFrame req data).isAckFor req = true :=
    isAckFor_iff.mpr ⟨rfl, rfl, rfl, rfl⟩
  rw [commandStep, if_neg here, whole, parse_ackDatagram profile addr req small]
  exact if_pos acknowledges

end LivoxMid360.Control.Client
