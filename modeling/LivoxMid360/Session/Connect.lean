/- digest: Opening a live session: which destinations travel to the device, and when none may. -/

import LivoxMid360.Control.StartStreaming

set_option autoImplicit false
set_option relaxedAutoImplicit false

namespace LivoxMid360.Session.Connect

open Foundation.RustOutcome
open Foundation.LittleEndian
open Foundation.ByteBuffer
open Protocol.Vocabulary Protocol.Command Protocol.Parameters
open Control.Client
open Control.StartStreaming (wire)
open CommandFrame (newReq)

structure LiveConfig where
  hostIp : Ipv4Addr
  lidarIp : Ipv4Addr
  dataType : DataType
  lidarCmdPort : UInt16
  cmdBind : SocketAddr
  dataBind : SocketAddr
  imuBind : SocketAddr
  dataDst : SocketAddr
  imuDst : SocketAddr
  deriving DecidableEq

def Ipv4Addr.withPort (ip : Ipv4Addr) (port : UInt16) : SocketAddr := ⟨.v4 ip, port⟩

/-- Default host ports, Cartesian32 points. -/
def LiveConfig.new (hostIp lidarIp : Ipv4Addr) : LiveConfig where
  hostIp := hostIp
  lidarIp := lidarIp
  dataType := .pointCloudCartesian32
  lidarCmdPort := Protocol.Vocabulary.cmdPort
  cmdBind := Ipv4Addr.withPort hostIp hostCmdPort
  dataBind := Ipv4Addr.withPort hostIp hostDataPort
  imuBind := Ipv4Addr.withPort hostIp hostImuPort
  dataDst := Ipv4Addr.withPort hostIp hostDataPort
  imuDst := Ipv4Addr.withPort hostIp hostImuPort

/-- Everything that `connect_with` cannot decide: how its two bindings end, and for each
command what `send_to` returned and what the waits for its acknowledgement saw. -/
structure World where
  command : Result Unit
  stream : Result Unit
  sent : Nat → Result Unit
  heard : Nat → List Recv

/-- What was handed to `send_to`, in order, and the result; `none` while still waiting. -/
structure Trace where
  frames : List Bytes
  result : Option (Result Unit)
  deriving DecidableEq

def bindErr {α : Type} (resource : String) (addr : SocketAddr) : Result α → Result α
  | .err (.io source) => .err (.bind resource addr source)
  | result => result

def requestFrame (profile : Profile) (seqNum : UInt32) (items : Items) : List Bytes :=
  match encodeRequest profile 2048 (setParameterReq seqNum items) with
  | .ok bytes => [bytes]
  | .err _ => []
  | .panic _ => []

def setParameter (profile : Profile) (addr : SocketAddr) (seqNum : UInt32) (items : Items)
    (sent : Result Unit) (heard : List Recv) : Option (Result Unit) :=
  (sendCommand profile addr seqNum CmdId.paramConfig.asU16 (buildParamConfig items) sent
    heard).map fun ack => ack >>= setParameterResult

/-- The `k`-th call of a fresh client and those after it, each but the last followed by `?`. -/
def configure (profile : Profile) (addr : SocketAddr) (world : World) : Nat → List Items → Trace
  | _, [] => ⟨[], some (.ok ())⟩
  | k, items :: plan =>
    let frame := requestFrame profile (seqNumber k) items
    match setParameter profile addr (seqNumber k) items (world.sent k) (world.heard k) with
    | some (.ok ()) =>
      let rest := configure profile addr world (k + 1) plan
      ⟨frame ++ rest.frames, rest.result⟩
    | ended => ⟨frame, ended⟩

def connectWith (profile : Profile) (world : World) (config : LiveConfig) : Trace :=
  if config.hostIp = .unspecified then ⟨[], some (.err .invalidHost)⟩
  else
    -- both stream sockets are bound before any command is sent
    match (do
      bindErr "command" config.cmdBind world.command
      bindErr "data/imu" config.dataBind world.stream) with
    | .ok () =>
      configure profile (Ipv4Addr.withPort config.lidarIp config.lidarCmdPort) world 0
        (startStreaming config.dataDst config.imuDst config.dataType)
    | .err e => ⟨[], some (.err e)⟩
    | .panic c => ⟨[], some (.panic c)⟩

def connect (profile : Profile) (world : World) (hostIp lidarIp : Ipv4Addr) : Trace :=
  connectWith profile world (.new hostIp lidarIp)

/-- The IPv4 address inside `::ffff:0:0/96`. -/
def Ipv6Addr.toIpv4Mapped (ip : Ipv6Addr) : Option Ipv4Addr :=
  if ip.bits.toNat / 2 ^ 32 = 0xFFFF then
    let low := ip.bits.toNat % 2 ^ 32
    some ⟨UInt8.ofNat (low / 2 ^ 24), UInt8.ofNat (low / 2 ^ 16), UInt8.ofNat (low / 2 ^ 8),
      UInt8.ofNat low⟩
  else none

def ipv4Form : IpAddr → Option Ipv4Addr
  | .v4 ip => some ip
  | .v6 ip => Ipv6Addr.toIpv4Mapped ip

/-- The address and the port that a stream destination value carries. -/
def hostIpCfgDest : Bytes → Option (Ipv4Addr × UInt16)
  | [a, b, c, d, p, p', _, _] => some (⟨a, b, c, d⟩, ofLe [p, p'])
  | _ => none

def StreamsTo (value : Bytes) (dst : SocketAddr) : Prop :=
  ∃ ip, ipv4Form dst.ip = some ip ∧ ip ≠ .unspecified ∧ hostIpCfgDest value = some (ip, dst.port)

def Concrete (dst : SocketAddr) : Prop := ∃ ip, ipv4Form dst.ip = some ip ∧ ip ≠ .unspecified

def Addressed (profile : Profile) (config : LiveConfig) (bytes : Bytes) : Prop :=
  ∀ frame items, CommandFrame.parse profile bytes = .ok frame →
    frame.cmdId = CmdId.paramConfig.asU16 → decodeKeyValueList frame.data = .ok items →
    ∀ value,
      ((ParameterKey.pointCloudHostIpCfg.asU16, value) ∈ items → StreamsTo value config.dataDst) ∧
      ((ParameterKey.imuHostIpCfg.asU16, value) ∈ items → StreamsTo value config.imuDst)

/-- In every world all frames address the configured destinations, and a destination that is
not concrete is refused before any frame. -/
def Directed (profile : Profile) (config : LiveConfig) : Prop :=
  ∀ world,
    (∀ bytes ∈ (connectWith profile world config).frames, Addressed profile config bytes) ∧
    (¬ (Concrete config.dataDst ∧ Concrete config.imuDst) →
      (connectWith profile world config).frames = [] ∧
        ∃ e, (connectWith profile world config).result = some (.err e))

theorem hostIpCfgDest_value (ip : Ipv4Addr) (destPort sourcePort : UInt16) :
    hostIpCfgDest (hostIpCfgValue ip destPort sourcePort) = some (ip, destPort) := by
  have port : (ofLe (toLe destPort) : UInt16) = destPort := ofLe_toLe destPort
  have layout : hostIpCfgDest (hostIpCfgValue ip destPort sourcePort) =
      some (ip, ofLe (toLe destPort)) := rfl
  rw [layout, port]

theorem mem_requestFrame {profile : Profile} {seqNum : UInt32} {items : Items} {bytes : Bytes} :
    bytes ∈ requestFrame profile seqNum items ↔
      encodeRequest profile 2048 (setParameterReq seqNum items) = .ok bytes := by
  rw [requestFrame]
  cases encodeRequest profile 2048 (setParameterReq seqNum items) with
  | ok frame => simp [eq_comm]
  | err e => simp
  | panic c => simp

theorem mem_frames_configure {profile : Profile} {addr : SocketAddr} {world : World} {k : Nat}
    {plan : List Items} {bytes : Bytes}
    (member : bytes ∈ (configure profile addr world k plan).frames) :
    ∃ j, ∃ items ∈ plan,
      encodeRequest profile 2048 (setParameterReq (seqNumber j) items) = .ok bytes := by
  induction plan generalizing k with
  | nil => cases member
  | cons items plan ih =>
    have first (h : bytes ∈ requestFrame profile (seqNumber k) items) :
        ∃ j, ∃ items' ∈ items :: plan,
          encodeRequest profile 2048 (setParameterReq (seqNumber j) items') = .ok bytes :=
      ⟨k, items, List.mem_cons_self, mem_requestFrame.mp h⟩
    rw [configure] at member
    split at member
    · rcases List.mem_append.mp member with here | later
      · exact first here
      · obtain ⟨j, items', among, encoded⟩ := ih later
        exact ⟨j, items', List.mem_cons_of_mem _ among, encoded⟩
    · exact first member

theorem mem_frames_connectWith {profile : Profile} {world : World} {config : LiveConfig}
    {bytes : Bytes} (member : bytes ∈ (connectWith profile world config).frames) :
    ∃ j, ∃ items ∈ startStreaming config.dataDst config.imuDst config.dataType,
      encodeRequest profile 2048 (setParameterReq (seqNumber j) items) = .ok bytes := by
  rw [connectWith] at member
  split at member
  · cases member
  · split at member
    · exact mem_frames_configure member
    · cases member
    · cases member

theorem destinations_of_call {dataDst imuDst : SocketAddr} {dataType : DataType} {items : Items}
    (call : items ∈ startStreaming dataDst imuDst dataType) (value : Bytes) :
    ((ParameterKey.pointCloudHostIpCfg.asU16, value) ∈ wire items →
      value = hostIpCfgValue (dataDst.ip.reparseV4.getD .unspecified) dataDst.port
        hostDataPort) ∧
    ((ParameterKey.imuHostIpCfg.asU16, value) ∈ wire items →
      value = hostIpCfgValue (imuDst.ip.reparseV4.getD .unspecified) imuDst.port hostImuPort) := by
  simp only [startStreaming, List.mem_cons, List.not_mem_nil, or_false] at call
  -- only the first of the four calls carries destinations
  rcases call with rfl | rfl | rfl | rfl
  · simp [wire, setStreamDestinations, ParameterKey.asU16]
  · simp [wire, setDataType, ParameterKey.asU16]
  · simp [wire, setImuEnabled, ParameterKey.asU16]
  · simp [wire, setWorkMode, ParameterKey.asU16]

def Addressable (dst : SocketAddr) : Prop := ∃ ip, dst.ip = .v4 ip ∧ ip ≠ .unspecified

theorem Addressable.concrete {dst : SocketAddr} (addressable : Addressable dst) :
    Concrete dst := by
  obtain ⟨ip, isV4, specified⟩ := addressable
  exact ⟨ip, by rw [isV4, ipv4Form], specified⟩

theorem streamsTo_iff {dst : SocketAddr} {sourcePort : UInt16} :
    StreamsTo (hostIpCfgValue (dst.ip.reparseV4.getD .unspecified) dst.port sourcePort) dst ↔
      Addressable dst := by
  rw [StreamsTo, hostIpCfgDest_value]
  obtain ⟨ip, port⟩ := dst
  constructor
  · intro ⟨ip', form, specified, sent⟩
    have same : (ip.reparseV4.getD .unspecified) = ip' := congrArg Prod.fst (Option.some.inj sent)
    cases ip with
    | v4 ip => exact ⟨ip, rfl, fun zero => specified (same.symm.trans zero)⟩
    -- what is not IPv4 is sent as 0.0.0.0, even a mapped address
    | v6 ip => exact absurd same.symm specified
  · intro ⟨ip', isV4, specified⟩
    cases isV4
    exact ⟨ip', rfl, specified, rfl⟩

theorem directed_of_addressable (profile : Profile) {config : LiveConfig}
    (data : Addressable config.dataDst) (imu : Addressable config.imuDst) :
    Directed profile config := by
  intro world
  refine ⟨?_, fun refused => absurd ⟨data.concrete, imu.concrete⟩ refused⟩
  intro bytes member frame items parsed _ decoded value
  obtain ⟨j, call, among, encoded⟩ := mem_frames_connectWith member
  obtain ⟨matched, reparsed⟩ := parse_encodeRequest encoded
  cases reparsed.symm.trans parsed
  cases (Protocol.CommandGrammar.decode_buildParamConfig matched).symm.trans decoded
  obtain ⟨toData, toImu⟩ := destinations_of_call among value
  constructor
  · intro carries
    rw [toData carries]
    exact streamsTo_iff.mpr data
  · intro carries
    rw [toImu carries]
    exact streamsTo_iff.mpr imu

theorem directed_of_unspecified (profile : Profile) {config : LiveConfig}
    (host : config.hostIp = .unspecified) : Directed profile config := by
  intro world
  -- the guard refuses before anything is bound or sent
  rw [connectWith, if_pos host]
  exact ⟨fun bytes member => absurd member List.not_mem_nil, fun _ => ⟨rfl, _, rfl⟩⟩

def World.silent : World := ⟨.ok (), .ok (), fun _ => .ok (), fun _ => []⟩

theorem setParameter_silent {profile : Profile} {seqNum : UInt32} {items : Items} {bytes : Bytes}
    (addr : SocketAddr)
    (encoded : encodeRequest profile 2048 (setParameterReq seqNum items) = .ok bytes) :
    setParameter profile addr seqNum items (.ok ()) [] = none := by
  rw [setParameterReq] at encoded
  rw [setParameter, sendCommand, encoded]
  rfl

theorem connectWith_bound {profile : Profile} {world : World} {config : LiveConfig}
    (host : config.hostIp ≠ .unspecified) (command : world.command = .ok ())
    (stream : world.stream = .ok ()) :
    connectWith profile world config =
      configure profile (Ipv4Addr.withPort config.lidarIp config.lidarCmdPort) world 0
        (startStreaming config.dataDst config.imuDst config.dataType) := by
  rw [connectWith, if_neg host, command, stream]
  rfl

theorem configure_waiting {profile : Profile} {addr : SocketAddr} {world : World} {k : Nat}
    {items : Items} {plan : List Items}
    (waiting : setParameter profile addr (seqNumber k) items (world.sent k) (world.heard k) =
      none) :
    configure profile addr world k (items :: plan) =
      ⟨requestFrame profile (seqNumber k) items, none⟩ := by
  rw [configure, waiting]

theorem connectWith_silent {profile : Profile} {config : LiveConfig}
    (host : config.hostIp ≠ .unspecified) {bytes : Bytes}
    (encoded : encodeRequest profile 2048 (setParameterReq (seqNumber 0)
      (setStreamDestinations config.dataDst config.imuDst)) = .ok bytes) :
    connectWith profile .silent config = ⟨requestFrame profile (seqNumber 0)
      (setStreamDestinations config.dataDst config.imuDst), none⟩ := by
  rw [connectWith_bound host rfl rfl, startStreaming]
  exact configure_waiting (setParameter_silent _ encoded)

theorem destinations_sent (profile : Profile) {config : LiveConfig}
    (host : config.hostIp ≠ .unspecified) :
    ∃ bytes ∈ (connectWith profile .silent config).frames,
      CommandFrame.parse profile bytes = .ok
        (setParameterReq (seqNumber 0) (setStreamDestinations config.dataDst config.imuDst)) ∧
      decodeKeyValueList (buildParamConfig (setStreamDestinations config.dataDst config.imuDst)) =
        .ok (wire (setStreamDestinations config.dataDst config.imuDst)) := by
  have length : (setParameterReq (seqNumber 0)
      (setStreamDestinations config.dataDst config.imuDst)).length.toNat = 52 := rfl
  have room : (setParameterReq (seqNumber 0)
      (setStreamDestinations config.dataDst config.imuDst)).length.toNat ≤ 2048 := by
    rw [length]
    decide
  have encoded := encodeRequest_eq profile length room
  obtain ⟨-, parsed⟩ := parse_encodeRequest encoded
  refine ⟨_, ?_, parsed, Protocol.CommandGrammar.decode_buildParamConfig length⟩
  rw [connectWith_silent host encoded]
  exact mem_requestFrame.mpr encoded

theorem addressable_of_directed {profile : Profile} {config : LiveConfig}
    (directed : Directed profile config) (host : config.hostIp ≠ .unspecified) :
    Addressable config.dataDst ∧ Addressable config.imuDst := by
  obtain ⟨bytes, member, parsed, decoded⟩ := destinations_sent profile host
  -- one silent world is enough: the first frame is sent before any answer
  have addressed := (directed .silent).1 bytes member _ _ parsed rfl decoded
  constructor
  · exact streamsTo_iff.mp ((addressed _).1 List.mem_cons_self)
  · exact streamsTo_iff.mp ((addressed _).2 (List.mem_cons_of_mem _ List.mem_cons_self))

/-- A session directs the streams to the configured destinations, and to nothing else, exactly
when its own guard refuses the host address or both destinations are IPv4 and specified. -/
theorem directed_iff (profile : Profile) (config : LiveConfig) :
    Directed profile config ↔ config.hostIp = .unspecified ∨
      (Addressable config.dataDst ∧ Addressable config.imuDst) := by
  constructor
  · intro directed
    by_cases host : config.hostIp = .unspecified
    · exact .inl host
    · exact .inr (addressable_of_directed directed host)
  · intro condition
    rcases condition with host | ⟨data, imu⟩
    · exact directed_of_unspecified profile host
    · exact directed_of_addressable profile data imu

def unspecifiedData : LiveConfig :=
  { LiveConfig.new ⟨192, 168, 1, 50⟩ ⟨192, 168, 1, 100⟩ with
    dataDst := ⟨.v4 .unspecified, hostDataPort⟩ }

theorem unspecified_data_sent : ¬ ∀ profile config, Directed profile config := by
  intro claim
  obtain ⟨⟨ip, isV4, specified⟩, -⟩ :=
    addressable_of_directed (claim .dev unspecifiedData) (by decide)
  cases isV4
  exact specified rfl

/-- `LiveReader::connect` never reaches the defect: its destinations are the guarded host. -/
theorem connect_directed (profile : Profile) (hostIp lidarIp : Ipv4Addr) :
    Directed profile (.new hostIp lidarIp) := by
  by_cases host : hostIp = .unspecified
  · exact directed_of_unspecified profile host
  · exact directed_of_addressable profile ⟨hostIp, rfl, host⟩ ⟨hostIp, rfl, host⟩

end LivoxMid360.Session.Connect
