/- digest: Sessions opened from Python: the device streams to the sockets that the session binds. -/

import LivoxMid360.Session.Connect

set_option autoImplicit false
set_option relaxedAutoImplicit false

namespace LivoxMid360.Session.BoundStreams

open Relation (ReflTransGen)
open Foundation.RustOutcome
open Foundation.LittleEndian
open Foundation.ByteBuffer
open Protocol.Vocabulary Protocol.Command Protocol.Parameters
open Control.Client Control.StartStreaming
open Connect

/-- The kinds of Python object that `parse_data_type` tells apart. -/
inductive DataTypeArg
  | dataType (value : DataType)
  | int (raw : Int)
  | str (name : String)
  | other
  deriving DecidableEq

inductive PyErr
  | valueError (text : String)
  | lidarError (error : LidarError)
  | panicException (cause : Panic)
  deriving DecidableEq

def parseDataType : Option DataTypeArg → Except PyErr DataType
  | none => .ok .pointCloudCartesian32
  | some (.dataType value) => .ok value
  | some (.int raw) =>
    -- an int that no `u8` holds is neither extracted here nor as a `str`
    if 0 ≤ raw ∧ raw < 256 then
      match DataType.tryFrom (UInt8.ofNat raw.toNat) with
      | .ok value => .ok value
      | .err e => .error (.lidarError e)
      | .panic c => .error (.panicException c)
    else .error (.valueError "data_type must be DataType, int, or str")
  | some (.str "imu") => .ok .imu
  | some (.str "cartesian32") => .ok .pointCloudCartesian32
  | some (.str "point_cloud_cartesian32") => .ok .pointCloudCartesian32
  | some (.str "cartesian16") => .ok .pointCloudCartesian16
  | some (.str "point_cloud_cartesian16") => .ok .pointCloudCartesian16
  | some (.str "spherical") => .ok .pointCloudSpherical
  | some (.str "point_cloud_spherical") => .ok .pointCloudSpherical
  | some (.str other) => .error (.valueError ("unknown data_type: " ++ other))
  | some .other => .error (.valueError "data_type must be DataType, int, or str")

/-- The arguments that reach the configuration, with the two addresses parsed. -/
structure ConnectArgs where
  hostIp : Ipv4Addr
  lidarIp : Ipv4Addr
  dataType : Option DataTypeArg
  lidarCmdPort : Option UInt16
  cmdPort : Option UInt16
  dataPort : Option UInt16
  imuPort : Option UInt16

def ConnectArgs.config (args : ConnectArgs) : Except PyErr LiveConfig := do
  let config := LiveConfig.new args.hostIp args.lidarIp
  let dataType ← parseDataType args.dataType
  let config := { config with dataType := dataType }
  let config := match args.lidarCmdPort with
    | some port => { config with lidarCmdPort := port }
    | none => config
  let config := match args.cmdPort with
    | some port => { config with cmdBind := Ipv4Addr.withPort args.hostIp port }
    | none => config
  -- the port is bound and announced; port zero is announced as it is
  let config := match args.dataPort with
    | some port => { config with
        dataBind := Ipv4Addr.withPort args.hostIp port
        dataDst := Ipv4Addr.withPort args.hostIp port }
    | none => config
  let config := match args.imuPort with
    | some port => { config with
        imuBind := Ipv4Addr.withPort args.hostIp port
        imuDst := Ipv4Addr.withPort args.hostIp port }
    | none => config
  pure config

theorem config_binds {args : ConnectArgs} {config : LiveConfig}
    (accepted : args.config = .ok config) :
    config.hostIp = args.hostIp ∧
    (∃ port, config.dataBind = Ipv4Addr.withPort args.hostIp port ∧
      config.dataDst = Ipv4Addr.withPort args.hostIp port) ∧
    ∃ port, config.imuBind = Ipv4Addr.withPort args.hostIp port ∧
      config.imuDst = Ipv4Addr.withPort args.hostIp port := by
  rw [ConnectArgs.config] at accepted
  cases hdata : parseDataType args.dataType with
  | error e =>
    rw [hdata] at accepted
    cases accepted
  | ok dataType =>
    rw [hdata] at accepted
    cases accepted
    obtain ⟨hostIp, lidarIp, dataTypeArg, lidarCmdPort, cmdPort, dataPort, imuPort⟩ := args
    cases lidarCmdPort <;> cases cmdPort <;> cases dataPort <;> cases imuPort <;>
      exact ⟨rfl, ⟨_, rfl, rfl⟩, ⟨_, rfl, rfl⟩⟩

/-- How sockets are bound: to the address asked for, or, when port zero is asked for, to a free
port of the host. -/
structure Binds (bound : SocketAddr → SocketAddr) : Prop where
  asked : ∀ addr, addr.port ≠ 0 → bound addr = addr
  free : ∀ addr, addr.port = 0 → (bound addr).ip = addr.ip ∧ (bound addr).port ≠ 0

theorem streamsTo_bound_iff {bound : SocketAddr → SocketAddr} (binds : Binds bound)
    {ip : Ipv4Addr} (specified : ip ≠ .unspecified) (port sourcePort : UInt16) :
    StreamsTo (hostIpCfgValue ip port sourcePort) (bound (Ipv4Addr.withPort ip port)) ↔
      port ≠ 0 := by
  constructor
  -- at port zero the device is told zero, and the socket has another port
  · intro ⟨ip', _, _, sent⟩ zero
    rw [hostIpCfgDest_value] at sent
    have same : port = (bound (Ipv4Addr.withPort ip port)).port :=
      congrArg Prod.snd (Option.some.inj sent)
    have free := (binds.free (Ipv4Addr.withPort ip port) zero).2
    exact free (same.symm.trans zero)
  · intro nonzero
    rw [binds.asked (Ipv4Addr.withPort ip port) nonzero]
    exact ⟨ip, rfl, specified, hostIpCfgDest_value ip port sourcePort⟩

def OnlyTo (config : LiveConfig) (applied : KeyValueList) : Prop :=
  ∀ value,
    ((ParameterKey.pointCloudHostIpCfg.asU16, value) ∈ applied →
      StreamsTo value config.dataDst) ∧
    ((ParameterKey.imuHostIpCfg.asU16, value) ∈ applied → StreamsTo value config.imuDst)

structure Samples (config : LiveConfig) (values : UInt16 → Option Bytes) : Prop where
  format : values ParameterKey.pclDataType.asU16 = some [config.dataType.toByte]
  imu : values ParameterKey.imuDataEn.asU16 = some [1]
  mode : values ParameterKey.workTgtMode.asU16 = some [LidarState.sampling.toByte]

/-- The device sends both streams to the sockets that the session has bound. -/
def Reaches (bound : SocketAddr → SocketAddr) (config : LiveConfig)
    (values : UInt16 → Option Bytes) : Prop :=
  (∃ value, values ParameterKey.pointCloudHostIpCfg.asU16 = some value ∧
    StreamsTo value (bound config.dataBind)) ∧
  ∃ value, values ParameterKey.imuHostIpCfg.asU16 = some value ∧
    StreamsTo value (bound config.imuBind)

section Device

variable {profile : Profile} {addr : SocketAddr} {values : UInt16 → Option Bytes} {s : State}
  {config : LiveConfig} {ip : Ipv4Addr} {dataPort imuPort : UInt16}

theorem onlyTo_of_run (specified : ip ≠ .unspecified)
    (data : config.dataDst = Ipv4Addr.withPort ip dataPort)
    (imu : config.imuDst = Ipv4Addr.withPort ip imuPort)
    (run : ReflTransGen (Step profile addr
      (startStreaming config.dataDst config.imuDst config.dataType)) (.init values) s) :
    OnlyTo config s.applied := by
  have short : (startStreaming config.dataDst config.imuDst config.dataType).length < 2 ^ 32 :=
    show 4 < 2 ^ 32 by decide
  -- whatever the device applied was in a call of the chain
  intro value
  constructor
  · intro applied
    obtain ⟨items, call, member⟩ := (inv_of_run short run).applied _ applied
    rw [(destinations_of_call call value).1 member]
    apply streamsTo_iff.mpr
    exact ⟨ip, by rw [data, Ipv4Addr.withPort], specified⟩
  · intro applied
    obtain ⟨items, call, member⟩ := (inv_of_run short run).applied _ applied
    rw [(destinations_of_call call value).2 member]
    apply streamsTo_iff.mpr
    exact ⟨ip, by rw [imu, Ipv4Addr.withPort], specified⟩

theorem current_of_returned (data : config.dataDst = Ipv4Addr.withPort ip dataPort)
    (imu : config.imuDst = Ipv4Addr.withPort ip imuPort)
    (run : ReflTransGen (Step profile addr
      (startStreaming config.dataDst config.imuDst config.dataType)) (.init values) s)
    (opened : s.phase = .returned (.ok ())) :
    ∀ item ∈ streamSettings ip ip dataPort imuPort config.dataType ++ [samplingSetting],
      s.values item.1 = some item.2 := by
  have dataV4 : config.dataDst.ip = .v4 ip := by rw [data, Ipv4Addr.withPort]
  have imuV4 : config.imuDst.ip = .v4 ip := by rw [imu, Ipv4Addr.withPort]
  have settings := settings_of_returned dataV4 imuV4 run opened
  rw [data, imu] at settings
  exact fun item member => (settings item member).2

theorem reaches_iff {bound : SocketAddr → SocketAddr} (binds : Binds bound)
    (specified : ip ≠ .unspecified) (dataBind : config.dataBind = Ipv4Addr.withPort ip dataPort)
    (imuBind : config.imuBind = Ipv4Addr.withPort ip imuPort)
    (data : s.values ParameterKey.pointCloudHostIpCfg.asU16 =
      some (hostIpCfgValue ip dataPort hostDataPort))
    (imu : s.values ParameterKey.imuHostIpCfg.asU16 =
      some (hostIpCfgValue ip imuPort hostImuPort)) :
    Reaches bound config s.values ↔ config.dataBind.port ≠ 0 ∧ config.imuBind.port ≠ 0 := by
  rw [Reaches, data, imu, dataBind, imuBind]
  simp only [Option.some.injEq, exists_eq_left']
  rw [streamsTo_bound_iff binds specified, streamsTo_bound_iff binds specified]
  exact Iff.rfl

end Device

/-- In every run of opening a session from Python, whatever the network does and the device held
before: the device is told no stream destination but the session's own; and once the session
is open, the device samples as asked from then on, and streams to the bound sockets exactly
when neither was asked for at port zero. -/
theorem session_reaches_iff {profile : Profile} {args : ConnectArgs} {config : LiveConfig}
    (accepted : args.config = .ok config) (specified : args.hostIp ≠ .unspecified)
    {bound : SocketAddr → SocketAddr} (binds : Binds bound) {values : UInt16 → Option Bytes}
    {s : State}
    (run : ReflTransGen (Step profile (Ipv4Addr.withPort config.lidarIp config.lidarCmdPort)
      (startStreaming config.dataDst config.imuDst config.dataType)) (.init values) s) :
    OnlyTo config s.applied ∧
    (s.phase = .returned (.ok ()) →
      ∀ t, ReflTransGen (Step profile (Ipv4Addr.withPort config.lidarIp config.lidarCmdPort)
        (startStreaming config.dataDst config.imuDst config.dataType)) s t →
      Samples config t.values ∧
        (Reaches bound config t.values ↔
          config.dataBind.port ≠ 0 ∧ config.imuBind.port ≠ 0)) := by
  obtain ⟨-, ⟨dataPort, dataBind, dataDst⟩, imuPort, imuBind, imuDst⟩ := config_binds accepted
  refine ⟨onlyTo_of_run specified dataDst imuDst run, ?_⟩
  intro opened t later
  -- the settings of the last call still stand at the later state
  have current := current_of_returned dataDst imuDst (run.trans later)
    (returned_run opened later)
  simp only [streamSettings, samplingSetting, List.cons_append, List.nil_append,
    List.forall_mem_cons] at current
  obtain ⟨data, imu, format, enabled, mode, -⟩ := current
  exact ⟨⟨format, enabled, mode⟩, reaches_iff binds specified dataBind imuBind data imu⟩

def freeImu : ConnectArgs :=
  ⟨⟨192, 168, 1, 5⟩, ⟨192, 168, 1, 100⟩, some (.str "cartesian16"), none, none, some 56301,
    some 0⟩

def freeImuConfig : LiveConfig where
  hostIp := ⟨192, 168, 1, 5⟩
  lidarIp := ⟨192, 168, 1, 100⟩
  dataType := .pointCloudCartesian16
  lidarCmdPort := cmdPort
  cmdBind := Ipv4Addr.withPort ⟨192, 168, 1, 5⟩ hostCmdPort
  dataBind := Ipv4Addr.withPort ⟨192, 168, 1, 5⟩ 56301
  imuBind := Ipv4Addr.withPort ⟨192, 168, 1, 5⟩ 0
  dataDst := Ipv4Addr.withPort ⟨192, 168, 1, 5⟩ 56301
  imuDst := Ipv4Addr.withPort ⟨192, 168, 1, 5⟩ 0

def firstFree (addr : SocketAddr) : SocketAddr :=
  if addr.port = 0 then { addr with port := 49152 } else addr

theorem firstFree_binds : Binds firstFree where
  asked addr nonzero := if_neg nonzero
  free addr zero := by
    rw [firstFree, if_pos zero]
    exact ⟨rfl, show (49152 : UInt16) ≠ 0 by decide⟩

theorem session_reaches_iff_free : ∃ s : State,
    ReflTransGen (Step .dev (Ipv4Addr.withPort freeImuConfig.lidarIp freeImuConfig.lidarCmdPort)
      (startStreaming freeImuConfig.dataDst freeImuConfig.imuDst freeImuConfig.dataType))
      (.init fun _ => none) s ∧
    s.phase = .returned (.ok ()) ∧ OnlyTo freeImuConfig s.applied ∧
    Samples freeImuConfig s.values ∧ ¬ Reaches firstFree freeImuConfig s.values := by
  obtain ⟨s, run, opened⟩ := startStreaming_completes .dev
    (Ipv4Addr.withPort freeImuConfig.lidarIp freeImuConfig.lidarCmdPort) freeImuConfig.dataDst
    freeImuConfig.imuDst freeImuConfig.dataType fun _ => none
  have accepted : freeImu.config = .ok freeImuConfig := rfl
  obtain ⟨only, after⟩ := session_reaches_iff accepted (by decide) firstFree_binds run
  obtain ⟨samples, reaches⟩ := after opened s .refl
  refine ⟨s, run, opened, only, samples, ?_⟩
  intro reached
  exact (reaches.mp reached).2 rfl

end LivoxMid360.Session.BoundStreams
