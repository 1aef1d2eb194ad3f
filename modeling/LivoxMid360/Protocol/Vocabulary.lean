/- digest: Addresses, errors, constants and numbered enumerations of the sensor protocol. -/

import LivoxMid360.Foundation.RustOutcome

set_option autoImplicit false
set_option relaxedAutoImplicit false

namespace LivoxMid360.Protocol.Vocabulary

open Foundation.RustOutcome (Outcome)

structure Ipv4Addr where
  a : UInt8
  b : UInt8
  c : UInt8
  d : UInt8
  deriving DecidableEq, Repr

def Ipv4Addr.octets (ip : Ipv4Addr) : List UInt8 := [ip.a, ip.b, ip.c, ip.d]

def Ipv4Addr.unspecified : Ipv4Addr := ⟨0, 0, 0, 0⟩

structure Ipv6Addr where
  bits : BitVec 128
  deriving DecidableEq, Repr

inductive IpAddr
  | v4 (ip : Ipv4Addr)
  | v6 (ip : Ipv6Addr)
  deriving DecidableEq, Repr

/-- `ip.to_string().parse::<Ipv4Addr>().ok()`: dotted-quad text is what an IPv4 address
prints as, and no IPv6 address (a mapped one included) prints as bare dotted-quad text. -/
def IpAddr.reparseV4 : IpAddr → Option Ipv4Addr
  | .v4 ip => some ip
  | .v6 _ => none

structure SocketAddr where
  ip : IpAddr
  port : UInt16
  deriving DecidableEq, Repr

def cmdPort : UInt16 := 56100
def hostCmdPort : UInt16 := 56101
def hostDataPort : UInt16 := 56301
def hostImuPort : UInt16 := 56401

def startOfFrame : UInt8 := 0xAA

inductive DataType
  | imu
  | pointCloudCartesian32
  | pointCloudCartesian16
  | pointCloudSpherical
  deriving DecidableEq, Repr

inductive TimestampType
  | none
  | ptp
  | gps
  deriving DecidableEq, Repr

inductive CmdType
  | req
  | ack
  deriving DecidableEq, Repr

inductive SenderType
  | host
  | lidar
  deriving DecidableEq, Repr

inductive LidarState
  | sampling
  | idle
  | error
  | selfCheck
  | motorStartup
  | upgrade
  | ready
  deriving DecidableEq, Repr

inductive ReturnCode
  | success
  | failure
  | notPermitNow
  | outOfRange
  | paramNotSupport
  | paramRebootEffect
  | paramReadOnly
  | paramInvalidLen
  | paramKeyNumErr
  | upgradePubKeyError
  | upgradeDigestError
  | upgradeFwTypeError
  | upgradeFwOutOfRange
  | upgradeFwErasing
  deriving DecidableEq, Repr

inductive CmdId
  | discovery
  | paramConfig
  | paramInquire
  | paramPush
  | reboot
  | factoryReset
  | setGpsTimestamp
  | logFilePush
  | logCollectionConfig
  | logTimeSync
  | debugRawDataConfig
  | upgradeStart
  | upgradeData
  | upgradeComplete
  | upgradeState
  deriving DecidableEq, Repr

inductive ParameterKey
  | pclDataType
  | patternMode
  | lidarIpCfg
  | stateInfoHostIpCfg
  | pointCloudHostIpCfg
  | imuHostIpCfg
  | installAttitude
  | fovCfg0
  | fovCfg1
  | fovCfgEn
  | detectMode
  | funcIoCfg
  | workTgtMode
  | imuDataEn
  | speedMode
  | timeFilter
  | sn
  | productInfo
  | versionApp
  | versionLoader
  | versionHardware
  | mac
  | curWorkState
  | coreTemp
  | powerupCnt
  | localTimeNow
  | lastSyncTime
  | timeOffset
  | timeSyncType
  | lidarDiagStatus
  | fwType
  | hmsCode
  deriving DecidableEq, Repr

/-- The crate's error type. An operating-system error is represented by its text. -/
inductive LidarError
  | io (error : String)
  | bind (resource : String) (addr : SocketAddr) (source : String)
  | invalidHost
  | packetTooShort (need got : Nat)
  | invalidDataType (value : UInt8)
  | invalidTimestampType (value : UInt8)
  | invalidCmdType (value : UInt8)
  | invalidSenderType (value : UInt8)
  | invalidLidarState (value : UInt8)
  | invalidReturnCode (value : UInt8)
  | crcMismatch
  | commandFailed (code : ReturnCode)
  | unexpectedResponse (expected got : UInt16)
  | noResponse (addr : SocketAddr)
  | discoveryTimeout
  | parameterParse (message : String)
  | bufferTooSmall
  deriving DecidableEq, Repr

abbrev Result (α : Type) := Outcome LidarError α

def DataType.toByte : DataType → UInt8
  | .imu => 0
  | .pointCloudCartesian32 => 1
  | .pointCloudCartesian16 => 2
  | .pointCloudSpherical => 3

def DataType.tryFrom (value : UInt8) : Result DataType :=
  match value with
  | 0 => .ok .imu
  | 1 => .ok .pointCloudCartesian32
  | 2 => .ok .pointCloudCartesian16
  | 3 => .ok .pointCloudSpherical
  | other => .err (.invalidDataType other)

def DataType.pointSize : DataType → Nat
  | .imu => 24
  | .pointCloudCartesian32 => 14
  | .pointCloudCartesian16 => 8
  | .pointCloudSpherical => 10

def TimestampType.toByte : TimestampType → UInt8
  | .none => 0
  | .ptp => 1
  | .gps => 2

def TimestampType.tryFrom (value : UInt8) : Result TimestampType :=
  match value with
  | 0 => .ok .none
  | 1 => .ok .ptp
  | 2 => .ok .gps
  | other => .err (.invalidTimestampType other)

def CmdType.toByte : CmdType → UInt8
  | .req => 0
  | .ack => 1

def CmdType.tryFrom (value : UInt8) : Result CmdType :=
  match value with
  | 0 => .ok .req
  | 1 => .ok .ack
  | other => .err (.invalidCmdType other)

def SenderType.toByte : SenderType → UInt8
  | .host => 0
  | .lidar => 1

def SenderType.tryFrom (value : UInt8) : Result SenderType :=
  match value with
  | 0 => .ok .host
  | 1 => .ok .lidar
  | other => .err (.invalidSenderType other)

def LidarState.toByte : LidarState → UInt8
  | .sampling => 0x01
  | .idle => 0x02
  | .error => 0x04
  | .selfCheck => 0x05
  | .motorStartup => 0x06
  | .upgrade => 0x08
  | .ready => 0x09

def ReturnCode.toByte : ReturnCode → UInt8
  | .success => 0x00
  | .failure => 0x01
  | .notPermitNow => 0x02
  | .outOfRange => 0x03
  | .paramNotSupport => 0x20
  | .paramRebootEffect => 0x21
  | .paramReadOnly => 0x22
  | .paramInvalidLen => 0x23
  | .paramKeyNumErr => 0x24
  | .upgradePubKeyError => 0x30
  | .upgradeDigestError => 0x31
  | .upgradeFwTypeError => 0x32
  | .upgradeFwOutOfRange => 0x33
  | .upgradeFwErasing => 0x34

def ReturnCode.tryFrom (value : UInt8) : Result ReturnCode :=
  match value with
  | 0x00 => .ok .success
  | 0x01 => .ok .failure
  | 0x02 => .ok .notPermitNow
  | 0x03 => .ok .outOfRange
  | 0x20 => .ok .paramNotSupport
  | 0x21 => .ok .paramRebootEffect
  | 0x22 => .ok .paramReadOnly
  | 0x23 => .ok .paramInvalidLen
  | 0x24 => .ok .paramKeyNumErr
  | 0x30 => .ok .upgradePubKeyError
  | 0x31 => .ok .upgradeDigestError
  | 0x32 => .ok .upgradeFwTypeError
  | 0x33 => .ok .upgradeFwOutOfRange
  | 0x34 => .ok .upgradeFwErasing
  | other => .err (.invalidReturnCode other)

def CmdId.asU16 : CmdId → UInt16
  | .discovery => 0x0000
  | .paramConfig => 0x0100
  | .paramInquire => 0x0101
  | .paramPush => 0x0102
  | .reboot => 0x0200
  | .factoryReset => 0x0201
  | .setGpsTimestamp => 0x0202
  | .logFilePush => 0x0300
  | .logCollectionConfig => 0x0301
  | .logTimeSync => 0x0302
  | .debugRawDataConfig => 0x0303
  | .upgradeStart => 0x0400
  | .upgradeData => 0x0401
  | .upgradeComplete => 0x0402
  | .upgradeState => 0x0403

def ParameterKey.asU16 : ParameterKey → UInt16
  | .pclDataType => 0x0000
  | .patternMode => 0x0001
  | .lidarIpCfg => 0x0004
  | .stateInfoHostIpCfg => 0x0005
  | .pointCloudHostIpCfg => 0x0006
  | .imuHostIpCfg => 0x0007
  | .installAttitude => 0x0012
  | .fovCfg0 => 0x0015
  | .fovCfg1 => 0x0016
  | .fovCfgEn => 0x0017
  | .detectMode => 0x0018
  | .funcIoCfg => 0x0019
  | .workTgtMode => 0x001A
  | .imuDataEn => 0x001C
  | .speedMode => 0x0021
  | .timeFilter => 0x0026
  | .sn => 0x8000
  | .productInfo => 0x8001
  | .versionApp => 0x8002
  | .versionLoader => 0x8003
  | .versionHardware => 0x8004
  | .mac => 0x8005
  | .curWorkState => 0x8006
  | .coreTemp => 0x8007
  | .powerupCnt => 0x8008
  | .localTimeNow => 0x8009
  | .lastSyncTime => 0x800A
  | .timeOffset => 0x800B
  | .timeSyncType => 0x800C
  | .lidarDiagStatus => 0x800E
  | .fwType => 0x8010
  | .hmsCode => 0x8011

/-! Every enumeration read from the wire is decoded by a `TryFrom<u8>` that inverts its
discriminants and refuses every other byte. -/

/-- A one-byte enumeration together with the laws of its decoder. -/
class ByteCode (K : Type) where
  toByte : K → UInt8
  tryFrom : UInt8 → Result K
  refusal : UInt8 → LidarError
  tryFrom_toByte : ∀ k, tryFrom (toByte k) = .ok k
  tryFrom_cases : ∀ b, (∃ k, toByte k = b) ∨ tryFrom b = .err (refusal b)

instance : ByteCode DataType where
  toByte := DataType.toByte
  tryFrom := DataType.tryFrom
  refusal := .invalidDataType
  tryFrom_toByte k := by cases k <;> rfl
  tryFrom_cases b := by
    unfold DataType.tryFrom
    split
    · exact .inl ⟨.imu, rfl⟩
    · exact .inl ⟨.pointCloudCartesian32, rfl⟩
    · exact .inl ⟨.pointCloudCartesian16, rfl⟩
    · exact .inl ⟨.pointCloudSpherical, rfl⟩
    · exact .inr rfl

instance : ByteCode TimestampType where
  toByte := TimestampType.toByte
  tryFrom := TimestampType.tryFrom
  refusal := .invalidTimestampType
  tryFrom_toByte k := by cases k <;> rfl
  tryFrom_cases b := by
    unfold TimestampType.tryFrom
    split
    · exact .inl ⟨.none, rfl⟩
    · exact .inl ⟨.ptp, rfl⟩
    · exact .inl ⟨.gps, rfl⟩
    · exact .inr rfl

instance : ByteCode CmdType where
  toByte := CmdType.toByte
  tryFrom := CmdType.tryFrom
  refusal := .invalidCmdType
  tryFrom_toByte k := by cases k <;> rfl
  tryFrom_cases b := by
    unfold CmdType.tryFrom
    split
    · exact .inl ⟨.req, rfl⟩
    · exact .inl ⟨.ack, rfl⟩
    · exact .inr rfl

instance : ByteCode SenderType where
  toByte := SenderType.toByte
  tryFrom := SenderType.tryFrom
  refusal := .invalidSenderType
  tryFrom_toByte k := by cases k <;> rfl
  tryFrom_cases b := by
    unfold SenderType.tryFrom
    split
    · exact .inl ⟨.host, rfl⟩
    · exact .inl ⟨.lidar, rfl⟩
    · exact .inr rfl

instance : ByteCode ReturnCode where
  toByte := ReturnCode.toByte
  tryFrom := ReturnCode.tryFrom
  refusal := .invalidReturnCode
  tryFrom_toByte k := by cases k <;> rfl
  tryFrom_cases b := by
    unfold ReturnCode.tryFrom
    split
    · exact .inl ⟨.success, rfl⟩
    · exact .inl ⟨.failure, rfl⟩
    · exact .inl ⟨.notPermitNow, rfl⟩
    · exact .inl ⟨.outOfRange, rfl⟩
    · exact .inl ⟨.paramNotSupport, rfl⟩
    · exact .inl ⟨.paramRebootEffect, rfl⟩
    · exact .inl ⟨.paramReadOnly, rfl⟩
    · exact .inl ⟨.paramInvalidLen, rfl⟩
    · exact .inl ⟨.paramKeyNumErr, rfl⟩
    · exact .inl ⟨.upgradePubKeyError, rfl⟩
    · exact .inl ⟨.upgradeDigestError, rfl⟩
    · exact .inl ⟨.upgradeFwTypeError, rfl⟩
    · exact .inl ⟨.upgradeFwOutOfRange, rfl⟩
    · exact .inl ⟨.upgradeFwErasing, rfl⟩
    · exact .inr rfl

theorem tryFrom_eq_ok_iff {K : Type} [ByteCode K] {b : UInt8} {k : K} :
    ByteCode.tryFrom b = .ok k ↔ ByteCode.toByte k = b := by
  constructor
  · intro h
    rcases ByteCode.tryFrom_cases (K := K) b with ⟨k', hk'⟩ | refused
    · have same := (congrArg ByteCode.tryFrom hk').symm.trans (ByteCode.tryFrom_toByte k')
      cases h.symm.trans same
      exact hk'
    · cases h.symm.trans refused
  · rintro rfl
    exact ByteCode.tryFrom_toByte k

theorem tryFrom_returns {K : Type} [ByteCode K] (b : UInt8) :
    (ByteCode.tryFrom b : Result K).Returns := by
  rcases ByteCode.tryFrom_cases (K := K) b with ⟨k, rfl⟩ | refused
  · rw [ByteCode.tryFrom_toByte]
    exact Outcome.returns_ok k
  · rw [refused]
    exact Outcome.returns_err _

end LivoxMid360.Protocol.Vocabulary
