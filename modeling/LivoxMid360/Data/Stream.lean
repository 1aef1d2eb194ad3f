/- digest: The two data sockets: one poll of each receive, its deadline, and the debug dump. -/

import LivoxMid360.Data.PacketFormat
import Mathlib.Logic.Function.Basic

set_option autoImplicit false
set_option relaxedAutoImplicit false

namespace LivoxMid360.Data.Stream

open Foundation.RustOutcome
open Foundation.LittleEndian
open Foundation.ByteBuffer
open Protocol.Vocabulary Protocol.Crc
open Packet PacketFormat

/-- The slices that the dump takes, up to the end of the packet; their checksums are only
printed. -/
def dumpSlices (profile : Profile) (buf : Bytes) (stop : Nat) : Result Unit := do
  let _timestampAndData ← slice buf 28 stop
  let _dataOnly ← slice buf 36 stop
  let _capacity ← usizeSub profile stop 4
  let _header ← slice buf 0 24
  let _behindCrc ← slice buf 28 stop
  let _whole ← slice buf 0 stop
  let _first ← slice buf 0 (min 48 buf.length)
  return ()

/-- `diagnose_packet`, less the text that it prints. -/
def diagnosePacket (profile : Profile) (buf : Bytes) : Result Unit := do
  if buf.length < dataHeaderSize then
    return ()
  else
  let length ← readLe UInt16 buf 1
  let _dotNum ← readLe UInt16 buf 5
  let _udpCnt ← readLe UInt16 buf 7
  let _stored ← readLe UInt32 buf 24
  let _timestamp ← readLe UInt64 buf 28
  let _dataType ← index buf 10
  let _frameCnt ← index buf 9
  let _timeType ← index buf 11
  dumpSlices profile buf (min length.toNat buf.length)

theorem diagnosePacket_eq (profile : Profile) {buf : Bytes}
    (header : dataHeaderSize ≤ buf.length) :
    diagnosePacket profile buf =
      dumpSlices profile buf (min (declaredLength buf) buf.length) := by
  have size : 36 ≤ buf.length := header
  rw [diagnosePacket, if_neg (Nat.not_lt.mpr header),
    readLe_ok (by rw [width_u16]; omega), Outcome.ok_bind,
    readLe_ok (by rw [width_u16]; omega), Outcome.ok_bind,
    readLe_ok (by rw [width_u16]; omega), Outcome.ok_bind,
    readLe_ok (by rw [width_u32]; omega), Outcome.ok_bind,
    readLe_ok (by rw [width_u64]; omega), Outcome.ok_bind,
    index_ok (by omega), Outcome.ok_bind, index_ok (by omega), Outcome.ok_bind,
    index_ok (by omega), Outcome.ok_bind, declaredLength]

theorem dumpSlices_panics (profile : Profile) (buf : Bytes) {stop : Nat} (low : stop < 36) :
    dumpSlices profile buf stop = .panic .sliceOutOfBounds := by
  have dataOnly : (slice buf 36 stop : Result Bytes) = .panic .sliceOutOfBounds :=
    slice_inverted low
  rw [dumpSlices, slice]
  -- the first slice may already be out of order
  split
  · rw [Outcome.ok_bind, dataOnly, Outcome.panic_bind]
  · rw [Outcome.panic_bind]

theorem dumpSlices_ok (profile : Profile) {buf : Bytes} {stop : Nat} (high : 36 ≤ stop)
    (within : stop ≤ buf.length) : dumpSlices profile buf stop = .ok () := by
  rw [dumpSlices, slice_ok (by omega) within, Outcome.ok_bind, slice_ok high within,
    Outcome.ok_bind, usizeSub_of_le profile (by omega), Outcome.ok_bind,
    slice_ok (by omega) (by omega), Outcome.ok_bind, Outcome.ok_bind,
    slice_ok (Nat.zero_le _) within, Outcome.ok_bind,
    slice_ok (Nat.zero_le _) (Nat.min_le_right _ _), Outcome.ok_bind]
  rfl

def EndsInHeader (buf : Bytes) : Prop :=
  dataHeaderSize ≤ buf.length ∧ declaredLength buf < dataHeaderSize

instance (buf : Bytes) : Decidable (EndsInHeader buf) := by
  unfold EndsInHeader
  infer_instance

theorem diagnosePacket_panics (profile : Profile) {buf : Bytes} (ends : EndsInHeader buf) :
    diagnosePacket profile buf = .panic .sliceOutOfBounds := by
  obtain ⟨header, low⟩ := ends
  rw [diagnosePacket_eq profile header]
  exact dumpSlices_panics profile buf (Nat.lt_of_le_of_lt (Nat.min_le_left _ _) low)

theorem diagnosePacket_ok (profile : Profile) {buf : Bytes} (clear : ¬ EndsInHeader buf) :
    diagnosePacket profile buf = .ok () := by
  by_cases short : buf.length < dataHeaderSize
  · rw [diagnosePacket, if_pos short]
    rfl
  · have header : dataHeaderSize ≤ buf.length := Nat.le_of_not_lt short
    have high : dataHeaderSize ≤ declaredLength buf := by
      by_contra low
      exact clear ⟨header, Nat.lt_of_not_le low⟩
    rw [diagnosePacket_eq profile header]
    exact dumpSlices_ok profile (Nat.le_min.mpr ⟨high, header⟩) (Nat.min_le_right _ _)

inductive Port
  | data
  | imu
  deriving DecidableEq, Repr

def Port.capacity : Port → Nat
  -- `recv_point_cloud` and `recv_imu` have buffers of their own
  | .data => 8192
  | .imu => 1024

/-- A datagram that a socket gave up, and whether `LIDAR_DEBUG` was set in that poll. -/
structure Taken where
  datagram : Bytes
  debug : Bool
  deriving DecidableEq

/-- A bound socket: the datagrams that wait in it, and those taken from it so far. -/
structure Socket where
  waiting : List Bytes
  taken : List Taken
  deriving DecidableEq

abbrev DataStream := Port → Socket

/-- What the system reports of a socket in one poll. A readable socket may still be reported
as not ready. -/
inductive Readiness
  | pending
  | readable
  | failed (error : String)
  deriving DecidableEq, Repr

/-- Everything that one poll depends on besides the sockets: their readiness, the branch that
`select!` tries first, whether the deadline has passed (and then what `local_addr` answers),
and whether `LIDAR_DEBUG` is set. -/
structure Turn where
  ready : Port → Readiness
  first : Port
  elapsed : Option (Except String SocketAddr)
  debug : Bool

inductive Poll (α : Type)
  | pending
  | ready (value : α)
  deriving DecidableEq

def Poll.map {α β : Type} (f : α → β) : Poll α → Poll β
  | .pending => .pending
  | .ready value => .ready (f value)

def Socket.take (socket : Socket) (datagram : Bytes) (rest : List Bytes) (debug : Bool) : Socket :=
  ⟨rest, socket.taken ++ [⟨datagram, debug⟩]⟩

def Socket.push (socket : Socket) (datagram : Bytes) : Socket :=
  ⟨socket.waiting ++ [datagram], socket.taken⟩

/-- One poll of `recv_from`: only a poll that returns a datagram takes one. -/
def recvFrom (port : Port) (turn : Turn) (stream : DataStream) :
    Poll (Result Bytes) × DataStream :=
  match turn.ready port, (stream port).waiting with
  | .readable, datagram :: rest =>
    (.ready (.ok (datagram.take port.capacity)),
      Function.update stream port ((stream port).take datagram rest turn.debug))
  | .readable, [] => (.pending, stream)
  | .failed error, _ => (.ready (.err (.io error)), stream)
  | .pending, _ => (.pending, stream)

/-! Each of these futures has one suspension point, inside `recv_from`, and holds nothing that
matters across it: a suspended future is told by its name alone. -/

def parsePointCloud (profile : Profile) (debug : Bool) (buf : Bytes) : Result DataPacket :=
  match DataPacket.parse profile buf with
  | .ok packet => .ok packet
  | .err e => do
    -- only the point-cloud receiver dumps what it refuses, before it returns the error
    if debug then diagnosePacket profile buf
    .err e
  | .panic c => .panic c

def recvPointCloud (profile : Profile) (turn : Turn) (stream : DataStream) :
    Poll (Result DataPacket) × DataStream :=
  let (polled, stream) := recvFrom .data turn stream
  (polled.map fun received => received >>= parsePointCloud profile turn.debug, stream)

def recvImu (profile : Profile) (turn : Turn) (stream : DataStream) :
    Poll (Result DataPacket) × DataStream :=
  let (polled, stream) := recvFrom .imu turn stream
  (polled.map fun received => received >>= DataPacket.parse profile, stream)

def noResponse : Except String SocketAddr → Result DataPacket
  | .ok addr => .err (.noResponse addr)
  | .error e => .err (.io e)

/-- One poll of `timeout`: the inner future first, the deadline only when it is pending. -/
def timeout (turn : Turn) (inner : Poll (Result DataPacket) × DataStream) :
    Poll (Result DataPacket) × DataStream :=
  match inner.1, turn.elapsed with
  | .ready result, _ => (.ready result, inner.2)
  -- the inner future is dropped, and took nothing
  | .pending, some addr => (.ready (noResponse addr), inner.2)
  | .pending, none => (.pending, inner.2)

def nextPointCloud (profile : Profile) (turn : Turn) (stream : DataStream) :
    Poll (Result DataPacket) × DataStream :=
  timeout turn (recvPointCloud profile turn stream)

def nextImu (profile : Profile) (turn : Turn) (stream : DataStream) :
    Poll (Result DataPacket) × DataStream :=
  timeout turn (recvImu profile turn stream)

def received (profile : Profile) (port : Port) (datagram : Bytes) (debug : Bool) :
    Result DataPacket :=
  match port with
  | .data => parsePointCloud profile debug (datagram.take port.capacity)
  | .imu => DataPacket.parse profile (datagram.take port.capacity)

def receive (profile : Profile) (turn : Turn) (stream : DataStream) :
    Port → Poll (Result DataPacket) × DataStream
  | .data => recvPointCloud profile turn stream
  | .imu => recvImu profile turn stream

/-- A receiver stays pending, or reports the socket's error, and takes nothing; or it takes the
first datagram and returns what that one becomes. -/
theorem receive_cases (profile : Profile) (turn : Turn) (stream : DataStream) (port : Port) :
    receive profile turn stream port = (.pending, stream) ∨
    (∃ error, receive profile turn stream port = (.ready (.err (.io error)), stream)) ∨
    ∃ datagram rest, (stream port).waiting = datagram :: rest ∧
      receive profile turn stream port =
        (.ready (received profile port datagram turn.debug),
          Function.update stream port ((stream port).take datagram rest turn.debug)) := by
  -- what is taken is decided by the socket alone; both receivers are `recv_from` and a map
  cases hready : turn.ready port with
  | pending =>
    left
    cases port <;> simp [receive, recvPointCloud, recvImu, recvFrom, hready, Poll.map]
  | failed error =>
    right
    left
    refine ⟨error, ?_⟩
    cases port <;> simp [receive, recvPointCloud, recvImu, recvFrom, hready, Poll.map]
  | readable =>
    cases hwaiting : (stream port).waiting with
    | nil =>
      left
      cases port <;>
        simp [receive, recvPointCloud, recvImu, recvFrom, hready, hwaiting, Poll.map]
    | cons datagram rest =>
      right
      right
      refine ⟨datagram, rest, rfl, ?_⟩
      cases port <;>
        simp [receive, recvPointCloud, recvImu, recvFrom, hready, hwaiting, Poll.map, received]

theorem mem_taken_take {stream : DataStream} {port : Port} {datagram : Bytes} {rest : List Bytes}
    {debug : Bool} {q : Port} {t : Taken} :
    t ∈ (Function.update stream port ((stream port).take datagram rest debug) q).taken ↔
      t ∈ (stream q).taken ∨ (q = port ∧ t = ⟨datagram, debug⟩) := by
  by_cases same : q = port
  · rw [same, Function.update_self, Socket.take, List.mem_append, List.mem_singleton]
    simp
  · rw [Function.update_of_ne same]
    simp [same]

/-- The datagram aborts its receiver: the parser's own length subtraction overflows in a
profile that checks it, or the debug dump of a point-cloud datagram slices past its end. -/
def Crashes (profile : Profile) (port : Port) (taken : Taken) : Prop :=
  (profile.overflowChecks = true ∧ Underflows (taken.datagram.take port.capacity)) ∨
    (port = .data ∧ taken.debug = true ∧ EndsInHeader (taken.datagram.take port.capacity))

theorem not_parse_ok_of_endsInHeader {profile : Profile} {buf : Bytes} (ends : EndsInHeader buf)
    (packet : DataPacket) : DataPacket.parse profile buf ≠ .ok packet := by
  intro parsed
  have accepted : Accepted buf := (@packet_parse_iff_accepted profile buf).mp ⟨_, parsed⟩
  have low : declaredLength buf < 36 := ends.2
  have sized := accepted.2.2.2.2.1
  omega

theorem parsePointCloud_of_clear {profile : Profile} {debug : Bool} {buf : Bytes}
    (clear : ¬ (debug = true ∧ EndsInHeader buf)) :
    parsePointCloud profile debug buf = DataPacket.parse profile buf := by
  rw [parsePointCloud]
  cases DataPacket.parse profile buf with
  | ok packet => rfl
  | panic c => rfl
  | err e =>
    dsimp only
    by_cases set : debug = true
    · rw [if_pos set, diagnosePacket_ok profile fun ends => clear ⟨set, ends⟩, Outcome.ok_bind]
    · rw [if_neg set]

theorem parsePointCloud_panics {profile : Profile} {buf : Bytes} (ends : EndsInHeader buf) :
    ∃ c, parsePointCloud profile true buf = .panic c := by
  rw [parsePointCloud]
  cases parsed : DataPacket.parse profile buf with
  | ok packet => exact absurd parsed (not_parse_ok_of_endsInHeader ends packet)
  | panic c => exact ⟨c, rfl⟩
  | err e =>
    refine ⟨.sliceOutOfBounds, ?_⟩
    dsimp only
    rw [if_pos rfl, diagnosePacket_panics profile ends, Outcome.panic_bind]

theorem received_of_not_crashes {profile : Profile} {port : Port} {taken : Taken}
    (sound : ¬ Crashes profile port taken) :
    received profile port taken.datagram taken.debug =
        DataPacket.parse profile (taken.datagram.take port.capacity) ∧
      (DataPacket.parse profile (taken.datagram.take port.capacity)).Returns := by
  have returns := (packet_parse_returns_iff profile _).mpr fun panics => sound (.inl panics)
  refine ⟨?_, returns⟩
  cases port with
  | data => exact parsePointCloud_of_clear fun ends => sound (.inr ⟨rfl, ends⟩)
  | imu => rfl

theorem received_of_crashes {profile : Profile} {port : Port} {taken : Taken}
    (crashes : Crashes profile port taken) :
    ∃ c, received profile port taken.datagram taken.debug = .panic c := by
  rcases crashes with underflows | ⟨rfl, set, ends⟩
  · have panics : ∃ c, DataPacket.parse profile (taken.datagram.take port.capacity) = .panic c := by
      by_contra returns
      exact (packet_parse_returns_iff profile _).mp (fun c hc => returns ⟨c, hc⟩) underflows
    obtain ⟨c, hc⟩ := panics
    refine ⟨c, ?_⟩
    cases port with
    | data =>
      rw [received, parsePointCloud, hc]
    | imu => exact hc
  · rw [received, set]
    exact parsePointCloud_panics ends

end LivoxMid360.Data.Stream
