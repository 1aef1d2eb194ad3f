/- digest: When the debug dump lets a point-cloud receiver return the parser's error. -/

import LivoxMid360.Data.Stream

set_option autoImplicit false
set_option relaxedAutoImplicit false

namespace LivoxMid360.Data.DebugDump

open Foundation.RustOutcome
open Foundation.LittleEndian
open Protocol.Vocabulary
open Data.Packet Data.PacketFormat Data.Stream

theorem recvPointCloud_taken (profile : Profile) (turn : Turn) (stream : DataStream)
    {datagram : Bytes} {rest : List Bytes} (readable : turn.ready .data = .readable)
    (waiting : (stream .data).waiting = datagram :: rest) :
    (recvPointCloud profile turn stream).1 =
      .ready (parsePointCloud profile turn.debug (datagram.take 8192)) := by
  rw [recvPointCloud, recvFrom, readable, waiting]
  rfl

theorem parsePointCloud_err_iff {profile : Profile} {buf : Bytes} {e : LidarError}
    (failed : DataPacket.parse profile buf = .err e) :
    parsePointCloud profile true buf = .err e ↔ ¬ EndsInHeader buf := by
  constructor
  · intro returned ends
    have panics : ∃ c, parsePointCloud profile true buf = .panic c := parsePointCloud_panics ends
    obtain ⟨c, hc⟩ := panics
    cases hc.symm.trans returned
  · intro clear
    rw [parsePointCloud_of_clear fun set => clear set.2, failed]

/-- The receiver returns the parser's error exactly when the bytes that it received stop
short of a header or declare a length of at least a header. -/
theorem debug_keeps_error_iff {profile : Profile} {turn : Turn} {stream : DataStream}
    {datagram : Bytes} {rest : List Bytes} {e : LidarError}
    (readable : turn.ready .data = .readable)
    (waiting : (stream .data).waiting = datagram :: rest) (debug : turn.debug = true)
    (failed : DataPacket.parse profile (datagram.take 8192) = .err e) :
    (recvPointCloud profile turn stream).1 = .ready (.err e) ↔
      (datagram.take 8192).length < 36 ∨ 36 ≤ declaredLength (datagram.take 8192) := by
  have condition : ¬ EndsInHeader (datagram.take 8192) ↔
      (datagram.take 8192).length < 36 ∨ 36 ≤ declaredLength (datagram.take 8192) := by
    rw [EndsInHeader, dataHeaderSize]
    omega
  rw [recvPointCloud_taken profile turn stream readable waiting, debug, ← condition,
    ← parsePointCloud_err_iff failed]
  exact ⟨Poll.ready.inj, congrArg Poll.ready⟩

def debugTurn : Turn := ⟨fun _ => .readable, .data, none, true⟩

def holding (datagram : Bytes) : DataStream := fun _ => ⟨[datagram], []⟩

theorem debug_keeps_error_short :
    (recvPointCloud .release debugTurn (holding [0, 1, 2])).1 =
        .ready (.err (.packetTooShort 36 3)) ↔
      ([0, 1, 2].take 8192 : Bytes).length < 36 ∨
        36 ≤ declaredLength ([0, 1, 2].take 8192) :=
  debug_keeps_error_iff rfl rfl rfl (by decide)

/-- A header of zeros under an unknown data type: its declared length is zero. -/
def unknownType : Bytes := [0, 0, 0, 0, 0, 0, 0, 0, 0, 0, 9] ++ List.replicate 25 0

theorem debug_loses_error :
    ¬ ∀ profile (turn : Turn) (stream : DataStream) datagram rest e,
      turn.ready .data = .readable → (stream .data).waiting = datagram :: rest →
      turn.debug = true → DataPacket.parse profile (datagram.take 8192) = .err e →
      (recvPointCloud profile turn stream).1 = .ready (.err e) := by
  intro claim
  have failed : DataPacket.parse .dev (unknownType.take 8192) = .err (.invalidDataType 9) := by
    decide
  have returned := claim .dev debugTurn (holding unknownType) unknownType [] _ rfl rfl rfl failed
  have ends : EndsInHeader (unknownType.take 8192) := by
    decide
  rw [recvPointCloud_taken .dev debugTurn (holding unknownType) rfl rfl] at returned
  exact (parsePointCloud_err_iff failed).mp (Poll.ready.inj returned) ends

end LivoxMid360.Data.DebugDump
