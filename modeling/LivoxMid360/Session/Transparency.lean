/- digest: What the bindings build is what a live session receives: the same packets, or an error
where the receive buffer is too short. -/

import LivoxMid360.Data.Bindings
import LivoxMid360.Session.LiveReader

set_option autoImplicit false
set_option relaxedAutoImplicit false

namespace LivoxMid360.Session.Transparency

open Foundation.RustOutcome
open Foundation.LittleEndian
open Foundation.ByteBuffer
open Protocol.Vocabulary Protocol.Crc
open Data.Points Data.Packet Data.PacketFormat Data.PacketBuild Data.Stream Data.Bindings
open Data.Bindings.PyDataPacket (toBytes fromPoints fromImu)
open LiveReader

/-- What a receiver must make of a packet that was sent to its port. -/
def arrival (port : Port) (packet : DataPacket) : Result DataPacket :=
  if total packet ≤ port.capacity then .ok (withLength packet)
  else .err (.packetTooShort (total packet) port.capacity)

section Datagrams

variable {packet : DataPacket} (agree : Agree packet.header packet.payload) {datagram : Bytes}
  (built : toBytes packet = .ok datagram)

include agree built

theorem declaredLength_received (port : Port) :
    declaredLength (datagram.take port.capacity) = total packet := by
  have behind : 1 + LeWord.width UInt16 ≤ port.capacity := by cases port <;> decide
  rw [declaredLength, field_take behind]
  exact declaredLength_toBytes agree built

theorem parse_received (profile : Profile) (port : Port) :
    DataPacket.parse profile (datagram.take port.capacity) = arrival port packet := by
  have size := length_toBytes agree built
  rw [arrival]
  by_cases fits : total packet ≤ port.capacity
  · rw [if_pos fits, List.take_of_length_le (by omega)]
    exact parse_toBytes agree profile built
  -- the cut datagram keeps its length field, which now exceeds the buffer
  · have cut : (datagram.take port.capacity).length = port.capacity := by
      rw [List.length_take]
      omega
    have header : dataHeaderSize ≤ (datagram.take port.capacity).length := by
      rw [cut]
      cases port <;> decide
    have declared : (field RawHeader 0 (datagram.take port.capacity)).length.toNat =
        total packet := by
      rw [field_rawHeader]
      exact declaredLength_received agree built port
    rw [if_neg fits, DataPacket.parse, DataFrameHeader.parse_eq profile header rfl, declared, cut,
      if_pos (by omega), Outcome.err_bind]

theorem not_crashes (profile : Profile) (port : Port) (debug : Bool) :
    ¬ Crashes profile port ⟨datagram, debug⟩ := by
  have declared := declaredLength_received agree built port
  have high : dataHeaderSize ≤ total packet := Nat.le_add_right _ _
  -- both crashes need a declared length below the header
  rintro (⟨-, -, low, -⟩ | ⟨-, -, -, low⟩)
  · dsimp only at low
    omega
  · dsimp only at low
    omega

end Datagrams

/-- Where the result of a call came from, when the senders use the bindings: a packet that was
sent to a socket the call listens to and that is its result, or no packet. -/
def Brings : Option (Port × Bytes) → Call × Reply → Prop
  | some (port, datagram), (call, reply) =>
    call.listens port ∧ ∀ packet, Made packet → toBytes packet = .ok datagram →
      reply = call.reply (arrival port packet)
  | none, (call, reply) => ∃ e, FromWait e ∧ reply = call.reply (.err e)

/-- In every session whose sockets receive packets of the bindings only: no call panics, and each
packet taken is the result of exactly one call, in the order of its socket. It arrives as it was
sent, with its length filled in, or is refused because the receive buffer is shorter. -/
theorem packets_arrive (profile : Profile) (events : List Event)
    (sent : ∀ port, ∀ datagram ∈ (run profile events).arrived port,
      ∃ packet, Made packet ∧ toBytes packet = .ok datagram) :
    ¬ Panicked (run profile events) ∧
    ∃ origins, List.Forall₂ Brings origins (run profile events).log ∧
      ∀ port, (run profile events).arrived port =
        fromPort port origins ++ ((run profile events).stream port).waiting := by
  have kept := kept_run profile events
  -- everything taken had arrived, so the bindings built it
  have sound : Sound profile (run profile events) := by
    intro port t taken
    have arrived : t.datagram ∈ (run profile events).arrived port := by
      rw [kept port]
      exact List.mem_append_left _ (List.mem_map_of_mem taken)
    obtain ⟨packet, made, built⟩ := sent port t.datagram arrived
    exact not_crashes made.agree built profile port t.debug
  have accounted := accounted_run profile events sound
  refine ⟨not_panicked_of_accounted accounted, ?_⟩
  obtain ⟨origins, explained, origin⟩ := accounted
  refine ⟨origins, explained.imp fun o entry explains => ?_, fun port => ?_⟩
  · cases o with
    | none => exact explains
    | some o =>
      obtain ⟨listens, -, reply⟩ := explains
      refine ⟨listens, fun packet made built => ?_⟩
      rw [reply, parse_received made.agree built]
  · rw [← origin port]
    exact kept port

def cloudPacket : DataPacket :=
  fromPoints { cartesianHeader with dotNum := 0 } [.cartesian32 cartesianPoint]

def imuPacket : DataPacket := fromImu cartesianHeader ⟨⟨0⟩, ⟨0⟩, ⟨0⟩, ⟨0⟩, ⟨0⟩, ⟨0x3F800000⟩⟩

def datagramOf (packet : DataPacket) : Bytes :=
  encoding (withLength packet) zeroReserved (crc32 (coveredBytes (withLength packet)))

def recording : List Event :=
  [.arrive .imu (datagramOf imuPacket), .arrive .data (datagramOf cloudPacket), .call .recv,
    .poll ⟨fun _ => .readable, .data, none, true⟩, .call .nextImu,
    .poll ⟨fun _ => .readable, .imu, none, true⟩]

theorem packets_arrive_recording :
    ¬ Panicked (run .dev recording) ∧
    ∃ origins, List.Forall₂ Brings origins (run .dev recording).log ∧
      ∀ port, (run .dev recording).arrived port =
        fromPort port origins ++ ((run .dev recording).stream port).waiting := by
  have cloud : Made cloudPacket := .points _ _ (by decide) (by decide) (by decide)
  have imu : Made imuPacket := .imu _ _
  refine packets_arrive .dev recording fun port datagram member => ?_
  cases port with
  | data =>
    have only : datagram ∈ [datagramOf cloudPacket] := member
    rw [List.mem_singleton.mp only]
    exact ⟨cloudPacket, cloud, toBytes_eq cloud.agree⟩
  | imu =>
    have only : datagram ∈ [datagramOf imuPacket] := member
    rw [List.mem_singleton.mp only]
    exact ⟨imuPacket, imu, toBytes_eq imu.agree⟩

end LivoxMid360.Session.Transparency
