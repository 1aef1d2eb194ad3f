/- digest: Which payloads the send path of a command takes, refuses, or aborts on. -/

import LivoxMid360.Control.Client

set_option autoImplicit false
set_option relaxedAutoImplicit false

namespace LivoxMid360.Control.SendPath

open Foundation.RustOutcome
open Foundation.LittleEndian
open Foundation.ByteBuffer
open Protocol.Vocabulary Protocol.Command
open Client
open CommandFrame (newReq)

def handed (profile : Profile) (seqNum : UInt32) (cmdId : UInt16) (data : Bytes) : List Bytes :=
  match encodeRequest profile 2048 (newReq seqNum cmdId data) with
  | .ok bytes => [bytes]
  | .err _ => []
  | .panic _ => []

/-- Building and writing the request comes back; a payload too large for the length field or
for the buffer makes `send_command` return an error, with nothing sent. -/
def SendsOrRefuses (profile : Profile) (seqNum : UInt32) (cmdId : UInt16) (data : Bytes) : Prop :=
  (encodeRequest profile 2048 (newReq seqNum cmdId data)).Returns ∧
  (2048 < cmdHeaderSize + data.length →
    handed profile seqNum cmdId data = [] ∧
      ∀ addr sent events, ∃ e,
        sendCommand profile addr seqNum cmdId data sent events = some (.err e))

theorem encodeRequest_short (profile : Profile) (capacity : Nat) (req : CommandFrame)
    (short : capacity < req.length.toNat) :
    encodeRequest profile capacity req = .err .bufferTooSmall := by
  have full : (List.replicate capacity (0 : UInt8)).length < req.length.toNat := by
    rwa [List.length_replicate]
  rw [encodeRequest, Protocol.CommandGrammar.write_short profile full]

theorem encodeRequest_panics (profile : Profile) (capacity : Nat) (req : CommandFrame)
    (room : req.length.toNat ≤ capacity) (mismatch : ¬ req.LengthMatches) :
    ∃ c, encodeRequest profile capacity req = .panic c := by
  have within : req.length.toNat ≤ (List.replicate capacity (0 : UInt8)).length := by
    rwa [List.length_replicate]
  obtain ⟨c, out, written⟩ := CommandFrame.write_panics profile within mismatch
  refine ⟨c, ?_⟩
  rw [encodeRequest, written]

theorem newReq_length (seqNum : UInt32) (cmdId : UInt16) (data : Bytes) :
    (newReq seqNum cmdId data).length.toNat = (24 + data.length) % 65536 :=
  UInt16.toNat_ofNat

theorem newReq_lengthMatches_iff (seqNum : UInt32) (cmdId : UInt16) (data : Bytes) :
    (newReq seqNum cmdId data).LengthMatches ↔ 24 + data.length < 65536 := by
  have field : (newReq seqNum cmdId data).data = data := rfl
  rw [CommandFrame.LengthMatches, newReq_length, field, cmdHeaderSize]
  omega

theorem handed_of_err {profile : Profile} {seqNum : UInt32} {cmdId : UInt16} {data : Bytes}
    {e : LidarError}
    (refused : encodeRequest profile 2048 (newReq seqNum cmdId data) = .err e) :
    handed profile seqNum cmdId data = [] := by
  rw [handed, refused]

theorem sendCommand_of_err {profile : Profile} {seqNum : UInt32} {cmdId : UInt16} {data : Bytes}
    {e : LidarError} (refused : encodeRequest profile 2048 (newReq seqNum cmdId data) = .err e)
    (addr : SocketAddr) (sent : Result Unit) (events : List Recv) :
    sendCommand profile addr seqNum cmdId data sent events = some (.err e) := by
  rw [sendCommand, refused, Outcome.err_bind]

/-- The send path meets its contract exactly on the payloads whose frame length is not
truncated, or is truncated to more than the send buffer holds. -/
theorem sends_or_refuses_iff (profile : Profile) (seqNum : UInt32) (cmdId : UInt16)
    (data : Bytes) :
    SendsOrRefuses profile seqNum cmdId data ↔
      24 + data.length < 65536 ∨ 2048 < (24 + data.length) % 65536 := by
  have length := newReq_length seqNum cmdId data
  have matched := newReq_lengthMatches_iff seqNum cmdId data
  constructor
  · intro ⟨returns, _⟩
    by_contra neither
    obtain ⟨truncated, room⟩ := not_or.mp neither
    -- the length check let the truncated length pass, and a slice panics
    obtain ⟨c, panics⟩ := encodeRequest_panics profile 2048 (newReq seqNum cmdId data)
      (by omega) (mt matched.mp truncated)
    exact returns c panics
  · intro condition
    by_cases long : 2048 < (24 + data.length) % 65536
    -- the stored length is over the buffer, truncated or not: the first statement refuses
    · have refused := encodeRequest_short profile 2048 (newReq seqNum cmdId data) (by omega)
      refine ⟨?_, fun _ => ?_⟩
      · rw [refused]
        exact Outcome.returns_err _
      · exact ⟨handed_of_err refused, fun addr sent events =>
          ⟨_, sendCommand_of_err refused addr sent events⟩⟩
    -- nothing was truncated, and the frame fits
    · have whole : 24 + data.length < 65536 := condition.resolve_right long
      have accepted : encodeRequest profile 2048 (newReq seqNum cmdId data) = .ok _ :=
        encodeRequest_eq profile (matched.mpr whole) (by omega)
      refine ⟨?_, fun large => ?_⟩
      · rw [accepted]
        exact Outcome.returns_ok _
      · rw [cmdHeaderSize] at large
        omega

/-- A payload of 65512 bytes makes a frame of 65536, whose length field is zero. -/
theorem truncated_length_aborts :
    ¬ ∀ profile seqNum cmdId data, SendsOrRefuses profile seqNum cmdId data := by
  intro claim
  have returns := (claim .release 1 CmdId.paramConfig.asU16 (List.replicate 65512 0)).1
  have length := newReq_length 1 CmdId.paramConfig.asU16 (List.replicate 65512 0)
  rw [List.length_replicate] at length
  have truncated :
      ¬ (newReq 1 CmdId.paramConfig.asU16 (List.replicate 65512 0)).LengthMatches := by
    rw [newReq_lengthMatches_iff, List.length_replicate]
    omega
  obtain ⟨c, panics⟩ := encodeRequest_panics .release 2048 _ (by omega) truncated
  exact returns c panics

end LivoxMid360.Control.SendPath
