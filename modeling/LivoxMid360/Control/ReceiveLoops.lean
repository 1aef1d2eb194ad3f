/- digest: Which datagrams abort the receive loops of the command client. -/

import LivoxMid360.Control.Client

set_option autoImplicit false
set_option relaxedAutoImplicit false

namespace LivoxMid360.Control.ReceiveLoops

open Foundation.RustOutcome
open Foundation.LittleEndian
open Protocol.Vocabulary Protocol.Command Protocol.Crc Protocol.Parameters
open Protocol.CommandGrammar (Understated)
open Client
open CommandFrame (newReq)

def Aborted {α : Type} (result : Option (Result α)) : Prop := ∃ c, result = some (.panic c)

/-- `send_command` passes over the datagram and keeps waiting: another host sent it, or it
neither understates its length nor begins with an acknowledgement of the request. -/
def Skipped (addr : SocketAddr) (req : CommandFrame) (d : Datagram) : Prop :=
  d.source.ip ≠ addr.ip ∨ ¬ Understated (d.received 2048) ∧
    ∀ (frame : CommandFrame) (reserved tail : Bytes), frame.LengthMatches →
      reserved.length = 6 → d.received 2048 = frame.encoding reserved ++ tail →
      frame.isAckFor req = false

theorem parse_panics_iff (profile : Profile) (buf : Bytes) :
    (∃ c, CommandFrame.parse profile buf = .panic c) ↔ Understated buf := by
  have returns := Protocol.CommandGrammar.parse_returns_iff profile buf
  constructor
  · rintro ⟨c, panics⟩
    by_contra fine
    exact returns.mpr fine c panics
  · intro understated
    by_contra fine
    exact returns.mp (fun c panics => fine ⟨c, panics⟩) understated

theorem not_understated_of_ok {profile : Profile} {buf : Bytes} {frame : CommandFrame}
    (parsed : CommandFrame.parse profile buf = .ok frame) : ¬ Understated buf := by
  apply (Protocol.CommandGrammar.parse_returns_iff profile buf).mp
  rw [parsed]
  exact Outcome.returns_ok frame

theorem not_understated_of_err {profile : Profile} {buf : Bytes} {error : LidarError}
    (parsed : CommandFrame.parse profile buf = .err error) : ¬ Understated buf := by
  apply (Protocol.CommandGrammar.parse_returns_iff profile buf).mp
  rw [parsed]
  exact Outcome.returns_err error

theorem commandStep_cases (profile : Profile) (addr : SocketAddr) (req : CommandFrame)
    (d : Datagram) :
    (Skipped addr req d ∧ commandStep profile addr req d = .ok none) ∨
    (∃ frame, commandStep profile addr req d = .ok (some frame)) ∧
      ¬ Skipped addr req d ∧ ¬ Understated (d.received 2048) ∨
    (∃ c, commandStep profile addr req d = .panic c) ∧
      d.source.ip = addr.ip ∧ Understated (d.received 2048) := by
  rw [commandStep]
  by_cases elsewhere : d.source.ip ≠ addr.ip
  · exact .inl ⟨.inl elsewhere, if_pos elsewhere⟩
  rw [if_neg elsewhere]
  -- what the parser accepts is what the grammar admits, whichever frame it is
  have grammar {frame : CommandFrame} {reserved tail : Bytes} (matched : frame.LengthMatches)
      (six : reserved.length = 6) (layout : d.received 2048 = frame.encoding reserved ++ tail) :
      CommandFrame.parse profile (d.received 2048) = .ok frame :=
    Protocol.CommandGrammar.parse_eq_ok_iff.mpr ⟨matched, reserved, tail, six, layout⟩
  cases parsed : CommandFrame.parse profile (d.received 2048) with
  | ok frame =>
    have fine := not_understated_of_ok parsed
    cases acknowledges : frame.isAckFor req with
    | true =>
      refine .inr (.inl ⟨⟨frame, if_pos acknowledges⟩, ?_, fine⟩)
      obtain ⟨matched, reserved, tail, six, layout⟩ :=
        Protocol.CommandGrammar.encoding_of_parse parsed
      rintro (away | ⟨-, never⟩)
      · exact elsewhere away
      · have refused := never frame reserved tail matched six layout
        exact Bool.false_ne_true (refused.symm.trans acknowledges)
    | false =>
      refine .inl ⟨.inr ⟨fine, ?_⟩, if_neg (Bool.eq_false_iff.mp acknowledges)⟩
      intro f reserved tail matched six layout
      cases parsed.symm.trans (grammar matched six layout)
      exact acknowledges
  | err e =>
    refine .inl ⟨.inr ⟨not_understated_of_err parsed, ?_⟩, rfl⟩
    intro f reserved tail matched six layout
    cases parsed.symm.trans (grammar matched six layout)
  | panic c =>
    exact .inr (.inr ⟨⟨c, rfl⟩, not_not.mp elsewhere,
      (parse_panics_iff profile _).mp ⟨c, parsed⟩⟩)

theorem discoveryAck_of_ok {profile : Profile} {d : Datagram} {frame : CommandFrame}
    (parsed : CommandFrame.parse profile (d.received 1024) = .ok frame) :
    ∃ ack, discoveryAck profile d = .ok ack := by
  rw [discoveryAck, parsed]
  dsimp only
  by_cases answer : frame.cmdId = CmdId.discovery.asU16 ∧ frame.cmdType = .ack
  · rw [if_pos answer]
    cases hack : DiscoveryAck.parse frame.data with
    | ok ack => exact ⟨some ack, rfl⟩
    | err e => exact ⟨none, rfl⟩
    | panic c => exact absurd hack (DiscoveryAck.parse_returns frame.data c)
  · rw [if_neg answer]
    exact ⟨none, rfl⟩

theorem discoverStep_cases (profile : Profile) (found : Discovery) (d : Datagram) :
    (∃ next, discoverStep profile found d = .ok next) ∧ ¬ Understated (d.received 1024) ∨
    (∃ c, discoverStep profile found d = .panic c) ∧ Understated (d.received 1024) := by
  cases parsed : CommandFrame.parse profile (d.received 1024) with
  | ok frame =>
    refine .inl ⟨?_, not_understated_of_ok parsed⟩
    obtain ⟨ack, hack⟩ := discoveryAck_of_ok parsed
    rw [discoverStep, hack, Outcome.ok_bind]
    cases ack with
    | some ack => exact ⟨_, rfl⟩
    | none => exact ⟨_, rfl⟩
  | err e =>
    refine .inl ⟨⟨found, ?_⟩, not_understated_of_err parsed⟩
    rw [discoverStep, discoveryAck, parsed]
    rfl
  | panic c =>
    refine .inr ⟨⟨c, ?_⟩, (parse_panics_iff profile _).mp ⟨c, parsed⟩⟩
    rw [discoverStep, discoveryAck, parsed]
    rfl

theorem aborted_iff_of_quiet {α : Type} {result : Option (Result α)} {events : List Recv}
    {P : List Datagram → Datagram → Prop} (returns : ¬ Aborted result)
    (quiet : ∀ d rest, events ≠ .datagram d :: rest) :
    Aborted result ↔ ∃ (earlier : List Datagram) (d : Datagram) (rest : List Recv),
      events = earlier.map .datagram ++ .datagram d :: rest ∧ P earlier d := by
  apply iff_of_false returns
  rintro ⟨earlier, d, rest, split, -⟩
  cases earlier with
  | nil => exact quiet d rest split
  | cons first earlier => exact quiet first _ split

/-- The loop of `send_command` is aborted exactly by an understated frame from the addressed
host that arrives while the call is still waiting. -/
theorem awaitAck_aborted_iff (profile : Profile) (addr : SocketAddr) (req : CommandFrame)
    (events : List Recv) :
    Aborted (awaitAck profile addr req events) ↔
      ∃ (skipped : List Datagram) (d : Datagram) (rest : List Recv),
        events = skipped.map .datagram ++ .datagram d :: rest ∧
        (∀ e ∈ skipped, Skipped addr req e) ∧
        d.source.ip = addr.ip ∧ Understated (d.received 2048) := by
  -- on the events: a datagram that is passed over joins the skipped ones
  induction events with
  | nil =>
    refine aborted_iff_of_quiet ?_ (fun d rest h => by cases h)
    rintro ⟨c, h⟩
    cases h
  | cons e events ih =>
    cases e with
    | elapsed =>
      refine aborted_iff_of_quiet ?_ (fun d rest h => by cases h)
      rintro ⟨c, h⟩
      cases h
    | failed error =>
      refine aborted_iff_of_quiet ?_ (fun d rest h => by cases h)
      rintro ⟨c, h⟩
      cases h
    | datagram d =>
      rw [awaitAck]
      rcases commandStep_cases profile addr req d with
        ⟨skips, hstep⟩ | ⟨⟨frame, hstep⟩, taken, fine⟩ | ⟨⟨c, hstep⟩, addressed, understated⟩
      -- the datagram is passed over: neither side changes
      · rw [hstep]
        dsimp only
        rw [ih]
        constructor
        · rintro ⟨skipped, d', rest, rfl, each, last⟩
          exact ⟨d :: skipped, d', rest, rfl, List.forall_mem_cons.mpr ⟨skips, each⟩, last⟩
        · rintro ⟨skipped, d', rest, split, each, addressed, understated⟩
          cases skipped with
          | nil =>
            cases split
            rcases skips with elsewhere | ⟨fine, -⟩
            · exact absurd addressed elsewhere
            · exact absurd understated fine
          | cons first skipped =>
            cases split
            exact ⟨skipped, d', rest, rfl, (List.forall_mem_cons.mp each).2, addressed,
              understated⟩
      -- the datagram is taken: the call is over, and nothing behind it counts
      · rw [hstep]
        refine iff_of_false ?_ ?_
        · rintro ⟨c, h⟩
          cases h
        · rintro ⟨skipped, d', rest, split, each, addressed, understated⟩
          cases skipped with
          | nil =>
            cases split
            exact fine understated
          | cons first skipped =>
            cases split
            exact taken (List.forall_mem_cons.mp each).1
      -- the datagram aborts the parser
      · rw [hstep]
        refine iff_of_true ⟨c, rfl⟩ ?_
        exact ⟨[], d, events, rfl, fun e he => absurd he List.not_mem_nil, addressed, understated⟩

/-- The loop of `discover` is aborted exactly by the first understated frame that arrives
before it ends. -/
theorem collect_aborted_iff (profile : Profile) (found : Discovery) (events : List Recv) :
    Aborted (collect profile found events) ↔
      ∃ (earlier : List Datagram) (d : Datagram) (rest : List Recv),
        events = earlier.map .datagram ++ .datagram d :: rest ∧ Understated (d.received 1024) := by
  induction events generalizing found with
  | nil =>
    refine aborted_iff_of_quiet ?_ (fun d rest h => by cases h)
    rintro ⟨c, h⟩
    cases h
  | cons e events ih =>
    cases e with
    | elapsed =>
      refine aborted_iff_of_quiet ?_ (fun d rest h => by cases h)
      rintro ⟨c, h⟩
      cases h
    | failed error =>
      refine aborted_iff_of_quiet ?_ (fun d rest h => by cases h)
      rintro ⟨c, h⟩
      cases h
    | datagram d =>
      rw [collect]
      rcases discoverStep_cases profile found d with ⟨⟨next, hstep⟩, fine⟩ | ⟨⟨c, hstep⟩, bad⟩
      -- `discover` skips nothing: whoever sent it, a datagram that parses goes on
      · rw [hstep]
        dsimp only
        rw [ih next]
        constructor
        · rintro ⟨earlier, d', rest, rfl, bad⟩
          exact ⟨d :: earlier, d', rest, rfl, bad⟩
        · rintro ⟨earlier, d', rest, split, bad⟩
          cases earlier with
          | nil =>
            cases split
            exact absurd bad fine
          | cons first earlier =>
            cases split
            exact ⟨earlier, d', rest, rfl, bad⟩
      · rw [hstep]
        exact iff_of_true ⟨c, rfl⟩ ⟨[], d, events, rfl, bad⟩

/-- The parser, and with it the two receive loops, come back on every input but those that
hold an understated frame. -/
theorem receive_returns_iff (profile : Profile) :
    (∀ buf, (CommandFrame.parse profile buf).Returns ↔ ¬ Understated buf) ∧
    (∀ addr req events, ¬ Aborted (awaitAck profile addr req events) ↔
      ¬ ∃ (skipped : List Datagram) (d : Datagram) (rest : List Recv),
        events = skipped.map .datagram ++ .datagram d :: rest ∧
        (∀ e ∈ skipped, Skipped addr req e) ∧
        d.source.ip = addr.ip ∧ Understated (d.received 2048)) ∧
    (∀ found events, ¬ Aborted (collect profile found events) ↔
      ¬ ∃ (earlier : List Datagram) (d : Datagram) (rest : List Recv),
        events = earlier.map .datagram ++ .datagram d :: rest ∧
        Understated (d.received 1024)) := by
  refine ⟨?_, ?_, ?_⟩
  · exact Protocol.CommandGrammar.parse_returns_iff profile
  · intro addr req events
    exact not_congr (awaitAck_aborted_iff profile addr req events)
  · intro found events
    exact not_congr (collect_aborted_iff profile found events)

def understatedFrame : Bytes :=
  [0xAA, 0, 0, 0, 0, 0, 0, 0, 0, 0, 0, 0, 0, 0, 0, 0, 0, 0, 0x47, 0x56, 0, 0, 0, 0]

theorem understatedFrame_aborts :
    CommandFrame.parse .dev understatedFrame = .panic .subtractWithOverflow ∧
    CommandFrame.parse .release understatedFrame = .panic .sliceOutOfBounds ∧
    awaitAck .release ⟨.v4 ⟨192, 168, 1, 100⟩, cmdPort⟩
        (setParameterReq 1 (setDataType .pointCloudCartesian32))
        [.datagram ⟨⟨.v4 ⟨192, 168, 1, 100⟩, cmdPort⟩, understatedFrame⟩] =
      some (.panic .sliceOutOfBounds) ∧
    discover .release (.ok ()) [.datagram ⟨⟨.v4 ⟨10, 0, 0, 7⟩, 4000⟩, understatedFrame⟩] =
      some (.panic .sliceOutOfBounds) := by
  refine ⟨?_, ?_, ?_, ?_⟩
  · decide +kernel
  · decide +kernel
  · decide +kernel
  · decide +kernel

end LivoxMid360.Control.ReceiveLoops
