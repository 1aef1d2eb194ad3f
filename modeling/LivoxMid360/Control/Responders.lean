/- digest: What a discovery returns: the first response of each address, whoever sent it. -/

import LivoxMid360.Control.ReceiveLoops
import LivoxMid360.Foundation.FirstOccurrences

set_option autoImplicit false
set_option relaxedAutoImplicit false

namespace LivoxMid360.Control.Responders

open Foundation.RustOutcome
open Foundation.LittleEndian
open Foundation.FirstOccurrences
open Protocol.Vocabulary Protocol.Command Protocol.Parameters
open Protocol.CommandGrammar (Understated)
open Client ReceiveLoops
open CommandFrame (newReq)

def discoveryReq : CommandFrame := newReq 0 CmdId.discovery.asU16 []

/-- A datagram that `discover` takes for an answer begins with a well-formed frame whose
command is `Discovery` and whose type is `Ack`, and which carries an acknowledgement. -/
structure Announces (d : Datagram) (frame : CommandFrame) (ack : DiscoveryAck) : Prop where
  matched : frame.LengthMatches
  layout : ∃ reserved tail, reserved.length = 6 ∧ d.received 1024 = frame.encoding reserved ++ tail
  discovery : frame.cmdId = CmdId.discovery.asU16
  acknowledges : frame.cmdType = .ack
  contents : DiscoveryAck.parse frame.data = .ok ack

def respondent (ack : DiscoveryAck) : Ipv4Addr × UInt16 := (ack.lidarIp, ack.cmdPort)

def respondentAddr (ack : DiscoveryAck) : SocketAddr := (deviceOf ack).lidarCmdAddr

def announced (profile : Profile) (d : Datagram) : Option DiscoveryAck :=
  match discoveryAck profile d with
  | .ok ack => ack
  | .err _ => none
  | .panic _ => none

def announcements (profile : Profile) (ds : List Datagram) : List DiscoveryAck :=
  ds.filterMap (announced profile)

def untilDeadline (ds : List Datagram) (rest : List Recv) : List Recv :=
  ds.map .datagram ++ .elapsed :: rest

def recordAll (found : Discovery) (acks : List DiscoveryAck) : Discovery :=
  acks.foldl Discovery.record found

theorem Announces.parsed {d : Datagram} {frame : CommandFrame} {ack : DiscoveryAck}
    (h : Announces d frame ack) (profile : Profile) :
    CommandFrame.parse profile (d.received 1024) = .ok frame :=
  Protocol.CommandGrammar.parse_eq_ok_iff.mpr ⟨h.matched, h.layout⟩

theorem Announces.unique {d : Datagram} {frame frame' : CommandFrame} {ack ack' : DiscoveryAck}
    (h : Announces d frame ack) (h' : Announces d frame' ack') : frame = frame' ∧ ack = ack' := by
  cases (h.parsed .release).symm.trans (h'.parsed .release)
  cases h.contents.symm.trans h'.contents
  exact ⟨rfl, rfl⟩

theorem discoveryAck_eq_some_iff {profile : Profile} {d : Datagram} {ack : DiscoveryAck} :
    discoveryAck profile d = .ok (some ack) ↔ ∃ frame, Announces d frame ack := by
  constructor
  · intro h
    rw [discoveryAck] at h
    cases parsed : CommandFrame.parse profile (d.received 1024) with
    | err e =>
      rw [parsed] at h
      cases h
    | panic c =>
      rw [parsed] at h
      cases h
    | ok frame =>
      rw [parsed] at h
      dsimp only at h
      by_cases answer : frame.cmdId = CmdId.discovery.asU16 ∧ frame.cmdType = .ack
      · rw [if_pos answer] at h
        obtain ⟨matched, layout⟩ := Protocol.CommandGrammar.parse_eq_ok_iff.mp parsed
        cases contents : DiscoveryAck.parse frame.data with
        | ok other =>
          rw [contents] at h
          cases h
          exact ⟨frame, matched, layout, answer.1, answer.2, contents⟩
        | err e =>
          rw [contents] at h
          cases h
        | panic c =>
          rw [contents] at h
          cases h
      · rw [if_neg answer] at h
        cases h
  · rintro ⟨frame, h⟩
    rw [discoveryAck, h.parsed profile]
    dsimp only
    rw [if_pos ⟨h.discovery, h.acknowledges⟩, h.contents]

theorem announced_eq_some_iff {profile : Profile} {d : Datagram} {ack : DiscoveryAck} :
    announced profile d = some ack ↔ ∃ frame, Announces d frame ack := by
  rw [← discoveryAck_eq_some_iff, announced]
  cases discoveryAck profile d with
  | ok found => simp
  | err e => simp
  | panic c => simp

theorem mem_announcements {profile : Profile} {ds : List Datagram} {ack : DiscoveryAck} :
    ack ∈ announcements profile ds ↔ ∃ d ∈ ds, ∃ frame, Announces d frame ack := by
  rw [announcements, List.mem_filterMap]
  simp only [announced_eq_some_iff]

theorem discoverStep_clear {profile : Profile} {d : Datagram}
    (clear : ¬ Understated (d.received 1024)) (found : Discovery) :
    discoverStep profile found d = .ok (recordAll found (announced profile d).toList) := by
  rcases discoverStep_cases profile found d with ⟨⟨next, hstep⟩, -⟩ | ⟨-, bad⟩
  · rw [discoverStep] at hstep
    obtain ⟨ack, hack, -⟩ := Outcome.bind_eq_ok.mp hstep
    rw [discoverStep, announced, hack, Outcome.ok_bind]
    cases ack with
    | some ack => rfl
    | none => rfl
  · exact absurd bad clear

theorem collect_datagrams {profile : Profile} {ds : List Datagram}
    (clear : ∀ d ∈ ds, ¬ Understated (d.received 1024)) (found : Discovery)
    (rest : List Recv) :
    collect profile found (ds.map .datagram ++ rest) =
      collect profile (recordAll found (announcements profile ds)) rest := by
  induction ds generalizing found with
  | nil => rfl
  | cons d ds ih =>
    obtain ⟨first, others⟩ := List.forall_mem_cons.mp clear
    -- announcements are read off in the order of the datagrams
    have split : announcements profile (d :: ds) =
        (announced profile d).toList ++ announcements profile ds := by
      rw [announcements, List.filterMap_cons]
      cases announced profile d with
      | none => rfl
      | some ack => rfl
    rw [List.map_cons, List.cons_append, collect, discoverStep_clear first]
    dsimp only
    rw [ih others, split, recordAll, recordAll, recordAll, List.foldl_append]

/-- The loop ends well only at its deadline, after datagrams none of which aborts it. -/
theorem collect_ok_inv {profile : Profile} {found : Discovery} {events : List Recv}
    {devices : List DiscoveredDevice} (h : collect profile found events = some (.ok devices)) :
    ∃ ds rest, events = untilDeadline ds rest ∧ ∀ d ∈ ds, ¬ Understated (d.received 1024) := by
  induction events generalizing found with
  | nil => cases h
  | cons event events ih =>
    cases event with
    | elapsed => exact ⟨[], events, rfl, List.forall_mem_nil _⟩
    | failed e => cases h
    | datagram d =>
      rw [collect] at h
      rcases discoverStep_cases profile found d with ⟨⟨next, hstep⟩, fine⟩ | ⟨⟨c, hstep⟩, -⟩
      · rw [hstep] at h
        obtain ⟨ds, rest, rfl, clear⟩ := ih h
        exact ⟨d :: ds, rest, rfl, List.forall_mem_cons.mpr ⟨fine, clear⟩⟩
      · rw [hstep] at h
        cases h

theorem recordAll_devices (found : Discovery) (acks : List DiscoveryAck) :
    (recordAll found acks).devices = found.devices ++
      (firstsAfter respondentAddr found.seen acks).map deviceOf := by
  induction acks generalizing found with
  | nil => exact (List.append_nil _).symm
  | cons ack acks ih =>
    have step : recordAll found (ack :: acks) = recordAll (found.record ack) acks := rfl
    rw [step, ih]
    -- `seen` holds the addresses of the devices listed, so it plays the keys already met
    by_cases known : respondentAddr ack ∈ found.seen
    · have kept : found.record ack = found := if_pos known
      rw [firstsAfter_cons_seen known, kept]
    · have pushed : found.record ack = found.push (deviceOf ack) := if_neg known
      rw [firstsAfter_cons_new known, pushed, List.map_cons, Discovery.push, List.append_assoc]
      rfl

theorem firsts_respondentAddr (acks : List DiscoveryAck) :
    firsts respondentAddr acks = firsts respondent acks := by
  have apart : Function.Injective
      (fun pair : Ipv4Addr × UInt16 => (⟨.v4 pair.1, pair.2⟩ : SocketAddr)) := by
    rintro ⟨ip, port⟩ ⟨ip', port'⟩ same
    cases same
    rfl
  have renamed : firsts (_ ∘ respondent) acks = firsts respondent acks := firsts_comp apart acks
  exact renamed

/-- The devices that a discovery finds in the datagrams it receives. -/
def responders (profile : Profile) (ds : List Datagram) : List DiscoveredDevice :=
  (firsts respondent (announcements profile ds)).map deviceOf

/-- The request always fits the buffer, so that the loop starts when it is sent. -/
theorem discover_eq (profile : Profile) (sent : Result Unit) (events : List Recv) :
    discover profile sent events =
      match sent with
      | .ok () => collect profile .empty events
      | .err e => some (.err e)
      | .panic c => some (.panic c) := by
  have encoded : encodeRequest profile 1024 (newReq 0 CmdId.discovery.asU16 []) = .ok _ :=
    encodeRequest_eq profile (by decide) (by decide)
  rw [discover, encoded]
  rfl

theorem discover_untilDeadline {profile : Profile} {ds : List Datagram}
    (clear : ∀ d ∈ ds, ¬ Understated (d.received 1024)) (rest : List Recv) :
    discover profile (.ok ()) (untilDeadline ds rest) = some (.ok (responders profile ds)) := by
  have listed := recordAll_devices .empty (announcements profile ds)
  rw [discover_eq, untilDeadline]
  dsimp only
  rw [collect_datagrams clear, collect, listed, responders, ← firsts_respondentAddr]
  rfl

theorem discover_ok_inv {profile : Profile} {sent : Result Unit} {events : List Recv}
    {devices : List DiscoveredDevice} (h : discover profile sent events = some (.ok devices)) :
    ∃ ds rest, events = untilDeadline ds rest ∧ devices = responders profile ds := by
  have looped := h
  rw [discover_eq] at looped
  cases sent with
  | err e => cases looped
  | panic c => cases looped
  | ok done =>
    obtain ⟨ds, rest, rfl, clear⟩ := collect_ok_inv looped
    rw [discover_untilDeadline clear] at h
    cases h
    exact ⟨ds, rest, rfl, rfl⟩

/-- The frame and its acknowledgement come from the first datagram that announces their
address. -/
def FirstResponse (ds : List Datagram) (frame : CommandFrame) (ack : DiscoveryAck) : Prop :=
  ∃ before d after, ds = before ++ d :: after ∧ Announces d frame ack ∧
    ∀ e ∈ before, ∀ f other, Announces e f other → respondent other ≠ respondent ack

theorem mem_firsts_announcements {profile : Profile} {ds : List Datagram} {ack : DiscoveryAck} :
    ack ∈ firsts respondent (announcements profile ds) ↔ ∃ frame, FirstResponse ds frame ack := by
  rw [mem_firsts]
  constructor
  · rintro ⟨earlier, later, split, fresh⟩
    obtain ⟨front, back, rfl, hfront, hback⟩ := List.filterMap_eq_append_iff.mp split
    obtain ⟨quiet, d, after, rfl, silent, answer, -⟩ := List.filterMap_eq_cons_iff.mp hback
    obtain ⟨frame, h⟩ := announced_eq_some_iff.mp answer
    refine ⟨frame, front ++ quiet, d, after, (List.append_assoc _ _ _).symm, h, ?_⟩
    intro e member f other announces
    have heard : announced profile e = some other := announced_eq_some_iff.mpr ⟨f, announces⟩
    -- an earlier datagram announced another address, or nothing at all
    rcases List.mem_append.mp member with inFront | inQuiet
    · apply fresh
      rw [← hfront, List.mem_filterMap]
      exact ⟨e, inFront, heard⟩
    · rw [silent e inQuiet] at heard
      cases heard
  · rintro ⟨frame, before, d, after, rfl, h, fresh⟩
    refine ⟨announcements profile before, announcements profile after, ?_, ?_⟩
    · have heard : announced profile d = some ack := announced_eq_some_iff.mpr ⟨frame, h⟩
      rw [announcements, List.filterMap_append, List.filterMap_cons, heard]
      rfl
    · intro other member
      obtain ⟨e, inBefore, f, announces⟩ := mem_announcements.mp member
      exact fresh e inBefore f other announces

theorem FirstResponse.unique {ds : List Datagram} {frame frame' : CommandFrame}
    {ack ack' : DiscoveryAck} (h : FirstResponse ds frame ack) (h' : FirstResponse ds frame' ack')
    (same : respondent ack = respondent ack') : frame = frame' ∧ ack = ack' := by
  obtain ⟨before, d, after, rfl, announces, fresh⟩ := h
  obtain ⟨before', d', after', split, announces', fresh'⟩ := h'
  -- were one of the two later, the other would stand before it under the same address
  rcases List.append_eq_append_iff.mp split with ⟨between, hb, hd⟩ | ⟨between, hb, hd⟩
  · cases between with
    | nil =>
      cases hd
      exact announces.unique announces'
    | cons first between =>
      cases hd
      have earlier : d ∈ before' := by
        rw [hb]
        exact List.mem_append_right _ List.mem_cons_self
      exact absurd same (fresh' d earlier frame ack announces)
  · cases between with
    | nil =>
      cases hd
      exact announces.unique announces'
    | cons first between =>
      cases hd
      have earlier : d' ∈ before := by
        rw [hb]
        exact List.mem_append_right _ List.mem_cons_self
      exact absurd same.symm (fresh d' earlier frame' ack' announces')

theorem mem_responders {profile : Profile} {ds : List Datagram} {device : DiscoveredDevice} :
    device ∈ responders profile ds ↔
      ∃ frame ack, FirstResponse ds frame ack ∧ deviceOf ack = device := by
  rw [responders, List.mem_map]
  constructor
  · rintro ⟨ack, kept, rfl⟩
    obtain ⟨frame, h⟩ := mem_firsts_announcements.mp kept
    exact ⟨frame, ack, h, rfl⟩
  · rintro ⟨frame, ack, h, rfl⟩
    exact ⟨ack, mem_firsts_announcements.mpr ⟨frame, h⟩, rfl⟩

def announcementBytes (retCode : UInt8) : Bytes :=
  [retCode, 9, 0x33, 0x47, 0x44, 0x4E, 0x4A, 0x36, 0x43, 0x30, 0x30, 0x31, 0x30, 0x30, 0x30, 0x31,
    0, 0, 192, 168, 1, 100, 0x24, 0xDB]

def lidarAddr : SocketAddr := ⟨.v4 ⟨192, 168, 1, 100⟩, cmdPort⟩

def lidarAnswer : Datagram := ackDatagram lidarAddr discoveryReq (announcementBytes 0)

def received : List Recv → List Datagram
  | .datagram d :: events => d :: received events
  | _ => []

theorem received_untilDeadline (ds : List Datagram) (rest : List Recv) :
    received (untilDeadline ds rest) = ds := by
  induction ds with
  | nil => rfl
  | cons d ds ih => exact congrArg (d :: ·) ih

/-- The device was listed for a frame that `send_command` would take for an answer to the
discovery request, and which is no refusal. -/
def Genuine (ds : List Datagram) (device : DiscoveredDevice) : Prop :=
  ∃ frame ack, FirstResponse ds frame ack ∧ deviceOf ack = device ∧
    frame.isAckFor discoveryReq = true ∧ ack.retCode = .success

theorem Announces.isAckFor_iff {d : Datagram} {frame : CommandFrame} {ack : DiscoveryAck}
    (h : Announces d frame ack) :
    frame.isAckFor discoveryReq = true ↔ frame.senderType = .lidar ∧ frame.seqNum = 0 := by
  have named : discoveryReq.cmdId = CmdId.discovery.asU16 := rfl
  have numbered : discoveryReq.seqNum = 0 := rfl
  rw [Client.isAckFor_iff, named, numbered]
  constructor
  · rintro ⟨-, -, number, sender⟩
    exact ⟨sender, number⟩
  · rintro ⟨sender, number⟩
    exact ⟨h.acknowledges, h.discovery, number, sender⟩

theorem FirstResponse.isAckFor_iff {ds : List Datagram} {frame : CommandFrame}
    {ack : DiscoveryAck} (h : FirstResponse ds frame ack) :
    frame.isAckFor discoveryReq = true ↔ frame.senderType = .lidar ∧ frame.seqNum = 0 := by
  obtain ⟨_, _, _, _, announces, _⟩ := h
  exact announces.isAckFor_iff

/-- The devices that a discovery returns are genuine exactly when the first response from
each address is a frame of a LiDAR, under the request's number, and no refusal. -/
theorem devices_genuine_iff {profile : Profile} {sent : Result Unit} {events : List Recv}
    {devices : List DiscoveredDevice} (h : discover profile sent events = some (.ok devices)) :
    (∀ device ∈ devices, Genuine (received events) device) ↔
      ∀ frame ack, FirstResponse (received events) frame ack →
        frame.senderType = .lidar ∧ frame.seqNum = 0 ∧ ack.retCode = .success := by
  obtain ⟨ds, rest, rfl, rfl⟩ := discover_ok_inv h
  rw [received_untilDeadline]
  constructor
  · intro genuine frame ack first
    obtain ⟨frame', ack', first', same, answers, success⟩ :=
      genuine (deviceOf ack) (mem_responders.mpr ⟨frame, ack, first, rfl⟩)
    -- a device tells its address, and an address has one first response
    have address : respondent ack' = respondent ack := by
      have addresses := congrArg DiscoveredDevice.lidarCmdAddr same
      injection addresses with ip port
      injection ip with ip
      exact Prod.ext ip port
    obtain ⟨rfl, rfl⟩ := first'.unique first address
    obtain ⟨sender, number⟩ := first.isAckFor_iff.mp answers
    exact ⟨sender, number, success⟩
  · intro condition device member
    obtain ⟨frame, ack, first, rfl⟩ := mem_responders.mp member
    obtain ⟨sender, number, success⟩ := condition frame ack first
    exact ⟨frame, ack, first, rfl, first.isAckFor_iff.mpr ⟨sender, number⟩, success⟩

def lidarDevice : DiscoveredDevice where
  devType := 9
  serialNumber := #v[0x33, 0x47, 0x44, 0x4E, 0x4A, 0x36, 0x43, 0x30, 0x30, 0x31, 0x30, 0x30, 0x30,
    0x31, 0, 0]
  lidarCmdAddr := lidarAddr

theorem lidarDevice_genuine_iff :
    (∀ device ∈ [lidarDevice], Genuine [lidarAnswer] device) ↔
      ∀ frame ack, FirstResponse [lidarAnswer] frame ack →
        frame.senderType = .lidar ∧ frame.seqNum = 0 ∧ ack.retCode = .success := by
  have found : discover .release (.ok ()) [.datagram lidarAnswer, .elapsed] =
      some (.ok [lidarDevice]) := by
    decide +kernel
  exact devices_genuine_iff found

def strayFrame : CommandFrame :=
  { ackFrame (newReq 7 CmdId.discovery.asU16 []) (announcementBytes 1) with senderType := .host }

def strayAnswer : Datagram :=
  ⟨⟨.v4 ⟨192, 168, 1, 50⟩, 4000⟩, strayFrame.encoding CommandFrame.zeroReserved⟩

theorem stray_answer_listed :
    ¬ ∀ profile sent events devices, discover profile sent events = some (.ok devices) →
      ∀ device ∈ devices, Genuine (received events) device := by
  intro claim
  have found : discover .release (.ok ()) [.datagram strayAnswer, .elapsed] =
      some (.ok [lidarDevice]) := by
    decide +kernel
  obtain ⟨frame, ack, ⟨before, d, after, split, announces, -⟩, -, answers, -⟩ :=
    claim .release (.ok ()) _ _ found lidarDevice List.mem_cons_self
  have sole : strayAnswer = d := by
    cases before with
    | nil =>
      cases split
      rfl
    | cons first before =>
      cases before with
      | nil => cases split
      | cons second before => cases split
  have parsed : CommandFrame.parse .release (strayAnswer.received 1024) = .ok strayFrame := by
    decide +kernel
  rw [← sole] at announces
  cases parsed.symm.trans (announces.parsed .release)
  cases answers

end LivoxMid360.Control.Responders
