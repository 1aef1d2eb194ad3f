/- digest: Successive clients on one port, and which request a returned frame answers. -/

import LivoxMid360.Control.Client
import LivoxMid360.Foundation.Transition

set_option autoImplicit false
set_option relaxedAutoImplicit false

namespace LivoxMid360.Control.ClientRestart

open Relation (ReflTransGen)
open Foundation.RustOutcome
open Foundation.LittleEndian
open Foundation.Transition
open Protocol.Vocabulary Protocol.Command Protocol.Parameters
open Client
open CommandFrame (newReq)

/-- One `send_command` request: which client sent it, as its how-manieth, and the two fields
that an acknowledgement copies. -/
structure Origin where
  client : Nat
  serial : Nat
  seqNum : UInt32
  cmdId : UInt16
  deriving DecidableEq, Repr

/-- A datagram in flight with the request that it carries or answers. The network and the
program never look at the tag. -/
structure Tagged (α : Type) where
  origin : Origin
  content : α

structure Pending where
  origin : Origin
  addr : SocketAddr
  req : CommandFrame

structure Returned where
  request : Origin
  answered : Origin
  frame : CommandFrame

/-- The current client with its counter and calls, the datagrams in flight in both directions, and
everything returned so far by any client. -/
structure State where
  client : Nat
  issued : Nat
  seq : UInt32
  -- the calls of the current client
  pending : List Pending
  toLidar : List (Tagged Bytes)
  toHost : List (Tagged Datagram)
  -- by any client so far
  returned : List Returned

def State.init : State := ⟨0, 0, 1, [], [], [], []⟩

def State.nextOrigin (s : State) (cmdId : UInt16) : Origin := ⟨s.client, s.issued, s.seq, cmdId⟩

inductive Action
  | restart
  | send (cmdId : UInt16)
  | sendFails
  | answer
  | deliver
  | abandon
  | drift

def Keyed (frame : CommandFrame) (o : Origin) : Prop :=
  frame.seqNum = o.seqNum ∧ frame.cmdId = o.cmdId

/-- One step of the clients, of the device or of the network. A client issues fewer than
`2 ^ 32` commands. -/
inductive Step (profile : Profile) : State → Action → State → Prop
  -- The client is dropped with its calls, and a new one is bound to the port.
  | restart (s : State) :
      Step profile s .restart
        { s with client := s.client + 1, issued := 0, seq := 1, pending := [] }
  | send (s : State) (addr : SocketAddr) (cmdId : UInt16) (data bytes : Bytes)
      (few : s.issued + 1 < 2 ^ 32)
      (encoded : encodeRequest profile 2048 (newReq s.seq cmdId data) = .ok bytes) :
      Step profile s (.send cmdId) { s with
        issued := s.issued + 1
        seq := s.seq + 1
        pending := ⟨s.nextOrigin cmdId, addr, newReq s.seq cmdId data⟩ :: s.pending
        toLidar := ⟨s.nextOrigin cmdId, bytes⟩ :: s.toLidar }
  -- The request did not fit the buffer, or the socket refused it.
  | sendFails (s : State) (few : s.issued + 1 < 2 ^ 32) :
      Step profile s .sendFails { s with issued := s.issued + 1, seq := s.seq + 1 }
  -- The device answers a request that it received, at any time and as often as it likes,
  -- copying the sequence number and the command.
  | answer (s : State) (m : Tagged Bytes) (g : CommandFrame) (d : Datagram)
      (received : m ∈ s.toLidar) (parsed : CommandFrame.parse profile m.content = .ok g)
      (copies : ∀ f, CommandFrame.parse profile d.bytes = .ok f →
        f.seqNum = g.seqNum ∧ f.cmdId = g.cmdId) :
      Step profile s .answer { s with toHost := ⟨m.origin, d⟩ :: s.toHost }
  -- A waiting call receives a datagram and returns it.
  | deliver (s : State) (p : Pending) (m : Tagged Datagram) (frame : CommandFrame)
      (rest : List Pending) (waiting : p ∈ s.pending) (others : rest ⊆ s.pending)
      (gone : p ∉ rest) (arrived : m ∈ s.toHost)
      (accepted : commandStep profile p.addr p.req m.content = .ok (some frame)) :
      Step profile s .deliver { s with
        pending := rest
        returned := ⟨p.origin, m.origin, frame⟩ :: s.returned }
  -- Calls end by their deadline, a socket error, a panic or cancellation.
  | abandon (s : State) (rest : List Pending) (others : rest ⊆ s.pending) :
      Step profile s .abandon { s with pending := rest }
  -- The network loses, repeats and reorders datagrams; a datagram that a call passes over
  -- is lost as well.
  | drift (s : State) (toLidar : List (Tagged Bytes)) (toHost : List (Tagged Datagram))
      (requests : Drift s.toLidar toLidar) (answers : Drift s.toHost toHost) :
      Step profile s .drift { s with toLidar := toLidar, toHost := toHost }

def State.InFlight (s : State) (o : Origin) : Prop :=
  (∃ m ∈ s.toLidar, m.origin = o) ∨ ∃ m ∈ s.toHost, m.origin = o

/-- A request is sent only when nothing of an earlier client with its number and command is
still in flight. -/
def Fresh (s : State) : Action → Prop
  | .send cmdId => ∀ o, s.InFlight o → o.client ≠ s.client →
      ¬ (o.seqNum = s.seq ∧ o.cmdId = cmdId)
  | _ => True

/-- A `send_command` call that saw nothing but datagrams in flight and returned a frame is a
delivery of the system. -/
theorem deliver_of_awaitAck {profile : Profile} {s : State} {p : Pending} {events : List Recv}
    {frame : CommandFrame} (waiting : p ∈ s.pending)
    (arrivals : ∀ d, .datagram d ∈ events → ∃ o, ⟨o, d⟩ ∈ s.toHost)
    (h : awaitAck profile p.addr p.req events = some (.ok frame)) :
    ∃ t o, Step profile s .deliver t ∧ t.returned = ⟨p.origin, o, frame⟩ :: s.returned := by
  obtain ⟨d, member, accepted⟩ := awaitAck_ok h
  obtain ⟨o, arrived⟩ := arrivals d member
  exact ⟨_, o, .deliver s p ⟨o, d⟩ frame [] waiting (List.nil_subset _) List.not_mem_nil
    arrived accepted, rfl⟩

def State.Numbered (s : State) (o : Origin) : Prop :=
  o.serial < s.issued ∧ o.seqNum = seqNumber o.serial

structure Inv (profile : Profile) (s : State) : Prop where
  few : s.issued < 2 ^ 32
  counter : s.seq = seqNumber s.issued
  mine : ∀ p ∈ s.pending, s.Numbered p.origin ∧ Keyed p.req p.origin
  -- nothing in flight is of a later client, and what is of this one was issued by it
  known : ∀ o, s.InFlight o → o.client ≤ s.client ∧ (o.client = s.client → s.Numbered o)
  requests : ∀ m ∈ s.toLidar, ∀ g, CommandFrame.parse profile m.content = .ok g →
    Keyed g m.origin
  answers : ∀ m ∈ s.toHost, ∀ f, CommandFrame.parse profile m.content.bytes = .ok f →
    Keyed f m.origin
  -- no other request in flight would be taken for the one that a call waits for
  distinct : ∀ p ∈ s.pending, ∀ o, s.InFlight o → o.seqNum = p.origin.seqNum →
    o.cmdId = p.origin.cmdId → o = p.origin
  sound : ∀ r ∈ s.returned, r.answered = r.request

theorem inv_init (profile : Profile) : Inv profile State.init where
  few := by decide
  counter := rfl
  mine p hp := absurd hp List.not_mem_nil
  known o flying := by
    rcases flying with ⟨m, hm, -⟩ | ⟨m, hm, -⟩
    · exact absurd hm List.not_mem_nil
    · exact absurd hm List.not_mem_nil
  requests m hm := absurd hm List.not_mem_nil
  answers m hm := absurd hm List.not_mem_nil
  distinct p hp := absurd hp List.not_mem_nil
  sound r hr := absurd hr List.not_mem_nil

section Preservation

variable {profile : Profile} {s : State}

theorem Inv.next_ne (inv : Inv profile s) (few : s.issued + 1 < 2 ^ 32) {o : Origin}
    (numbered : s.Numbered o) : o.seqNum ≠ s.seq := by
  intro same
  obtain ⟨earlier, number⟩ := numbered
  rw [number, inv.counter] at same
  have := seqNumber_injective (by omega) (by omega) same
  omega

theorem Numbered.later {o : Origin} (numbered : s.Numbered o) {t : State}
    (grown : s.issued ≤ t.issued) : t.Numbered o :=
  ⟨Nat.lt_of_lt_of_le numbered.1 grown, numbered.2⟩

theorem inv_restart (inv : Inv profile s) :
    Inv profile { s with client := s.client + 1, issued := 0, seq := 1, pending := [] } where
  few := Nat.two_pow_pos 32
  counter := rfl
  mine p hp := absurd hp List.not_mem_nil
  known o flying := by
    -- what is in flight is now of an earlier client
    have earlier := (inv.known o flying).1
    refine ⟨Nat.le_succ_of_le earlier, ?_⟩
    intro same
    have same : o.client = s.client + 1 := same
    omega
  requests := inv.requests
  answers := inv.answers
  distinct p hp := absurd hp List.not_mem_nil
  sound := inv.sound

theorem counter_succ (inv : Inv profile s) : s.seq + 1 = seqNumber (s.issued + 1) := by
  rw [inv.counter, seqNumber_succ]

theorem inv_sendFails (inv : Inv profile s) (few : s.issued + 1 < 2 ^ 32) :
    Inv profile { s with issued := s.issued + 1, seq := s.seq + 1 } where
  few := few
  counter := counter_succ inv
  mine p hp := ⟨Numbered.later (inv.mine p hp).1 (Nat.le_succ _), (inv.mine p hp).2⟩
  known o flying := by
    obtain ⟨earlier, numbered⟩ := inv.known o flying
    exact ⟨earlier, fun same => Numbered.later (numbered same) (Nat.le_succ _)⟩
  requests := inv.requests
  answers := inv.answers
  distinct := inv.distinct
  sound := inv.sound

theorem inv_send (inv : Inv profile s) {addr : SocketAddr} {cmdId : UInt16}
    {data bytes : Bytes} (few : s.issued + 1 < 2 ^ 32)
    (encoded : encodeRequest profile 2048 (newReq s.seq cmdId data) = .ok bytes)
    (fresh : Fresh s (.send cmdId)) :
    Inv profile { s with
      issued := s.issued + 1
      seq := s.seq + 1
      pending := ⟨s.nextOrigin cmdId, addr, newReq s.seq cmdId data⟩ :: s.pending
      toLidar := ⟨s.nextOrigin cmdId, bytes⟩ :: s.toLidar } := by
  -- What is in flight afterwards was in flight before, or is the new request.
  have flight (o : Origin) (flying : State.InFlight { s with
      issued := s.issued + 1
      seq := s.seq + 1
      pending := ⟨s.nextOrigin cmdId, addr, newReq s.seq cmdId data⟩ :: s.pending
      toLidar := ⟨s.nextOrigin cmdId, bytes⟩ :: s.toLidar } o) :
      s.InFlight o ∨ o = s.nextOrigin cmdId := by
    rcases flying with ⟨m, hm, rfl⟩ | ⟨m, hm, rfl⟩
    · rcases List.mem_cons.mp hm with rfl | old
      · exact .inr rfl
      · exact .inl (.inl ⟨m, old, rfl⟩)
    · exact .inl (.inr ⟨m, hm, rfl⟩)
  have numbered : s.issued < s.issued + 1 ∧ s.seq = seqNumber s.issued :=
    ⟨Nat.lt_succ_self _, inv.counter⟩
  refine ⟨few, counter_succ inv, ?_, ?_, ?_, inv.answers, ?_, inv.sound⟩
  · intro p hp
    rcases List.mem_cons.mp hp with rfl | old
    · exact ⟨numbered, rfl, rfl⟩
    · exact ⟨Numbered.later (inv.mine p old).1 (Nat.le_succ _), (inv.mine p old).2⟩
  · intro o flying
    rcases flight o flying with old | rfl
    · obtain ⟨earlier, place⟩ := inv.known o old
      exact ⟨earlier, fun same => Numbered.later (place same) (Nat.le_succ _)⟩
    · exact ⟨Nat.le_refl _, fun _ => numbered⟩
  · intro m hm g parsed
    rcases List.mem_cons.mp hm with rfl | old
    · cases parsed.symm.trans (parse_encodeRequest encoded).2
      exact ⟨rfl, rfl⟩
    · exact inv.requests m old g parsed
  · intro p hp o flying sameSeq sameCmd
    rcases List.mem_cons.mp hp with rfl | oldCall
    · rcases flight o flying with old | rfl
      -- an old request with this number is of this client, or the send was not fresh
      · by_cases own : o.client = s.client
        · exact absurd sameSeq (inv.next_ne few ((inv.known o old).2 own))
        · exact absurd ⟨sameSeq, sameCmd⟩ (fresh o old own)
      · rfl
    · rcases flight o flying with old | rfl
      · exact inv.distinct p oldCall o old sameSeq sameCmd
      -- the new request has a number that no waiting call has
      · exact absurd sameSeq.symm (inv.next_ne few (inv.mine p oldCall).1)

theorem inv_answer (inv : Inv profile s) {m : Tagged Bytes} {g : CommandFrame} {d : Datagram}
    (received : m ∈ s.toLidar) (parsed : CommandFrame.parse profile m.content = .ok g)
    (copies : ∀ f, CommandFrame.parse profile d.bytes = .ok f →
      f.seqNum = g.seqNum ∧ f.cmdId = g.cmdId) :
    Inv profile { s with toHost := ⟨m.origin, d⟩ :: s.toHost } := by
  -- an answer is in flight only while its request is
  have flight (o : Origin)
      (flying : State.InFlight { s with toHost := ⟨m.origin, d⟩ :: s.toHost } o) :
      s.InFlight o := by
    rcases flying with ⟨m', hm', rfl⟩ | ⟨m', hm', rfl⟩
    · exact .inl ⟨m', hm', rfl⟩
    · rcases List.mem_cons.mp hm' with rfl | old
      · exact .inl ⟨m, received, rfl⟩
      · exact .inr ⟨m', old, rfl⟩
  refine ⟨inv.few, inv.counter, inv.mine, ?_, inv.requests, ?_, ?_, inv.sound⟩
  · intro o flying
    exact inv.known o (flight o flying)
  · intro m' hm' f hf
    rcases List.mem_cons.mp hm' with rfl | old
    · obtain ⟨seqNum, cmdId⟩ := copies f hf
      obtain ⟨sentSeq, sentCmd⟩ := inv.requests m received g parsed
      exact ⟨seqNum.trans sentSeq, cmdId.trans sentCmd⟩
    · exact inv.answers m' old f hf
  · intro p hp o flying
    exact inv.distinct p hp o (flight o flying)

theorem inv_abandon (inv : Inv profile s) {rest : List Pending} (others : rest ⊆ s.pending) :
    Inv profile { s with pending := rest } where
  few := inv.few
  counter := inv.counter
  mine p hp := inv.mine p (others hp)
  known := inv.known
  requests := inv.requests
  answers := inv.answers
  distinct p hp := inv.distinct p (others hp)
  sound := inv.sound

theorem Inv.own_answer (inv : Inv profile s) {p : Pending} {m : Tagged Datagram}
    {frame : CommandFrame} (waiting : p ∈ s.pending) (arrived : m ∈ s.toHost)
    (accepted : commandStep profile p.addr p.req m.content = .ok (some frame)) :
    m.origin = p.origin := by
  obtain ⟨-, parsed, acknowledges⟩ := commandStep_some accepted
  obtain ⟨-, sameCmd, sameSeq, -⟩ := isAckFor_iff.mp acknowledges
  obtain ⟨answerSeq, answerCmd⟩ := inv.answers m arrived frame parsed
  obtain ⟨requestSeq, requestCmd⟩ := (inv.mine p waiting).2
  refine inv.distinct p waiting m.origin (.inr ⟨m, arrived, rfl⟩) ?_ ?_
  · rw [← answerSeq, sameSeq, requestSeq]
  · rw [← answerCmd, sameCmd, requestCmd]

theorem inv_drift (inv : Inv profile s) {toLidar : List (Tagged Bytes)}
    {toHost : List (Tagged Datagram)} (requests : Drift s.toLidar toLidar)
    (answers : Drift s.toHost toHost) :
    Inv profile { s with toLidar := toLidar, toHost := toHost } := by
  have flight (o : Origin)
      (flying : State.InFlight { s with toLidar := toLidar, toHost := toHost } o) :
      s.InFlight o := by
    rcases flying with ⟨m, hm, rfl⟩ | ⟨m, hm, rfl⟩
    · exact .inl ⟨m, requests hm, rfl⟩
    · exact .inr ⟨m, answers hm, rfl⟩
  refine ⟨inv.few, inv.counter, inv.mine, ?_, requests.forall inv.requests,
    answers.forall inv.answers, ?_, inv.sound⟩
  · intro o flying
    exact inv.known o (flight o flying)
  · intro p hp o flying
    exact inv.distinct p hp o (flight o flying)

theorem inv_step {t : State} (inv : Inv profile s) (step : Taken (Step profile) Fresh s t) :
    Inv profile t := by
  obtain ⟨a, fresh, step⟩ := step
  cases step with
  | restart => exact inv_restart inv
  | send addr cmdId data bytes few encoded => exact inv_send inv few encoded fresh
  | sendFails few => exact inv_sendFails inv few
  | answer m g d received parsed copies => exact inv_answer inv received parsed copies
  | deliver p m frame rest waiting others gone arrived accepted =>
    have same := inv.own_answer waiting arrived accepted
    have kept := inv_abandon inv others
    refine ⟨kept.few, kept.counter, kept.mine, kept.known, kept.requests, kept.answers,
      kept.distinct, ?_⟩
    intro r hr
    rcases List.mem_cons.mp hr with rfl | old
    · exact same
    · exact inv.sound r old
  | abandon rest others => exact inv_abandon inv others
  | drift toLidar toHost requests answers => exact inv_drift inv requests answers

end Preservation

/-- In every run whose requests are fresh when they are sent, every returned frame answers
the very request that it was returned for. -/
theorem returned_answers_own_request {profile : Profile} {s : State}
    (run : ReflTransGen (Taken (Step profile) Fresh) State.init s) :
    ∀ r ∈ s.returned, r.answered = r.request := by
  have inv : Inv profile s :=
    invariant (Inv profile) (fun _ _ before step => inv_step before step) run (inv_init profile)
  exact inv.sound

def State.exchanging (addr : SocketAddr) (items : Items) : State where
  client := 0
  issued := 1
  seq := 2
  pending := [⟨⟨0, 0, 1, 0x0100⟩, addr, setParameterReq 1 items⟩]
  toLidar := [⟨⟨0, 0, 1, 0x0100⟩, (setParameterReq 1 items).encoding CommandFrame.zeroReserved⟩]
  toHost := [⟨⟨0, 0, 1, 0x0100⟩, ackDatagram addr (setParameterReq 1 items) [0]⟩]
  returned := []

theorem reaches_exchanging (profile : Profile) (addr : SocketAddr) (items : Items)
    (matched : (setParameterReq 1 items).LengthMatches)
    (room : (setParameterReq 1 items).length.toNat ≤ 2048) :
    ReflTransGen (Taken (Step profile) Fresh) State.init (.exchanging addr items) := by
  have encoded := encodeRequest_eq profile matched room
  have fresh : Fresh State.init (.send 0x0100) := by
    rintro o (⟨m, hm, -⟩ | ⟨m, hm, -⟩)
    · exact absurd hm List.not_mem_nil
    · exact absurd hm List.not_mem_nil
  have sent := Step.send State.init addr 0x0100 (buildParamConfig items) _ (by decide) encoded
  refine (ReflTransGen.single ⟨_, fresh, sent⟩).tail ⟨.answer, trivial, ?_⟩
  refine Step.answer _ ⟨⟨0, 0, 1, 0x0100⟩, _⟩ _ (ackDatagram addr (setParameterReq 1 items) [0])
    List.mem_cons_self (parse_encodeRequest encoded).2 ?_
  intro f hf
  cases hf.symm.trans (parse_ackDatagram profile addr (setParameterReq 1 items) (by decide))
  exact ⟨rfl, rfl⟩

theorem returned_answers_own_request_first :
    ∃ s, ReflTransGen (Taken (Step .release) Fresh) State.init s ∧
      s.returned.map Returned.frame =
        [ackFrame (setParameterReq 1 (setDataType .pointCloudCartesian32)) [0]] ∧
      ∀ r ∈ s.returned, r.answered = r.request := by
  have run := reaches_exchanging .release ⟨.v4 ⟨192, 168, 1, 100⟩, cmdPort⟩
    (setDataType .pointCloudCartesian32) (by decide) (by decide)
  have delivered := run.tail ⟨.deliver, trivial, Step.deliver _ _ _ _ [] List.mem_cons_self
    (List.nil_subset _) List.not_mem_nil List.mem_cons_self
    (commandStep_ack .release _ _ (by decide))⟩
  exact ⟨_, delivered, rfl, returned_answers_own_request delivered⟩

/-- The first client gives up, a second one is bound, and the late acknowledgement is
returned for the second client's different request, which no device has seen. -/
theorem stale_ack_after_restart :
    ∃ s, ReflTransGen (Taken (Step .release) fun _ _ => True) State.init s ∧
      s.returned = [⟨⟨1, 0, 1, 0x0100⟩, ⟨0, 0, 1, 0x0100⟩,
        ackFrame (setParameterReq 1 (setDataType .pointCloudCartesian32)) [0]⟩] := by
  have first := reaches_exchanging .release ⟨.v4 ⟨192, 168, 1, 100⟩, cmdPort⟩
    (setDataType .pointCloudCartesian32) (by decide) (by decide)
  have weaken : ∀ s t, Taken (Step .release) Fresh s t →
      Taken (Step .release) (fun _ _ => True) s t := by
    rintro s t ⟨a, -, step⟩
    exact ⟨a, trivial, step⟩
  have dropped := (ReflTransGen.mono weaken _ _ first).tail ⟨.restart, trivial, Step.restart _⟩
  have encoded : encodeRequest .release 2048 (setParameterReq 1 (setImuEnabled true)) =
      .ok ((setParameterReq 1 (setImuEnabled true)).encoding CommandFrame.zeroReserved) :=
    encodeRequest_eq .release (by decide) (by decide)
  have resent := dropped.tail ⟨.send 0x0100, trivial, Step.send _
    ⟨.v4 ⟨192, 168, 1, 100⟩, cmdPort⟩ 0x0100 (buildParamConfig (setImuEnabled true)) _
    (by decide) encoded⟩
  have late := resent.tail ⟨.deliver, trivial, Step.deliver _ _ _ _ [] List.mem_cons_self
    (List.nil_subset _) List.not_mem_nil List.mem_cons_self
    (commandStep_ack .release _ (setParameterReq 1 (setImuEnabled true)) (by decide))⟩
  exact ⟨_, late, rfl⟩

end LivoxMid360.Control.ClientRestart
