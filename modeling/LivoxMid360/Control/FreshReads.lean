/- digest: Concurrent queries and settings of one client: when what they report held. -/

import LivoxMid360.Control.StartStreaming

set_option autoImplicit false
set_option relaxedAutoImplicit false

namespace LivoxMid360.Control.FreshReads

open Relation (ReflTransGen)
open Foundation.RustOutcome
open Foundation.LittleEndian
open Foundation.Transition
open Protocol.Vocabulary Protocol.Command Protocol.Parameters
open Client
open StartStreaming (wire Succeeds setParameterResult_ok)
open CommandFrame (newReq)

inductive Command
  | set (items : Items)
  | query (keys : List ParameterKey)

inductive Reply
  | set (items : Items) (result : Result Unit)
  | query (keys : List ParameterKey) (result : Result KeyValueList)

def queryParameterReq (seqNum : UInt32) (keys : List ParameterKey) : CommandFrame :=
  newReq seqNum CmdId.paramInquire.asU16 (buildParamInquire keys)

def Command.req (seqNum : UInt32) : Command → CommandFrame
  | .set items => setParameterReq seqNum items
  | .query keys => queryParameterReq seqNum keys

def Command.reply (ack : CommandFrame) : Command → Reply
  | .set items => .set items (setParameterResult ack)
  | .query keys => .query keys (queryParameterResult ack)

abbrev Values := UInt16 → Option Bytes

structure Issued where
  command : Command
  since : Nat

/-- What a call returned, and the moments between which it ran. -/
structure Returned where
  reply : Reply
  since : Nat
  upto : Nat

/-- The client's counter and calls, the datagrams in flight, and the device: the requests that
it received, which item it applied for which request, its values and all earlier ones. -/
structure State where
  seq : UInt32
  calls : List Issued
  pending : List (Nat × CommandFrame)
  returned : List Returned
  toLidar : List Bytes
  toHost : List Datagram
  received : List Bytes
  applied : List (UInt32 × UInt16 × Bytes)
  past : List Values
  values : Values

def State.init (values : Values) : State := ⟨1, [], [], [], [], [], [], [], [], values⟩

/-- The values that the device has had, one after the other; a moment is a place in this list. -/
def State.moments (s : State) : List Values := s.past ++ [s.values]

def State.now (s : State) : Nat := s.past.length

def State.Held (s : State) (m : Nat) (item : UInt16 × Bytes) : Prop :=
  ∃ values, s.moments[m]? = some values ∧ values item.1 = some item.2

/-- The device's own changes of a parameter are told apart from all other steps. -/
inductive Action
  | protocol
  | own (key : UInt16)

def State.change (s : State) (key : UInt16) (value : Option Bytes) : State :=
  -- a change makes a new moment
  { s with past := s.past ++ [s.values], values := Function.update s.values key value }

/-- One step of the client, of the network or of the device. The client issues fewer than
`2 ^ 32` commands, from any number of tasks. -/
inductive Step (profile : Profile) (addr : SocketAddr) : State → Action → State → Prop
  | issue (s : State) (command : Command) (bytes : Bytes) (few : s.calls.length + 1 < 2 ^ 32)
      (encoded : encodeRequest profile 2048 (command.req s.seq) = .ok bytes) :
      Step profile addr s .protocol { s with
        seq := s.seq + 1
        -- the call remembers the moment at which it was issued
        calls := s.calls ++ [⟨command, s.now⟩]
        pending := (s.calls.length, command.req s.seq) :: s.pending
        toLidar := bytes :: s.toLidar }
  -- The request did not fit the buffer, or the socket refused it.
  | issueFails (s : State) (command : Command) (few : s.calls.length + 1 < 2 ^ 32) :
      Step profile addr s .protocol
        { s with seq := s.seq + 1, calls := s.calls ++ [⟨command, s.now⟩] }
  -- A waiting call receives a datagram that acknowledges its request, and returns.
  | acknowledge (s : State) (n : Nat) (req : CommandFrame) (call : Issued) (d : Datagram)
      (frame : CommandFrame) (waiting : (n, req) ∈ s.pending) (issued : s.calls[n]? = some call)
      (arrived : d ∈ s.toHost) (accepted : commandStep profile addr req d = .ok (some frame)) :
      Step profile addr s .protocol { s with
        pending := s.pending.filter fun p => p.1 ≠ n
        returned := ⟨call.command.reply frame, call.since, s.now⟩ :: s.returned }
  -- Calls end by their deadline, a socket error, a panic or cancellation.
  | abandon (s : State) (rest : List (Nat × CommandFrame)) (others : rest ⊆ s.pending) :
      Step profile addr s .protocol { s with pending := rest }
  -- The network loses, repeats and reorders datagrams; a datagram that a call passes over
  -- is lost as well.
  | drift (s : State) (toLidar : List Bytes) (toHost : List Datagram)
      (requests : Drift s.toLidar toLidar) (answers : Drift s.toHost toHost) :
      Step profile addr s .protocol { s with toLidar := toLidar, toHost := toHost }
  | receive (s : State) (bytes : Bytes) (arrived : bytes ∈ s.toLidar) :
      Step profile addr s .protocol { s with received := bytes :: s.received }
  -- The device applies an item of a configuration request that it received, at any time and
  -- as often as the request arrives.
  | apply (s : State) (bytes : Bytes) (g : CommandFrame) (items : KeyValueList)
      (item : UInt16 × Bytes) (held : bytes ∈ s.received)
      (parsed : CommandFrame.parse profile bytes = .ok g)
      (config : g.cmdId = CmdId.paramConfig.asU16)
      (decoded : decodeKeyValueList g.data = .ok items) (member : item ∈ items) :
      Step profile addr s .protocol
        { s.change item.1 (some item.2) with applied := (g.seqNum, item) :: s.applied }
  -- The device changes a parameter by itself, or for another host.
  | own (s : State) (key : UInt16) (value : Option Bytes) :
      Step profile addr s (.own key) (s.change key value)
  -- The device answers a request that it received: it copies the sequence number and the
  -- command, reports Success for a configuration only when it has applied every item for it, and
  -- reports to an inquiry only values that it has.
  | answer (s : State) (bytes : Bytes) (g : CommandFrame) (d : Datagram)
      (held : bytes ∈ s.received) (parsed : CommandFrame.parse profile bytes = .ok g)
      (copies : ∀ f, CommandFrame.parse profile d.bytes = .ok f →
        f.seqNum = g.seqNum ∧ f.cmdId = g.cmdId)
      (honest : ∀ f items, CommandFrame.parse profile d.bytes = .ok f → Succeeds f →
        g.cmdId = CmdId.paramConfig.asU16 → decodeKeyValueList g.data = .ok items →
        ∀ item ∈ items, (g.seqNum, item) ∈ s.applied)
      (current : ∀ f values, CommandFrame.parse profile d.bytes = .ok f →
        g.cmdId = CmdId.paramInquire.asU16 →
        parseParamInquireAck f.data = .ok (.success, values) →
        ∀ item ∈ values, s.values item.1 = some item.2) :
      Step profile addr s .protocol { s with toHost := d :: s.toHost }

/-- A call that saw nothing but datagrams in flight and got its acknowledgement is a step of
the system. -/
theorem acknowledge_of_awaitAck {profile : Profile} {addr : SocketAddr} {s : State} {n : Nat}
    {req frame : CommandFrame} {call : Issued} {events : List Recv}
    (waiting : (n, req) ∈ s.pending) (issued : s.calls[n]? = some call)
    (arrivals : ∀ d, .datagram d ∈ events → d ∈ s.toHost)
    (h : awaitAck profile addr req events = some (.ok frame)) :
    ∃ t, Step profile addr s .protocol t ∧
      t.returned = ⟨call.command.reply frame, call.since, s.now⟩ :: s.returned := by
  obtain ⟨d, member, accepted⟩ := awaitAck_ok h
  exact ⟨_, .acknowledge s n req call d frame waiting issued (arrivals d member) accepted, rfl⟩

theorem queryParameterResult_ok {frame : CommandFrame} {values : KeyValueList}
    (h : queryParameterResult frame = .ok values) :
    parseParamInquireAck frame.data = .ok (.success, values) := by
  rw [queryParameterResult] at h
  obtain ⟨⟨ret, reported⟩, parsed, h⟩ := Outcome.bind_eq_ok.mp h
  dsimp only at h
  by_cases refused : ret ≠ .success
  · rw [if_pos refused] at h
    cases h
  · rw [if_neg refused] at h
    cases h
    rw [parsed, not_not.mp refused]

theorem State.moments_change (s : State) (key : UInt16) (value : Option Bytes) :
    (s.change key value).moments = s.moments ++ [Function.update s.values key value] := rfl

theorem State.held_now {s : State} {item : UInt16 × Bytes}
    (current : s.values item.1 = some item.2) : s.Held s.now item := by
  refine ⟨s.values, ?_, current⟩
  rw [State.moments, State.now, List.getElem?_append_right le_rfl, Nat.sub_self]
  rfl

theorem State.Held.le_now {s : State} {m : Nat} {item : UInt16 × Bytes} (held : s.Held m item) :
    m ≤ s.now := by
  obtain ⟨values, here, -⟩ := held
  obtain ⟨within, -⟩ := List.getElem?_eq_some_iff.mp here
  rw [State.moments, List.length_append, List.length_singleton] at within
  exact Nat.le_of_lt_succ within

theorem State.Held.later {s t : State} {m : Nat} {item : UInt16 × Bytes} (held : s.Held m item)
    (grown : s.moments <+: t.moments) : t.Held m item := by
  obtain ⟨values, here, value⟩ := held
  obtain ⟨more, split⟩ := grown
  obtain ⟨within, -⟩ := List.getElem?_eq_some_iff.mp here
  exact ⟨values, by rw [← split, List.getElem?_append_left within, here], value⟩

theorem State.now_mono {s t : State} (grown : s.moments <+: t.moments) : s.now ≤ t.now := by
  have sizes := grown.length_le
  rw [State.moments, State.moments, List.length_append, List.length_append] at sizes
  exact Nat.le_of_add_le_add_right sizes

def Carries (profile : Profile) (s : State) (bytes : Bytes) : Prop :=
  ∃ (n : Nat) (call : Issued), s.calls[n]? = some call ∧
    CommandFrame.parse profile bytes = .ok (call.command.req (seqNumber n)) ∧
    ∀ items, call.command = .set items →
      decodeKeyValueList (buildParamConfig items) = .ok (wire items)

def Applied (s : State) (entry : UInt32 × UInt16 × Bytes) : Prop :=
  ∃ (n : Nat) (call : Issued), entry.1 = seqNumber n ∧ s.calls[n]? = some call ∧
    ∃ m, call.since ≤ m ∧ s.Held m entry.2

/-- What an acknowledgement of a call reports, held after the call was issued. -/
def Reports (s : State) (call : Issued) (frame : CommandFrame) : Prop :=
  match call.command with
  | .set items => Succeeds frame → ∀ item ∈ wire items, ∃ m, call.since ≤ m ∧ s.Held m item
  | .query _ => ∀ values, parseParamInquireAck frame.data = .ok (.success, values) →
      ∃ m, call.since ≤ m ∧ m ≤ s.now ∧ ∀ item ∈ values, s.Held m item

def Answers (profile : Profile) (s : State) (d : Datagram) : Prop :=
  ∃ (n : Nat) (call : Issued), s.calls[n]? = some call ∧
    ∀ f, CommandFrame.parse profile d.bytes = .ok f →
      f.seqNum = seqNumber n ∧ Reports s call f

/-- What the call returned, held at a moment while it ran: each item of a setting at a moment
of its own, the values of a query all at one. -/
def Justified (s : State) (r : Returned) : Prop :=
  match r.reply with
  | .set items (.ok ()) =>
    ∀ item ∈ wire items, ∃ m, r.since ≤ m ∧ m ≤ r.upto ∧ s.Held m item
  | .query _ (.ok values) => ∃ m, r.since ≤ m ∧ m ≤ r.upto ∧ ∀ item ∈ values, s.Held m item
  | _ => True

structure Inv (profile : Profile) (s : State) : Prop where
  counter : s.seq = seqNumber s.calls.length
  few : s.calls.length < 2 ^ 32
  since : ∀ call ∈ s.calls, call.since ≤ s.now
  pending : ∀ p ∈ s.pending, ∃ call, s.calls[p.1]? = some call ∧
    p.2 = call.command.req (seqNumber p.1)
  toLidar : ∀ bytes ∈ s.toLidar, Carries profile s bytes
  received : ∀ bytes ∈ s.received, Carries profile s bytes
  toHost : ∀ d ∈ s.toHost, Answers profile s d
  applied : ∀ entry ∈ s.applied, Applied s entry
  returned : ∀ r ∈ s.returned, Justified s r

theorem inv_init (profile : Profile) (values : Values) : Inv profile (.init values) where
  counter := rfl
  few := Nat.two_pow_pos 32
  since _ h := absurd h List.not_mem_nil
  pending _ h := absurd h List.not_mem_nil
  toLidar _ h := absurd h List.not_mem_nil
  received _ h := absurd h List.not_mem_nil
  toHost _ h := absurd h List.not_mem_nil
  applied _ h := absurd h List.not_mem_nil
  returned _ h := absurd h List.not_mem_nil

structure Grown (s t : State) : Prop where
  calls : s.calls <+: t.calls
  moments : s.moments <+: t.moments

section Growth

variable {profile : Profile} {s t : State} (grown : Grown s t)

include grown

theorem Grown.call {n : Nat} {call : Issued} (issued : s.calls[n]? = some call) :
    t.calls[n]? = some call := by
  obtain ⟨more, split⟩ := grown.calls
  obtain ⟨within, -⟩ := List.getElem?_eq_some_iff.mp issued
  rw [← split, List.getElem?_append_left within, issued]

theorem Carries.later {bytes : Bytes} (carries : Carries profile s bytes) :
    Carries profile t bytes := by
  obtain ⟨n, call, issued, content⟩ := carries
  exact ⟨n, call, grown.call issued, content⟩

theorem Applied.later {entry : UInt32 × UInt16 × Bytes} (applied : Applied s entry) :
    Applied t entry := by
  obtain ⟨n, call, number, issued, m, since, held⟩ := applied
  exact ⟨n, call, number, grown.call issued, m, since, held.later grown.moments⟩

theorem Reports.later {call : Issued} {frame : CommandFrame} (reports : Reports s call frame) :
    Reports t call frame := by
  rw [Reports] at reports ⊢
  cases hcommand : call.command with
  | set items =>
    rw [hcommand] at reports
    intro success item member
    obtain ⟨m, since, held⟩ := reports success item member
    exact ⟨m, since, held.later grown.moments⟩
  | query keys =>
    rw [hcommand] at reports
    intro values parsed
    obtain ⟨m, since, upto, held⟩ := reports values parsed
    exact ⟨m, since, upto.trans (State.now_mono grown.moments),
      fun item member => (held item member).later grown.moments⟩

theorem Answers.later {d : Datagram} (answers : Answers profile s d) : Answers profile t d := by
  obtain ⟨n, call, issued, content⟩ := answers
  refine ⟨n, call, grown.call issued, ?_⟩
  intro f parsed
  obtain ⟨number, reports⟩ := content f parsed
  exact ⟨number, reports.later grown⟩

theorem Justified.later {r : Returned} (justified : Justified s r) : Justified t r := by
  rw [Justified] at justified ⊢
  split at justified
  · intro item member
    obtain ⟨m, since, upto, held⟩ := justified item member
    exact ⟨m, since, upto, held.later grown.moments⟩
  · obtain ⟨m, since, upto, held⟩ := justified
    exact ⟨m, since, upto, fun item member => (held item member).later grown.moments⟩
  · trivial

end Growth

section Preservation

variable {profile : Profile} {addr : SocketAddr} {s : State}

theorem grown_change (s : State) (key : UInt16) (value : Option Bytes) :
    Grown s (s.change key value) :=
  ⟨List.prefix_rfl, List.prefix_append _ _⟩

theorem inv_change (inv : Inv profile s) (key : UInt16) (value : Option Bytes) :
    Inv profile (s.change key value) where
  counter := inv.counter
  few := inv.few
  since call member :=
    (inv.since call member).trans (State.now_mono (grown_change s key value).moments)
  pending := inv.pending
  toLidar b hb := (inv.toLidar b hb).later (grown_change s key value)
  received b hb := (inv.received b hb).later (grown_change s key value)
  toHost d hd := (inv.toHost d hd).later (grown_change s key value)
  applied e he := (inv.applied e he).later (grown_change s key value)
  returned r hr := (inv.returned r hr).later (grown_change s key value)

theorem inv_call (inv : Inv profile s) (command : Command) (few : s.calls.length + 1 < 2 ^ 32) :
    Inv profile { s with seq := s.seq + 1, calls := s.calls ++ [⟨command, s.now⟩] } := by
  -- nothing happens to the device: only a call is added
  have grown : Grown s { s with seq := s.seq + 1, calls := s.calls ++ [⟨command, s.now⟩] } :=
    ⟨List.prefix_append _ _, List.prefix_rfl⟩
  refine ⟨?_, ?_, ?_, ?_, fun b hb => (inv.toLidar b hb).later grown,
    fun b hb => (inv.received b hb).later grown, fun d hd => (inv.toHost d hd).later grown,
    fun e he => (inv.applied e he).later grown, fun r hr => (inv.returned r hr).later grown⟩
  · change s.seq + 1 = seqNumber (s.calls ++ [(⟨command, s.now⟩ : Issued)]).length
    rw [List.length_append, List.length_singleton, inv.counter, seqNumber_succ]
  · change (s.calls ++ [(⟨command, s.now⟩ : Issued)]).length < 2 ^ 32
    rwa [List.length_append, List.length_singleton]
  · intro call member
    rcases List.mem_append.mp member with old | new
    · exact inv.since call old
    · rw [List.mem_singleton.mp new]
      exact Nat.le_refl _
  · intro p member
    obtain ⟨call, issued, request⟩ := inv.pending p member
    exact ⟨call, grown.call issued, request⟩

theorem inv_issue (inv : Inv profile s) {command : Command} {bytes : Bytes}
    (few : s.calls.length + 1 < 2 ^ 32)
    (encoded : encodeRequest profile 2048 (command.req s.seq) = .ok bytes) :
    Inv profile { s with
      seq := s.seq + 1
      calls := s.calls ++ [⟨command, s.now⟩]
      pending := (s.calls.length, command.req s.seq) :: s.pending
      toLidar := bytes :: s.toLidar } := by
  have added := inv_call inv command few
  have here : (s.calls ++ [(⟨command, s.now⟩ : Issued)])[s.calls.length]? =
      some ⟨command, s.now⟩ := by
    rw [List.getElem?_append_right le_rfl, Nat.sub_self]
    rfl
  obtain ⟨matched, parsed⟩ := parse_encodeRequest encoded
  refine ⟨added.counter, added.few, added.since, ?_, ?_, added.received, added.toHost,
    added.applied, added.returned⟩
  · intro p member
    rcases List.mem_cons.mp member with rfl | old
    · exact ⟨⟨command, s.now⟩, here, by rw [inv.counter]⟩
    · exact added.pending p old
  · intro b hb
    rcases List.mem_cons.mp hb with rfl | old
    · refine ⟨s.calls.length, ⟨command, s.now⟩, here, by rw [← inv.counter]; exact parsed, ?_⟩
      rintro items rfl
      exact Protocol.CommandGrammar.decode_buildParamConfig matched
    · exact added.toLidar b old

theorem Inv.same_call (inv : Inv profile s) {n n' : Nat} {call call' : Issued}
    (issued : s.calls[n]? = some call) (issued' : s.calls[n']? = some call')
    (same : seqNumber n = seqNumber n') : n = n' ∧ call = call' := by
  obtain ⟨within, -⟩ := List.getElem?_eq_some_iff.mp issued
  obtain ⟨within', -⟩ := List.getElem?_eq_some_iff.mp issued'
  have few := inv.few
  cases seqNumber_injective (by omega) (by omega) same
  exact ⟨rfl, Option.some.inj (issued.symm.trans issued')⟩

theorem justified_acknowledged (inv : Inv profile s) {n : Nat} {req : CommandFrame}
    {call : Issued} {d : Datagram} {frame : CommandFrame} (waiting : (n, req) ∈ s.pending)
    (issued : s.calls[n]? = some call) (arrived : d ∈ s.toHost)
    (accepted : commandStep profile addr req d = .ok (some frame)) :
    Justified s ⟨call.command.reply frame, call.since, s.now⟩ := by
  obtain ⟨call', issued', request⟩ := inv.pending _ waiting
  cases issued.symm.trans issued'
  obtain ⟨-, parsed, acknowledges⟩ := commandStep_some accepted
  obtain ⟨-, -, sameSeq, -⟩ := isAckFor_iff.mp acknowledges
  obtain ⟨n', call', issued', answer⟩ := inv.toHost d arrived
  obtain ⟨number, reports⟩ := answer frame parsed
  -- the answer copies the number of a request, and no other call has that number
  have sent : req.seqNum = seqNumber n := by
    rw [show req = call.command.req (seqNumber n) from request]
    cases call.command <;> rfl
  obtain ⟨-, rfl⟩ := inv.same_call issued issued' (sent.symm.trans (sameSeq.symm.trans number))
  rw [Reports] at reports
  cases hcommand : call.command with
  | set items =>
    rw [hcommand] at reports
    rw [Command.reply, Justified]
    dsimp only
    cases hresult : setParameterResult frame with
    | ok u =>
      intro item member
      obtain ⟨m, since, held⟩ := reports (setParameterResult_ok hresult) item member
      exact ⟨m, since, held.le_now, held⟩
    | err e => trivial
    | panic c => trivial
  | query keys =>
    rw [hcommand] at reports
    rw [Command.reply, Justified]
    dsimp only
    cases hresult : queryParameterResult frame with
    | ok values => exact reports values (queryParameterResult_ok hresult)
    | err e => trivial
    | panic c => trivial

theorem inv_apply (inv : Inv profile s) {bytes : Bytes} {g : CommandFrame}
    {item : UInt16 × Bytes} (held : bytes ∈ s.received)
    (parsed : CommandFrame.parse profile bytes = .ok g) :
    Inv profile { s.change item.1 (some item.2) with
      applied := (g.seqNum, item) :: s.applied } := by
  have changed := inv_change inv item.1 (some item.2)
  refine ⟨changed.counter, changed.few, changed.since, changed.pending, changed.toLidar,
    changed.received, changed.toHost, ?_, changed.returned⟩
  intro entry member
  rcases List.mem_cons.mp member with rfl | old
  · obtain ⟨n, call, issued, request, -⟩ := changed.received bytes held
    cases request.symm.trans parsed
    have present : (s.change item.1 (some item.2)).Held (s.change item.1 (some item.2)).now item :=
      State.held_now (Function.update_self _ _ _)
    refine ⟨n, call, ?_, issued, _, changed.since call (List.mem_of_getElem? issued), present⟩
    cases call.command <;> rfl
  · exact changed.applied entry old

theorem inv_answer (inv : Inv profile s) {bytes : Bytes} {g : CommandFrame} {d : Datagram}
    (held : bytes ∈ s.received) (parsed : CommandFrame.parse profile bytes = .ok g)
    (copies : ∀ f, CommandFrame.parse profile d.bytes = .ok f →
      f.seqNum = g.seqNum ∧ f.cmdId = g.cmdId)
    (honest : ∀ f items, CommandFrame.parse profile d.bytes = .ok f → Succeeds f →
      g.cmdId = CmdId.paramConfig.asU16 → decodeKeyValueList g.data = .ok items →
      ∀ item ∈ items, (g.seqNum, item) ∈ s.applied)
    (current : ∀ f values, CommandFrame.parse profile d.bytes = .ok f →
      g.cmdId = CmdId.paramInquire.asU16 →
      parseParamInquireAck f.data = .ok (.success, values) →
      ∀ item ∈ values, s.values item.1 = some item.2) :
    Inv profile { s with toHost := d :: s.toHost } := by
  have grown : Grown s { s with toHost := d :: s.toHost } :=
    ⟨List.prefix_rfl, List.prefix_rfl⟩
  refine ⟨inv.counter, inv.few, inv.since, inv.pending, fun b hb => (inv.toLidar b hb).later grown,
    fun b hb => (inv.received b hb).later grown, ?_, fun e he => (inv.applied e he).later grown,
    fun r hr => (inv.returned r hr).later grown⟩
  intro d' hd'
  rcases List.mem_cons.mp hd' with rfl | old
  · obtain ⟨n, call, issued, request, content⟩ := inv.received bytes held
    cases request.symm.trans parsed
    refine ⟨n, call, issued, ?_⟩
    intro f hf
    have number := (copies f hf).1
    rw [Reports]
    cases hcommand : call.command with
    -- what the device reports as set was applied for this number, so for this call
    | set items =>
      rw [hcommand] at number honest
      refine ⟨number, ?_⟩
      intro success item member
      obtain ⟨n', call', same, issued', m, since, was⟩ := inv.applied _
        (honest f _ hf success rfl (content items hcommand) item member)
      obtain ⟨-, rfl⟩ := inv.same_call issued issued' same
      exact ⟨m, since, was.later grown.moments⟩
    -- what it reports to an inquiry it has at this moment
    | query keys =>
      rw [hcommand] at number current
      refine ⟨number, ?_⟩
      intro values reported
      refine ⟨s.now, inv.since call (List.mem_of_getElem? issued), Nat.le_refl _, ?_⟩
      intro item member
      exact (State.held_now (current f values hf rfl reported item member)).later grown.moments
  · exact (inv.toHost d' old).later grown

theorem inv_step {a : Action} {t : State} (inv : Inv profile s) (step : Step profile addr s a t) :
    Inv profile t := by
  cases step with
  | issue command bytes few encoded => exact inv_issue inv few encoded
  | issueFails command few => exact inv_call inv command few
  | acknowledge n req call d frame waiting issued arrived accepted =>
    refine ⟨inv.counter, inv.few, inv.since, ?_, inv.toLidar, inv.received, inv.toHost,
      inv.applied, ?_⟩
    · intro p member
      exact inv.pending p (List.mem_of_mem_filter member)
    · intro r member
      rcases List.mem_cons.mp member with rfl | old
      · exact justified_acknowledged inv waiting issued arrived accepted
      · exact inv.returned r old
  | abandon rest others =>
    exact ⟨inv.counter, inv.few, inv.since, fun p hp => inv.pending p (others hp), inv.toLidar,
      inv.received, inv.toHost, inv.applied, inv.returned⟩
  | drift toLidar toHost requests answers =>
    exact ⟨inv.counter, inv.few, inv.since, inv.pending, requests.forall inv.toLidar,
      inv.received, answers.forall inv.toHost, inv.applied, inv.returned⟩
  | receive bytes arrived =>
    refine ⟨inv.counter, inv.few, inv.since, inv.pending, inv.toLidar, ?_, inv.toHost,
      inv.applied, inv.returned⟩
    intro b hb
    rcases List.mem_cons.mp hb with rfl | old
    · exact inv.toLidar b arrived
    · exact inv.received b old
  | apply bytes g items item held parsed config decoded member => exact inv_apply inv held parsed
  | own key value => exact inv_change inv key value
  | answer bytes g d held parsed copies honest current =>
    exact inv_answer inv held parsed copies honest current

end Preservation

section Runs

variable {profile : Profile} {addr : SocketAddr} {values : Values} {s : State}

abbrev Steps (profile : Profile) (addr : SocketAddr) (meets : Action → Prop) :
    State → State → Prop :=
  ReflTransGen (Taken (Step profile addr) fun _ a => meets a)

theorem inv_of_run {meets : Action → Prop} (run : Steps profile addr meets (.init values) s) :
    Inv profile s :=
  invariant (Inv profile) (fun _ _ before step => by
    obtain ⟨a, -, taken⟩ := step
    exact inv_step before taken) run (inv_init profile values)

/-- In every run of concurrent calls over a network that loses, repeats, delays and reorders,
whatever the device changes by itself: the values that a query returns were the device's, all
at one moment while the query ran, and what a successful call set was set while the call ran. -/
theorem calls_take_effect (run : Steps profile addr (fun _ => True) (.init values) s) :
    ∀ r ∈ s.returned, Justified s r :=
  (inv_of_run run).returned

/-- From one moment to the next a parameter keeps its value, or a setting of a call changes
it. -/
def Evolves (key : UInt16) (s : State) : Prop :=
  ∀ m before after, s.moments[m]? = some before → s.moments[m + 1]? = some after →
    after key = before key ∨
      ∃ call ∈ s.calls, ∃ items, call.command = .set items ∧
        ∃ item ∈ wire items, item.1 = key ∧ after key = some item.2

theorem Evolves.calls {key : UInt16} (evolves : Evolves key s) {t : State}
    (same : t.moments = s.moments) (more : s.calls ⊆ t.calls) : Evolves key t := by
  intro m before after here next
  rw [same] at here next
  rcases evolves m before after here next with kept | ⟨call, member, content⟩
  · exact .inl kept
  · exact .inr ⟨call, more member, content⟩

theorem Evolves.change {key : UInt16} (evolves : Evolves key s) {other : UInt16}
    {value : Option Bytes} (link : other ≠ key ∨ ∃ call ∈ s.calls, ∃ items,
      call.command = .set items ∧ ∃ item ∈ wire items, item.1 = key ∧ value = some item.2) :
    Evolves key (s.change other value) := by
  intro m before after here next
  rw [State.moments_change] at here next
  have size : s.moments.length = s.now + 1 := by
    rw [State.moments, List.length_append, List.length_singleton, State.now]
  -- the pair of moments is an old one, or the change itself
  by_cases earlier : m + 1 < s.moments.length
  · rw [List.getElem?_append_left (by omega)] at here
    rw [List.getElem?_append_left earlier] at next
    exact evolves m before after here next
  · obtain ⟨within, -⟩ := List.getElem?_eq_some_iff.mp next
    rw [List.length_append, List.length_singleton] at within
    obtain rfl : m = s.now := by omega
    rw [List.getElem?_append_left (by omega), State.moments, State.now,
      List.getElem?_append_right le_rfl, Nat.sub_self] at here
    rw [List.getElem?_append_right (by omega), size, Nat.sub_self] at next
    cases here
    cases next
    by_cases same : other = key
    · subst same
      rcases link with away | ⟨call, member, items, command, item, asked, named, set⟩
      · exact absurd rfl away
      · refine .inr ⟨call, member, items, command, item, asked, named, ?_⟩
        rw [Function.update_self, set]
    · exact .inl (Function.update_of_ne (Ne.symm same) _ _)

theorem evolves_step {key : UInt16} {a : Action} {t : State} (inv : Inv profile s)
    (evolves : Evolves key s) (quiet : a ≠ .own key) (step : Step profile addr s a t) :
    Evolves key t := by
  cases step with
  | issue command bytes few encoded => exact evolves.calls rfl (List.subset_append_left _ _)
  | issueFails command few => exact evolves.calls rfl (List.subset_append_left _ _)
  | acknowledge n req call d frame waiting issued arrived accepted =>
    exact evolves.calls rfl (List.Subset.refl _)
  | abandon rest others => exact evolves.calls rfl (List.Subset.refl _)
  | drift toLidar toHost requests answers => exact evolves.calls rfl (List.Subset.refl _)
  | receive bytes arrived => exact evolves.calls rfl (List.Subset.refl _)
  | apply bytes g items item held parsed config decoded member =>
    have changed : Evolves key (s.change item.1 (some item.2)) := by
      apply evolves.change
      -- what the device applies was in the request of a call that sets it
      by_cases same : item.1 = key
      · obtain ⟨n, call, issued, request, content⟩ := inv.received bytes held
        cases request.symm.trans parsed
        cases hcommand : call.command with
        | set items' =>
          rw [hcommand] at decoded
          cases (content items' hcommand).symm.trans decoded
          exact .inr ⟨call, List.mem_of_getElem? issued, items', hcommand, item, member, same, rfl⟩
        | query keys =>
          rw [hcommand] at config
          cases config
      · exact .inl same
    exact changed.calls rfl (List.Subset.refl _)
  | own other value =>
    refine evolves.change (.inl ?_)
    rintro rfl
    exact quiet rfl
  | answer bytes g d held parsed copies honest current =>
    exact evolves.calls rfl (List.Subset.refl _)

theorem evolves_of_run {key : UInt16}
    (run : Steps profile addr (fun a => a ≠ .own key) (.init values) s) :
    Evolves key s := by
  have both : Inv profile s ∧ Evolves key s := by
    -- both at once: that only calls change the parameter rests on the invariant
    refine invariant (fun s => Inv profile s ∧ Evolves key s) ?_ run ⟨inv_init profile values, ?_⟩
    · rintro s t ⟨inv, evolves⟩ ⟨a, quiet, step⟩
      exact ⟨inv_step inv step, evolves_step inv evolves quiet step⟩
    · intro m before after here next
      obtain ⟨within, -⟩ := List.getElem?_eq_some_iff.mp next
      exact absurd within (by
        change ¬ m + 1 < 1
        omega)
  exact both.2

theorem Evolves.stays {key : UInt16} {value : Bytes} (evolves : Evolves key s)
    (agree : ∀ call ∈ s.calls, ∀ items, call.command = .set items →
      ∀ item ∈ wire items, item.1 = key → item.2 = value)
    {m : Nat} (held : s.Held m (key, value)) {m' : Nat} (later : m ≤ m')
    {values : Values} (here : s.moments[m']? = some values) : values key = some value := by
  -- from moment to moment: a setting in between sets the same value
  induction m', later using Nat.le_induction generalizing values with
  | base =>
    obtain ⟨values', here', was⟩ := held
    cases here.symm.trans here'
    exact was
  | succ m' later ih =>
    obtain ⟨within, -⟩ := List.getElem?_eq_some_iff.mp here
    have before := ih (List.getElem?_eq_getElem (Nat.lt_of_succ_lt within))
    rcases evolves m' _ _ (List.getElem?_eq_getElem (Nat.lt_of_succ_lt within)) here with
      kept | ⟨call, member, items, command, item, asked, named, set⟩
    · rw [kept, before]
    · rw [set, agree call member items command item asked named]

/-- What was set is read back: while the device does not change the parameter by itself and
every call that sets it sets it to one value, any value that a query reports for it, issued
after a successful call that set it, is that value, whatever the network still delivers. -/
theorem reads_back {key : UInt16} {value : Bytes}
    (run : Steps profile addr (fun a => a ≠ .own key) (.init values) s)
    (agree : ∀ call ∈ s.calls, ∀ items, call.command = .set items →
      ∀ item ∈ wire items, item.1 = key → item.2 = value)
    {r : Returned} (returned : r ∈ s.returned) {items : Items}
    (done : r.reply = .set items (.ok ())) (wrote : (key, value) ∈ wire items)
    {r' : Returned} (returned' : r' ∈ s.returned) {keys : List ParameterKey} {read : KeyValueList}
    (reads : r'.reply = .query keys (.ok read)) (order : r.upto ≤ r'.since) :
    ∀ item ∈ read, item.1 = key → item.2 = value := by
  rintro item member rfl
  have inv := inv_of_run run
  have set := inv.returned r returned
  have got := inv.returned r' returned'
  rw [Justified, done] at set
  rw [Justified, reads] at got
  obtain ⟨m, -, upto, held⟩ := set _ wrote
  obtain ⟨m', since, -, was⟩ := got
  obtain ⟨current, here, reported⟩ := was item member
  have stays := (evolves_of_run run).stays agree held (upto.trans (order.trans since)) here
  exact Option.some.inj (reported.symm.trans stays)

end Runs

section Sample

def imuKey : UInt16 := ParameterKey.imuDataEn.asU16

def device : SocketAddr := ⟨.v4 ⟨192, 168, 1, 100⟩, cmdPort⟩

def enable : Command := .set (setImuEnabled true)

def inquire : Command := .query [.imuDataEn]

def report : Bytes := 0 :: encodeKeyValueList [(imuKey, [1])]

theorem arrives {meets : Action → Prop} (free : meets .protocol) (s : State) (command : Command)
    (few : s.calls.length + 1 < 2 ^ 32) (length : (command.req s.seq).LengthMatches)
    (room : (command.req s.seq).length.toNat ≤ 2048) :
    ∃ bytes, CommandFrame.parse .dev bytes = .ok (command.req s.seq) ∧
      Steps .dev device meets s { s with
        seq := s.seq + 1
        calls := s.calls ++ [⟨command, s.now⟩]
        pending := (s.calls.length, command.req s.seq) :: s.pending
        toLidar := bytes :: s.toLidar
        received := bytes :: s.received } := by
  have encoded := encodeRequest_eq .dev length room
  obtain ⟨-, parsed⟩ := parse_encodeRequest encoded
  have issued : Steps .dev device meets s _ :=
    .single ⟨.protocol, free, .issue s command _ few encoded⟩
  exact ⟨_, parsed, issued.tail ⟨.protocol, free, .receive _ _ List.mem_cons_self⟩⟩

theorem answered {meets : Action → Prop} (free : meets .protocol) (s : State) (data : Bytes)
    {n : Nat} {req : CommandFrame} {call : Issued} {bytes : Bytes} (waiting : (n, req) ∈ s.pending)
    (issued : s.calls[n]? = some call) (held : bytes ∈ s.received)
    (parsed : CommandFrame.parse .dev bytes = .ok req) (small : data.length ≤ 2024)
    (honest : ∀ items, req.cmdId = CmdId.paramConfig.asU16 →
      decodeKeyValueList req.data = .ok items → ∀ item ∈ items, (req.seqNum, item) ∈ s.applied)
    (current : ∀ values, req.cmdId = CmdId.paramInquire.asU16 →
      parseParamInquireAck data = .ok (.success, values) →
      ∀ item ∈ values, s.values item.1 = some item.2) :
    Steps .dev device meets s { s with
      toHost := ackDatagram device req data :: s.toHost
      pending := s.pending.filter fun p => p.1 ≠ n
      returned := ⟨call.command.reply (ackFrame req data), call.since, s.now⟩ :: s.returned } := by
  have whole := parse_ackDatagram .dev device req small
  have reported : Steps .dev device meets s { s with
      toHost := ackDatagram device req data :: s.toHost } := by
    refine .single ⟨.protocol, free, .answer s bytes req _ held parsed ?_ ?_ ?_⟩
    · intro f hf
      cases hf.symm.trans whole
      exact ⟨rfl, rfl⟩
    · intro f items _ _ config decoded
      exact honest items config decoded
    · intro f values hf inquiry reads
      cases hf.symm.trans whole
      exact current values inquiry reads
  exact reported.tail ⟨.protocol, free, .acknowledge _ n req call _ _ waiting issued
    List.mem_cons_self (commandStep_ack .dev device req small)⟩

theorem newReq_lengthMatches (seqNum : UInt32) (cmdId : UInt16) {data : Bytes}
    (fits : data.length ≤ 2024) :
    (newReq seqNum cmdId data).LengthMatches ∧ (newReq seqNum cmdId data).length.toNat ≤ 2048 := by
  have length : (newReq seqNum cmdId data).length.toNat = cmdHeaderSize + data.length :=
    UInt16.toNat_ofNat_of_lt' (by
      change cmdHeaderSize + data.length < 65536
      rw [cmdHeaderSize]
      omega)
  refine ⟨length, ?_⟩
  rw [length, cmdHeaderSize]
  omega

theorem enables {meets : Action → Prop} (free : meets .protocol) (values : Values) :
    ∃ s, Steps .dev device meets (.init values) s ∧ s.calls = [⟨enable, 0⟩] ∧ s.now = 1 ∧
      s.values imuKey = some [1] ∧
      s.returned = [⟨.set (setImuEnabled true) (.ok ()), 0, 1⟩] := by
  obtain ⟨length, room⟩ := newReq_lengthMatches 1 CmdId.paramConfig.asU16
    (show (buildParamConfig (setImuEnabled true)).length ≤ 2024 by decide)
  obtain ⟨bytes, parsed, asked⟩ := arrives free (.init values) enable
    (show 0 + 1 < 2 ^ 32 by decide) length room
  have decoded := Protocol.CommandGrammar.decode_buildParamConfig length
  have applied := asked.tail ⟨.protocol, free, .apply _ bytes _ _ (imuKey, [1])
    List.mem_cons_self parsed rfl decoded List.mem_cons_self⟩
  have enabled : Function.update values imuKey (some [1]) imuKey = some [1] :=
    Function.update_self _ _ _
  refine ⟨_, applied.trans (answered free _ [0] List.mem_cons_self rfl List.mem_cons_self parsed
    (by decide) ?_ ?_), rfl, rfl, enabled, rfl⟩
  · intro items _ decoded' item member
    cases decoded.symm.trans decoded'
    rw [List.mem_singleton.mp member]
    exact List.mem_cons_self
  · intro _ inquiry
    cases inquiry

theorem asks {meets : Action → Prop} (free : meets .protocol) (s : State)
    (few : s.calls.length + 1 < 2 ^ 32) (enabled : s.values imuKey = some [1]) :
    ∃ t, Steps .dev device meets s t ∧ t.calls = s.calls ++ [⟨inquire, s.now⟩] ∧
      t.returned = ⟨.query [.imuDataEn] (.ok [(imuKey, [1])]), s.now, s.now⟩ :: s.returned := by
  obtain ⟨length, room⟩ := newReq_lengthMatches s.seq CmdId.paramInquire.asU16
    (show (buildParamInquire [.imuDataEn]).length ≤ 2024 by decide)
  obtain ⟨bytes, parsed, asked⟩ := arrives free s inquire few length room
  have reads : parseParamInquireAck report = .ok (.success, [(imuKey, [1])]) := by
    decide +kernel
  have here : (s.calls ++ [(⟨inquire, s.now⟩ : Issued)])[s.calls.length]? =
      some ⟨inquire, s.now⟩ := by
    rw [List.getElem?_append_right le_rfl, Nat.sub_self]
    rfl
  have reply : inquire.reply (ackFrame (inquire.req s.seq) report) =
      .query [.imuDataEn] (.ok [(imuKey, [1])]) := by
    have result : queryParameterResult (ackFrame (inquire.req s.seq) report) =
        .ok [(imuKey, [1])] := by
      have payload : (ackFrame (inquire.req s.seq) report).data = report := rfl
      rw [queryParameterResult, payload, reads]
      rfl
    exact congrArg (Reply.query [.imuDataEn]) result
  refine ⟨_, asked.trans (answered free _ report List.mem_cons_self here List.mem_cons_self parsed
    (by decide) ?_ ?_), rfl, ?_⟩
  · intro _ config
    cases config
  · intro values _ reads' item member
    cases reads.symm.trans reads'
    rw [List.mem_singleton.mp member]
    exact enabled
  · exact congrArg (fun reply => (⟨reply, s.now, s.now⟩ : Returned) :: s.returned) reply

theorem enables_and_asks (meets : Action → Prop) (free : meets .protocol) :
    ∃ s, Steps .dev device meets (.init fun _ => none) s ∧
      s.calls = [⟨enable, 0⟩, ⟨inquire, 1⟩] ∧
      s.returned = [⟨.query [.imuDataEn] (.ok [(imuKey, [1])]), 1, 1⟩,
        ⟨.set (setImuEnabled true) (.ok ()), 0, 1⟩] := by
  obtain ⟨s, run, calls, now, enabled, returned⟩ := enables free fun _ => none
  obtain ⟨t, more, calls', returned'⟩ := asks free s (by rw [calls]; decide) enabled
  refine ⟨t, run.trans more, ?_, ?_⟩
  · rw [calls', calls, now]
    rfl
  · rw [returned', returned, now]

theorem calls_take_effect_imu :
    ∃ s : State, Steps .dev device (fun _ => True) (.init fun _ => none) s ∧
      s.returned = [⟨.query [.imuDataEn] (.ok [(imuKey, [1])]), 1, 1⟩,
        ⟨.set (setImuEnabled true) (.ok ()), 0, 1⟩] ∧
      ∀ r ∈ s.returned, Justified s r := by
  obtain ⟨s, run, -, returned⟩ := enables_and_asks (fun _ => True) trivial
  exact ⟨s, run, returned, calls_take_effect run⟩

theorem reads_back_imu :
    ∃ s : State, Steps .dev device (fun a => a ≠ .own imuKey) (.init fun _ => none) s ∧
      s.returned = [⟨.query [.imuDataEn] (.ok [(imuKey, [1])]), 1, 1⟩,
        ⟨.set (setImuEnabled true) (.ok ()), 0, 1⟩] ∧
      ∀ item ∈ [(imuKey, [(1 : UInt8)])], item.1 = imuKey → item.2 = [1] := by
  obtain ⟨s, run, calls, returned⟩ := enables_and_asks (fun a => a ≠ .own imuKey) nofun
  have set : (⟨.set (setImuEnabled true) (.ok ()), 0, 1⟩ : Returned) ∈ s.returned := by
    rw [returned]
    exact List.mem_cons_of_mem _ List.mem_cons_self
  have got : (⟨.query [.imuDataEn] (.ok [(imuKey, [1])]), 1, 1⟩ : Returned) ∈ s.returned := by
    rw [returned]
    exact List.mem_cons_self
  refine ⟨s, run, returned, reads_back run ?_ set rfl List.mem_cons_self got rfl (Nat.le_refl 1)⟩
  intro call member items command item asked named
  rw [calls] at member
  rcases List.mem_cons.mp member with rfl | later
  · cases command
    rw [List.mem_singleton.mp asked]
  · rw [List.mem_singleton.mp later] at command
    cases command

end Sample

end LivoxMid360.Control.FreshReads
