/- digest: Concurrent calls on one shared client: who takes which datagram off the socket. -/

import LivoxMid360.Control.Client
import LivoxMid360.Foundation.Transition
import Mathlib.Logic.Function.Basic

set_option autoImplicit false
set_option relaxedAutoImplicit false

namespace LivoxMid360.Control.SharedSocket

open Foundation.RustOutcome
open Foundation.LittleEndian
open Foundation.Transition
open Protocol.Vocabulary Protocol.Command Protocol.Parameters
open Client
open CommandFrame (newReq)

/-- A call inside its receive loop. -/
inductive Call
  | command (addr : SocketAddr) (req : CommandFrame)
  | discovery (found : Discovery)
  deriving DecidableEq

inductive CallResult
  | command (result : Result CommandFrame)
  | discovery (result : Result (List DiscoveredDevice))
  deriving DecidableEq

inductive Status
  | idle
  | pending (call : Call)
  | returned (result : CallResult)
  deriving DecidableEq

inductive Answer
  | ack (frame : CommandFrame)
  | device (ack : DiscoveryAck)
  deriving DecidableEq

/-- The datagram as an answer to the call, if it is one: the acknowledgement of its request,
or a discovered device that it has not seen. -/
def Call.answer (profile : Profile) (d : Datagram) : Call → Option Answer
  | .command addr req =>
    match commandStep profile addr req d with
    | .ok (some frame) => some (.ack frame)
    | _ => none
  | .discovery found =>
    match discoveryAck profile d with
    | .ok (some ack) =>
      if (deviceOf ack).lidarCmdAddr ∈ found.seen then none else some (.device ack)
    | _ => none

def Call.receive (profile : Profile) (d : Datagram) : Call → Status
  | .command addr req =>
    match commandStep profile addr req d with
    -- taken off the socket all the same: no other call will see it
    | .ok none => .pending (.command addr req)
    | .ok (some frame) => .returned (.command (.ok frame))
    | .err e => .returned (.command (.err e))
    | .panic c => .returned (.command (.panic c))
  | .discovery found =>
    match discoverStep profile found d with
    | .ok found => .pending (.discovery found)
    | .err e => .returned (.discovery (.err e))
    | .panic c => .returned (.discovery (.panic c))

def Call.elapse : Call → CallResult
  | .command addr _ => .command (.err (.noResponse addr))
  | .discovery found => .discovery (.ok found.devices)

def Call.fail (error : String) : Call → CallResult
  | .command _ _ => .command (.err (.io error))
  | .discovery _ => .discovery (.err (.io error))

def startCommand (profile : Profile) (addr : SocketAddr) (req : CommandFrame)
    (sent : Result Unit) : Status :=
  match (do
    let _ ← encodeRequest profile 2048 req
    sent) with
  | .ok () => .pending (.command addr req)
  | .err e => .returned (.command (.err e))
  | .panic c => .returned (.command (.panic c))

def startDiscovery (profile : Profile) (sent : Result Unit) : Status :=
  match (do
    let _ ← encodeRequest profile 1024 (newReq 0 CmdId.discovery.asU16 [])
    sent) with
  | .ok () => .pending (.discovery .empty)
  | .err e => .returned (.discovery (.err e))
  | .panic c => .returned (.discovery (.panic c))

variable {ι : Type} [DecidableEq ι]

/-- The client's counter, the socket's queue and the calls. `answered` is not part of the
program: it remembers, for each call, the answers that left the queue while it waited. -/
structure State (ι : Type) where
  seq : UInt32
  queue : List Datagram
  status : ι → Status
  answered : ι → List Answer

def State.init : State ι := ⟨1, [], fun _ => .idle, fun _ => []⟩

inductive Event (ι : Type)
  | sendCommand (i : ι) (addr : SocketAddr) (cmdId : UInt16) (data : Bytes) (sent : Result Unit)
  | discover (i : ι) (sent : Result Unit)
  | arrive (d : Datagram)
  | receive (i : ι)
  | elapse (i : ι)
  | fail (i : ι) (error : String)

def State.setStatus (s : State ι) (i : ι) (status : Status) : State ι :=
  { s with status := Function.update s.status i status }

def State.remember (profile : Profile) (s : State ι) (d : Datagram) (j : ι) : List Answer :=
  match s.status j with
  | .pending call => (call.answer profile d).toList ++ s.answered j
  | _ => s.answered j

/-- One event. An event that is not enabled changes nothing. -/
def next (profile : Profile) (s : State ι) : Event ι → State ι
  | .sendCommand i addr cmdId data sent =>
    match s.status i with
    | .idle => { s with seq := s.seq + 1 }.setStatus i
        (startCommand profile addr (newReq s.seq cmdId data) sent)
    | _ => s
  | .discover i sent =>
    match s.status i with
    | .idle => s.setStatus i (startDiscovery profile sent)
    | _ => s
  | .arrive d => { s with queue := s.queue ++ [d] }
  | .receive i =>
    match s.queue, s.status i with
    | d :: queue, .pending call =>
      -- every pending call is asked, also those that do not receive
      { s with queue := queue, answered := s.remember profile d }.setStatus i
        (call.receive profile d)
    | _, _ => s
  | .elapse i =>
    match s.status i with
    | .pending call => s.setStatus i (.returned call.elapse)
    | _ => s
  | .fail i error =>
    match s.status i with
    | .pending call => s.setStatus i (.returned (call.fail error))
    | _ => s

def Status.turn (profile : Profile) : Status → Recv → Status
  | .pending call, .datagram d => call.receive profile d
  | .pending call, .elapsed => .returned call.elapse
  | .pending call, .failed error => .returned (call.fail error)
  | status, _ => status

theorem turns_returned (profile : Profile) (result : CallResult) (events : List Recv) :
    events.foldl (Status.turn profile) (.returned result) = .returned result := by
  induction events with
  | nil => rfl
  | cons event events ih =>
    rw [List.foldl_cons]
    exact ih

theorem turns_command (profile : Profile) (addr : SocketAddr) (req : CommandFrame)
    (events : List Recv) :
    events.foldl (Status.turn profile) (.pending (.command addr req)) =
      match awaitAck profile addr req events with
      | none => .pending (.command addr req)
      | some result => .returned (.command result) := by
  induction events with
  | nil => rfl
  | cons event events ih =>
    rw [List.foldl_cons]
    cases event with
    | elapsed => exact turns_returned profile _ events
    | failed error => exact turns_returned profile _ events
    | datagram d =>
      rw [Status.turn, Call.receive, awaitAck]
      -- only a datagram that is passed over leaves the call pending
      cases commandStep profile addr req d with
      | ok step =>
        cases step with
        | none => exact ih
        | some frame => exact turns_returned profile _ events
      | err e => exact turns_returned profile _ events
      | panic c => exact turns_returned profile _ events

theorem turns_discovery (profile : Profile) (found : Discovery) (events : List Recv) :
    ∃ later, events.foldl (Status.turn profile) (.pending (.discovery found)) =
      match collect profile found events with
      | none => .pending (.discovery later)
      | some result => .returned (.discovery result) := by
  induction events generalizing found with
  | nil => exact ⟨found, rfl⟩
  | cons event events ih =>
    rw [List.foldl_cons]
    cases event with
    | elapsed => exact ⟨found, turns_returned profile _ events⟩
    | failed error => exact ⟨found, turns_returned profile _ events⟩
    | datagram d =>
      rw [Status.turn, Call.receive, collect]
      cases discoverStep profile found d with
      | ok next => exact ih next
      | err e => exact ⟨found, turns_returned profile _ events⟩
      | panic c => exact ⟨found, turns_returned profile _ events⟩

/-- A step on the shared socket gives the call that takes it one turn, and leaves the status
of every other call alone. -/
theorem next_receive_status (profile : Profile) (s : State ι) {i : ι} {call : Call}
    {d : Datagram} {queue : List Datagram} (pending : s.status i = .pending call)
    (head : s.queue = d :: queue) :
    (next profile s (.receive i)).status =
      Function.update s.status i ((s.status i).turn profile (.datagram d)) := by
  rw [next, head, pending]
  rfl

/-- The call has the answer: a `send_command` returned it, a `discover` lists its device.
A `discover` that failed on the socket or was aborted lists nothing. -/
def Delivered : Status → Answer → Prop
  | .returned (.command result), .ack frame => result = .ok frame
  | .pending (.discovery found), .device ack =>
    ∃ device ∈ found.devices, device.lidarCmdAddr = (deviceOf ack).lidarCmdAddr
  | .returned (.discovery result), .device ack => ∀ devices, result = .ok devices →
    ∃ device ∈ devices, device.lidarCmdAddr = (deviceOf ack).lidarCmdAddr
  | _, _ => False

/-- Every answer that left the queue while its call was pending has reached that call. -/
def NoAnswerLost (s : State ι) : Prop := ∀ j, ∀ a ∈ s.answered j, Delivered (s.status j) a

/-- A call takes a datagram off the queue only if it answers no other pending call. -/
def Undisputed (profile : Profile) (s : State ι) : Event ι → Prop
  | .receive i => ∀ d call, s.queue.head? = some d → s.status i = .pending call →
      ∀ j other, j ≠ i → s.status j = .pending other → other.answer profile d = none
  | _ => True

section Steps

variable {profile : Profile} {s : State ι}

@[simp] theorem setStatus_self (s : State ι) (i : ι) (status : Status) :
    (s.setStatus i status).status i = status := Function.update_self _ _ _

theorem setStatus_of_ne (s : State ι) {i j : ι} (h : j ≠ i) (status : Status) :
    (s.setStatus i status).status j = s.status j := Function.update_of_ne h _ _

@[simp] theorem setStatus_answered (s : State ι) (i : ι) (status : Status) :
    (s.setStatus i status).answered = s.answered := rfl

theorem NoAnswerLost.setStatus (safe : NoAnswerLost s) {i : ι} {status : Status}
    (keeps : ∀ a, Delivered (s.status i) a → Delivered status a) :
    NoAnswerLost (s.setStatus i status) := by
  intro j a member
  rw [setStatus_answered] at member
  by_cases here : j = i
  · subst here
    rw [setStatus_self]
    exact keeps a (safe j a member)
  · rw [setStatus_of_ne s here]
    exact safe j a member

theorem record_devices (found : Discovery) (ack : DiscoveryAck) :
    found.devices ⊆ (found.record ack).devices := by
  rw [Discovery.record]
  split
  · exact fun _ h => h
  · exact List.subset_append_left _ _

theorem record_device {found : Discovery} {ack : DiscoveryAck}
    (new : (deviceOf ack).lidarCmdAddr ∉ found.seen) :
    ∃ device ∈ (found.record ack).devices,
      device.lidarCmdAddr = (deviceOf ack).lidarCmdAddr := by
  refine ⟨deviceOf ack, ?_, rfl⟩
  rw [Discovery.record, if_neg new]
  exact List.mem_append_right _ List.mem_cons_self

theorem receive_keeps (d : Datagram) (call : Call) (a : Answer)
    (has : Delivered (.pending call) a) : Delivered (call.receive profile d) a := by
  cases call with
  | command addr req => cases a <;> exact has.elim
  | discovery found =>
    cases a with
    | ack frame => exact has.elim
    | device ack =>
      obtain ⟨device, member, address⟩ := has
      rw [Call.receive, discoverStep]
      cases hack : discoveryAck profile d with
      | ok answer =>
        cases answer with
        | none => exact ⟨device, member, address⟩
        | some other => exact ⟨device, record_devices found other member, address⟩
      | err e =>
        rintro devices ⟨⟩
      | panic c =>
        rintro devices ⟨⟩

theorem answer_command {addr : SocketAddr} {req : CommandFrame} {d : Datagram} {a : Answer}
    (answers : (Call.command addr req).answer profile d = some a) :
    ∃ frame, commandStep profile addr req d = .ok (some frame) ∧ a = .ack frame := by
  rw [Call.answer] at answers
  cases hstep : commandStep profile addr req d with
  | ok result =>
    rw [hstep] at answers
    cases result with
    | none => cases answers
    | some frame =>
      cases answers
      exact ⟨frame, rfl, rfl⟩
  | err e =>
    rw [hstep] at answers
    cases answers
  | panic c =>
    rw [hstep] at answers
    cases answers

theorem answer_discovery {found : Discovery} {d : Datagram} {a : Answer}
    (answers : (Call.discovery found).answer profile d = some a) :
    ∃ ack, discoveryAck profile d = .ok (some ack) ∧
      (deviceOf ack).lidarCmdAddr ∉ found.seen ∧ a = .device ack := by
  rw [Call.answer] at answers
  cases hack : discoveryAck profile d with
  | ok result =>
    rw [hack] at answers
    cases result with
    | none => cases answers
    | some ack =>
      dsimp only at answers
      by_cases known : (deviceOf ack).lidarCmdAddr ∈ found.seen
      · rw [if_pos known] at answers
        cases answers
      · rw [if_neg known] at answers
        cases answers
        exact ⟨ack, rfl, known, rfl⟩
  | err e =>
    rw [hack] at answers
    cases answers
  | panic c =>
    rw [hack] at answers
    cases answers

theorem receive_delivers {d : Datagram} {call : Call} {a : Answer}
    (answers : call.answer profile d = some a) : Delivered (call.receive profile d) a := by
  cases call with
  | command addr req =>
    obtain ⟨frame, hstep, rfl⟩ := answer_command answers
    rw [Call.receive, hstep]
    rfl
  | discovery found =>
    obtain ⟨ack, hack, new, rfl⟩ := answer_discovery answers
    rw [Call.receive, discoverStep, hack]
    exact record_device new

theorem not_delivered_of_answer {d : Datagram} {call : Call} {a : Answer}
    (answers : call.answer profile d = some a) : ¬ Delivered (.pending call) a := by
  intro has
  cases call with
  | command addr req => cases a <;> exact has.elim
  | discovery found =>
    -- an answer comes from an address that the call has not seen
    obtain ⟨ack, -, new, rfl⟩ := answer_discovery answers
    exact new ((found.listed _).mpr has)

omit [DecidableEq ι] in
theorem mem_remember {d : Datagram} {j : ι} {a : Answer} :
    a ∈ s.remember profile d j ↔
      (∃ call, s.status j = .pending call ∧ call.answer profile d = some a) ∨
        a ∈ s.answered j := by
  rw [State.remember]
  cases hstatus : s.status j with
  | pending call =>
    dsimp only
    rw [List.mem_append, Option.mem_toList]
    apply or_congr_left
    constructor
    · intro answers
      exact ⟨call, rfl, answers⟩
    · rintro ⟨other, same, answers⟩
      cases same
      exact answers
  | idle =>
    refine ⟨.inr, ?_⟩
    rintro (⟨call, same, -⟩ | old)
    · cases same
    · exact old
  | returned result =>
    refine ⟨.inr, ?_⟩
    rintro (⟨call, same, -⟩ | old)
    · cases same
    · exact old

theorem receive_step_iff (safe : NoAnswerLost s) {i : ι} {d : Datagram} {queue : List Datagram}
    {call : Call} (hstatus : s.status i = .pending call) :
    NoAnswerLost ({ s with queue := queue, answered := s.remember profile d }.setStatus i
        (call.receive profile d)) ↔
      ∀ j other, j ≠ i → s.status j = .pending other → other.answer profile d = none := by
  constructor
  · intro safe' j other away pending
    -- an answer taken by another call is remembered for a call that still waits for it
    by_contra answers
    obtain ⟨a, answers⟩ := Option.ne_none_iff_exists'.mp answers
    have member : a ∈ s.remember profile d j := mem_remember.mpr (.inl ⟨other, pending, answers⟩)
    have has := safe' j a member
    rw [setStatus_of_ne _ away] at has
    have has : Delivered (s.status j) a := has
    rw [pending] at has
    exact not_delivered_of_answer answers has
  · intro undisputed j a member
    have member : a ∈ s.remember profile d j := member
    by_cases here : j = i
    -- the call that receives has the answer that it took, and keeps what it had
    · subst here
      rw [setStatus_self]
      rcases mem_remember.mp member with ⟨other, pending, answers⟩ | old
      · cases hstatus.symm.trans pending
        exact receive_delivers answers
      · have has := safe j a old
        rw [hstatus] at has
        exact receive_keeps d call a has
    · rw [setStatus_of_ne _ here]
      rcases mem_remember.mp member with ⟨other, pending, answers⟩ | old
      · cases (undisputed j other here pending).symm.trans answers
      · exact safe j a old

theorem idle_keeps {status status' : Status} (idle : status = .idle) (a : Answer)
    (has : Delivered status a) : Delivered status' a := by
  rw [idle] at has
  cases a <;> exact has.elim

theorem elapse_keeps (call : Call) (a : Answer) (has : Delivered (.pending call) a) :
    Delivered (.returned call.elapse) a := by
  cases call with
  | command addr req => cases a <;> exact has.elim
  | discovery found =>
    cases a with
    | ack frame => exact has.elim
    | device ack =>
      -- the deadline is how a discovery ends well: it returns what it has listed
      intro devices same
      cases same
      exact has

theorem fail_keeps (call : Call) (error : String) (a : Answer)
    (has : Delivered (.pending call) a) : Delivered (.returned (call.fail error)) a := by
  cases call with
  | command addr req => cases a <;> exact has.elim
  | discovery found =>
    cases a with
    | ack frame => exact has.elim
    | device ack =>
      -- a discovery that fails returns no list, so that nothing is asked of it
      intro devices same
      cases same

theorem step_safe_iff (s : State ι) (e : Event ι) (safe : NoAnswerLost s) :
    NoAnswerLost (next profile s e) ↔ Undisputed profile s e := by
  cases e with
  | sendCommand i addr cmdId data sent =>
    refine iff_of_true ?_ trivial
    rw [next]
    split
    · rename_i idle
      -- the number was taken from the counter before anything else
      have counted : NoAnswerLost { s with seq := s.seq + 1 } := safe
      apply counted.setStatus
      intro a has
      exact idle_keeps idle a has
    · exact safe
  | discover i sent =>
    refine iff_of_true ?_ trivial
    rw [next]
    split
    · rename_i idle
      apply safe.setStatus
      intro a has
      exact idle_keeps idle a has
    · exact safe
  | arrive d => exact iff_of_true safe trivial
  | elapse i =>
    refine iff_of_true ?_ trivial
    rw [next]
    split
    · rename_i call pending
      refine safe.setStatus fun a has => ?_
      rw [pending] at has
      exact elapse_keeps call a has
    · exact safe
  | fail i error =>
    refine iff_of_true ?_ trivial
    rw [next]
    split
    · rename_i call pending
      refine safe.setStatus fun a has => ?_
      rw [pending] at has
      exact fail_keeps call error a has
    · exact safe
  | receive i =>
    rw [next, Undisputed]
    split
    · rename_i d queue call hqueue pending
      rw [receive_step_iff safe pending, hqueue]
      constructor
      · rintro undisputed d' call' head - j other away waiting
        cases head
        exact undisputed j other away waiting
      · intro undisputed
        exact undisputed d call rfl pending
    · rename_i disabled
      apply iff_of_true safe
      intro d call head pending
      cases hqueue : s.queue with
      | nil =>
        rw [hqueue] at head
        cases head
      | cons first queue => exact absurd pending (disabled first queue call hqueue)

end Steps

/-- In every state of a run every answer has reached its call exactly when each receive step
takes a datagram that answers no other pending call. -/
theorem no_answer_lost_iff (profile : Profile) (events : List (Event ι)) :
    (∀ pre, pre <+: events → NoAnswerLost (after (next profile) State.init pre)) ↔
      ∀ pre e post, events = pre ++ e :: post →
        Undisputed profile (after (next profile) State.init pre) e := by
  refine safe_throughout_iff step_safe_iff ?_ events
  intro j a member
  cases member

/-- Two calls of `set_parameter` to one device. The acknowledgement of the first is taken off
the socket by the second. -/
def contendedRun : List (Event Bool) :=
  let lidar : SocketAddr := ⟨.v4 ⟨192, 168, 1, 100⟩, cmdPort⟩
  let first := buildParamConfig (setDataType .pointCloudCartesian32)
  [.sendCommand false lidar 0x0100 first (.ok ()),
    .sendCommand true lidar 0x0100 (buildParamConfig (setImuEnabled true)) (.ok ()),
    .arrive (ackDatagram lidar (newReq 1 0x0100 first) [0]),
    .receive true,
    .elapse false]

theorem contendedRun_loses_ack :
    (after (next .release) State.init contendedRun).answered false =
        [.ack (ackFrame (newReq 1 0x0100 (buildParamConfig (setDataType .pointCloudCartesian32)))
          [0])] ∧
      (after (next .release) State.init contendedRun).status false =
        .returned (.command (.err (.noResponse ⟨.v4 ⟨192, 168, 1, 100⟩, cmdPort⟩))) := by
  constructor
  · decide +kernel
  · decide +kernel

end LivoxMid360.Control.SharedSocket
