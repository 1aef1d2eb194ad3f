/- digest: Receiving in a live session: every datagram taken becomes the result of one call. -/

import LivoxMid360.Data.Stream
import LivoxMid360.Foundation.Transition

set_option autoImplicit false
set_option relaxedAutoImplicit false

namespace LivoxMid360.Session.LiveReader

open Foundation.RustOutcome
open Foundation.LittleEndian
open Foundation.Transition (after after_invariant)
open Protocol.Vocabulary
open Data.Points Data.Packet Data.Stream

inductive Sample
  | points (header : DataFrameHeader) (points : List Point)
  | imu (header : DataFrameHeader) (sample : ImuSample)
  deriving DecidableEq

def Sample.tryFrom (packet : DataPacket) : Result Sample :=
  match packet.payload with
  | .points ps => .ok (.points packet.header ps)
  | .imu sample => .ok (.imu packet.header sample)

def other : Port → Port
  | .data => .imu
  | .imu => .data

/-- One poll of `recv`: `select!` polls its branches one after the other, and the first that is
ready wins; the rest are dropped where they are. -/
def recv (profile : Profile) (turn : Turn) (stream : DataStream) :
    Poll (Result Sample) × DataStream :=
  match receive profile turn stream turn.first with
  | (.ready packet, stream) => (.ready (packet >>= Sample.tryFrom), stream)
  | (.pending, stream) =>
    let (polled, stream) := receive profile turn stream (other turn.first)
    (polled.map fun packet => packet >>= Sample.tryFrom, stream)

inductive Call
  | recv
  | nextPointCloud
  | nextImu
  deriving DecidableEq, Repr

inductive Reply
  | sample (result : Result Sample)
  | packet (result : Result DataPacket)
  deriving DecidableEq

def Call.reply : Call → Result DataPacket → Reply
  | .recv, packet => .sample (packet >>= Sample.tryFrom)
  | .nextPointCloud, packet => .packet packet
  | .nextImu, packet => .packet packet

def Call.listens : Call → Port → Prop
  | .recv, _ => True
  | .nextPointCloud, port => port = .data
  | .nextImu, port => port = .imu

def pollCall (profile : Profile) (turn : Turn) (stream : DataStream) :
    Call → Poll Reply × DataStream
  | .recv =>
    let (polled, stream) := recv profile turn stream
    (polled.map .sample, stream)
  | .nextPointCloud =>
    let (polled, stream) := nextPointCloud profile turn stream
    (polled.map .packet, stream)
  | .nextImu =>
    let (polled, stream) := nextImu profile turn stream
    (polled.map .packet, stream)

/-- The sockets, everything that ever arrived at them, the call in progress, and the calls that
ended, with how. -/
structure Reader where
  stream : DataStream
  arrived : Port → List Bytes
  active : Option Call
  log : List (Call × Reply)

def Reader.start : Reader := ⟨fun _ => ⟨[], []⟩, fun _ => [], none, []⟩

inductive Event
  | arrive (port : Port) (datagram : Bytes)
  | call (c : Call)
  | poll (turn : Turn)
  | drop

def Reader.next (profile : Profile) (s : Reader) : Event → Reader
  | .arrive port datagram =>
    { s with
      stream := Function.update s.stream port ((s.stream port).push datagram)
      arrived := Function.update s.arrived port (s.arrived port ++ [datagram]) }
  -- a call in progress is not replaced: a task makes one call at a time
  | .call c => { s with active := s.active <|> some c }
  -- dropping the future takes nothing off a socket
  | .drop => { s with active := none }
  | .poll turn =>
    match s.active with
    | none => s
    | some c =>
      match pollCall profile turn s.stream c with
      | (.pending, stream) => { s with stream := stream }
      | (.ready reply, stream) =>
        { s with stream := stream, active := none, log := s.log ++ [(c, reply)] }

def run (profile : Profile) (events : List Event) : Reader :=
  after (Reader.next profile) .start events

/-- The error of a wait, not of a datagram: its deadline passed or its socket failed. -/
def FromWait (e : LidarError) : Prop := (∃ addr, e = .noResponse addr) ∨ ∃ error, e = .io error

/-- Where the result of a call came from: a datagram of a socket that the call listens to, whose
parse returns and is that result, or no datagram. -/
def Explains (profile : Profile) : Option (Port × Bytes) → Call × Reply → Prop
  | some (port, datagram), (call, reply) =>
    call.listens port ∧ (DataPacket.parse profile (datagram.take port.capacity)).Returns ∧
      reply = call.reply (DataPacket.parse profile (datagram.take port.capacity))
  | none, (call, reply) => ∃ e, FromWait e ∧ reply = call.reply (.err e)

def fromPort (port : Port) (origins : List (Option (Port × Bytes))) : List Bytes :=
  origins.filterMap fun origin => origin.bind fun o => if o.1 = port then some o.2 else none

/-- Every call that ended came from at most one datagram; at each socket the datagrams taken are
those the results came from, in that order, once each; and the others still wait. -/
def Delivered (profile : Profile) (s : Reader) : Prop :=
  (∃ origins, List.Forall₂ (Explains profile) origins s.log ∧
    ∀ port, (s.stream port).taken.map Taken.datagram = fromPort port origins) ∧
  ∀ port, s.arrived port =
    (s.stream port).taken.map Taken.datagram ++ (s.stream port).waiting

theorem recv_cases (profile : Profile) (turn : Turn) (stream : DataStream) :
    recv profile turn stream = (.pending, stream) ∨
    (∃ error, recv profile turn stream = (.ready (.err (.io error)), stream)) ∨
    ∃ port datagram rest, (stream port).waiting = datagram :: rest ∧
      recv profile turn stream =
        (.ready (received profile port datagram turn.debug >>= Sample.tryFrom),
          Function.update stream port ((stream port).take datagram rest turn.debug)) := by
  rcases receive_cases profile turn stream turn.first with
    pending | ⟨error, failed⟩ | ⟨datagram, rest, waiting, took⟩
  · rcases receive_cases profile turn stream (other turn.first) with
      pending' | ⟨error, failed⟩ | ⟨datagram, rest, waiting, took⟩
    · left
      rw [recv, pending]
      simp only [pending', Poll.map]
    · right
      left
      refine ⟨error, ?_⟩
      rw [recv, pending]
      simp only [failed, Poll.map, Outcome.err_bind]
    · right
      right
      refine ⟨other turn.first, datagram, rest, waiting, ?_⟩
      rw [recv, pending]
      simp only [took, Poll.map]
  · right
    left
    refine ⟨error, ?_⟩
    rw [recv, failed]
    rfl
  · right
    right
    refine ⟨turn.first, datagram, rest, waiting, ?_⟩
    rw [recv, took]

/-- The three ways in which a poll of a call can end: it takes nothing and does not end the
call, or ends it by an error of the wait; or it takes the first datagram of a socket that the
call listens to, and ends the call with what that datagram becomes. -/
def PollEnds (profile : Profile) (turn : Turn) (stream : DataStream) (c : Call) : Prop :=
  pollCall profile turn stream c = (.pending, stream) ∨
  (∃ e, FromWait e ∧ pollCall profile turn stream c = (.ready (c.reply (.err e)), stream)) ∨
  ∃ port datagram rest, c.listens port ∧ (stream port).waiting = datagram :: rest ∧
    pollCall profile turn stream c =
      (.ready (c.reply (received profile port datagram turn.debug)),
        Function.update stream port ((stream port).take datagram rest turn.debug))

theorem recv_ends (profile : Profile) (turn : Turn) (stream : DataStream) :
    PollEnds profile turn stream .recv := by
  rcases recv_cases profile turn stream with
    pending | ⟨error, failed⟩ | ⟨port, datagram, rest, waiting, took⟩
  · exact .inl (by rw [pollCall, pending]; rfl)
  · exact .inr (.inl ⟨_, .inr ⟨error, rfl⟩, by rw [pollCall, failed]; rfl⟩)
  · exact .inr (.inr ⟨port, datagram, rest, trivial, waiting, by rw [pollCall, took]; rfl⟩)

theorem timeout_ends {profile : Profile} {turn : Turn} {stream : DataStream} {c : Call}
    {port : Port} (listens : c.listens port) (replies : ∀ result, c.reply result = .packet result)
    (polled : pollCall profile turn stream c =
      ((timeout turn (receive profile turn stream port)).1.map .packet,
        (timeout turn (receive profile turn stream port)).2)) :
    PollEnds profile turn stream c := by
  rw [PollEnds, polled]
  rcases receive_cases profile turn stream port with
    pending | ⟨error, failed⟩ | ⟨datagram, rest, waiting, took⟩
  · rw [pending, timeout]
    cases turn.elapsed with
    | none => exact .inl rfl
    -- the socket is polled before the deadline, so that a ready datagram wins
    | some addr =>
      cases addr with
      | ok addr => exact .inr (.inl ⟨_, .inl ⟨addr, rfl⟩, by rw [replies]; rfl⟩)
      | error e => exact .inr (.inl ⟨_, .inr ⟨e, rfl⟩, by rw [replies]; rfl⟩)
  · rw [failed]
    exact .inr (.inl ⟨_, .inr ⟨error, rfl⟩, by rw [replies]; rfl⟩)
  · rw [took]
    exact .inr (.inr ⟨port, datagram, rest, listens, waiting, by rw [replies]; rfl⟩)

theorem poll_ends (profile : Profile) (turn : Turn) (stream : DataStream) (c : Call) :
    PollEnds profile turn stream c := by
  cases c with
  | recv => exact recv_ends profile turn stream
  | nextPointCloud => exact timeout_ends rfl (fun _ => rfl) rfl
  | nextImu => exact timeout_ends rfl (fun _ => rfl) rfl

/-- An event leaves the log and what was taken alone, or ends the call in progress by an error of
its wait, or takes one datagram and ends the call with what that becomes. -/
theorem next_cases (profile : Profile) (s : Reader) (event : Event) :
    ((s.next profile event).log = s.log ∧
      ∀ port, ((s.next profile event).stream port).taken = (s.stream port).taken) ∨
    (∃ c e, FromWait e ∧ (s.next profile event).log = s.log ++ [(c, c.reply (.err e))] ∧
      (s.next profile event).stream = s.stream) ∨
    ∃ c port datagram rest debug, c.listens port ∧ (s.stream port).waiting = datagram :: rest ∧
      (s.next profile event).log =
        s.log ++ [(c, c.reply (received profile port datagram debug))] ∧
      (s.next profile event).stream =
        Function.update s.stream port ((s.stream port).take datagram rest debug) := by
  cases event with
  -- an arrival changes what waits, not what was taken
  | arrive port datagram =>
    refine .inl ⟨rfl, ?_⟩
    intro q
    show (Function.update s.stream port ((s.stream port).push datagram) q).taken = _
    by_cases same : q = port
    · rw [same, Function.update_self]
      rfl
    · rw [Function.update_of_ne same]
  | call c => exact .inl ⟨rfl, fun _ => rfl⟩
  | drop => exact .inl ⟨rfl, fun _ => rfl⟩
  | poll turn =>
    cases active : s.active with
    | none =>
      have idle : s.next profile (.poll turn) = s := by rw [Reader.next, active]
      rw [idle]
      exact .inl ⟨rfl, fun _ => rfl⟩
    | some c =>
      rw [Reader.next, active]
      dsimp only
      rcases poll_ends profile turn s.stream c with
        pending | ⟨e, fromWait, failed⟩ | ⟨port, datagram, rest, listens, waiting, took⟩
      · rw [pending]
        exact .inl ⟨rfl, fun _ => rfl⟩
      · rw [failed]
        exact .inr (.inl ⟨c, e, fromWait, rfl, rfl⟩)
      · rw [took]
        exact .inr (.inr ⟨c, port, datagram, rest, turn.debug, listens, waiting, rfl, rfl⟩)

def Kept (s : Reader) : Prop :=
  ∀ port, s.arrived port =
    (s.stream port).taken.map Taken.datagram ++ (s.stream port).waiting

theorem kept_take {s : Reader} (kept : Kept s) {port : Port} {datagram : Bytes}
    {rest : List Bytes} (waiting : (s.stream port).waiting = datagram :: rest) (debug : Bool)
    (q : Port) :
    s.arrived q =
      (Function.update s.stream port ((s.stream port).take datagram rest debug) q).taken.map
          Taken.datagram ++
        (Function.update s.stream port ((s.stream port).take datagram rest debug) q).waiting := by
  by_cases same : q = port
  · rw [same, Function.update_self, kept port, waiting, Socket.take, List.map_append,
      List.append_assoc]
    rfl
  · rw [Function.update_of_ne same]
    exact kept q

theorem kept_next (profile : Profile) {s : Reader} (kept : Kept s) (event : Event) :
    Kept (s.next profile event) := by
  cases event with
  | arrive port datagram =>
    intro q
    show Function.update s.arrived port _ q =
      (Function.update s.stream port ((s.stream port).push datagram) q).taken.map _ ++
        (Function.update s.stream port ((s.stream port).push datagram) q).waiting
    by_cases same : q = port
    · rw [same, Function.update_self, Function.update_self, kept port, Socket.push,
        List.append_assoc]
    · rw [Function.update_of_ne same, Function.update_of_ne same]
      exact kept q
  | call c => exact kept
  | drop => exact kept
  | poll turn =>
    rw [Reader.next]
    cases s.active with
    | none => exact kept
    | some c =>
      dsimp only
      rcases poll_ends profile turn s.stream c with
        pending | ⟨e, fromWait, failed⟩ | ⟨port, datagram, rest, listens, waiting, took⟩
      · rw [pending]
        exact kept
      · rw [failed]
        exact kept
      · rw [took]
        exact kept_take kept waiting turn.debug

theorem kept_run (profile : Profile) (events : List Event) : Kept (run profile events) :=
  after_invariant Kept (fun _ event kept => kept_next profile kept event) (fun _ => rfl) events

theorem fromPort_append_single (port : Port) (origins : List (Option (Port × Bytes)))
    (origin : Option (Port × Bytes)) :
    fromPort port (origins ++ [origin]) = fromPort port origins ++ fromPort port [origin] := by
  rw [fromPort, List.filterMap_append, fromPort, fromPort]

theorem forall₂_append_single {α β : Type} {R : α → β → Prop} {xs : List α} {ys : List β}
    (all : List.Forall₂ R xs ys) {x : α} {y : β} (last : R x y) :
    List.Forall₂ R (xs ++ [x]) (ys ++ [y]) :=
  List.rel_append all (.cons last .nil)

/-- Each result so far has its origin, and the origins at a socket are what was taken there. -/
def Accounted (profile : Profile) (s : Reader) : Prop :=
  ∃ origins, List.Forall₂ (Explains profile) origins s.log ∧
    ∀ port, (s.stream port).taken.map Taken.datagram = fromPort port origins

def Sound (profile : Profile) (s : Reader) : Prop :=
  ∀ port, ∀ t ∈ (s.stream port).taken, ¬ Crashes profile port t

theorem sound_take_iff {profile : Profile} {s t : Reader} {port : Port} {datagram : Bytes}
    {rest : List Bytes} {debug : Bool}
    (took : t.stream = Function.update s.stream port ((s.stream port).take datagram rest debug)) :
    Sound profile t ↔ Sound profile s ∧ ¬ Crashes profile port ⟨datagram, debug⟩ := by
  rw [Sound, took]
  constructor
  · intro sound
    exact ⟨fun q u taken => sound q u (mem_taken_take.mpr (.inl taken)),
      sound port _ (mem_taken_take.mpr (.inr ⟨rfl, rfl⟩))⟩
  · intro ⟨before, here⟩ q u taken
    rcases mem_taken_take.mp taken with old | ⟨rfl, rfl⟩
    · exact before q u old
    · exact here

theorem sound_congr {profile : Profile} {s t : Reader}
    (same : ∀ port, (t.stream port).taken = (s.stream port).taken) :
    Sound profile t ↔ Sound profile s := by
  simp only [Sound, same]

theorem accounted_next (profile : Profile) {s : Reader} (accounted : Sound profile s →
    Accounted profile s) (event : Event) (sound : Sound profile (s.next profile event)) :
    Accounted profile (s.next profile event) := by
  rcases next_cases profile s event with
    ⟨log, taken⟩ | ⟨c, e, fromWait, log, stream⟩ |
      ⟨c, port, datagram, rest, debug, listens, waiting, log, stream⟩
  · obtain ⟨origins, explained, origin⟩ := accounted ((sound_congr taken).mp sound)
    refine ⟨origins, by rw [log]; exact explained, ?_⟩
    intro port
    rw [taken, origin]
  · have before : Sound profile s := (sound_congr fun port => by rw [stream]).mp sound
    -- an error of the wait has no datagram for its origin
    obtain ⟨origins, explained, origin⟩ := accounted before
    refine ⟨origins ++ [none], ?_, ?_⟩
    · rw [log]
      exact forall₂_append_single explained ⟨e, fromWait, rfl⟩
    · intro port
      rw [stream, origin, fromPort_append_single]
      exact (List.append_nil _).symm
  · obtain ⟨before, here⟩ := (sound_take_iff stream).mp sound
    obtain ⟨origins, explained, origin⟩ := accounted before
    -- a datagram that crashes nothing is parsed whole
    obtain ⟨parsed, returns⟩ := received_of_not_crashes here
    refine ⟨origins ++ [some (port, datagram)], ?_, ?_⟩
    · rw [log]
      refine forall₂_append_single explained ⟨listens, returns, ?_⟩
      exact congrArg c.reply parsed
    · intro q
      rw [stream, fromPort_append_single]
      by_cases same : q = port
      · rw [same, Function.update_self, Socket.take, List.map_append, origin]
        simp [fromPort]
      · rw [Function.update_of_ne same, origin]
        simp [fromPort, Ne.symm same]

theorem accounted_run (profile : Profile) (events : List Event) :
    Sound profile (run profile events) → Accounted profile (run profile events) :=
  after_invariant (fun s => Sound profile s → Accounted profile s)
    (fun _ event accounted => accounted_next profile accounted event)
    (fun _ => ⟨[], .nil, fun _ => rfl⟩) events

def Panicked (s : Reader) : Prop :=
  ∃ call cause, (call, Call.reply call (.panic cause)) ∈ s.log

theorem log_grows (profile : Profile) (s : Reader) (event : Event) :
    s.log <+: (s.next profile event).log := by
  rcases next_cases profile s event with
    ⟨log, -⟩ | ⟨c, e, -, log, -⟩ | ⟨c, port, datagram, rest, debug, -, -, log, -⟩
  · rw [log]
  · rw [log]
    exact List.prefix_append _ _
  · rw [log]
    exact List.prefix_append _ _

theorem sound_or_panicked_next (profile : Profile) {s : Reader} (sound : Sound profile s)
    (event : Event) :
    Sound profile (s.next profile event) ∨ Panicked (s.next profile event) := by
  rcases next_cases profile s event with
    ⟨-, taken⟩ | ⟨c, e, -, -, stream⟩ |
      ⟨c, port, datagram, rest, debug, -, -, log, stream⟩
  · exact .inl ((sound_congr taken).mpr sound)
  · exact .inl ((sound_congr fun port => by rw [stream]).mpr sound)
  · by_cases here : Crashes profile port ⟨datagram, debug⟩
    · obtain ⟨cause, panics⟩ := received_of_crashes here
      dsimp only at panics
      refine .inr ⟨c, cause, ?_⟩
      rw [log, panics]
      exact List.mem_append_right _ List.mem_cons_self
    · exact .inl ((sound_take_iff stream).mpr ⟨sound, here⟩)

theorem sound_or_panicked_run (profile : Profile) (events : List Event) :
    Sound profile (run profile events) ∨ Panicked (run profile events) := by
  refine after_invariant (fun s => Sound profile s ∨ Panicked s) ?_ ?_ events
  · rintro s event (sound | ⟨call, cause, member⟩)
    · exact sound_or_panicked_next profile sound event
    · exact .inr ⟨call, cause, (log_grows profile s event).subset member⟩
  · exact .inl fun port t ht => absurd ht List.not_mem_nil

theorem not_returns_of_reply {c : Call} {result : Result DataPacket} {cause : Panic}
    (panics : c.reply (.panic cause) = c.reply result) : ¬ result.Returns := by
  have answer : result = .panic cause := by
    cases c with
    -- `recv` maps the packet, and a mapped panic is still that panic
    | recv =>
      cases result with
      | ok packet =>
        obtain ⟨header, payload⟩ := packet
        cases payload <;> cases panics
      | err e => cases panics
      | panic c =>
        cases panics
        rfl
    | nextPointCloud =>
      cases panics
      rfl
    | nextImu =>
      cases panics
      rfl
  rw [answer]
  exact Outcome.not_returns_panic cause

theorem exists_origin {profile : Profile} {origins : List (Option (Port × Bytes))}
    {log : List (Call × Reply)} (explained : List.Forall₂ (Explains profile) origins log)
    {entry : Call × Reply} (member : entry ∈ log) : ∃ origin, Explains profile origin entry := by
  induction explained with
  | nil => cases member
  | cons head _ ih =>
    rcases List.mem_cons.mp member with rfl | later
    · exact ⟨_, head⟩
    · exact ih later

theorem not_panicked_of_accounted {profile : Profile} {s : Reader}
    (accounted : Accounted profile s) : ¬ Panicked s := by
  intro ⟨call, cause, member⟩
  obtain ⟨origins, explained, -⟩ := accounted
  obtain ⟨origin, explains⟩ := exists_origin explained member
  cases origin with
  | none =>
    obtain ⟨e, -, reply⟩ := explains
    exact not_returns_of_reply reply (Outcome.returns_err e)
  | some o =>
    obtain ⟨-, returns, reply⟩ := explains
    exact not_returns_of_reply reply returns

theorem sound_of_delivered {profile : Profile} {events : List Event}
    (delivered : Delivered profile (run profile events)) : Sound profile (run profile events) := by
  rcases sound_or_panicked_run profile events with sound | panicked
  · exact sound
  · exact absurd panicked (not_panicked_of_accounted delivered.1)

/-- In every run, whatever the arrivals, the readiness, the order in which `select!` polls, the
deadlines and the calls that their callers drop: each datagram taken is the result of exactly one
call, in the order of its socket, and none is lost, exactly when no datagram taken crashes its
receiver. -/
theorem delivered_iff (profile : Profile) (events : List Event) :
    Delivered profile (run profile events) ↔ Sound profile (run profile events) := by
  constructor
  · intro delivered
    exact sound_of_delivered delivered
  · intro sound
    exact ⟨accounted_run profile events sound, kept_run profile events⟩

def zerosUnderDebug : List Event :=
  [.arrive .data (List.replicate 36 0), .call .recv,
    .poll ⟨fun _ => .readable, .data, none, true⟩]

theorem zeros_not_delivered :
    ¬ ∀ profile events, Delivered profile (run profile events) := by
  intro claim
  have sound := sound_of_delivered (claim .release zerosUnderDebug)
  have taken : ((run .release zerosUnderDebug).stream .data).taken =
      [⟨List.replicate 36 0, true⟩] := by
    decide +kernel
  refine sound .data ⟨List.replicate 36 0, true⟩ ?_ (.inr ⟨rfl, rfl, ?_⟩)
  · rw [taken]
    exact List.mem_cons_self
  · decide +kernel

end LivoxMid360.Session.LiveReader
