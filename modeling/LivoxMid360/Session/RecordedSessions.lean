/- digest: The session as a function of what it meets, inside the system of client, network and
device: both open alike, and an open session is a configured device. -/

import LivoxMid360.Session.Connect

set_option autoImplicit false
set_option relaxedAutoImplicit false

namespace LivoxMid360.Session.RecordedSessions

open Relation (ReflTransGen)
open Foundation.RustOutcome
open Foundation.LittleEndian
open Foundation.ByteBuffer
open Foundation.Transition (invariant)
open Protocol.Vocabulary Protocol.Command Protocol.Parameters
open Control.Client Control.StartStreaming
open Connect

/-- Client, network and device, and what the calls of the client have met so far. -/
structure Recorded where
  system : State
  world : World

def Recorded.start (values : UInt16 → Option Bytes) : Recorded := ⟨.init values, .silent⟩

def World.sends (world : World) (k : Nat) (result : Result Unit) : World :=
  { world with sent := Function.update world.sent k result }

def World.hears (world : World) (k : Nat) (e : Recv) : World :=
  { world with heard := Function.update world.heard k (world.heard k ++ [e]) }

def afterEvent (profile : Profile) (addr : SocketAddr) (plan : List Items) (k : Nat)
    (req : CommandFrame) (e : Recv) : Phase :=
  match awaitAck profile addr req [e] with
  | none => .waiting k req
  | some (.ok frame) => afterAck plan k frame
  | some (.err e) => .returned (.err e)
  | some (.panic c) => .returned (.panic c)

/-- One step of the network or of the device, or of the client as its functions compute it. -/
inductive Move (profile : Profile) (addr : SocketAddr) (plan : List Items) :
    Recorded → Recorded → Prop
  | outside (r : Recorded) (t : State) (step : Step profile addr plan r.system t)
      (client : t.phase = r.system.phase) :
      Move profile addr plan r ⟨t, r.world⟩
  | issue (r : Recorded) (k : Nat) (items : Items) (bytes : Bytes)
      (turn : r.system.phase = .issuing k) (call : plan[k]? = some items)
      (encoded : encodeRequest profile 2048 (setParameterReq r.system.seq items) = .ok bytes) :
      Move profile addr plan r ⟨{ r.system with
        seq := r.system.seq + 1
        phase := .waiting k (setParameterReq r.system.seq items)
        sent := bytes :: r.system.sent
        toLidar := bytes :: r.system.toLidar }, World.sends r.world k (.ok ())⟩
  | refused (r : Recorded) (k : Nat) (items : Items) (bytes : Bytes) (result : Result Unit)
      (turn : r.system.phase = .issuing k) (call : plan[k]? = some items)
      (encoded : encodeRequest profile 2048 (setParameterReq r.system.seq items) = .ok bytes)
      (failed : result ≠ .ok ()) :
      Move profile addr plan r ⟨{ r.system with
        seq := r.system.seq + 1
        phase := .returned result }, World.sends r.world k result⟩
  -- A datagram in flight, the deadline, or an error of the socket.
  | hear (r : Recorded) (k : Nat) (req : CommandFrame) (e : Recv)
      (turn : r.system.phase = .waiting k req)
      (possible : ∀ d, e = .datagram d → d ∈ r.system.toHost) :
      Move profile addr plan r ⟨{ r.system with
        phase := afterEvent profile addr plan k req e }, World.hears r.world k e⟩

section Forgotten

variable {profile : Profile} {addr : SocketAddr} {plan : List Items}

theorem hear_steps {s : State} {k : Nat} {req : CommandFrame} {e : Recv}
    (turn : s.phase = .waiting k req) (possible : ∀ d, e = .datagram d → d ∈ s.toHost) :
    ReflTransGen (Step profile addr plan) s
      { s with phase := afterEvent profile addr plan k req e } := by
  have fails (result : Result Unit) (failed : result ≠ .ok ()) :
      ReflTransGen (Step profile addr plan) s { s with phase := .returned result } :=
    .single (.waitFails s k req result turn failed)
  rw [afterEvent]
  cases e with
  | elapsed => exact fails _ (by rintro ⟨⟩)
  | failed error => exact fails _ (by rintro ⟨⟩)
  | datagram d =>
    rw [awaitAck]
    cases accepted : commandStep profile addr req d with
    | err e => exact fails _ (by rintro ⟨⟩)
    | panic c => exact fails _ (by rintro ⟨⟩)
    | ok answer =>
      cases answer with
      -- what is passed over leaves the system where it is
      | none =>
        dsimp only [awaitAck]
        rw [← turn]
      | some frame =>
        exact .single (.acknowledge s k req d frame turn (possible d rfl) accepted)

theorem move_steps {r r' : Recorded} (move : Move profile addr plan r r') :
    ReflTransGen (Step profile addr plan) r.system r'.system := by
  cases move with
  | outside t step client => exact .single step
  | issue k items bytes turn call encoded =>
    exact .single (.issue _ k items bytes turn call encoded)
  | refused k items bytes result turn call encoded failed =>
    exact .single (.issueFails _ k result turn failed)
  | hear k req e turn possible => exact hear_steps turn possible

/-- Without its record, a run is a run of the system. -/
theorem steps_of_moves {r r' : Recorded} (run : ReflTransGen (Move profile addr plan) r r') :
    ReflTransGen (Step profile addr plan) r.system r'.system :=
  run.lift' Recorded.system fun _ _ move => move_steps move

def Unfailed (s : State) : Prop := ∀ result, s.phase = .returned result → result = .ok ()

theorem move_of_step {s t : State} (step : Step profile addr plan s t) (unfailed : Unfailed t)
    (world : World) : ∃ world', Move profile addr plan ⟨s, world⟩ ⟨t, world'⟩ := by
  cases step with
  | issue k items bytes turn call encoded => exact ⟨_, .issue _ k items bytes turn call encoded⟩
  | issueFails k result turn failed => exact absurd (unfailed result rfl) failed
  | acknowledge k req d frame turn arrived accepted =>
    have next : afterEvent profile addr plan k req (.datagram d) = afterAck plan k frame := by
      rw [afterEvent, awaitAck, accepted]
    rw [← next]
    refine ⟨_, .hear ⟨s, world⟩ k req (.datagram d) turn ?_⟩
    intro d' same
    cases same
    exact arrived
  | waitFails k req result turn failed => exact absurd (unfailed result rfl) failed
  | drift toLidar toHost requests answers =>
    exact ⟨world, .outside ⟨s, world⟩ _ (.drift s toLidar toHost requests answers) rfl⟩
  | receive bytes arrived => exact ⟨world, .outside ⟨s, world⟩ _ (.receive s bytes arrived) rfl⟩
  | apply bytes g items item held parsed asks decoded member =>
    exact ⟨world, .outside ⟨s, world⟩ _
      (.apply s bytes g items item held parsed asks decoded member) rfl⟩
  | answer bytes g d held parsed copies honest =>
    exact ⟨world, .outside ⟨s, world⟩ _ (.answer s bytes g d held parsed copies honest) rfl⟩

/-- A run of the system in which nothing has failed can be recorded. -/
theorem moves_of_steps {r : Recorded} {t : State}
    (run : ReflTransGen (Step profile addr plan) r.system t) (unfailed : Unfailed t) :
    ∃ world, ReflTransGen (Move profile addr plan) r ⟨t, world⟩ := by
  -- from the end: a chain that has failed stays so, hence nothing failed earlier
  induction run with
  | refl => exact ⟨r.world, .refl⟩
  | tail _ last ih =>
    have before := ih fun result ended => unfailed result (returned_step ended last)
    obtain ⟨world, moves⟩ := before
    obtain ⟨world', move⟩ := move_of_step last unfailed world
    exact ⟨world', moves.tail move⟩

end Forgotten

def outcome : Phase → Option (Result Unit)
  | .returned result => some result
  | .issuing _ => none
  | .waiting _ _ => none

section Replay

variable {profile : Profile} {addr : SocketAddr} {plan : List Items}

/-- The `k`-th call, as the record has it. -/
def replayed (profile : Profile) (addr : SocketAddr) (world : World) (k : Nat) (items : Items) :
    Option (Result Unit) :=
  setParameter profile addr (seqNumber k) items (world.sent k) (world.heard k)

def Passed (profile : Profile) (addr : SocketAddr) (plan : List Items) (world : World)
    (k : Nat) : Prop :=
  ∀ j < k, ∃ items, plan[j]? = some items ∧
    replayed profile addr world j items = some (.ok ())

def Untouched (world : World) (k : Nat) : Prop :=
  ∀ j, k ≤ j → world.sent j = .ok () ∧ world.heard j = []

/-- What the record says at each point of the chain. -/
def Position (profile : Profile) (addr : SocketAddr) (plan : List Items) (r : Recorded) : Prop :=
  match r.system.phase with
  | .issuing k => Passed profile addr plan r.world k ∧ Untouched r.world k ∧ k < plan.length
  | .waiting k req => Passed profile addr plan r.world k ∧ Untouched r.world (k + 1) ∧
      r.world.sent k = .ok () ∧ awaitAck profile addr req (r.world.heard k) = none
  | .returned result => ∃ k items, Passed profile addr plan r.world k ∧
      plan[k]? = some items ∧ replayed profile addr r.world k items = some result ∧
      (result = .ok () → k + 1 = plan.length)

theorem replayed_congr {world world' : World} {k : Nat} (items : Items)
    (sent : world'.sent k = world.sent k) (heard : world'.heard k = world.heard k) :
    replayed profile addr world' k items = replayed profile addr world k items := by
  rw [replayed, replayed, sent, heard]

theorem Passed.congr {world world' : World} {k : Nat} (passed : Passed profile addr plan world k)
    (sent : ∀ j < k, world'.sent j = world.sent j)
    (heard : ∀ j < k, world'.heard j = world.heard j) : Passed profile addr plan world' k := by
  intro j early
  obtain ⟨items, call, ended⟩ := passed j early
  exact ⟨items, call, (replayed_congr items (sent j early) (heard j early)).trans ended⟩

theorem Passed.succ {world : World} {k : Nat} {items : Items}
    (passed : Passed profile addr plan world k) (call : plan[k]? = some items)
    (ended : replayed profile addr world k items = some (.ok ())) :
    Passed profile addr plan world (k + 1) := by
  intro j early
  rcases Nat.lt_succ_iff_lt_or_eq.mp early with before | rfl
  · exact passed j before
  · exact ⟨items, call, ended⟩

theorem configure_passed {world : World} {k : Nat} (passed : Passed profile addr plan world k) :
    (configure profile addr world 0 plan).result =
      (configure profile addr world k (plan.drop k)).result := by
  -- the calls that passed are skipped one by one
  induction k with
  | zero => rw [List.drop_zero]
  | succ k ih =>
    obtain ⟨items, call, ended⟩ := passed k (Nat.lt_succ_self k)
    obtain ⟨within, here⟩ := List.getElem?_eq_some_iff.mp call
    rw [ih fun j early => passed j (Nat.lt_succ_of_lt early), List.drop_eq_getElem_cons within,
      here, configure]
    rw [replayed] at ended
    rw [ended]

theorem replayed_waiting {world : World} {k : Nat} {items : Items} {bytes : Bytes}
    (encoded : encodeRequest profile 2048 (setParameterReq (seqNumber k) items) = .ok bytes)
    (sent : world.sent k = .ok ()) :
    replayed profile addr world k items =
      (awaitAck profile addr (setParameterReq (seqNumber k) items) (world.heard k)).map
        fun ack => ack >>= setParameterResult := by
  rw [setParameterReq] at encoded
  rw [replayed, setParameter, sendCommand, encoded, sent]
  rfl

theorem replayed_refused {world : World} {k : Nat} {items : Items} {bytes : Bytes}
    (encoded : encodeRequest profile 2048 (setParameterReq (seqNumber k) items) = .ok bytes)
    (failed : world.sent k ≠ .ok ()) :
    replayed profile addr world k items = some (world.sent k) := by
  rw [setParameterReq] at encoded
  rw [replayed, setParameter, sendCommand, encoded]
  cases sent : world.sent k with
  | ok u => exact absurd sent failed
  | err e => rfl
  | panic c => rfl

theorem awaitAck_append {req : CommandFrame} {before : List Recv}
    (waiting : awaitAck profile addr req before = none) (e : Recv) :
    awaitAck profile addr req (before ++ [e]) = awaitAck profile addr req [e] := by
  -- on what was heard before, all of which was passed over
  induction before with
  | nil => rfl
  | cons first before ih =>
    cases first with
    | elapsed => cases waiting
    | failed error => cases waiting
    | datagram d =>
      rw [awaitAck] at waiting
      rw [List.cons_append, awaitAck]
      cases step : commandStep profile addr req d with
      | err e =>
        rw [step] at waiting
        cases waiting
      | panic c =>
        rw [step] at waiting
        cases waiting
      | ok answer =>
        rw [step] at waiting
        cases answer with
        | none => exact ih waiting
        | some frame => cases waiting

theorem Passed.sends {world : World} {k : Nat} (passed : Passed profile addr plan world k)
    (result : Result Unit) : Passed profile addr plan (World.sends world k result) k :=
  passed.congr (fun _ early => Function.update_of_ne (Nat.ne_of_lt early) _ _) fun _ _ => rfl

theorem Passed.hears {world : World} {k : Nat} (passed : Passed profile addr plan world k)
    (e : Recv) : Passed profile addr plan (World.hears world k e) k :=
  passed.congr (fun _ _ => rfl) fun _ early => Function.update_of_ne (Nat.ne_of_lt early) _ _

theorem Untouched.sends {world : World} {k : Nat} (untouched : Untouched world k)
    (result : Result Unit) : Untouched (World.sends world k result) (k + 1) := by
  intro j late
  obtain ⟨sent, heard⟩ := untouched j (Nat.le_of_succ_le late)
  exact ⟨(Function.update_of_ne (Nat.ne_of_gt late) _ _).trans sent, heard⟩

theorem Untouched.hears {world : World} {k : Nat} (untouched : Untouched world (k + 1))
    (e : Recv) : Untouched (World.hears world k e) (k + 1) := by
  intro j late
  obtain ⟨sent, heard⟩ := untouched j late
  exact ⟨sent, (Function.update_of_ne (Nat.ne_of_gt late) _ _).trans heard⟩

theorem position_start (profile : Profile) (addr : SocketAddr) (values : UInt16 → Option Bytes)
    (nonempty : plan ≠ []) : Position profile addr plan (.start values) :=
  ⟨fun j early => absurd early (Nat.not_lt_zero j), fun _ _ => ⟨rfl, rfl⟩,
    List.length_pos_of_ne_nil nonempty⟩

theorem position_answered {system : State} {world : World} {k : Nat} {items : Items}
    {frame : CommandFrame} (passed : Passed profile addr plan world k)
    (untouched : Untouched world (k + 1)) (call : plan[k]? = some items)
    (replay : replayed profile addr world k items = some (setParameterResult frame)) :
    Position profile addr plan ⟨{ system with phase := afterAck plan k frame }, world⟩ := by
  obtain ⟨within, -⟩ := List.getElem?_eq_some_iff.mp call
  rw [Position, afterAck]
  cases ended : setParameterResult frame with
  | err error =>
    rw [ended] at replay
    exact ⟨k, items, passed, call, replay, by rintro ⟨⟩⟩
  | panic c =>
    rw [ended] at replay
    exact ⟨k, items, passed, call, replay, by rintro ⟨⟩⟩
  | ok u =>
    rw [ended] at replay
    dsimp only
    -- the last call ends the chain, any other is followed by the next one
    by_cases more : k + 1 < plan.length
    · rw [if_pos more]
      exact ⟨passed.succ call replay, untouched, more⟩
    · rw [if_neg more]
      exact ⟨k, items, passed, call, replay, fun _ => by omega⟩

theorem position_hear {r : Recorded} (inv : Inv profile plan r.system)
    (fits : ∀ items ∈ plan, ∀ seqNum, ∃ bytes,
      encodeRequest profile 2048 (setParameterReq seqNum items) = .ok bytes)
    (position : Position profile addr plan r) {k : Nat} {req : CommandFrame}
    (turn : r.system.phase = .waiting k req) (e : Recv) :
    Position profile addr plan ⟨{ r.system with
      phase := afterEvent profile addr plan k req e }, World.hears r.world k e⟩ := by
  have here := inv.phase
  rw [PhaseInv, turn] at here
  obtain ⟨-, -, items, call, rfl⟩ := here
  rw [Position, turn] at position
  obtain ⟨passed, untouched, sent, waiting⟩ := position
  obtain ⟨bytes, encoded⟩ := fits items (List.mem_of_getElem? call) (seqNumber k)
  have heard : (World.hears r.world k e).heard k = r.world.heard k ++ [e] :=
    Function.update_self _ _ _
  have next := awaitAck_append waiting e
  have replay : replayed profile addr (World.hears r.world k e) k items = _ :=
    replayed_waiting encoded sent
  rw [heard, next] at replay
  rw [afterEvent]
  cases answer : awaitAck profile addr (setParameterReq (seqNumber k) items) [e] with
  | none => exact ⟨passed.hears e, untouched.hears e, sent, by rw [heard, next, answer]⟩
  | some result =>
    rw [answer] at replay
    cases result with
    | ok frame => exact position_answered (passed.hears e) (untouched.hears e) call replay
    | err error => exact ⟨k, items, passed.hears e, call, replay, by rintro ⟨⟩⟩
    | panic c => exact ⟨k, items, passed.hears e, call, replay, by rintro ⟨⟩⟩

theorem position_move {r r' : Recorded} (inv : Inv profile plan r.system)
    (fits : ∀ items ∈ plan, ∀ seqNum, ∃ bytes,
      encodeRequest profile 2048 (setParameterReq seqNum items) = .ok bytes)
    (position : Position profile addr plan r) (move : Move profile addr plan r r') :
    Position profile addr plan r' := by
  cases move with
  | outside t step client =>
    rw [Position] at position ⊢
    rw [client]
    exact position
  | issue k items bytes turn call encoded =>
    rw [Position, turn] at position
    obtain ⟨passed, untouched, -⟩ := position
    -- nothing is recorded yet for the call that is issued
    obtain ⟨-, nothing⟩ := untouched k le_rfl
    refine ⟨passed.sends _, untouched.sends _, Function.update_self _ _ _, ?_⟩
    rw [World.sends, nothing]
    rfl
  | refused k items bytes result turn call encoded failed =>
    have here := inv.phase
    rw [PhaseInv, turn] at here
    rw [here.1] at encoded
    rw [Position, turn] at position
    have sent : (World.sends r.world k result).sent k = result := Function.update_self _ _ _
    refine ⟨k, items, position.1.sends _, call, ?_, fun ok => absurd ok failed⟩
    rw [replayed_refused encoded (by rwa [sent]), sent]
  | hear k req e turn possible => exact position_hear inv fits position turn e

theorem configure_decided {world : World} {k : Nat} {items : Items}
    (passed : Passed profile addr plan world k) (call : plan[k]? = some items) :
    (configure profile addr world 0 plan).result =
      (configure profile addr world k (items :: plan.drop (k + 1))).result := by
  obtain ⟨within, here⟩ := List.getElem?_eq_some_iff.mp call
  rw [configure_passed passed, List.drop_eq_getElem_cons within, here]

theorem configure_waits {world : World} {k : Nat} {items : Items} {bytes : Bytes}
    (passed : Passed profile addr plan world k) (call : plan[k]? = some items)
    (encoded : encodeRequest profile 2048 (setParameterReq (seqNumber k) items) = .ok bytes)
    (sent : world.sent k = .ok ())
    (waiting : awaitAck profile addr (setParameterReq (seqNumber k) items)
      (world.heard k) = none) :
    (configure profile addr world 0 plan).result = none := by
  have replay : replayed profile addr world k items = _ := replayed_waiting encoded sent
  rw [waiting, Option.map_none] at replay
  rw [configure_decided passed call, configure_waiting replay]

/-- At any point of a run, the replay of the record returns what the chain has returned. -/
theorem configure_result {r : Recorded} (inv : Inv profile plan r.system)
    (fits : ∀ items ∈ plan, ∀ seqNum, ∃ bytes,
      encodeRequest profile 2048 (setParameterReq seqNum items) = .ok bytes)
    (position : Position profile addr plan r) :
    (configure profile addr r.world 0 plan).result = outcome r.system.phase := by
  have here := inv.phase
  rw [Position] at position
  rw [PhaseInv] at here
  -- the record decides the calls before the current one; the phase is that of the current one
  cases turn : r.system.phase with
  | issuing k =>
    rw [turn] at position
    obtain ⟨passed, untouched, within⟩ := position
    obtain ⟨sent, heard⟩ := untouched k le_rfl
    obtain ⟨bytes, encoded⟩ := fits _ (List.getElem_mem within) (seqNumber k)
    exact configure_waits passed (List.getElem?_eq_getElem within) encoded sent
      (by rw [heard]; rfl)
  | waiting k req =>
    rw [turn] at position here
    obtain ⟨passed, -, sent, waiting⟩ := position
    obtain ⟨-, -, items, call, rfl⟩ := here
    obtain ⟨bytes, encoded⟩ := fits items (List.mem_of_getElem? call) (seqNumber k)
    exact configure_waits passed call encoded sent waiting
  | returned result =>
    rw [turn] at position
    obtain ⟨k, items, passed, call, ended, last⟩ := position
    rw [replayed] at ended
    rw [configure_decided passed call, configure, ended]
    cases result with
    | err e => rfl
    | panic c => rfl
    | ok u =>
      rw [last rfl, List.drop_length]
      rfl

theorem position_run {values : UInt16 → Option Bytes} {r : Recorded} (nonempty : plan ≠ [])
    (short : plan.length < 2 ^ 32)
    (fits : ∀ items ∈ plan, ∀ seqNum, ∃ bytes,
      encodeRequest profile 2048 (setParameterReq seqNum items) = .ok bytes)
    (run : ReflTransGen (Move profile addr plan) (.start values) r) :
    Inv profile plan r.system ∧ Position profile addr plan r := by
  refine invariant (fun r => Inv profile plan r.system ∧ Position profile addr plan r) ?_ run
    ⟨inv_init profile plan values, position_start profile addr values nonempty⟩
  intro r r' ⟨inv, position⟩ move
  refine ⟨?_, position_move inv fits position move⟩
  exact invariant (Inv profile plan) (fun _ _ before step => inv_step short before step)
    (move_steps move) inv

end Replay

theorem encodes_of_fits {plan : List Items}
    (fits : ∀ items ∈ plan, cmdHeaderSize + (buildParamConfig items).length ≤ 2048)
    (profile : Profile) : ∀ items ∈ plan, ∀ seqNum, ∃ bytes,
      encodeRequest profile 2048 (setParameterReq seqNum items) = .ok bytes := by
  intro items member seqNum
  have length : (setParameterReq seqNum items).length.toNat =
      cmdHeaderSize + (buildParamConfig items).length :=
    UInt16.toNat_ofNat_of_lt' (Nat.lt_of_le_of_lt (fits items member) (by decide))
  exact ⟨_, encodeRequest_eq profile length (by rw [length]; exact fits items member)⟩

section Opening

variable {profile : Profile} {config : LiveConfig} {values : UInt16 → Option Bytes} {r : Recorded}

abbrev Opens (profile : Profile) (config : LiveConfig) : Recorded → Recorded → Prop :=
  Move profile (Ipv4Addr.withPort config.lidarIp config.lidarCmdPort)
    (startStreaming config.dataDst config.imuDst config.dataType)

theorem bound_of_run (run : ReflTransGen (Opens profile config) (.start values) r) :
    r.world.command = .ok () ∧ r.world.stream = .ok () := by
  refine invariant (fun r => r.world.command = .ok () ∧ r.world.stream = .ok ()) ?_ run
    ⟨rfl, rfl⟩
  intro r r' bound move
  cases move with
  | outside t step client => exact bound
  | issue k items bytes turn call encoded => exact bound
  | refused k items bytes result turn call encoded failed => exact bound
  | hear k req e turn possible => exact bound

theorem connectWith_outcome (host : config.hostIp ≠ .unspecified)
    (run : ReflTransGen (Opens profile config) (.start values) r) :
    (connectWith profile r.world config).result = outcome r.system.phase := by
  obtain ⟨command, stream⟩ := bound_of_run run
  have fits := encodes_of_fits (@fits_startStreaming config.dataDst config.imuDst config.dataType)
    profile
  have short : (startStreaming config.dataDst config.imuDst config.dataType).length < 2 ^ 32 :=
    show 4 < 2 ^ 32 by decide
  obtain ⟨inv, position⟩ := position_run (List.cons_ne_nil _ _) short fits run
  rw [connectWith_bound host command stream]
  exact configure_result inv fits position

/-- In every run of client, network and device in which the client is its functions, the session
answers what these functions answer to what it met; and once that is `Ok`, the device has
applied all that was asked and keeps these values from then on. -/
theorem connectWith_configures {dataIp imuIp : Ipv4Addr} (host : config.hostIp ≠ .unspecified)
    (dataV4 : config.dataDst.ip = .v4 dataIp) (imuV4 : config.imuDst.ip = .v4 imuIp)
    (run : ReflTransGen (Opens profile config) (.start values) r) :
    (connectWith profile r.world config).result = outcome r.system.phase ∧
    ((connectWith profile r.world config).result = some (.ok ()) →
      ∀ r', ReflTransGen (Opens profile config) r r' →
      ∀ item ∈ streamSettings dataIp imuIp config.dataDst.port config.imuDst.port
          config.dataType ++ [samplingSetting],
        item ∈ r'.system.applied ∧ r'.system.values item.1 = some item.2) := by
  have answer := connectWith_outcome host run
  refine ⟨answer, ?_⟩
  rw [answer]
  intro opened r' later item member
  have ended : r.system.phase = .returned (.ok ()) := by
    cases phase : r.system.phase with
    | issuing k =>
      rw [phase] at opened
      cases opened
    | waiting k req =>
      rw [phase] at opened
      cases opened
    | returned result =>
      rw [phase, outcome] at opened
      rw [Option.some.inj opened]
  exact settings_of_returned dataV4 imuV4 ((steps_of_moves run).trans (steps_of_moves later))
    (returned_run ended (steps_of_moves later)) item member

end Opening

def defaults : LiveConfig := .new ⟨192, 168, 1, 5⟩ ⟨192, 168, 1, 100⟩

theorem connectWith_configures_defaults : ∃ r : Recorded,
    ReflTransGen (Opens .dev defaults) (.start fun _ => none) r ∧
      (connectWith .dev r.world defaults).result = some (.ok ()) ∧
      ∀ item ∈ streamSettings ⟨192, 168, 1, 5⟩ ⟨192, 168, 1, 5⟩ hostDataPort hostImuPort
          .pointCloudCartesian32 ++ [samplingSetting],
        item ∈ r.system.applied ∧ r.system.values item.1 = some item.2 := by
  obtain ⟨s, steps, ended⟩ := startStreaming_completes .dev
    (Ipv4Addr.withPort defaults.lidarIp defaults.lidarCmdPort) defaults.dataDst defaults.imuDst
    defaults.dataType fun _ => none
  have unfailed : Unfailed s := by
    intro result returned
    cases ended.symm.trans returned
    rfl
  obtain ⟨world, run⟩ : ∃ world, ReflTransGen (Opens .dev defaults)
      (.start fun _ => none) ⟨s, world⟩ := moves_of_steps steps unfailed
  obtain ⟨answer, configured⟩ := connectWith_configures (by decide) rfl rfl run
  rw [ended, outcome] at answer
  exact ⟨_, run, answer, configured answer _ .refl⟩

end LivoxMid360.Session.RecordedSessions
