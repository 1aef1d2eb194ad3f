/- digest: A chain of configuration commands over an unreliable network, and start_streaming. -/

import LivoxMid360.Control.Client
import LivoxMid360.Foundation.Transition
import Mathlib.Logic.Function.Basic

set_option autoImplicit false
set_option relaxedAutoImplicit false

namespace LivoxMid360.Control.StartStreaming

open Relation (ReflTransGen)
open Foundation.RustOutcome
open Foundation.LittleEndian
open Foundation.Transition
open Protocol.Vocabulary Protocol.Command Protocol.Parameters
open Client

def wire (items : Items) : KeyValueList := items.map fun item => (item.1.asU16, item.2)

/-- Where the client stands in its chain of `set_parameter` calls. -/
inductive Phase
  | issuing (k : Nat)
  | waiting (k : Nat) (req : CommandFrame)
  | returned (result : Result Unit)

/-- The client, the datagrams in flight, and the device: the requests that it received, the
items that it applied so far, and its current values. -/
structure State where
  seq : UInt32
  phase : Phase
  sent : List Bytes
  toLidar : List Bytes
  toHost : List Datagram
  received : List Bytes
  applied : KeyValueList
  values : UInt16 → Option Bytes

def State.init (values : UInt16 → Option Bytes) : State :=
  ⟨1, .issuing 0, [], [], [], [], [], values⟩

def Succeeds (frame : CommandFrame) : Prop :=
  ∃ key, parseParamConfigAck frame.data = .ok (.success, key)

def afterAck (plan : List Items) (k : Nat) (ack : CommandFrame) : Phase :=
  match setParameterResult ack with
  | .ok () => if k + 1 < plan.length then .issuing (k + 1) else .returned (.ok ())
  | .err e => .returned (.err e)
  | .panic c => .returned (.panic c)

/-- One step of the client, of the network or of the device. -/
inductive Step (profile : Profile) (addr : SocketAddr) (plan : List Items) : State → State → Prop
  | issue (s : State) (k : Nat) (items : Items) (bytes : Bytes)
      (turn : s.phase = .issuing k) (call : plan[k]? = some items)
      (encoded : encodeRequest profile 2048 (setParameterReq s.seq items) = .ok bytes) :
      Step profile addr plan s { s with
        seq := s.seq + 1
        phase := .waiting k (setParameterReq s.seq items)
        sent := bytes :: s.sent
        toLidar := bytes :: s.toLidar }
  -- The request did not fit the buffer, or the socket refused it.
  | issueFails (s : State) (k : Nat) (result : Result Unit) (turn : s.phase = .issuing k)
      (failed : result ≠ .ok ()) :
      Step profile addr plan s { s with seq := s.seq + 1, phase := .returned result }
  | acknowledge (s : State) (k : Nat) (req : CommandFrame) (d : Datagram) (frame : CommandFrame)
      (turn : s.phase = .waiting k req) (arrived : d ∈ s.toHost)
      (accepted : commandStep profile addr req d = .ok (some frame)) :
      Step profile addr plan s { s with phase := afterAck plan k frame }
  -- The wait ends by its deadline, by a socket error or by a panic.
  | waitFails (s : State) (k : Nat) (req : CommandFrame) (result : Result Unit)
      (turn : s.phase = .waiting k req) (failed : result ≠ .ok ()) :
      Step profile addr plan s { s with phase := .returned result }
  -- The network loses, repeats and reorders datagrams; a datagram that the client passes
  -- over is lost as well.
  | drift (s : State) (toLidar : List Bytes) (toHost : List Datagram)
      (requests : Drift s.toLidar toLidar) (answers : Drift s.toHost toHost) :
      Step profile addr plan s { s with toLidar := toLidar, toHost := toHost }
  | receive (s : State) (bytes : Bytes) (arrived : bytes ∈ s.toLidar) :
      Step profile addr plan s { s with received := bytes :: s.received }
  -- The device applies an item of a configuration request that it received.
  | apply (s : State) (bytes : Bytes) (g : CommandFrame) (items : KeyValueList)
      (item : UInt16 × Bytes) (held : bytes ∈ s.received)
      (parsed : CommandFrame.parse profile bytes = .ok g)
      (config : g.cmdId = CmdId.paramConfig.asU16)
      (decoded : decodeKeyValueList g.data = .ok items) (member : item ∈ items) :
      Step profile addr plan s { s with
        applied := item :: s.applied
        values := Function.update s.values item.1 (some item.2) }
  -- The device answers a request that it received: it copies the sequence number and the
  -- command, and reports Success only when it has applied every item.
  | answer (s : State) (bytes : Bytes) (g : CommandFrame) (d : Datagram)
      (held : bytes ∈ s.received) (parsed : CommandFrame.parse profile bytes = .ok g)
      (copies : ∀ f, CommandFrame.parse profile d.bytes = .ok f →
        f.seqNum = g.seqNum ∧ f.cmdId = g.cmdId)
      (honest : ∀ f items, CommandFrame.parse profile d.bytes = .ok f → Succeeds f →
        g.cmdId = CmdId.paramConfig.asU16 → decodeKeyValueList g.data = .ok items →
        items ⊆ s.applied) :
      Step profile addr plan s { s with toHost := d :: s.toHost }

/-- A call of the chain that saw nothing but datagrams in flight and got its acknowledgement
is a step of the system. -/
theorem acknowledge_of_awaitAck {profile : Profile} {addr : SocketAddr} {plan : List Items}
    {s : State} {k : Nat} {req frame : CommandFrame} {events : List Recv}
    (turn : s.phase = .waiting k req) (arrivals : ∀ d, .datagram d ∈ events → d ∈ s.toHost)
    (h : awaitAck profile addr req events = some (.ok frame)) :
    Step profile addr plan s { s with phase := afterAck plan k frame } := by
  obtain ⟨d, member, accepted⟩ := awaitAck_ok h
  exact .acknowledge s k req d frame turn (arrivals d member) accepted

/-- The datagram is the request of the `k`-th call. -/
structure Carries (profile : Profile) (plan : List Items) (bytes : Bytes) (k : Nat)
    (items : Items) : Prop where
  call : plan[k]? = some items
  parsed : CommandFrame.parse profile bytes = .ok (setParameterReq (seqNumber k) items)
  decoded : decodeKeyValueList (buildParamConfig items) = .ok (wire items)

def Done (plan : List Items) (s : State) (k : Nat) : Prop :=
  ∀ j items, j < k → plan[j]? = some items → wire items ⊆ s.applied

theorem Done.settings {plan : List Items} {s : State} {k : Nat} (done : Done plan s k) :
    (plan.take k).flatMap wire ⊆ s.applied := by
  intro item member
  obtain ⟨items, early, asked⟩ := List.mem_flatMap.mp member
  obtain ⟨j, within, here⟩ := List.mem_take_iff_getElem.mp early
  exact done j items (by omega) (by rw [List.getElem?_eq_getElem (by omega), here]) asked

/-- What the program point says about the device. -/
def PhaseInv (plan : List Items) (s : State) : Prop :=
  match s.phase with
  | .issuing k => s.seq = seqNumber k ∧ Done plan s k
  | .waiting k req => s.seq = seqNumber (k + 1) ∧ Done plan s k ∧
      ∃ items, plan[k]? = some items ∧ req = setParameterReq (seqNumber k) items
  | .returned result => result = .ok () → Done plan s plan.length

/-- A datagram to the host answers one call, and reports Success only after its items. -/
def Answers (profile : Profile) (plan : List Items) (s : State) (d : Datagram) : Prop :=
  ∃ k items, plan[k]? = some items ∧ ∀ f, CommandFrame.parse profile d.bytes = .ok f →
    f.seqNum = seqNumber k ∧ (Succeeds f → wire items ⊆ s.applied)

structure Inv (profile : Profile) (plan : List Items) (s : State) : Prop where
  phase : PhaseInv plan s
  sent : ∀ bytes ∈ s.sent, ∃ k items, Carries profile plan bytes k items ∧ Done plan s k
  toLidar : ∀ bytes ∈ s.toLidar, ∃ k items, Carries profile plan bytes k items
  received : ∀ bytes ∈ s.received, ∃ k items, Carries profile plan bytes k items
  toHost : ∀ d ∈ s.toHost, Answers profile plan s d
  applied : ∀ item ∈ s.applied, ∃ items ∈ plan, item ∈ wire items
  values : ∀ item ∈ s.applied, ∃ value, s.values item.1 = some value ∧ (item.1, value) ∈ s.applied

theorem inv_init (profile : Profile) (plan : List Items) (values : UInt16 → Option Bytes) :
    Inv profile plan (.init values) where
  phase := ⟨rfl, fun j _ hj => absurd hj (Nat.not_lt_zero j)⟩
  sent _ h := absurd h List.not_mem_nil
  toLidar _ h := absurd h List.not_mem_nil
  received _ h := absurd h List.not_mem_nil
  toHost _ h := absurd h List.not_mem_nil
  applied _ h := absurd h List.not_mem_nil
  values _ h := absurd h List.not_mem_nil

theorem Done.mono {plan : List Items} {s t : State} {k : Nat} (done : Done plan s k)
    (grown : s.applied ⊆ t.applied) : Done plan t k :=
  fun j items hj call => List.Subset.trans (done j items hj call) grown

theorem Done.succ {plan : List Items} {s : State} {k : Nat} {items : Items}
    (done : Done plan s k) (call : plan[k]? = some items) (now : wire items ⊆ s.applied) :
    Done plan s (k + 1) := by
  intro j items' hj call'
  rcases Nat.lt_succ_iff_lt_or_eq.mp hj with earlier | rfl
  · exact done j items' earlier call'
  · cases call.symm.trans call'
    exact now

theorem setParameterResult_ok {frame : CommandFrame} (h : setParameterResult frame = .ok ()) :
    Succeeds frame := by
  rw [setParameterResult] at h
  obtain ⟨⟨ret, key⟩, parsed, h⟩ := Outcome.bind_eq_ok.mp h
  dsimp only at h
  by_cases refused : ret ≠ .success
  · rw [if_pos refused] at h
    cases h
  · exact ⟨key, by rw [parsed, not_not.mp refused]⟩

section Preservation

variable {profile : Profile} {addr : SocketAddr} {plan : List Items} {s : State}

theorem inv_issue (inv : Inv profile plan s) {k : Nat} {items : Items} {bytes : Bytes}
    (turn : s.phase = .issuing k) (call : plan[k]? = some items)
    (encoded : encodeRequest profile 2048 (setParameterReq s.seq items) = .ok bytes) :
    Inv profile plan { s with
      seq := s.seq + 1
      phase := .waiting k (setParameterReq s.seq items)
      sent := bytes :: s.sent
      toLidar := bytes :: s.toLidar } := by
  have here := inv.phase
  rw [PhaseInv, turn] at here
  obtain ⟨number, done⟩ := here
  obtain ⟨matched, parsed⟩ := parse_encodeRequest encoded
  -- the request left the buffer whole, because the write compared its length with the data
  have carries : Carries profile plan bytes k items := by
    refine ⟨call, ?_, Protocol.CommandGrammar.decode_buildParamConfig matched⟩
    rw [← number]
    exact parsed
  refine ⟨⟨?_, done, items, call, ?_⟩, ?_, ?_, inv.received, inv.toHost, inv.applied,
    inv.values⟩
  · show s.seq + 1 = seqNumber (k + 1)
    rw [number, seqNumber_succ]
  · rw [number]
  · intro b hb
    rcases List.mem_cons.mp hb with rfl | old
    · exact ⟨k, items, carries, done⟩
    · exact inv.sent b old
  · intro b hb
    rcases List.mem_cons.mp hb with rfl | old
    · exact ⟨k, items, carries⟩
    · exact inv.toLidar b old

theorem inv_fail (inv : Inv profile plan s) {seq : UInt32} {result : Result Unit}
    (failed : result ≠ .ok ()) :
    Inv profile plan { s with seq := seq, phase := .returned result } where
  phase := fun ok => absurd ok failed
  sent := inv.sent
  toLidar := inv.toLidar
  received := inv.received
  toHost := inv.toHost
  applied := inv.applied
  values := inv.values

theorem Inv.acknowledged (inv : Inv profile plan s) (short : plan.length < 2 ^ 32) {k : Nat}
    {req frame : CommandFrame} {d : Datagram} (turn : s.phase = .waiting k req)
    (arrived : d ∈ s.toHost) (accepted : commandStep profile addr req d = .ok (some frame))
    (success : Succeeds frame) : s.seq = seqNumber (k + 1) ∧ Done plan s (k + 1) := by
  have here := inv.phase
  rw [PhaseInv, turn] at here
  obtain ⟨number, done, items, call, rfl⟩ := here
  obtain ⟨-, parsed, acknowledges⟩ := commandStep_some accepted
  obtain ⟨-, -, sameSeq, -⟩ := isAckFor_iff.mp acknowledges
  obtain ⟨k', items', call', answer⟩ := inv.toHost d arrived
  obtain ⟨answerSeq, applied⟩ := answer frame parsed
  -- the answer is to the `k'`-th call, the request is the `k`-th: the numbers tell the two apart
  have same : seqNumber k' = seqNumber k := answerSeq.symm.trans sameSeq
  obtain ⟨within, -⟩ := List.getElem?_eq_some_iff.mp call
  obtain ⟨within', -⟩ := List.getElem?_eq_some_iff.mp call'
  cases seqNumber_injective (by omega) (by omega) same
  cases call.symm.trans call'
  exact ⟨number, done.succ call (applied success)⟩

theorem inv_acknowledge (inv : Inv profile plan s) (short : plan.length < 2 ^ 32) {k : Nat}
    {req frame : CommandFrame} {d : Datagram} (turn : s.phase = .waiting k req)
    (arrived : d ∈ s.toHost) (accepted : commandStep profile addr req d = .ok (some frame)) :
    Inv profile plan { s with phase := afterAck plan k frame } := by
  refine ⟨?_, inv.sent, inv.toLidar, inv.received, inv.toHost, inv.applied, inv.values⟩
  rw [PhaseInv, afterAck]
  cases hresult : setParameterResult frame with
  | ok u =>
    obtain ⟨number, done⟩ :=
      inv.acknowledged short turn arrived accepted (setParameterResult_ok hresult)
    by_cases more : k + 1 < plan.length
    · dsimp only
      rw [if_pos more]
      exact ⟨number, done⟩
    · dsimp only
      rw [if_neg more]
      -- after the last call all of the plan is done
      intro _ j items hj call
      exact done j items (by omega) call
  | err e =>
    intro ok
    cases ok
  | panic c =>
    intro ok
    cases ok

theorem inv_apply (inv : Inv profile plan s) {bytes : Bytes} {g : CommandFrame}
    {items : KeyValueList} {item : UInt16 × Bytes} (held : bytes ∈ s.received)
    (parsed : CommandFrame.parse profile bytes = .ok g)
    (decoded : decodeKeyValueList g.data = .ok items) (member : item ∈ items) :
    Inv profile plan { s with
      applied := item :: s.applied
      values := Function.update s.values item.1 (some item.2) } := by
  obtain ⟨k, call, carries⟩ := inv.received bytes held
  -- whatever the device received is a request of the chain
  cases carries.parsed.symm.trans parsed
  cases carries.decoded.symm.trans decoded
  have grown : s.applied ⊆ item :: s.applied := List.subset_cons_self _ _
  refine ⟨?_, ?_, inv.toLidar, inv.received, ?_, ?_, ?_⟩
  · have here := inv.phase
    rw [PhaseInv] at here ⊢
    cases hphase : s.phase with
    | issuing j =>
      rw [hphase] at here
      exact ⟨here.1, here.2.mono grown⟩
    | waiting j req =>
      rw [hphase] at here
      exact ⟨here.1, here.2.1.mono grown, here.2.2⟩
    | returned result =>
      rw [hphase] at here
      exact fun ok => (here ok).mono grown
  · intro b hb
    obtain ⟨j, items, sent, done⟩ := inv.sent b hb
    exact ⟨j, items, sent, done.mono grown⟩
  · intro d hd
    obtain ⟨j, items, call, answer⟩ := inv.toHost d hd
    refine ⟨j, items, call, ?_⟩
    intro f hf
    obtain ⟨number, applied⟩ := answer f hf
    exact ⟨number, fun success => List.Subset.trans (applied success) grown⟩
  · intro other hother
    rcases List.mem_cons.mp hother with rfl | old
    · exact ⟨call, List.mem_of_getElem? carries.call, member⟩
    · exact inv.applied other old
  · intro other hother
    -- a later setting of the key replaces the value, and is itself one that was applied
    by_cases same : other.1 = item.1
    · refine ⟨item.2, ?_, ?_⟩
      · show Function.update s.values item.1 (some item.2) other.1 = some item.2
        rw [same, Function.update_self]
      · rw [same]
        exact List.mem_cons_self
    · rcases List.mem_cons.mp hother with rfl | old
      · exact absurd rfl same
      · obtain ⟨value, current, applied⟩ := inv.values other old
        refine ⟨value, ?_, List.mem_cons_of_mem _ applied⟩
        show Function.update s.values item.1 (some item.2) other.1 = some value
        rw [Function.update_of_ne same, current]

theorem inv_answer (inv : Inv profile plan s) {bytes : Bytes} {g : CommandFrame} {d : Datagram}
    (held : bytes ∈ s.received) (parsed : CommandFrame.parse profile bytes = .ok g)
    (copies : ∀ f, CommandFrame.parse profile d.bytes = .ok f →
      f.seqNum = g.seqNum ∧ f.cmdId = g.cmdId)
    (honest : ∀ f items, CommandFrame.parse profile d.bytes = .ok f → Succeeds f →
      g.cmdId = CmdId.paramConfig.asU16 → decodeKeyValueList g.data = .ok items →
      items ⊆ s.applied) :
    Inv profile plan { s with toHost := d :: s.toHost } := by
  refine ⟨inv.phase, inv.sent, inv.toLidar, inv.received, ?_, inv.applied, inv.values⟩
  intro d' hd'
  rcases List.mem_cons.mp hd' with rfl | old
  · obtain ⟨k, items, carries⟩ := inv.received bytes held
    -- the device answers a request of the chain, which the answer copies and reports on
    cases carries.parsed.symm.trans parsed
    refine ⟨k, items, carries.call, ?_⟩
    intro f hf
    exact ⟨(copies f hf).1, fun success => honest f _ hf success rfl carries.decoded⟩
  · exact inv.toHost d' old

theorem inv_step {t : State} (short : plan.length < 2 ^ 32) (inv : Inv profile plan s)
    (step : Step profile addr plan s t) : Inv profile plan t := by
  cases step with
  | issue k items bytes turn call encoded => exact inv_issue inv turn call encoded
  | issueFails k result turn failed => exact inv_fail inv failed
  | acknowledge k req d frame turn arrived accepted =>
    exact inv_acknowledge inv short turn arrived accepted
  | waitFails k req result turn failed => exact inv_fail inv failed
  | drift toLidar toHost requests answers =>
    exact ⟨inv.phase, inv.sent, requests.forall inv.toLidar, inv.received,
      answers.forall inv.toHost, inv.applied, inv.values⟩
  | receive bytes arrived =>
    refine ⟨inv.phase, inv.sent, inv.toLidar, ?_, inv.toHost, inv.applied, inv.values⟩
    intro b hb
    rcases List.mem_cons.mp hb with rfl | old
    · exact inv.toLidar b arrived
    · exact inv.received b old
  | apply bytes g items item held parsed config decoded member =>
    exact inv_apply inv held parsed decoded member
  | answer bytes g d held parsed copies honest => exact inv_answer inv held parsed copies honest

theorem returned_step {t : State} {result : Result Unit} (ended : s.phase = .returned result)
    (step : Step profile addr plan s t) : t.phase = .returned result := by
  cases step with
  | issue k items bytes turn call encoded => cases turn.symm.trans ended
  | issueFails k result turn failed => cases turn.symm.trans ended
  | acknowledge k req d frame turn arrived accepted => cases turn.symm.trans ended
  | waitFails k req result turn failed => cases turn.symm.trans ended
  | drift toLidar toHost requests answers => exact ended
  | receive bytes arrived => exact ended
  | apply bytes g items item held parsed config decoded member => exact ended
  | answer bytes g d held parsed copies honest => exact ended

end Preservation

section Runs

variable {profile : Profile} {addr : SocketAddr} {plan : List Items}
  {values : UInt16 → Option Bytes} {s : State}

theorem inv_of_run (short : plan.length < 2 ^ 32)
    (run : ReflTransGen (Step profile addr plan) (.init values) s) : Inv profile plan s :=
  invariant (Inv profile plan) (fun _ _ before step => inv_step short before step) run
    (inv_init profile plan values)

/-- No two items of the chain set one key. -/
def DistinctKeys (plan : List Items) : Prop := ((plan.flatMap wire).map Prod.fst).Nodup

theorem values_of_returned_ok (short : plan.length < 2 ^ 32) (distinct : DistinctKeys plan)
    (run : ReflTransGen (Step profile addr plan) (.init values) s)
    (ended : s.phase = .returned (.ok ())) {items : Items} (member : items ∈ plan)
    {item : UInt16 × Bytes} (asked : item ∈ wire items) :
    item ∈ s.applied ∧ s.values item.1 = some item.2 := by
  have inv := inv_of_run short run
  have done := inv.phase
  rw [PhaseInv, ended] at done
  obtain ⟨k, within, here⟩ := List.getElem_of_mem member
  have call : plan[k]? = some items := by rw [List.getElem?_eq_getElem within, here]
  have applied : item ∈ s.applied := done rfl k items within call asked
  obtain ⟨value, current, latest⟩ := inv.values item applied
  obtain ⟨items', member', asked'⟩ := inv.applied _ latest
  -- the current value was applied for this key, which only one item of the plan sets
  have same : item = (item.1, value) := List.inj_on_of_nodup_map distinct
    (List.mem_flatMap.mpr ⟨items, member, asked⟩)
    (List.mem_flatMap.mpr ⟨items', member', asked'⟩) rfl
  refine ⟨applied, ?_⟩
  rw [current, same]

theorem returned_run {t : State} {result : Result Unit} (ended : s.phase = .returned result)
    (run : ReflTransGen (Step profile addr plan) s t) : t.phase = .returned result :=
  invariant (fun t => t.phase = .returned result)
    (fun _ _ before step => returned_step before step) run ended

end Runs

section Completion

variable (profile : Profile) (addr : SocketAddr) {plan : List Items}

variable {profile addr} in
theorem applies {r s : State} (run : ReflTransGen (Step profile addr plan) r s) {bytes : Bytes}
    {g : CommandFrame} {items part : KeyValueList} (held : bytes ∈ s.received)
    (parsed : CommandFrame.parse profile bytes = .ok g)
    (config : g.cmdId = CmdId.paramConfig.asU16)
    (decoded : decodeKeyValueList g.data = .ok items) (within : part ⊆ items) :
    ∃ applied values, part ⊆ applied ∧ ReflTransGen (Step profile addr plan) r
      { s with applied := applied, values := values } := by
  induction part with
  | nil => exact ⟨s.applied, s.values, List.nil_subset _, run⟩
  | cons item part ih =>
    obtain ⟨asked, others⟩ := List.cons_subset.mp within
    obtain ⟨applied, values, done, before⟩ := ih others
    refine ⟨item :: applied, Function.update values item.1 (some item.2),
      List.cons_subset_cons item done, before.tail ?_⟩
    exact Step.apply { s with applied := applied, values := values } bytes g items item held
      parsed config decoded asked

theorem exchange {s : State} {k : Nat} {items : Items} (turn : s.phase = .issuing k)
    (call : plan[k]? = some items) (fits : cmdHeaderSize + (buildParamConfig items).length ≤ 2048) :
    ∃ t, ReflTransGen (Step profile addr plan) s t ∧
      t.phase = if k + 1 < plan.length then .issuing (k + 1) else .returned (.ok ()) := by
  have length : (setParameterReq s.seq items).length.toNat =
      cmdHeaderSize + (buildParamConfig items).length :=
    UInt16.toNat_ofNat_of_lt' (Nat.lt_of_le_of_lt fits (by decide))
  have room : (setParameterReq s.seq items).length.toNat ≤ 2048 := by omega
  have encoded := encodeRequest_eq profile length room
  obtain ⟨-, parsed⟩ := parse_encodeRequest encoded
  have decoded := Protocol.CommandGrammar.decode_buildParamConfig length
  -- sent, received, applied, answered, acknowledged, with nothing lost on the way
  have issued : ReflTransGen (Step profile addr plan) s _ :=
    .single (Step.issue s k items _ turn call encoded)
  have received := issued.tail (Step.receive _ _ List.mem_cons_self)
  obtain ⟨applied, values, done, applying⟩ := applies received List.mem_cons_self parsed rfl
    decoded (List.Subset.refl (wire items))
  have answered := applying.tail (Step.answer _ _ _
    (ackDatagram addr (setParameterReq s.seq items) [0]) List.mem_cons_self parsed ?_ ?_)
  · refine ⟨_, answered.tail (Step.acknowledge _ k (setParameterReq s.seq items) _ _ rfl
      List.mem_cons_self (commandStep_ack profile addr _ (by decide))), ?_⟩
    rfl
  · intro f hf
    cases hf.symm.trans (parse_ackDatagram profile addr _ (by decide))
    exact ⟨rfl, rfl⟩
  · intro f items' _ _ _ hitems
    cases decoded.symm.trans hitems
    exact done

theorem completes (fits : ∀ items ∈ plan, cmdHeaderSize + (buildParamConfig items).length ≤ 2048)
    {s : State} {k : Nat} (turn : s.phase = .issuing k) (within : k < plan.length) :
    ∃ t, ReflTransGen (Step profile addr plan) s t ∧ t.phase = .returned (.ok ()) := by
  obtain ⟨left, total⟩ := Nat.exists_eq_add_of_lt within
  -- on the number of calls left
  induction left generalizing s k with
  | zero =>
    obtain ⟨t, run, ended⟩ := exchange profile addr turn
      (List.getElem?_eq_getElem within) (fits _ (List.getElem_mem within))
    rw [if_neg (by omega)] at ended
    exact ⟨t, run, ended⟩
  | succ left ih =>
    obtain ⟨mid, run, next⟩ := exchange profile addr turn
      (List.getElem?_eq_getElem within) (fits _ (List.getElem_mem within))
    rw [if_pos (by omega)] at next
    obtain ⟨t, rest, ended⟩ := ih next (by omega) (by omega)
    exact ⟨t, run.trans rest, ended⟩

end Completion

/-- What `start_streaming` configures before it asks for sampling. -/
def streamSettings (dataIp imuIp : Ipv4Addr) (dataPort imuPort : UInt16) (dataType : DataType) :
    KeyValueList :=
  [(ParameterKey.pointCloudHostIpCfg.asU16, hostIpCfgValue dataIp dataPort hostDataPort),
    (ParameterKey.imuHostIpCfg.asU16, hostIpCfgValue imuIp imuPort hostImuPort),
    (ParameterKey.pclDataType.asU16, [dataType.toByte]),
    (ParameterKey.imuDataEn.asU16, [1])]

def samplingSetting : UInt16 × Bytes :=
  (ParameterKey.workTgtMode.asU16, [LidarState.sampling.toByte])

def AsksSampling (profile : Profile) (bytes : Bytes) : Prop :=
  ∃ g items, CommandFrame.parse profile bytes = .ok g ∧ decodeKeyValueList g.data = .ok items ∧
    samplingSetting ∈ items

section Streaming

variable {profile : Profile} {addr dataDst imuDst : SocketAddr} {dataIp imuIp : Ipv4Addr}
  {dataType : DataType}

theorem settings_before (dataV4 : dataDst.ip = .v4 dataIp) (imuV4 : imuDst.ip = .v4 imuIp) :
    ((startStreaming dataDst imuDst dataType).take 3).flatMap wire =
      streamSettings dataIp imuIp dataDst.port imuDst.port dataType := by
  rw [startStreaming, setStreamDestinations, dataV4, imuV4]
  rfl

theorem wire_startStreaming (dataType : DataType) (dataV4 : dataDst.ip = .v4 dataIp)
    (imuV4 : imuDst.ip = .v4 imuIp) :
    (startStreaming dataDst imuDst dataType).flatMap wire =
      streamSettings dataIp imuIp dataDst.port imuDst.port dataType ++ [samplingSetting] := by
  rw [startStreaming, setStreamDestinations, dataV4, imuV4]
  rfl

theorem distinctKeys_startStreaming :
    DistinctKeys (startStreaming dataDst imuDst dataType) := by
  have keys : ((startStreaming dataDst imuDst dataType).flatMap wire).map Prod.fst =
      [0x0006, 0x0007, 0x0000, 0x001C, 0x001A] := rfl
  rw [DistinctKeys, keys]
  decide

theorem fits_startStreaming : ∀ items ∈ startStreaming dataDst imuDst dataType,
    cmdHeaderSize + (buildParamConfig items).length ≤ 2048 := by
  rw [startStreaming, List.forall_mem_cons, List.forall_mem_cons, List.forall_mem_cons,
    List.forall_mem_singleton]
  exact ⟨show 52 ≤ 2048 by decide, show 33 ≤ 2048 by decide, show 33 ≤ 2048 by decide,
    show 33 ≤ 2048 by decide⟩

/-- On a network that delivers, `start_streaming` can return `Ok`, whatever the device held. -/
theorem startStreaming_completes (profile : Profile) (addr dataDst imuDst : SocketAddr)
    (dataType : DataType) (values : UInt16 → Option Bytes) :
    ∃ s, ReflTransGen (Step profile addr (startStreaming dataDst imuDst dataType))
      (.init values) s ∧ s.phase = .returned (.ok ()) :=
  completes profile addr fits_startStreaming rfl (show 0 < 4 by decide)

theorem sampling_call {k : Nat} {items : Items}
    (call : (startStreaming dataDst imuDst dataType)[k]? = some items)
    (asks : samplingSetting ∈ wire items) : k = 3 := by
  have key : ParameterKey.workTgtMode.asU16 ∈ (wire items).map Prod.fst :=
    List.mem_map_of_mem asks
  rcases k with _ | _ | _ | _ | k
  · cases call
    exact absurd key (show (0x001A : UInt16) ∉ [0x0006, 0x0007] by decide)
  · cases call
    exact absurd key (show (0x001A : UInt16) ∉ [0x0000] by decide)
  · cases call
    exact absurd key (show (0x001A : UInt16) ∉ [0x001C] by decide)
  · rfl
  · cases call

theorem settings_of_returned (dataV4 : dataDst.ip = .v4 dataIp) (imuV4 : imuDst.ip = .v4 imuIp)
    {values : UInt16 → Option Bytes} {s : State}
    (run : ReflTransGen (Step profile addr (startStreaming dataDst imuDst dataType))
      (.init values) s) (ended : s.phase = .returned (.ok ())) :
    ∀ item ∈ streamSettings dataIp imuIp dataDst.port imuDst.port dataType ++ [samplingSetting],
      item ∈ s.applied ∧ s.values item.1 = some item.2 := by
  have short : (startStreaming dataDst imuDst dataType).length < 2 ^ 32 :=
    show 4 < 2 ^ 32 by decide
  intro item member
  rw [← wire_startStreaming dataType dataV4 imuV4] at member
  obtain ⟨items, call, wanted⟩ := List.mem_flatMap.mp member
  exact values_of_returned_ok short distinctKeys_startStreaming run ended call wanted

/-- In every run and every order of steps, whatever asks for sampling was put on the network
after the device had applied everything else; and once `start_streaming` has returned `Ok`,
the device has applied all that was asked and keeps these values from then on. -/
theorem start_streaming_configures (dataV4 : dataDst.ip = .v4 dataIp)
    (imuV4 : imuDst.ip = .v4 imuIp) {values : UInt16 → Option Bytes} {s : State}
    (run : ReflTransGen (Step profile addr (startStreaming dataDst imuDst dataType))
      (.init values) s) :
    (∀ bytes ∈ s.sent, AsksSampling profile bytes →
      streamSettings dataIp imuIp dataDst.port imuDst.port dataType ⊆ s.applied) ∧
    (s.phase = .returned (.ok ()) →
      ∀ t, ReflTransGen (Step profile addr (startStreaming dataDst imuDst dataType)) s t →
      ∀ item ∈ streamSettings dataIp imuIp dataDst.port imuDst.port dataType ++ [samplingSetting],
        item ∈ t.applied ∧ t.values item.1 = some item.2) := by
  have short : (startStreaming dataDst imuDst dataType).length < 2 ^ 32 :=
    show 4 < 2 ^ 32 by decide
  have asked := wire_startStreaming dataType dataV4 imuV4
  constructor
  · rintro bytes onWire ⟨g, items', parsed, decoded, asks⟩
    obtain ⟨k, items, carries, done⟩ := (inv_of_run short run).sent bytes onWire
    cases carries.parsed.symm.trans parsed
    cases carries.decoded.symm.trans decoded
    cases sampling_call carries.call asks
    have before := done.settings
    rwa [settings_before dataV4 imuV4] at before
  · intro ended t later item member
    rw [← asked] at member
    obtain ⟨items, call, wanted⟩ := List.mem_flatMap.mp member
    exact values_of_returned_ok short distinctKeys_startStreaming (run.trans later)
      (returned_run ended later) call wanted

end Streaming

theorem start_streaming_configures_reaches :
    ∃ s : State, ReflTransGen (Step .dev ⟨.v4 ⟨192, 168, 1, 100⟩, cmdPort⟩
        (startStreaming ⟨.v4 ⟨192, 168, 1, 5⟩, 56301⟩ ⟨.v4 ⟨192, 168, 1, 6⟩, 56401⟩
          .pointCloudCartesian16)) (.init fun _ => none) s ∧
      s.phase = .returned (.ok ()) ∧
      (∀ bytes ∈ s.sent, AsksSampling .dev bytes →
        streamSettings ⟨192, 168, 1, 5⟩ ⟨192, 168, 1, 6⟩ 56301 56401 .pointCloudCartesian16 ⊆
          s.applied) ∧
      ∀ item ∈ streamSettings ⟨192, 168, 1, 5⟩ ⟨192, 168, 1, 6⟩ 56301 56401
          .pointCloudCartesian16 ++ [samplingSetting],
        item ∈ s.applied ∧ s.values item.1 = some item.2 := by
  obtain ⟨s, run, ended⟩ := startStreaming_completes .dev ⟨.v4 ⟨192, 168, 1, 100⟩, cmdPort⟩
    ⟨.v4 ⟨192, 168, 1, 5⟩, 56301⟩ ⟨.v4 ⟨192, 168, 1, 6⟩, 56401⟩ .pointCloudCartesian16 fun _ => none
  obtain ⟨before, after⟩ := start_streaming_configures rfl rfl run
  exact ⟨s, run, ended, before, after ended s .refl⟩

end LivoxMid360.Control.StartStreaming
