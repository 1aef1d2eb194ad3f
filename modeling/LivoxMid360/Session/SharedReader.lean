/- digest: Any number of tasks on one live session: their calls read as one caller's would. -/

import LivoxMid360.Session.LiveReader

set_option autoImplicit false
set_option relaxedAutoImplicit false

namespace LivoxMid360.Session.SharedReader

open Foundation.RustOutcome
open Foundation.LittleEndian
open Foundation.Transition (after after_concat exists_after_eq)
open Data.Packet Data.Stream
open LiveReader (Call Reply Reader pollCall)

variable {ι : Type} [DecidableEq ι]

/-- The sockets, everything that ever arrived at them, the call that each task waits for, and
the calls that ended, with how, in the order of their ends. -/
structure Shared (ι : Type) where
  stream : DataStream
  arrived : Port → List Bytes
  active : ι → Option Call
  log : List (ι × Call × Reply)

def Shared.start : Shared ι := ⟨fun _ => ⟨[], []⟩, fun _ => [], fun _ => none, []⟩

inductive Event (ι : Type)
  | arrive (port : Port) (datagram : Bytes)
  | call (i : ι) (c : Call)
  | poll (i : ι) (turn : Turn)
  | drop (i : ι)

def Shared.next (profile : Profile) (s : Shared ι) : Event ι → Shared ι
  | .arrive port datagram =>
    { s with
      stream := Function.update s.stream port ((s.stream port).push datagram)
      arrived := Function.update s.arrived port (s.arrived port ++ [datagram]) }
  | .call i c => { s with active := Function.update s.active i (s.active i <|> some c) }
  | .drop i => { s with active := Function.update s.active i none }
  | .poll i turn =>
    match s.active i with
    | none => s
    | some c =>
      match pollCall profile turn s.stream c with
      | (.pending, stream) => { s with stream := stream }
      | (.ready reply, stream) =>
        { s with
          stream := stream
          active := Function.update s.active i none
          log := s.log ++ [(i, c, reply)] }

def run (profile : Profile) (events : List (Event ι)) : Shared ι :=
  after (Shared.next profile) .start events

def Shared.asOne (s : Shared ι) : Reader := ⟨s.stream, s.arrived, none, s.log.map Prod.snd⟩

/-- What one caller does for an event: for a poll, it makes that task's call, is polled, and
drops the call if it still waits. -/
def asOneDoes (s : Shared ι) : Event ι → List LiveReader.Event
  | .arrive port datagram => [.arrive port datagram]
  | .call _ _ => []
  | .drop _ => []
  -- the other tasks' calls wait in their tasks, not at the sockets
  | .poll i turn =>
    match s.active i with
    | none => []
    | some c => [.call c, .poll turn, .drop]

theorem asOne_next (profile : Profile) (s : Shared ι) (event : Event ι) :
    after (Reader.next profile) s.asOne (asOneDoes s event) = (s.next profile event).asOne := by
  cases event with
  | arrive port datagram => rfl
  | call i c => rfl
  | drop i => rfl
  | poll i turn =>
    rw [asOneDoes, Shared.next]
    cases s.active i with
    | none => rfl
    | some c =>
      have made : s.asOne.next profile (.call c) =
          ⟨s.stream, s.arrived, some c, s.log.map Prod.snd⟩ := rfl
      rw [after, List.foldl_cons, List.foldl_cons, List.foldl_cons, List.foldl_nil, made]
      cases polled : pollCall profile turn s.stream c with
      | mk answer stream =>
        -- a call that still waits is dropped where it is
        cases answer with
        | pending => simp only [Reader.next, polled, Shared.asOne]
        | ready reply =>
          simp only [Reader.next, polled, Shared.asOne, List.map_append, List.map_cons,
            List.map_nil]

theorem exists_one_caller (profile : Profile) (events : List (Event ι)) :
    ∃ calls, LiveReader.run profile calls = (run profile events).asOne :=
  exists_after_eq Shared.asOne (fun s event => ⟨asOneDoes s event, asOne_next profile s event⟩)
    Shared.start events

/-- Every call that ended came from at most one datagram; at each socket the datagrams taken are
those the results came from, in that order, once each; and the others still wait. -/
def Delivered (profile : Profile) (s : Shared ι) : Prop := LiveReader.Delivered profile s.asOne

def Sound (profile : Profile) (s : Shared ι) : Prop :=
  ∀ port, ∀ t ∈ (s.stream port).taken, ¬ Crashes profile port t

/-- In every run of any number of tasks on one session, whatever the interleaving of their calls
and polls, the deadlines and the calls that they drop: some sequence of calls by one caller
leaves the same sockets and the same results in the same order; and each datagram taken is the
result of exactly one call of one task, in the order of its socket, and none is lost, exactly
when no datagram taken crashes its receiver. -/
theorem tasks_share_delivery (profile : Profile) (events : List (Event ι)) :
    (∃ calls, LiveReader.run profile calls = (run profile events).asOne) ∧
      (Delivered profile (run profile events) ↔ Sound profile (run profile events)) := by
  obtain ⟨calls, same⟩ := exists_one_caller profile events
  refine ⟨⟨calls, same⟩, ?_⟩
  have sound : LiveReader.Sound profile (LiveReader.run profile calls) ↔
      Sound profile (run profile events) := by
    rw [same]
    exact Iff.rfl
  rw [← sound, Delivered, ← same]
  constructor
  · intro delivered
    exact LiveReader.sound_of_delivered delivered
  · intro clear
    exact ⟨LiveReader.accounted_run profile calls clear, LiveReader.kept_run profile calls⟩

end LivoxMid360.Session.SharedReader
